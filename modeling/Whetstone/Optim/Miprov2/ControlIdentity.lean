import Whetstone.Core.JsonEncoding
import Whetstone.Optim.Miprov2.Control

/-! The identity of a MIPROv2 control: the payload that it is hashed over, and what the payload
determines of the control. A nested record is listed as its own projection writes it. -/
namespace Whetstone.Optim.Miprov2
open Whetstone.Core Whetstone.Lib Whetstone.Experiment Whetstone.Eval
open Whetstone.Optim.Step (IdentityRef)

/-- The JSON number of a float. The text of a finite float reads back as that float. -/
class FloatJson (F : Type) [FloatOps F] where
  number : F → Json
  number_ne_null : ∀ x, number x ≠ .null
  number_inj : ∀ x y, FloatOps.isFinite x = true → FloatOps.isFinite y = true →
    number x = number y → x = y

/-- The content hash of the record of an eval config. No property is assumed. -/
class EvalConfigIdentity where
  contentHash : EvalConfig → String

def controlSchema : String := "whetstone.miprov2_optimizer_config"
def controlSchemaVersion : Nat := 8
def componentSpecSchema : String := "whetstone.miprov2_component_spec"
def componentSpecSchemaVersion : Nat := 1
def programLayoutSchema : String := "whetstone.miprov2_program_layout"
def programLayoutSchemaVersion : Nat := 1
def proposerConfigSchema : String := "whetstone.proposer_config"
def proposerConfigSchemaVersion : Nat := 1

/-! ### Nested records -/

def typedRefJson (ref : TypedRef) : Json :=
  .obj [("schema_name", .str ref.schemaName), ("content_hash", .str ref.contentHash)]

def identityRefJson (ref : IdentityRef) : Json :=
  .obj [("record_ref", typedRefJson ref.recordRef), ("record_hash", .str ref.recordHash)]

def definitionRefJson (ref : DefinitionRef) : Json :=
  .obj [("definition_id", .str ref.definitionId), ("version", .str ref.version),
    ("schema_name", .str ref.schemaName), ("identity_hash", .str ref.identityHash)]

def evalConfigJson (config : EvalConfig) : Json :=
  .obj [("definition_ref", definitionRefJson config.definitionRef),
    ("sampling_config_hash", .str config.samplingConfigHash),
    ("evaluation_procedure_config_hash", .str config.evaluationProcedureConfigHash),
    ("aggregation_config_hash", .str config.aggregationConfigHash),
    ("config_hash", .str config.configHash)]

def evalConfigRefJson [EvalConfigIdentity] (config : EvalConfig) : Json :=
  .obj [("record", evalConfigJson config),
    ("record_ref", typedRefJson ⟨schemaEvalConfig, EvalConfigIdentity.contentHash config⟩),
    ("config_hash", .str config.configHash)]

def candidateJson (candidate : Candidate) : Json :=
  .obj [("candidate_id", .str candidate.candidateId), ("base_ref", typedRefJson candidate.baseRef),
    ("payload", .obj candidate.payload)]

def candidateRefJson [CandidateIdentity] (candidate : Candidate) : Json :=
  .obj [("record", candidateJson candidate), ("record_ref", typedRefJson candidate.recordRef),
    ("identity_hash", .str candidate.identityHash)]

def templateRenderKindText : TemplateRenderKind → String
  | .pythonFormatV1 => "python_format/v1"
  | .literalReplaceV1 => "literal_replace/v1"
  | .literalBodyV1 => "literal_body/v1"

def templateRenderContractJson (contract : TemplateRenderContract) : Json :=
  .obj [("kind", .str (templateRenderKindText contract.kind)),
    ("available_fields", Json.list .str contract.availableFields),
    ("required_fields", Json.list .str contract.requiredFields)]

def evalRoleText : EvalRole → String
  | .internal => "internal"
  | .official => "official"
  | .heldOut => "held_out"

def missingDataText : MissingDataPolicy → String
  | .fail => "fail"
  | .worst => "worst"
  | .skip => "skip"

def componentSpecPayload (spec : Miprov2ComponentSpec) : Json :=
  .obj [("component_id", .str spec.componentId),
    ("prompt_format_identity_hash", .str spec.promptFormatIdentityHash)]

section Floats

variable {F : Type} [FiniteFloats F] [FloatJson F]

def finiteFloatJson (value : FiniteFloat F) : Json := FloatJson.number value.value

def rewardTermJson (term : RewardTerm F) : Json :=
  .obj [("name", .str term.name), ("weight", finiteFloatJson term.weight),
    ("maximize", .bool term.maximize), ("worst_value", finiteFloatJson term.worstValue)]

def rewardPolicyJson (policy : RewardPolicy F) : Json :=
  .obj [("policy_name", .str policy.policyName), ("reward_name", .str policy.rewardName),
    ("terms", Json.list rewardTermJson policy.terms),
    ("missing_data", .str (missingDataText policy.missingData))]

def ProposerConfig.identityPayload (config : ProposerConfig F) : Json :=
  .obj [("provider_call_config", .obj [
      ("record_ref", typedRefJson config.providerCallConfig.recordRef),
      ("identity_hash", .str config.providerCallConfig.recordHash)]),
    ("temperature", Json.nullable finiteFloatJson config.temperature)]

end Floats

section Hashes

variable [IdentityHasher]

def Miprov2ComponentSpec.identityHash (spec : Miprov2ComponentSpec) : String :=
  IdentityHasher.computeIdentityHash componentSpecSchema componentSpecSchemaVersion
    (componentSpecPayload spec)

def Miprov2ProgramLayout.identityPayload (layout : Miprov2ProgramLayout) : Json :=
  .obj [("layout_id", .str layout.layoutId),
    ("component_specs", Json.list (fun spec => .obj [("identity_hash", .str spec.identityHash),
      ("config", componentSpecPayload spec)]) layout.componentSpecs)]

def Miprov2ProgramLayout.identityHash (layout : Miprov2ProgramLayout) : String :=
  IdentityHasher.computeIdentityHash programLayoutSchema programLayoutSchemaVersion
    layout.identityPayload

def ProposerConfig.identityHash {F : Type} [FiniteFloats F] [FloatJson F]
    (config : ProposerConfig F) : String :=
  IdentityHasher.computeIdentityHash proposerConfigSchema proposerConfigSchemaVersion
    config.identityPayload

end Hashes

/-! ### The payload -/

def versionPayload (versions : ControlVersions) : List (String × Json) :=
  [("algorithm", .str "miprov2"),
    ("algorithm_version", .str versions.algorithmVersion),
    ("reference_commit", .str versions.referenceCommit),
    ("optuna_version", .str versions.optunaVersion),
    ("prompt_format_adapter_version", .str versions.promptFormatAdapterVersion),
    ("candidate_renderer_version", .str versions.candidateRendererVersion),
    ("proposer_output_parser", .obj [("schema", .str versions.proposerOutputParserSchema),
      ("schema_version", .int versions.proposerOutputParserSchemaVersion)]),
    ("phase_schema_manifest", Json.list (fun phase =>
      .obj [("schema", .str phase.1), ("schema_version", .int phase.2)])
      versions.phaseSchemaManifest),
    ("state_schema", .obj [("schema", .str versions.stateSchema),
      ("schema_version", .int versions.stateSchemaVersion)]),
    ("result_schema", .obj [("schema", .str versions.resultSchema),
      ("schema_version", .int versions.resultSchemaVersion)])]

def programPayload [IdentityHasher] [CandidateIdentity] (program : ControlProgram) :
    List (String × Json) :=
  [("base_candidate", candidateRefJson program.baseCandidate),
    ("teacher_candidate", candidateRefJson program.teacherCandidate),
    ("teacher_compiled", .bool program.teacherCompiled),
    ("program_layout", .obj [("identity_hash", .str program.programLayout.identityHash),
      ("config", program.programLayout.identityPayload)]),
    ("source_trainset_task_hashes", Json.list .str program.sourceTrainsetTaskHashes),
    ("source_valset_task_hashes",
      Json.nullable (Json.list .str) program.sourceValsetTaskHashes),
    ("trainset_task_hashes", Json.list .str program.trainsetTaskHashes),
    ("valset_task_hashes", Json.list .str program.valsetTaskHashes),
    ("auto_validation_sample_indices",
      Json.nullable (Json.list .int) program.autoValidationSampleIndices)]

def searchPayload (search : ControlSearch) : List (String × Json) :=
  [("teacher_settings", .obj search.teacherSettings),
    ("max_bootstrapped_demos", .int search.maxBootstrappedDemos),
    ("max_labeled_demos", .int search.maxLabeledDemos),
    ("auto", Json.nullable (fun auto => .str auto.value) search.auto),
    ("num_candidates", Json.nullable .int search.numCandidates),
    ("num_instruct_candidates", .int search.numInstructCandidates),
    ("num_fewshot_candidates", .int search.numFewshotCandidates),
    ("num_trials", .int search.numTrials),
    ("max_errors", .int search.maxErrors),
    ("seed", .int search.seed),
    ("num_seeds", .int search.numSeeds)]

section Payload

variable {F : Type} [FiniteFloats F] [FloatJson F]

def settingsPayload (settings : ControlSettings F) : List (String × Json) :=
  [("init_temperature", FloatJson.number settings.initTemperature),
    ("verbose", .bool settings.verbose),
    ("track_stats", .bool settings.trackStats),
    ("log_dir", Json.nullable .str settings.logDir),
    ("metric_threshold", Json.nullable FloatJson.number settings.metricThreshold),
    ("minibatch", .bool settings.minibatch),
    ("minibatch_size", .int settings.minibatchSize),
    ("minibatch_full_eval_steps", .int settings.minibatchFullEvalSteps),
    ("program_aware_proposer", .bool settings.programAwareProposer),
    ("data_aware_proposer", .bool settings.dataAwareProposer),
    ("view_data_batch_size", .int settings.viewDataBatchSize),
    ("tip_aware_proposer", .bool settings.tipAwareProposer),
    ("fewshot_aware_proposer", .bool settings.fewshotAwareProposer),
    ("provide_traceback", Json.nullable .bool settings.provideTraceback),
    ("demo_mode", .str settings.demoMode.value)]

variable [IdentityHasher] [EvalConfigIdentity]

/- The field that the run mutates is not listed. -/
def bindingPayload (bindings : ControlBindings F) : List (String × Json) :=
  [("prompt_model", .obj [("identity_hash", .str bindings.promptModel.identityHash),
      ("config", bindings.promptModel.identityPayload)]),
    ("bootstrap_eval_source", evalConfigRefJson bindings.bootstrapEvalSource),
    ("validation_eval_source", evalConfigRefJson bindings.validationEvalSource),
    ("reward_policy", rewardPolicyJson bindings.rewardPolicy),
    ("eval_role", .str (evalRoleText bindings.evalRole)),
    ("provider_execution_policy_ref",
      Json.nullable identityRefJson bindings.providerExecutionPolicyRef),
    ("provider_execution_policy_hash", .str bindings.providerExecutionPolicyHash),
    ("task_model_identity_hash", .str bindings.taskModelIdentityHash),
    ("prompt_adapter_identity_hash", .str bindings.promptAdapterIdentityHash),
    ("template_render_contract", templateRenderContractJson bindings.templateRenderContract),
    ("metric_authority", .str bindings.metricAuthority.value)]

variable [CandidateIdentity]

def ControlFields.identityPayload (control : ControlFields F) : Json :=
  .obj (versionPayload control.toControlVersions ++ programPayload control.toControlProgram ++
    bindingPayload control.toControlBindings ++ searchPayload control.toControlSearch ++
    settingsPayload control.toControlSettings)

def ControlFields.identityHash (control : ControlFields F) : String :=
  IdentityHasher.computeIdentityHash controlSchema controlSchemaVersion control.identityPayload

def ControlFields.requireIdentityHash (control : ControlFields F) (persistedHash : String) :
    Except String Unit := do
  requireFullHash persistedHash "optimizer_config_hash"
  raiseIf (persistedHash ≠ control.identityHash)
    "optimizer_config_hash conflicts with resolved MIPROv2 control"

end Payload

/-! ### What the payload determines -/

theorem typedRefJson_encodes : Json.Encodes typedRefJson := by
  refine Json.encodes_obj fun a b h => ?_
  cases a
  cases b
  simpa using h

theorem identityRefJson_encodes : Json.Encodes identityRefJson := by
  refine Json.encodes_obj fun a b h => ?_
  cases a
  cases b
  simpa [typedRefJson_encodes.injective.eq_iff] using h

theorem evalConfigJson_encodes : Json.Encodes evalConfigJson := by
  refine Json.encodes_obj fun a b h => ?_
  obtain ⟨⟨_,_,_,_⟩,_,_,_,_⟩ := a
  obtain ⟨⟨_,_,_,_⟩,_,_,_,_⟩ := b
  simpa [definitionRefJson] using h

theorem evalConfigRefJson_encodes [EvalConfigIdentity] : Json.Encodes evalConfigRefJson := by
  refine Json.encodes_obj fun a b h => ?_
  simp only [List.cons.injEq, Prod.mk.injEq, true_and] at h
  exact evalConfigJson_encodes.injective h.1

theorem candidateJson_encodes : Json.Encodes candidateJson := by
  refine Json.encodes_obj fun a b h => ?_
  cases a
  cases b
  simpa [typedRefJson_encodes.injective.eq_iff] using h

theorem candidateRefJson_encodes [CandidateIdentity] : Json.Encodes candidateRefJson := by
  refine Json.encodes_obj fun a b h => ?_
  simp only [List.cons.injEq, Prod.mk.injEq, true_and] at h
  exact candidateJson_encodes.injective h.1

theorem templateRenderKindText_injective : Function.Injective templateRenderKindText := by
  intro a b h
  cases a <;> cases b <;> simp_all [templateRenderKindText]

theorem templateRenderContractJson_encodes : Json.Encodes templateRenderContractJson := by
  refine Json.encodes_obj fun a b h => ?_
  cases a
  cases b
  simpa [Json.encodes_str.list.injective.eq_iff, templateRenderKindText_injective.eq_iff] using h

theorem componentSpecPayload_encodes : Json.Encodes componentSpecPayload := by
  refine Json.encodes_obj fun a b h => ?_
  cases a
  cases b
  simpa using h

theorem evalRoleText_injective : Function.Injective evalRoleText := by
  intro a b h
  cases a <;> cases b <;> simp_all [evalRoleText]

theorem missingDataText_injective : Function.Injective missingDataText := by
  intro a b h
  cases a <;> cases b <;> simp_all [missingDataText]

theorem metricAuthority_value_injective : Function.Injective MetricAuthority.value := by
  intro a b h
  cases a <;> cases b <;> simp_all [MetricAuthority.value]

theorem autoMode_value_injective : Function.Injective Miprov2AutoMode.value := by
  intro a b h
  cases a <;> cases b <;> simp_all [Miprov2AutoMode.value]

theorem demoMode_value_injective : Function.Injective Miprov2DemoMode.value := by
  intro a b h
  cases a <;> cases b <;> simp_all [Miprov2DemoMode.value]

theorem layoutPayload_injective [IdentityHasher] :
    Function.Injective Miprov2ProgramLayout.identityPayload := by
  have hspec : Json.Encodes fun spec : Miprov2ComponentSpec =>
      .obj [("identity_hash", .str spec.identityHash), ("config", componentSpecPayload spec)] := by
    refine Json.encodes_obj fun a b h => ?_
    simp only [List.cons.injEq, Prod.mk.injEq, true_and, and_true] at h
    exact componentSpecPayload_encodes.injective h.2
  intro a b h
  cases a
  cases b
  simpa [Miprov2ProgramLayout.identityPayload, hspec.list.injective.eq_iff] using h

section Floats

variable {F : Type} [FiniteFloats F] [FloatJson F]

theorem finiteFloatJson_encodes : Json.Encodes (finiteFloatJson (F := F)) := by
  constructor
  · intro a b h
    obtain ⟨x,hx⟩ := a
    obtain ⟨y,hy⟩ := b
    have hxy : x = y := FloatJson.number_inj x y hx hy h
    subst hxy
    rfl
  · exact fun a => FloatJson.number_ne_null a.value

theorem rewardTermJson_encodes : Json.Encodes (rewardTermJson (F := F)) := by
  refine Json.encodes_obj fun a b h => ?_
  cases a
  cases b
  simpa [finiteFloatJson_encodes.injective.eq_iff] using h

theorem rewardPolicyJson_encodes : Json.Encodes (rewardPolicyJson (F := F)) := by
  refine Json.encodes_obj fun a b h => ?_
  cases a
  cases b
  simpa [rewardTermJson_encodes.list.injective.eq_iff, missingDataText_injective.eq_iff] using h

theorem proposerConfigPayload_injective :
    Function.Injective (ProposerConfig.identityPayload (F := F)) := by
  intro a b h
  obtain ⟨⟨_,_⟩,_⟩ := a
  obtain ⟨⟨_,_⟩,_⟩ := b
  simpa [ProposerConfig.identityPayload, typedRefJson_encodes.injective.eq_iff,
    finiteFloatJson_encodes.nullable.eq_iff] using h

end Floats

theorem versionPayload_injective : Function.Injective versionPayload := by
  have hphase : Json.Encodes fun phase : String × Int =>
      .obj [("schema", .str phase.1), ("schema_version", .int phase.2)] := by
    refine Json.encodes_obj fun a b h => ?_
    simpa [Prod.ext_iff] using h
  intro a b h
  cases a
  cases b
  simpa [versionPayload, hphase.list.injective.eq_iff, and_assoc] using h

theorem programPayload_injective [IdentityHasher] [CandidateIdentity] :
    Function.Injective programPayload := by
  intro a b h
  cases a
  cases b
  simp only [programPayload, List.cons.injEq, Prod.mk.injEq, true_and, and_true,
    candidateRefJson_encodes.injective.eq_iff, Json.bool.injEq, Json.obj.injEq,
    layoutPayload_injective.eq_iff, Json.encodes_str.list.injective.eq_iff,
    Json.encodes_str.list.nullable.eq_iff, Json.encodes_int.list.nullable.eq_iff] at h
  obtain ⟨hbase,hteacher,hcompiled,⟨_,hlayout⟩,htrain,hval,htrainset,hvalset,hindices⟩ := h
  rw [hbase, hteacher, hcompiled, hlayout, htrain, hval, htrainset, hvalset, hindices]

theorem searchPayload_injective : Function.Injective searchPayload := by
  intro a b h
  cases a
  cases b
  simpa [searchPayload, (Json.encodes_str.comp autoMode_value_injective).nullable.eq_iff,
    Json.encodes_int.nullable.eq_iff] using h

section Payload

variable {F : Type} [FiniteFloats F] [FloatJson F]

/- The settings of a control whose temperature and threshold are finite. -/
theorem settingsPayload_eq {a b : ControlSettings F}
    (ha : FloatOps.isFinite a.initTemperature = true ∧
      ∀ x, a.metricThreshold = some x → FloatOps.isFinite x = true)
    (hb : FloatOps.isFinite b.initTemperature = true ∧
      ∀ x, b.metricThreshold = some x → FloatOps.isFinite x = true)
    (h : settingsPayload a = settingsPayload b) : a = b := by
  simp only [settingsPayload, List.cons.injEq, Prod.mk.injEq, true_and, and_true, Json.bool.injEq,
    Json.int.injEq, Json.str.injEq, Json.encodes_str.nullable.eq_iff,
    Json.encodes_bool.nullable.eq_iff, demoMode_value_injective.eq_iff] at h
  obtain ⟨htemperature,hverbose,hstats,hlog,hmetric,hminibatch,hsize,hsteps,hprogram,hdata,hview,
    htip,hfewshot,htraceback,hdemo⟩ := h
  have htemperature := FloatJson.number_inj _ _ ha.1 hb.1 htemperature
  have hmetric := Json.nullable_inj FloatJson.number_inj FloatJson.number_ne_null ha.2 hb.2 hmetric
  exact ControlSettings.ext htemperature hverbose hstats hlog hmetric hminibatch hsize hsteps
    hprogram hdata hview htip hfewshot htraceback hdemo

variable [IdentityHasher] [EvalConfigIdentity]

/- Two bindings with one payload are equal but for the mutation field. -/
theorem bindingPayload_eq_iff (a b : ControlBindings F) :
    bindingPayload a = bindingPayload b ↔ { a with mutationField := b.mutationField } = b := by
  constructor
  · intro h
    cases a
    cases b
    simp only [bindingPayload, List.cons.injEq, Prod.mk.injEq, true_and, and_true, Json.obj.injEq,
      Json.str.injEq, proposerConfigPayload_injective.eq_iff,
      evalConfigRefJson_encodes.injective.eq_iff, rewardPolicyJson_encodes.injective.eq_iff,
      evalRoleText_injective.eq_iff, identityRefJson_encodes.nullable.eq_iff,
      templateRenderContractJson_encodes.injective.eq_iff,
      metricAuthority_value_injective.eq_iff] at h
    obtain ⟨⟨_,hmodel⟩,hboot,hval,hreward,hrole,hpolicy,hhash,htask,hadapter,hcontract,hmetric⟩ := h
    rw [hmodel, hboot, hval, hreward, hrole, hpolicy, hhash, htask, hadapter, hcontract, hmetric]
  · intro h
    rw [← h]
    rfl

/-- The controls agree in every field but the mutation field, in which they differ. -/
def DifferInMutationField (a b : ControlFields F) : Prop :=
  a.mutationField ≠ b.mutationField ∧ { a with mutationField := b.mutationField } = b

variable [CandidateIdentity] [PyIdentifiers] [RandomSample]

omit [FloatJson F] [IdentityHasher] [EvalConfigIdentity] [CandidateIdentity] in
theorem Miprov2Control.settings_finite (control : Miprov2Control F) :
    FloatOps.isFinite control.initTemperature = true ∧
      ∀ x, control.metricThreshold = some x → FloatOps.isFinite x = true := by
  obtain ⟨_,_,_,_,_,_,_,_,htemperature,hthreshold,_⟩ :=
    (numericControls_eq_ok _).mp (ControlFields.checked control.valid).numeric
  exact ⟨htemperature, hthreshold⟩

/-- The payloads of valid controls determine every field but the mutation field. -/
theorem identityPayload_eq_iff (a b : Miprov2Control F) :
    a.identityPayload = b.identityPayload ↔
      { a.toControlFields with mutationField := b.mutationField } = b.toControlFields := by
  constructor
  · intro h
    simp only [ControlFields.identityPayload, Json.obj.injEq, List.append_assoc] at h
    obtain ⟨hversions,h⟩ := List.append_inj h rfl
    obtain ⟨hprogram,h⟩ := List.append_inj h rfl
    obtain ⟨hbindings,h⟩ := List.append_inj h rfl
    obtain ⟨hsearch,hsettings⟩ := List.append_inj h rfl
    have hversions := versionPayload_injective hversions
    have hprogram := programPayload_injective hprogram
    have hbindings := (bindingPayload_eq_iff _ _).mp hbindings
    have hsearch := searchPayload_injective hsearch
    have hsettings := settingsPayload_eq a.settings_finite b.settings_finite hsettings
    obtain ⟨⟨_,_,_,_,_⟩,_⟩ := a
    obtain ⟨⟨_,_,_,_,_⟩,_⟩ := b
    dsimp only at hversions hprogram hbindings hsearch hsettings ⊢
    rw [hversions, hprogram, hsearch, hsettings, ← hbindings]
  · intro h
    rw [← h]
    rfl

/-- Equal hashes of valid controls mean equal controls exactly when the two do not differ in the
mutation field alone, as far as the hash does not collide on their payloads. -/
theorem identityHash_covers (a b : Miprov2Control F)
    (hinj : a.identityHash = b.identityHash → a.identityPayload = b.identityPayload) :
    ((a.identityHash = b.identityHash → a.toControlFields = b.toControlFields) ↔
        ¬ DifferInMutationField a.toControlFields b.toControlFields) ∧
      (¬ DifferInMutationField a.toControlFields b.toControlFields →
        b.requireIdentityHash a.identityHash = .ok () →
          a.toControlFields = b.toControlFields) := by
  have hsame : a.identityHash = b.identityHash ↔
      { a.toControlFields with mutationField := b.mutationField } = b.toControlFields :=
    ⟨fun h => (identityPayload_eq_iff a b).mp (hinj h), fun h =>
      congrArg (IdentityHasher.computeIdentityHash controlSchema controlSchemaVersion)
        ((identityPayload_eq_iff a b).mpr h)⟩
  have hcovers : (a.identityHash = b.identityHash → a.toControlFields = b.toControlFields) ↔
      ¬ DifferInMutationField a.toControlFields b.toControlFields := by
    rw [hsame]
    constructor
    · rintro h ⟨hne,hrest⟩
      exact hne (congrArg (fun control => control.mutationField) (h hrest))
    · intro h hrest
      by_cases hfield : a.mutationField = b.mutationField
      · rw [← hrest, ← hfield]
      · exact absurd ⟨hfield, hrest⟩ h
  refine ⟨hcovers, fun h hok => hcovers.mpr h ?_⟩
  rw [ControlFields.requireIdentityHash, check_bind_eq_ok, raiseIf_eq_ok, not_not] at hok
  exact hok.2

end Payload

/-! ### Two controls that mutate different fields of one candidate -/

section Example

def digestOf (c : Char) : String := String.ofList (List.replicate 64 c)

@[reducible] def namedFields : PyIdentifiers := ⟨fun name => name ≠ ""⟩

@[reducible] def namedPrograms : CandidateIdentity :=
  ⟨fun candidate => candidate.candidateId, fun candidate => candidate.candidateId⟩

@[reducible] def hashedConfigs : EvalConfigIdentity := ⟨fun config => config.configHash⟩

@[reducible] def exactNumbers : @FloatJson Rat exactFloats :=
  @FloatJson.mk Rat exactFloats Json.float (fun _ h => by cases h) fun _ _ _ _ h => by
    simpa using h

@[reducible] def firstIndices : RandomSample := ⟨Unit, fun _ => (), fun _ _ count =>
  (List.range count, ()), fun _ _ _ _ => List.length_range⟩

/- Tells payloads with the seed 3 from the others. -/
@[reducible] def seedHasher : IdentityHasher where
  computeIdentityHash := fun _ _ payload => match payload with
    | .obj fields =>
      if fields.lookup "seed" = some (.int 3) then digestOf 'a' else digestOf 'b'
    | _ => digestOf 'c'

attribute [local instance] exactFiniteFloats namedFields namedPrograms hashedConfigs exactNumbers
  firstIndices seedHasher

def sampleSpec : Miprov2ComponentSpec := ⟨"generate", digestOf 'c', by decide +kernel⟩

def sampleLayout : Miprov2ProgramLayout := ⟨"canonical-mutation-surface", [sampleSpec], rfl⟩

def samplePolicy : RewardPolicy Rat where
  policyName := "accuracy"
  rewardName := "reward"
  terms := [⟨"score", exactFinite 1, true, exactFinite 0⟩]
  missingData := .fail
  valid := by decide

/- Both fields of the candidate are templates. -/
def sampleCandidate : Candidate :=
  ⟨"launch", ⟨"whetstone.optim_candidate", digestOf 'd'⟩,
    [("system_prompt", .str "Answer."), ("user_prompt_template", .str "Solve the task.")]⟩

def sampleEvalSource : EvalConfig :=
  ⟨⟨"eval", "1", schemaEvalDefinition, digestOf 'e'⟩, digestOf 'e', digestOf 'e', digestOf 'e',
    digestOf 'e'⟩

def sampleControl (mutationField : String) (seed : Int) : ControlFields Rat where
  toControlProgram :=
    { baseCandidate := sampleCandidate, teacherCandidate := sampleCandidate
      teacherCompiled := false, programLayout := sampleLayout
      sourceTrainsetTaskHashes := [digestOf '1'], sourceValsetTaskHashes := some [digestOf '2']
      trainsetTaskHashes := [digestOf '1'], valsetTaskHashes := [digestOf '2']
      autoValidationSampleIndices := none }
  toControlBindings :=
    { promptModel := ⟨⟨⟨"provider_call_config", digestOf 'f'⟩, digestOf 'f'⟩, some (exactFinite 1)⟩
      bootstrapEvalSource := sampleEvalSource, validationEvalSource := sampleEvalSource
      rewardPolicy := samplePolicy, evalRole := .internal, providerExecutionPolicyRef := none
      providerExecutionPolicyHash := digestOf 'a', taskModelIdentityHash := digestOf 'b'
      promptAdapterIdentityHash := digestOf 'c'
      templateRenderContract := ⟨.literalBodyV1, [], []⟩, mutationField := mutationField
      metricAuthority := .explicit }
  toControlSearch :=
    { teacherSettings := [], maxBootstrappedDemos := 0, maxLabeledDemos := 0, auto := none
      numCandidates := some 2, numInstructCandidates := 2, numFewshotCandidates := 2
      numTrials := 1, maxErrors := 1, seed := seed, numSeeds := 1 }
  toControlSettings :=
    { initTemperature := 1, verbose := false, trackStats := true, logDir := none
      metricThreshold := none, minibatch := false, minibatchSize := 35
      minibatchFullEvalSteps := 5, programAwareProposer := true, dataAwareProposer := true
      viewDataBatchSize := 10, tipAwareProposer := true, fewshotAwareProposer := true
      provideTraceback := none, demoMode := .zeroshot }
  toControlVersions := fixedVersions

def userControl : Miprov2Control Rat :=
  ⟨sampleControl "user_prompt_template" 3, by decide +kernel⟩

def systemControl : Miprov2Control Rat := ⟨sampleControl "system_prompt" 3, by decide +kernel⟩

def reseededControl : Miprov2Control Rat :=
  ⟨sampleControl "user_prompt_template" 4, by decide +kernel⟩

/-- Controls that mutate different fields have one hash, and each accepts the other's. -/
theorem mutation_field_shares_hash :
    userControl.identityHash = systemControl.identityHash ∧
      systemControl.requireIdentityHash userControl.identityHash = .ok () ∧
      userControl.toControlFields ≠ systemControl.toControlFields := by
  have hsame : userControl.identityHash = systemControl.identityHash := rfl
  have hfull : requireFullHash userControl.identityHash "optimizer_config_hash" = .ok () := by
    decide +kernel
  refine ⟨hsame, ?_, fun h => ?_⟩
  · rw [ControlFields.requireIdentityHash, hfull, ok_bind, raiseIf_eq_ok, not_not]
    exact hsame
  · have hfield := congrArg (fun control => control.mutationField) h
    revert hfield
    decide

/-- A control with another seed has another hash; one with another field is mistaken for it. -/
theorem identityHash_covers_sample :
    (userControl.identityHash = reseededControl.identityHash →
        userControl.toControlFields = reseededControl.toControlFields) ∧
      ¬ (userControl.identityHash = systemControl.identityHash →
        userControl.toControlFields = systemControl.toControlFields) := by
  have hne : userControl.identityHash ≠ reseededControl.identityHash := by decide +kernel
  have hdiffer : DifferInMutationField userControl.toControlFields
      systemControl.toControlFields := ⟨by decide, rfl⟩
  have hseeds := identityHash_covers userControl reseededControl fun h => absurd h hne
  have hfields := identityHash_covers userControl systemControl fun _ => rfl
  exact ⟨hseeds.1.mpr fun h => h.1 rfl, fun h => hfields.1.mp h hdiffer⟩

end Example

end Whetstone.Optim.Miprov2
