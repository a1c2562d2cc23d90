import Whetstone.Eval.Config
import Whetstone.Optim.StepContracts
import Whetstone.Optim.StudyTranscript
import Mathlib.Algebra.Group.Nat.Defs

/-! The resolved control of a MIPROv2 run and its validation. The candidates and eval sources
stand for the references that address them. A validated control carries its validation. -/
namespace Whetstone.Optim.Miprov2
open Whetstone.Core Whetstone.Lib Whetstone.Experiment Whetstone.Eval
open Whetstone.Optim.Step (IdentityRef)

def algorithmVersion : String := "dspy_miprov2/v2"
def referenceCommit : String := "6f68dcdb3ef46d70bf0c12596699ebc44e82d6b0"
def optunaVersion : String := "4.8.0"
def promptFormatAdapterVersion : String := "whetstone_prompt_components/v1"
def candidateRendererVersion : String := "whetstone_native_prompt_components/v1"
def proposerOutputParserSchema : String := "whetstone.miprov2.proposer_output_parser"
def proposerOutputParserSchemaVersion : Int := 1
def stateSchema : String := "whetstone.miprov2_runtime"
def stateSchemaVersion : Int := 4
def resultSchema : String := "whetstone.miprov2_result"
def resultSchemaVersion : Int := 1

def phaseSchemaManifest : List (String × Int) :=
  [("whetstone.miprov2_grounded_proposal", 2),
    ("miprov2-dataset-initial/v1", 1),
    ("miprov2-dataset-followup/v1", 1),
    ("miprov2-dataset-final/v1", 1),
    ("miprov2-program-description/v1", 1),
    ("miprov2-component-description/v1", 1),
    ("miprov2-instruction-proposal/v1", 1),
    ("whetstone.miprov2_bootstrap_plan", 1),
    ("whetstone.miprov2_bootstrap_attempt", 1),
    ("dspy_example_pickle_protocol4_cpython/v1", 1),
    ("whetstone.miprov2_component_demo_set", 1),
    ("whetstone.miprov2_candidate_rendering", 1),
    ("whetstone.miprov2_candidate_program", 1),
    ("whetstone.miprov2_candidate_assembly", 4),
    ("whetstone.miprov2_evaluation_execution_policy", 1),
    ("whetstone.miprov2_eval_binding_request", 1),
    ("whetstone.miprov2_eval_binding", 1),
    ("whetstone.miprov2_intent_context", 2),
    ("whetstone.miprov2_study_transcript", 6)]

inductive Miprov2AutoMode where
  | light
  | medium
  | heavy
deriving DecidableEq, Inhabited

def Miprov2AutoMode.value : Miprov2AutoMode → String
  | .light => "light"
  | .medium => "medium"
  | .heavy => "heavy"

/- `_AUTO_RUN_SETTINGS`: the number of candidates and the size of the validation sample. -/
def autoRunSettings : Miprov2AutoMode → Nat × Nat
  | .light => (6, 100)
  | .medium => (12, 300)
  | .heavy => (18, 1000)

def minMinibatchSize : Nat := 50

inductive MetricAuthority where
  | explicit
  | injectedDefault
deriving DecidableEq, Inhabited

def MetricAuthority.value : MetricAuthority → String
  | .explicit => "explicit"
  | .injectedDefault => "injected_default"

/-- `random.Random(seed)` and its `sample` of a range, which has the length that is asked for. -/
class RandomSample where
  Rng : Type
  seeded : Int → Rng
  sample : Rng → (population count : Nat) → List Nat × Rng
  length_sample : ∀ rng population count, count ≤ population →
    (sample rng population count).1.length = count

def sampleRange [RandomSample] (rng : RandomSample.Rng) (population count : Nat) :
    Except String (List Nat × RandomSample.Rng) := do
  raiseIf (population < count) "Sample larger than population or is negative"
  return RandomSample.sample rng population count

theorem sampleRange_length [RandomSample] {rng : RandomSample.Rng} {population count : Nat}
    {sampled : List Nat × RandomSample.Rng} (h : sampleRange rng population count = .ok sampled) :
    sampled.1.length = count := by
  simp only [sampleRange, raiseIf_bind_eq_ok, pure, Except.pure, Except.ok.injEq, not_lt] at h
  rw [← h.2]
  exact RandomSample.length_sample rng population count (by omega)

/-! ### The program layout -/

def validateComponent (componentId promptFormatIdentityHash : String) : Except String Unit := do
  raiseIf (componentId = "") "Whetstone safety: component_id must be non-empty"
  requireFullHash promptFormatIdentityHash "prompt_format_identity_hash"

structure Miprov2ComponentSpec where
  componentId : String
  promptFormatIdentityHash : String
  valid : validateComponent componentId promptFormatIdentityHash = .ok ()
deriving DecidableEq

def Miprov2ComponentSpec.create (componentId promptFormatIdentityHash : String) :
    Except String Miprov2ComponentSpec :=
  match h : validateComponent componentId promptFormatIdentityHash with
  | .ok () => .ok ⟨componentId, promptFormatIdentityHash, h⟩
  | .error message => .error message

def validateLayout (layoutId : String) (componentIds : List String) : Except String Unit := do
  raiseIf (layoutId = "") "Whetstone safety: layout_id must be non-empty"
  raiseIf (componentIds.length ≠ 1) "MIPROv2 requires exactly one optimizable component"
  raiseIf (¬ componentIds.Nodup) "Whetstone safety: component_ids must be unique"
  raiseIf (componentIds.head? ∉ [some "generate", some "encode"])
    "MIPROv2 requires exactly one optimizable component (generate or encode)"

structure Miprov2ProgramLayout where
  layoutId : String
  componentSpecs : List Miprov2ComponentSpec
  valid : validateLayout layoutId (componentSpecs.map Miprov2ComponentSpec.componentId) = .ok ()
deriving DecidableEq

def Miprov2ProgramLayout.create (layoutId : String) (componentSpecs : List Miprov2ComponentSpec) :
    Except String Miprov2ProgramLayout :=
  match h : validateLayout layoutId (componentSpecs.map Miprov2ComponentSpec.componentId) with
  | .ok () => .ok ⟨layoutId, componentSpecs, h⟩
  | .error message => .error message

/-! ### The control record -/

structure ControlVersions where
  algorithmVersion : String
  referenceCommit : String
  optunaVersion : String
  promptFormatAdapterVersion : String
  candidateRendererVersion : String
  proposerOutputParserSchema : String
  proposerOutputParserSchemaVersion : Int
  phaseSchemaManifest : List (String × Int)
  stateSchema : String
  stateSchemaVersion : Int
  resultSchema : String
  resultSchemaVersion : Int
deriving DecidableEq, Inhabited

def fixedVersions : ControlVersions :=
  { algorithmVersion := Miprov2.algorithmVersion
    referenceCommit := Miprov2.referenceCommit
    optunaVersion := Miprov2.optunaVersion
    promptFormatAdapterVersion := Miprov2.promptFormatAdapterVersion
    candidateRendererVersion := Miprov2.candidateRendererVersion
    proposerOutputParserSchema := Miprov2.proposerOutputParserSchema
    proposerOutputParserSchemaVersion := Miprov2.proposerOutputParserSchemaVersion
    phaseSchemaManifest := Miprov2.phaseSchemaManifest
    stateSchema := Miprov2.stateSchema
    stateSchemaVersion := Miprov2.stateSchemaVersion
    resultSchema := Miprov2.resultSchema
    resultSchemaVersion := Miprov2.resultSchemaVersion }

structure ControlProgram where
  baseCandidate : Candidate
  teacherCandidate : Candidate
  teacherCompiled : Bool
  programLayout : Miprov2ProgramLayout
  sourceTrainsetTaskHashes : List String
  sourceValsetTaskHashes : Option (List String)
  trainsetTaskHashes : List String
  valsetTaskHashes : List String
  autoValidationSampleIndices : Option (List Int)
deriving DecidableEq

structure ProposerConfig (F : Type) [FiniteFloats F] where
  providerCallConfig : IdentityRef
  temperature : Option (FiniteFloat F)
deriving DecidableEq

structure ControlBindings (F : Type) [FiniteFloats F] where
  promptModel : ProposerConfig F
  bootstrapEvalSource : EvalConfig
  validationEvalSource : EvalConfig
  rewardPolicy : RewardPolicy F
  evalRole : EvalRole
  providerExecutionPolicyRef : Option IdentityRef
  providerExecutionPolicyHash : String
  taskModelIdentityHash : String
  promptAdapterIdentityHash : String
  templateRenderContract : TemplateRenderContract
  mutationField : String
  metricAuthority : MetricAuthority
deriving DecidableEq

structure ControlSearch where
  teacherSettings : List (String × Json)
  maxBootstrappedDemos : Int
  maxLabeledDemos : Int
  auto : Option Miprov2AutoMode
  numCandidates : Option Int
  numInstructCandidates : Int
  numFewshotCandidates : Int
  numTrials : Int
  maxErrors : Int
  seed : Int
  numSeeds : Int
deriving DecidableEq

@[ext] structure ControlSettings (F : Type) where
  initTemperature : F
  verbose : Bool
  trackStats : Bool
  logDir : Option String
  metricThreshold : Option F
  minibatch : Bool
  minibatchSize : Int
  minibatchFullEvalSteps : Int
  programAwareProposer : Bool
  dataAwareProposer : Bool
  viewDataBatchSize : Int
  tipAwareProposer : Bool
  fewshotAwareProposer : Bool
  provideTraceback : Option Bool
  demoMode : Miprov2DemoMode
deriving DecidableEq

structure ControlFields (F : Type) [FiniteFloats F] extends ControlProgram, ControlBindings F,
    ControlSearch, ControlSettings F, ControlVersions
deriving DecidableEq

/-! ### Numeric controls -/

def requirePositiveInt (value : Int) (field : String) : Except String Unit :=
  raiseIf (value ≤ 0) ("Whetstone safety: " ++ field ++ " must be positive")

def requireNonnegativeInt (value : Int) (field : String) : Except String Unit :=
  raiseIf (value < 0) ("Whetstone safety: " ++ field ++ " must be nonnegative")

variable {F : Type} [FiniteFloats F]

def ControlFields.zeroshotOpt (control : ControlFields F) : Bool := control.demoMode = .zeroshot

def requireFinite (value : F) (field : String) : Except String Unit :=
  raiseIf (FloatOps.isFinite value = false) ("Whetstone safety: " ++ field ++ " must be finite")

def validateResolvedNumericControls (control : ControlFields F) : Except String Unit := do
  requireNonnegativeInt control.maxBootstrappedDemos "max_bootstrapped_demos"
  requireNonnegativeInt control.maxLabeledDemos "max_labeled_demos"
  control.numCandidates.forM (requirePositiveInt · "num_candidates")
  requirePositiveInt control.numInstructCandidates "num_instruct_candidates"
  requirePositiveInt control.numFewshotCandidates "num_fewshot_candidates"
  requirePositiveInt control.numTrials "num_trials"
  requirePositiveInt control.maxErrors "max_errors"
  requirePositiveInt control.numSeeds "num_seeds"
  requireFinite control.initTemperature "init_temperature"
  control.metricThreshold.forM (requireFinite · "metric_threshold")
  requirePositiveInt control.minibatchSize "minibatch_size"
  requirePositiveInt control.minibatchFullEvalSteps "minibatch_full_eval_steps"
  requirePositiveInt control.viewDataBatchSize "view_data_batch_size"

theorem requirePositiveInt_eq_ok (value : Int) (field : String) :
    requirePositiveInt value field = .ok () ↔ 0 < value := by
  rw [requirePositiveInt, raiseIf_eq_ok, Int.not_le]

theorem requireNonnegativeInt_eq_ok (value : Int) (field : String) :
    requireNonnegativeInt value field = .ok () ↔ 0 ≤ value := by
  rw [requireNonnegativeInt, raiseIf_eq_ok, Int.not_lt]

theorem requireFinite_eq_ok (value : F) (field : String) :
    requireFinite value field = .ok () ↔ FloatOps.isFinite value = true := by
  rw [requireFinite, raiseIf_eq_ok, Bool.not_eq_false]

theorem numericControls_eq_ok (control : ControlFields F) :
    validateResolvedNumericControls control = .ok () ↔
      0 ≤ control.maxBootstrappedDemos ∧ 0 ≤ control.maxLabeledDemos ∧
      (∀ n, control.numCandidates = some n → 0 < n) ∧ 0 < control.numInstructCandidates ∧
      0 < control.numFewshotCandidates ∧ 0 < control.numTrials ∧ 0 < control.maxErrors ∧
      0 < control.numSeeds ∧ FloatOps.isFinite control.initTemperature = true ∧
      (∀ x, control.metricThreshold = some x → FloatOps.isFinite x = true) ∧
      0 < control.minibatchSize ∧ 0 < control.minibatchFullEvalSteps ∧
      0 < control.viewDataBatchSize := by
  simp only [validateResolvedNumericControls, check_bind_eq_ok, optionForM_eq_ok,
    requirePositiveInt_eq_ok, requireNonnegativeInt_eq_ok, requireFinite_eq_ok]

/-! ### Teacher settings -/

/- `math.isfinite` of an integer, which is first rounded to a float. -/
def finiteNumber : Json → Except String Unit
  | .int n => raiseIf (2 ^ 1024 - 2 ^ 970 ≤ n.natAbs) "int too large to convert to float"
  | .float _ => .ok ()
  | _ => .error "Whetstone safety: teacher_settings.temperature must be finite"

def positiveNumber : Json → Except String Unit
  | .int n => requirePositiveInt n "teacher_settings.token_limit"
  | _ => .error "Whetstone safety: teacher_settings.token_limit must be an integer"

def textValue : Json → Except String Unit
  | .str _ => .ok ()
  | _ => .error "Whetstone safety: teacher_settings.reasoning must be a string"

/- A setting that is present and not null. -/
def suppliedSetting (settings : List (String × Json)) (name : String) : Option Json :=
  (settings.lookup name).filter (· ≠ .null)

def extraBodyFields : Json → Except String (List (String × Json))
  | .obj fields => .ok fields
  | _ => .error "Whetstone safety: teacher_settings.extra_body must be an object"

def validateTeacherSettings (settings : List (String × Json)) : Except String Unit := do
  (suppliedSetting settings "extra_body").forM fun extraBody => do
    let fields ← extraBodyFields extraBody
    let conflicts := (settings.map Prod.fst).filter
      fun key => key ≠ "extra_body" ∧ key ∈ fields.map Prod.fst
    raiseIf (conflicts ≠ [])
      ("Whetstone safety: teacher_settings duplicates extra_body keys: " ++
        joined (conflicts.mergeSort fun a b => decide (a ≤ b)))
  (suppliedSetting settings "temperature").forM finiteNumber
  (suppliedSetting settings "token_limit").forM positiveNumber
  (suppliedSetting settings "reasoning").forM textValue

/-! ### Derived fields -/

/- The last items of a source, `items[-size:]`. -/
def lastItems {α : Type} (size : Nat) (items : List α) : List α := items.drop (items.length - size)

/- `min(1000, max(1, int(len(trainset) * 0.80)))` -/
def heldBackSize (trainset : List String) : Nat := min 1000 (max 1 (trainset.length * 4 / 5))

def preAutoValset (control : ControlFields F) : List String :=
  match control.sourceValsetTaskHashes with
  | some valset => valset
  | none => lastItems (heldBackSize control.sourceTrainsetTaskHashes)
      control.sourceTrainsetTaskHashes

/- The training set that the sources determine. -/
def expectedTrainset (control : ControlFields F) : Except String (List String) := do
  let sourceTrainset := control.sourceTrainsetTaskHashes
  raiseIf (sourceTrainset = []) "resolved MIPROv2 source trainset cannot be empty"
  match control.sourceValsetTaskHashes with
  | none => do
    raiseIf (sourceTrainset.length < 2)
      ("resolved MIPROv2 source trainset requires at least two tasks when no source valset " ++
        "is present")
    return sourceTrainset.take (sourceTrainset.length - (preAutoValset control).length)
  | some sourceValset => do
    raiseIf (sourceValset = []) "resolved MIPROv2 source valset cannot be empty"
    return sourceTrainset

/- `int(max(2 * num_vars * log2(n), 1.5 * n))`; the floor of `2 * num_vars * log2(n)` is that of
   the logarithm of the power. -/
def recommendedNumTrials (componentCount : Nat) (searchesDemos : Bool) (numCandidates : Nat) :
    Nat :=
  let numVars := componentCount * (if searchesDemos then 2 else 1)
  max (Nat.log2 (numCandidates ^ (2 * numVars))) (3 * numCandidates / 2)

def instructCandidates (searchesDemos : Bool) (candidates : Nat) : Nat :=
  if searchesDemos then candidates / 2 else candidates

/- `tuple(valset[index] for index in indices)` -/
def pickItems (items : List String) (indices : List Nat) : Except String (List String) :=
  indices.mapM fun index => match items[index]? with
    | some item => .ok item
    | none => .error "tuple index out of range"

def validateManualControl (control : ControlFields F) : Except String Unit := do
  raiseIf (control.numCandidates = none) "resolved manual MIPROv2 requires num_candidates"
  raiseIf (control.autoValidationSampleIndices ≠ none)
    "resolved manual MIPROv2 cannot carry auto sample indices"
  raiseIf (control.valsetTaskHashes ≠ preAutoValset control)
    "resolved manual MIPROv2 valset conflicts with source datasets"
  raiseIf (some control.numInstructCandidates ≠ control.numCandidates ∨
      some control.numFewshotCandidates ≠ control.numCandidates)
    "resolved manual MIPROv2 candidate counts conflict with num_candidates"

def validateAutoControl [RandomSample] (control : ControlFields F) (auto : Miprov2AutoMode) :
    Except String Unit := do
  raiseIf (control.numCandidates ≠ none) "resolved auto MIPROv2 cannot carry num_candidates"
  let n := (autoRunSettings auto).1
  let searchesDemos := control.demoMode.searchesDemos
  let valset := preAutoValset control
  let expectedBatchSize := min (autoRunSettings auto).2 valset.length
  let sampled ← sampleRange (RandomSample.seeded control.seed) valset.length expectedBatchSize
  let expectedIndices := sampled.1
  raiseIf (control.autoValidationSampleIndices ≠ some (expectedIndices.map Int.ofNat))
    "resolved MIPROv2 validation sample conflicts with seed or auto mode"
  let expectedValset ← pickItems valset expectedIndices
  raiseIf (control.valsetTaskHashes ≠ expectedValset)
    "resolved MIPROv2 valset order conflicts with sample indices"
  raiseIf (control.numInstructCandidates ≠ instructCandidates searchesDemos n ∨
      control.numFewshotCandidates ≠ n)
    "resolved auto MIPROv2 candidate counts conflict with mode"
  raiseIf (control.numTrials ≠
      recommendedNumTrials control.programLayout.componentSpecs.length searchesDemos n)
    "resolved auto MIPROv2 num_trials conflicts with mode"
  raiseIf (control.minibatch ≠ decide (minMinibatchSize < expectedValset.length))
    "resolved auto MIPROv2 minibatch conflicts with valset size"

/-- The control has the values of a manual search. -/
theorem manualControl_eq_ok (control : ControlFields F) :
    validateManualControl control = .ok () ↔ control.numCandidates ≠ none ∧
      control.autoValidationSampleIndices = none ∧
      control.valsetTaskHashes = preAutoValset control ∧
      some control.numInstructCandidates = control.numCandidates ∧
      some control.numFewshotCandidates = control.numCandidates := by
  simp only [validateManualControl, raiseIf_bind_eq_ok, raiseIf_eq_ok, not_or, not_not, ne_eq]

/-- The control has the values of an automatic search under its seed. -/
theorem autoControl_eq_ok [RandomSample] (control : ControlFields F) (auto : Miprov2AutoMode) :
    validateAutoControl control auto = .ok () ↔ control.numCandidates = none ∧
      ∃ sampled, sampleRange (RandomSample.seeded control.seed) (preAutoValset control).length
          (min (autoRunSettings auto).2 (preAutoValset control).length) = .ok sampled ∧
        control.autoValidationSampleIndices = some (sampled.1.map Int.ofNat) ∧
        ∃ valset, pickItems (preAutoValset control) sampled.1 = .ok valset ∧
          control.valsetTaskHashes = valset ∧
          (control.numInstructCandidates =
              instructCandidates control.demoMode.searchesDemos (autoRunSettings auto).1 ∧
            control.numFewshotCandidates = (autoRunSettings auto).1) ∧
          control.numTrials = recommendedNumTrials control.programLayout.componentSpecs.length
            control.demoMode.searchesDemos (autoRunSettings auto).1 ∧
          control.minibatch = decide (minMinibatchSize < valset.length) := by
  rw [validateAutoControl, raiseIf_bind_eq_ok]
  simp only [↓raiseIf_bind_eq_ok, bind_eq_ok, raiseIf_eq_ok, not_or, not_not, ne_eq]

def validateDerivedSearch [RandomSample] (control : ControlFields F) : Except String Unit :=
  match control.auto with
  | none => validateManualControl control
  | some auto => validateAutoControl control auto

def validateResolvedDerivations [RandomSample] (control : ControlFields F) :
    Except String Unit := do
  let trainset ← expectedTrainset control
  raiseIf (control.trainsetTaskHashes ≠ trainset)
    "resolved MIPROv2 trainset conflicts with source datasets"
  let expectedZeroshot := control.maxBootstrappedDemos = 0 ∧ control.maxLabeledDemos = 0
  raiseIf (control.zeroshotOpt ≠ decide expectedZeroshot)
    ("resolved MIPROv2 demo_mode conflicts with demo maxima: " ++
      quoted control.demoMode.value ++ " requires " ++
      (if control.zeroshotOpt then "zero" else "positive") ++ " demo maxima")
  validateDerivedSearch control
  raiseIf (control.minibatch = true ∧ control.valsetTaskHashes.length < control.minibatchSize)
    "resolved MIPROv2 minibatch_size exceeds resolved valset"

theorem derivations_eq_ok [RandomSample] (control : ControlFields F) :
    validateResolvedDerivations control = .ok () ↔
      expectedTrainset control = .ok control.trainsetTaskHashes ∧
      control.zeroshotOpt =
        decide (control.maxBootstrappedDemos = 0 ∧ control.maxLabeledDemos = 0) ∧
      validateDerivedSearch control = .ok () ∧
      ¬ (control.minibatch = true ∧ control.valsetTaskHashes.length < control.minibatchSize) := by
  rw [validateResolvedDerivations, bind_eq_ok]
  simp only [↓check_bind_eq_ok, raiseIf_eq_ok, not_not, ne_eq]
  constructor
  · rintro ⟨trainset,htrain,hsame,hzero,hsearch,hmini⟩
    exact ⟨hsame ▸ htrain, hzero, hsearch, hmini⟩
  · rintro ⟨htrain,hzero,hsearch,hmini⟩
    exact ⟨_, htrain, rfl, hzero, hsearch, hmini⟩

/-! ### Validation -/

def validateCandidateComponents (candidate : Candidate) (componentSpecs : List Miprov2ComponentSpec)
    (mutationField role : String) : Except String Unit := do
  raiseIf (componentSpecs.length ≠ 1) "MIPROv2 requires exactly one optimizable component"
  let message := "Whetstone safety: " ++ role ++ " component field " ++ quoted mutationField ++
    " must be a non-empty string"
  match candidate.payload.lookup mutationField with
  | some (.str template) => raiseIf (template = "") message
  | _ => throw message

def validateComponentFormats (componentSpecs : List Miprov2ComponentSpec)
    (promptAdapterIdentityHash : String) : Except String Unit :=
  componentSpecs.forM fun spec =>
    raiseIf (spec.promptFormatIdentityHash ≠ promptAdapterIdentityHash)
      "Whetstone safety: component prompt format conflicts with the bound prompt adapter"

def validateSourceValset (hashes : List String) : Except String Unit := do
  raiseIf ("" ∈ hashes)
    "Whetstone safety: source_valset_task_hashes contains an empty identity"
  hashes.forM (requireFullHash · "source_valset_task_hashes")

def validateControlVersions (versions : ControlVersions) : Except String Unit := do
  raiseIf (versions.algorithmVersion ≠ algorithmVersion) "MIPROv2 algorithm_version is fixed"
  raiseIf (versions.referenceCommit ≠ referenceCommit) "MIPROv2 reference_commit is fixed"
  raiseIf (versions.optunaVersion ≠ optunaVersion) "MIPROv2 optuna_version is fixed"
  raiseIf (versions.promptFormatAdapterVersion ≠ promptFormatAdapterVersion)
    "MIPROv2 prompt_format_adapter_version is fixed"
  raiseIf (versions.candidateRendererVersion ≠ candidateRendererVersion)
    "MIPROv2 candidate renderer is fixed"
  raiseIf (versions.proposerOutputParserSchema ≠ proposerOutputParserSchema ∨
      versions.proposerOutputParserSchemaVersion ≠ proposerOutputParserSchemaVersion)
    "MIPROv2 proposer output parser identity is fixed"
  raiseIf (versions.phaseSchemaManifest ≠ phaseSchemaManifest)
    "MIPROv2 phase schema manifest is fixed"
  raiseIf (versions.stateSchema ≠ stateSchema ∨ versions.stateSchemaVersion ≠ stateSchemaVersion)
    "MIPROv2 state schema identity is fixed"
  raiseIf (versions.resultSchema ≠ resultSchema ∨
      versions.resultSchemaVersion ≠ resultSchemaVersion)
    "MIPROv2 result schema identity is fixed"

section Validation

variable [PyIdentifiers] [RandomSample]

/- `_validate_resolved_control` -/
def ControlFields.validate (control : ControlFields F) : Except String Unit := do
  let specs := control.programLayout.componentSpecs
  validateComponentFormats specs control.promptAdapterIdentityHash
  validateCandidateComponents control.baseCandidate specs control.mutationField "base candidate"
  validateCandidateComponents control.teacherCandidate specs control.mutationField
    "teacher candidate"
  discard (control.templateRenderContract.validateTemplate
    (control.baseCandidate.payload.lookup control.mutationField))
  discard (control.templateRenderContract.validateTemplate
    (control.teacherCandidate.payload.lookup control.mutationField))
  control.sourceTrainsetTaskHashes.forM (requireFullHash · "source_trainset_task_hashes")
  control.trainsetTaskHashes.forM (requireFullHash · "trainset_task_hashes")
  control.valsetTaskHashes.forM (requireFullHash · "valset_task_hashes")
  control.sourceValsetTaskHashes.forM validateSourceValset
  validateTeacherSettings control.teacherSettings
  raiseIf (control.evalRole ≠ .internal) "MIPROv2 requires internal evaluation"
  requireFullHash control.providerExecutionPolicyHash "provider_execution_policy_hash"
  requireFullHash control.taskModelIdentityHash "task_model_identity_hash"
  requireFullHash control.promptAdapterIdentityHash "prompt_adapter_identity_hash"
  raiseIf (control.promptModel.temperature.any
      (fun temperature => FiniteFloats.eq temperature.value control.initTemperature) = false)
    "Whetstone safety: prompt_model temperature conflicts with init_temperature"
  validateResolvedNumericControls control
  validateControlVersions control.toControlVersions
  validateResolvedDerivations control

/-- What the checks of a valid control let through. -/
structure Checked (control : ControlFields F) : Prop where
  formats : validateComponentFormats control.programLayout.componentSpecs
    control.promptAdapterIdentityHash = .ok ()
  base : validateCandidateComponents control.baseCandidate control.programLayout.componentSpecs
    control.mutationField "base candidate" = .ok ()
  teacher : validateCandidateComponents control.teacherCandidate
    control.programLayout.componentSpecs control.mutationField "teacher candidate" = .ok ()
  policy : requireFullHash control.providerExecutionPolicyHash "provider_execution_policy_hash" =
    .ok ()
  taskModel : requireFullHash control.taskModelIdentityHash "task_model_identity_hash" = .ok ()
  numeric : validateResolvedNumericControls control = .ok ()
  versions : validateControlVersions control.toControlVersions = .ok ()
  derivations : validateResolvedDerivations control = .ok ()

theorem ControlFields.checked {control : ControlFields F} (h : control.validate = .ok ()) :
    Checked control := by
  simp only [ControlFields.validate, check_bind_eq_ok] at h
  obtain ⟨hformats,hbase,hteacher,_,_,_,_,_,_,_,_,hpolicy,htask,_,_,hnumeric,hversions,hderived⟩ := h
  exact ⟨hformats, hbase, hteacher, hpolicy, htask, hnumeric, hversions, hderived⟩

structure Miprov2Control (F : Type) [FiniteFloats F] [PyIdentifiers] [RandomSample] extends
    ControlFields F where
  valid : toControlFields.validate = .ok ()

def ControlFields.modelValidate (control : ControlFields F) :
    Except String (Miprov2Control F) :=
  match h : control.validate with
  | .ok () => .ok ⟨control, h⟩
  | .error message => .error message

end Validation

/- The generator as it stands after the sampling of the validation set. -/
def replayDatasetRng [RandomSample] (control : ControlFields F) :
    Except String RandomSample.Rng := do
  let rng := RandomSample.seeded control.seed
  match control.autoValidationSampleIndices with
  | none => return rng
  | some expected => do
    let sampled ← sampleRange rng (preAutoValset control).length expected.length
    raiseIf (sampled.1.map Int.ofNat ≠ expected)
      "resolved MIPROv2 validation sample conflicts with seed"
    return sampled.2

/-- A search that was derived from a seed replays from it. -/
theorem replayDatasetRng_ok [RandomSample] {control : ControlFields F}
    (h : validateDerivedSearch control = .ok ()) : ∃ rng, replayDatasetRng control = .ok rng := by
  rw [validateDerivedSearch] at h
  cases hmode : control.auto with
  | none =>
    rw [hmode] at h
    have hindices := ((manualControl_eq_ok control).mp h).2.1
    exact ⟨RandomSample.seeded control.seed, by simp [replayDatasetRng, hindices, pure, Except.pure]⟩
  | some auto =>
    rw [hmode] at h
    obtain ⟨_,sampled,hsampled,hindices,_⟩ := (autoControl_eq_ok control auto).mp h
    refine ⟨sampled.2, ?_⟩
    simp only [replayDatasetRng, hindices, List.length_map, sampleRange_length hsampled, hsampled,
      ok_bind, raiseIf_bind_eq_ok, not_not, pure, Except.pure, and_self]

end Whetstone.Optim.Miprov2
