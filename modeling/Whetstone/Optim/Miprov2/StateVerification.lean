import Whetstone.Optim.Miprov2.BootstrapFold

/-! The durable state of a MIPROv2 run and its verification, which folds the recorded bootstrap
evidence again and compares what comes of it with the fields of the state. The fields of the later
phases are one value, and their checks are functions of the state of which nothing is assumed. -/
namespace Whetstone.Optim.Miprov2
open Whetstone.Core Whetstone.Lib Whetstone.Experiment Whetstone.Eval
open Whetstone.Optim.Step (IdentityRef)

/-! ### Equal controls -/

section Controls

variable {F : Type} [FiniteFloats F]

/- The references of a candidate are those of its record, whose payload is an immutable object. -/
def candidateRefEq [CandidateIdentity] (a b : Candidate) : Bool :=
  decide (a.candidateId = b.candidateId ∧ a.baseRef = b.baseRef ∧ a.recordRef = b.recordRef ∧
    a.identityHash = b.identityHash) && canonicalEq a.payload b.payload

def rewardTermEq (a b : RewardTerm F) : Bool :=
  decide (a.name = b.name ∧ a.maximize = b.maximize) && pyEq a.weight b.weight &&
    pyEq a.worstValue b.worstValue

def rewardPolicyEq (a b : RewardPolicy F) : Bool :=
  decide (a.policyName = b.policyName ∧ a.rewardName = b.rewardName ∧
    a.missingData = b.missingData) && listEq rewardTermEq a.terms b.terms

def ControlProgram.eq [CandidateIdentity] (a b : ControlProgram) : Bool :=
  candidateRefEq a.baseCandidate b.baseCandidate &&
    candidateRefEq a.teacherCandidate b.teacherCandidate &&
    decide (a.teacherCompiled = b.teacherCompiled ∧ a.programLayout = b.programLayout ∧
      a.sourceTrainsetTaskHashes = b.sourceTrainsetTaskHashes ∧
      a.sourceValsetTaskHashes = b.sourceValsetTaskHashes ∧
      a.trainsetTaskHashes = b.trainsetTaskHashes ∧ a.valsetTaskHashes = b.valsetTaskHashes ∧
      a.autoValidationSampleIndices = b.autoValidationSampleIndices)

def ControlBindings.eq (a b : ControlBindings F) : Bool :=
  decide (a.promptModel.providerCallConfig = b.promptModel.providerCallConfig) &&
    pyEq a.promptModel.temperature b.promptModel.temperature &&
    rewardPolicyEq a.rewardPolicy b.rewardPolicy &&
    decide (a.bootstrapEvalSource = b.bootstrapEvalSource ∧
      a.validationEvalSource = b.validationEvalSource ∧ a.evalRole = b.evalRole ∧
      a.providerExecutionPolicyRef = b.providerExecutionPolicyRef ∧
      a.providerExecutionPolicyHash = b.providerExecutionPolicyHash ∧
      a.taskModelIdentityHash = b.taskModelIdentityHash ∧
      a.promptAdapterIdentityHash = b.promptAdapterIdentityHash ∧
      a.templateRenderContract = b.templateRenderContract ∧ a.mutationField = b.mutationField ∧
      a.metricAuthority = b.metricAuthority)

def ControlSearch.eq (a b : ControlSearch) : Bool :=
  canonicalEq a.teacherSettings b.teacherSettings &&
    decide ({ a with teacherSettings := [] } = { b with teacherSettings := [] })

def ControlSettings.eq (a b : ControlSettings F) : Bool :=
  FiniteFloats.eq a.initTemperature b.initTemperature &&
    thresholdEq a.metricThreshold b.metricThreshold &&
    decide (a.verbose = b.verbose ∧ a.trackStats = b.trackStats ∧ a.logDir = b.logDir ∧
      a.minibatch = b.minibatch ∧ a.minibatchSize = b.minibatchSize ∧
      a.minibatchFullEvalSteps = b.minibatchFullEvalSteps ∧
      a.programAwareProposer = b.programAwareProposer ∧
      a.dataAwareProposer = b.dataAwareProposer ∧ a.viewDataBatchSize = b.viewDataBatchSize ∧
      a.tipAwareProposer = b.tipAwareProposer ∧
      a.fewshotAwareProposer = b.fewshotAwareProposer ∧
      a.provideTraceback = b.provideTraceback ∧ a.demoMode = b.demoMode)

variable [PyIdentifiers] [RandomSample] [CandidateIdentity]

instance : PyEq (Miprov2Control F) := ⟨fun a b =>
  a.toControlProgram.eq b.toControlProgram && a.toControlBindings.eq b.toControlBindings &&
    a.toControlSearch.eq b.toControlSearch && a.toControlSettings.eq b.toControlSettings &&
    decide (a.toControlVersions = b.toControlVersions)⟩

def ControlFields.componentIds (control : ControlFields F) : List String :=
  control.programLayout.componentSpecs.map Miprov2ComponentSpec.componentId

end Controls

/-! ### The state -/

inductive Miprov2Phase where
  | bootstrap
  | proposal
  | baseline
  | sample
  | promotion
  | complete
  | failed
deriving DecidableEq

inductive EffectKind where
  | bootstrapGenerations
  | proposalCalls
  | evaluations
deriving DecidableEq

structure Miprov2CompletedEffect where
  kind : EffectKind
  identityHash : String
  taskRows : Int
deriving DecidableEq

def Miprov2CompletedEffect.validate (effect : Miprov2CompletedEffect) : Except String Unit := do
  requireFullHash effect.identityHash "effect_identity_hash"
  raiseIf (effect.taskRows < 0) "completed effect task_rows cannot be negative"
  raiseIf (effect.kind = .proposalCalls ∧ effect.taskRows ≠ 0)
    "proposal calls do not account task rows"

structure Miprov2PromptComponent where
  componentId : String
  template : String
  templateRenderContract : TemplateRenderContract
  renderingRules : String
  exampleExecution : String
deriving DecidableEq

def Miprov2PromptComponent.modelDump (component : Miprov2PromptComponent) : Json :=
  .obj [("component_id", .str component.componentId), ("template", .str component.template),
    ("template_render_contract", templateRenderContractJson component.templateRenderContract),
    ("rendering_rules", .str component.renderingRules),
    ("example_execution", .str component.exampleExecution)]

structure Miprov2DatasetExample where
  taskHash : String
  renderedRecord : String
deriving DecidableEq

def Miprov2DatasetExample.modelDump (record : Miprov2DatasetExample) : Json :=
  .obj [("task_hash", .str record.taskHash), ("rendered_record", .str record.renderedRecord)]

def LabeledTaskDemo.modelDump (task : LabeledTaskDemo) : Json :=
  .obj [("source_task_hash", .str task.sourceTaskHash),
    ("inputs_by_component", .obj task.inputsByComponent),
    ("outputs_by_component", .obj task.outputsByComponent)]

/- The last of the tasks that have the hash. -/
def taskByHash (tasks : List LabeledTaskDemo) (identity : String) : Except String LabeledTaskDemo :=
  match (Dict.ofPairs (tasks.map fun task => (task.sourceTaskHash, task))).get? identity with
  | some task => .ok task
  | none => .error "bootstrap plan cites a foreign labeled task"

theorem taskByHash_ok {tasks : List LabeledTaskDemo} {identity : String}
    (h : identity ∈ tasks.map fun task => task.sourceTaskHash) :
    ∃ task, taskByHash tasks identity = .ok task := by
  rw [taskByHash]
  cases hget : (Dict.ofPairs (tasks.map fun task => (task.sourceTaskHash, task))).get? identity with
  | some task => exact ⟨task, rfl⟩
  | none =>
    have habsent := (Dict.get?_ofPairs_eq_none_iff _ identity).mp hget
    rw [List.map_map] at habsent
    exact absurd h habsent

theorem taskByHash_hash {tasks : List LabeledTaskDemo} {identity : String} {task : LabeledTaskDemo}
    (h : taskByHash tasks identity = .ok task) : task.sourceTaskHash = identity := by
  rw [taskByHash] at h
  cases hget : (Dict.ofPairs (tasks.map fun task => (task.sourceTaskHash, task))).get? identity with
  | none =>
    rw [hget] at h
    cases h
  | some found =>
    rw [hget] at h
    cases h
    obtain ⟨entry,_,hentry⟩ := List.mem_map.mp (Dict.mem_of_get?_ofPairs _ _ _ hget)
    cases hentry
    rfl

theorem taskByHash_of_mem {tasks : List LabeledTaskDemo}
    (hdistinct : (tasks.map fun task => task.sourceTaskHash).Nodup) {task : LabeledTaskDemo}
    (h : task ∈ tasks) : taskByHash tasks task.sourceTaskHash = .ok task := by
  have hkeys : ((tasks.map fun task => (task.sourceTaskHash, task)).map Prod.fst).Nodup := by
    rw [List.map_map]
    exact hdistinct
  rw [taskByHash, Dict.get?_ofPairs_of_mem _ hkeys _ task (List.mem_map_of_mem h)]

variable {F : Type} [FiniteFloats F] [FloatJson F] [IdentityHasher] [PyIdentifiers] [RandomDraws]

/- `later` holds the fields that no definition here reads. -/
structure Miprov2State (F L : Type) [FiniteFloats F] [FloatJson F] [IdentityHasher]
    [PyIdentifiers] [RandomDraws] where
  runId : String
  control : Miprov2Control F
  bindings : Miprov2DurableBindings
  labeledTrainset : List LabeledTaskDemo
  proposalComponents : List Miprov2PromptComponent
  proposalTrainset : List Miprov2DatasetExample
  componentFieldOrder : List (String × Json)
  inputDataIdentityHash : String
  phase : Miprov2Phase
  bootstrapPlans : List (FewshotCandidatePlan F)
  bootstrapPlanIndex : Int
  bootstrapState : Option (BootstrapCompilerState F)
  demoCandidates : List (ComponentDemoSet F)
  bootstrapEvidence : List (BootstrapFoldEvidence F)
  pendingBootstrap : Option (BootstrapAttemptPlan F)
  completedEffects : List Miprov2CompletedEffect
  later : L

section States

variable {L : Type}

/-! ### The labeled tasks of a plan -/

/- `_ordered_labeled_for_plan` -/
def orderedLabeledForPlan (state : Miprov2State F L) (plan : FewshotCandidatePlan F) :
    Except String (List LabeledTaskDemo) :=
  plan.trainsetTaskHashes.mapM (taskByHash state.labeledTrainset)

/-- The tasks of a plan have their labeled tasks. -/
theorem orderedLabeledForPlan_ok (state : Miprov2State F L) (plan : FewshotCandidatePlan F)
    (h : ∀ identity ∈ plan.trainsetTaskHashes,
      identity ∈ state.labeledTrainset.map fun task => task.sourceTaskHash) :
    ∃ ordered, orderedLabeledForPlan state plan = .ok ordered :=
  mapM_exists_ok _ plan.trainsetTaskHashes fun identity hmem => taskByHash_ok (h identity hmem)

/-- The labeled tasks of a plan stand in its order. -/
theorem orderedLabeledForPlan_hashes {state : Miprov2State F L} {plan : FewshotCandidatePlan F}
    {ordered : List LabeledTaskDemo} (h : orderedLabeledForPlan state plan = .ok ordered) :
    ordered.map (fun task => task.sourceTaskHash) = plan.trainsetTaskHashes := by
  have hpairs := (mapM_forall₂ h).imp fun _ _ => taskByHash_hash
  rw [← List.forall₂_eq_eq_eq, List.forall₂_map_left_iff]
  exact hpairs.flip

/-- A plan that keeps the order of distinct tasks reads them as they stand. -/
theorem orderedLabeledForPlan_unshuffled {state : Miprov2State F L} {plan : FewshotCandidatePlan F}
    (hsame : plan.trainsetTaskHashes = state.labeledTrainset.map fun task => task.sourceTaskHash)
    (hdistinct : plan.trainsetTaskHashes.Nodup) :
    orderedLabeledForPlan state plan = .ok state.labeledTrainset := by
  rw [hsame] at hdistinct
  have hread := mapM_ok (fun task : LabeledTaskDemo =>
    taskByHash state.labeledTrainset task.sourceTaskHash) id state.labeledTrainset
    fun task hmem => taskByHash_of_mem hdistinct hmem
  rw [List.map_id] at hread
  rw [orderedLabeledForPlan, hsame, List.mapM_map]
  exact hread

/-! ### Equal states -/

variable [CandidateIdentity]

/- `candidate == state`: the fields of the record, one after another. -/
instance [PyEq L] : PyEq (Miprov2State F L) := ⟨fun a b =>
  pyEq a.runId b.runId && pyEq a.control b.control && pyEq a.bindings b.bindings &&
    pyEq a.labeledTrainset b.labeledTrainset &&
    decide (a.proposalComponents = b.proposalComponents) &&
    decide (a.proposalTrainset = b.proposalTrainset) &&
    canonicalEq a.componentFieldOrder b.componentFieldOrder &&
    pyEq a.inputDataIdentityHash b.inputDataIdentityHash && decide (a.phase = b.phase) &&
    pyEq a.bootstrapPlans b.bootstrapPlans && pyEq a.bootstrapPlanIndex b.bootstrapPlanIndex &&
    pyEq a.bootstrapState b.bootstrapState && pyEq a.demoCandidates b.demoCandidates &&
    pyEq a.bootstrapEvidence b.bootstrapEvidence && pyEq a.pendingBootstrap b.pendingBootstrap &&
    decide (a.completedEffects = b.completedEffects) && pyEq a.later b.later⟩

/-! ### The replay of the bootstrap phase -/

variable [TraceChoice]

def BootstrapError.message : BootstrapError → String
  | .value message => message
  | .errorLimitReached errorCount maxErrors error =>
    "bootstrap error " ++ toString errorCount ++ " reached max_errors " ++ toString maxErrors ++
      ": " ++ error

def foldEvents (state : Miprov2State F L) (plan : FewshotCandidatePlan F) :
    List (BootstrapFoldEvidence F) → BootstrapCompilerState F →
    Except String (BootstrapCompilerState F)
  | [], compiler => .ok compiler
  | event :: rest, compiler => do
    let next ← foldBootstrapResult plan compiler event.attempt event.result
      state.control.metricThreshold state.control.componentIds
    foldEvents state plan rest next

/- The demonstrations of a plan that the cursor has passed. -/
def finishedDemoSet (state : Miprov2State F L) (plan : FewshotCandidatePlan F)
    (events : List (BootstrapFoldEvidence F)) : Except String (ComponentDemoSet F) :=
  match plan.kind with
  | .reset => materializeResetDemoSet plan state.control.componentIds
  | .labelsOnly => do
    let labeled ← orderedLabeledForPlan state plan
    materializeLabelsOnlyDemoSet plan labeled
  | .bootstrap => do
    let initial ← initialCompilerState plan
    let compiler ← foldEvents state plan events initial
    let unfinished ← (nextBootstrapAttempt plan compiler).mapError fun _ =>
      "finished bootstrap plan has terminal failure"
    raiseIf unfinished.isSome "bootstrap cursor skips an unfinished compiler"
    let labeled ← orderedLabeledForPlan state plan
    materializeBootstrapDemoSet plan compiler labeled state.control.componentIds

structure BootstrapProjection (F : Type) [FiniteFloats F] [FloatJson F] [IdentityHasher] where
  expectedDemos : List (ComponentDemoSet F)
  currentCompiler : Option (BootstrapCompilerState F)
  currentAttempt : Option (BootstrapAttemptPlan F)
  remaining : List (BootstrapFoldEvidence F)

/- The plan at the cursor, which ends the replay. -/
def currentProjection (state : Miprov2State F L) (plan : FewshotCandidatePlan F)
    (events remaining : List (BootstrapFoldEvidence F)) :
    Except String (BootstrapProjection F) :=
  if plan.kind ≠ .bootstrap then do
    raiseIf (state.bootstrapPlanIndex ≠ 0 ∨ ¬ state.demoCandidates.isEmpty ∨
        ¬ state.bootstrapEvidence.isEmpty)
      "runtime cannot pause between effect-free bootstrap plans"
    return ⟨[], none, none, remaining⟩
  else do
    let initial ← initialCompilerState plan
    let compiler ← foldEvents state plan events initial
    match state.pendingBootstrap with
    | none => return ⟨[], if events.isEmpty then none else some compiler, none, remaining⟩
    | some attempt => do
      let expected ← (nextBootstrapAttempt plan compiler).mapError BootstrapError.message
      raiseIf (expected.any (pyEq attempt) = false) "pending bootstrap attempt is not canonical"
      return ⟨[], some compiler, some attempt, remaining⟩

def projectPlans (state : Miprov2State F L) :
    List (FewshotCandidatePlan F) → Nat → List (BootstrapFoldEvidence F) →
    Except String (BootstrapProjection F)
  | [], _, events => .ok ⟨[], none, none, events⟩
  | plan :: rest, index, events =>
    let split := events.span fun event => event.attempt.planIdentityHash = plan.identityHash
    if (index : Int) < state.bootstrapPlanIndex then do
      let demoSet ← finishedDemoSet state plan split.1
      let others ← projectPlans state rest (index + 1) split.2
      return { others with expectedDemos := demoSet :: others.expectedDemos }
    else if (index : Int) = state.bootstrapPlanIndex then
      currentProjection state plan split.1 split.2
    else do
      raiseIf (¬ split.1.isEmpty) "bootstrap evidence belongs to a future plan"
      projectPlans state rest (index + 1) split.2

/- `_canonical_bootstrap_projection`: the attempt that is pending. -/
def canonicalBootstrapProjection (state : Miprov2State F L)
    (plans : List (FewshotCandidatePlan F)) :
    Except String (Option (BootstrapAttemptPlan F)) := do
  let projection ← projectPlans state plans 0 state.bootstrapEvidence
  raiseIf (¬ projection.remaining.isEmpty) "bootstrap evidence order does not match plans"
  raiseIf (pyEq projection.expectedDemos state.demoCandidates = false)
    "demo candidates are not canonical bootstrap output"
  raiseIf (pyEq state.bootstrapState projection.currentCompiler = false)
    "bootstrap compiler state conflicts with evidence"
  raiseIf (state.phase ≠ .bootstrap ∧ (state.bootstrapPlanIndex ≠ plans.length ∨
      state.demoCandidates.length ≠ plans.length ∨ state.bootstrapState.isSome ∨
      state.pendingBootstrap.isSome))
    "post-bootstrap phase has incomplete bootstrap replay"
  return projection.currentAttempt

/-! ### The verification -/

/-- The checks that read the other fields, in the order in which they run. Nothing is assumed of
them. -/
class LaterChecks (F L : Type) [FiniteFloats F] [FloatJson F] [IdentityHasher] [PyIdentifiers]
    [RandomDraws] where
  /- The exact run, its config and its render contract. -/
  requireRun : Miprov2State F L → Except String Unit
  /- At most one pending effect, and the teacher of a pending attempt. -/
  requirePending : Miprov2State F L → Except String Unit
  /- What the replay derives before it folds the bootstrap evidence. -/
  replayLater : Miprov2State F L → RandomSample.Rng → Except String Unit
  /- The generator and the evaluation spec of the replay. -/
  requireReplay : Miprov2State F L → RandomSample.Rng → Except String Unit
  /- The completed proposal calls and evaluations. -/
  laterEffects : Miprov2State F L → List Miprov2CompletedEffect
  /- All that follows the ledger of completed effects. -/
  requireLater : Miprov2State F L → RandomSample.Rng → Except String Unit

/- `_input_data_hash` -/
def inputDataHash [EvalConfigIdentity] (state : Miprov2State F L) : String :=
  IdentityHasher.computeIdentityHash "whetstone.miprov2_runtime_inputs" 1
    (.obj [("control_identity_hash", .str state.control.identityHash),
      ("labeled_trainset", Json.list LabeledTaskDemo.modelDump state.labeledTrainset),
      ("proposal_components",
        Json.list Miprov2PromptComponent.modelDump state.proposalComponents),
      ("proposal_trainset", Json.list Miprov2DatasetExample.modelDump state.proposalTrainset),
      ("component_field_order", .obj state.componentFieldOrder)])

variable [EvalConfigIdentity]

/- The bindings that the control resolves, without the executor's own. -/
def requireBindings (state : Miprov2State F L) : Except String Unit := do
  let bindings := state.bindings
  let control := state.control
  raiseIf (bindings.controlIdentityHash ≠ control.identityHash)
    "runtime bindings do not match resolved control"
  raiseIf (bindings.promptRouteIdentityHash ≠ control.promptModel.identityHash ∨
      bindings.taskRouteIdentityHash ≠ control.taskModelIdentityHash ∨
      bindings.executionPolicyIdentityHash ≠ control.providerExecutionPolicyHash ∨
      bindings.promptAdapterIdentityHash ≠ control.promptAdapterIdentityHash ∨
      bindings.baseCandidateIdentityHash ≠ control.baseCandidate.identityHash ∨
      bindings.teacherCandidateIdentityHash ≠ control.teacherCandidate.identityHash)
    "runtime routes conflict with resolved control"

def requireLayout (state : Miprov2State F L) : Except String Unit := do
  let componentIds := state.control.componentIds
  let ordered := state.componentFieldOrder.map Prod.fst
  raiseIf ((state.proposalComponents.map Miprov2PromptComponent.componentId) ≠ componentIds)
    "proposal components conflict with program layout"
  raiseIf (state.proposalComponents.any fun component =>
      component.templateRenderContract ≠ state.control.templateRenderContract)
    "proposal component render contracts conflict with the run"
  raiseIf (¬ (ordered ⊆ componentIds ∧ componentIds ⊆ ordered))
    "component field order conflicts with layout"
  raiseIf ((state.labeledTrainset.map fun task => task.sourceTaskHash) ≠
      state.control.trainsetTaskHashes) "labeled trainset conflicts with resolved control"
  raiseIf ((state.proposalTrainset.map Miprov2DatasetExample.taskHash) ≠
      state.control.trainsetTaskHashes) "proposal trainset conflicts with resolved control"

/- The plans that the control and the bindings determine, and the generator after them. -/
def expectedPlanning (state : Miprov2State F L) :
    Except String (List (FewshotCandidatePlan F) × RandomSample.Rng) := do
  let control := state.control
  let rng ← replayDatasetRng control.toControlFields
  createFewshotCandidatePlans state.bindings control.componentIds control.trainsetTaskHashes
    control.numFewshotCandidates control.maxBootstrappedDemos control.maxLabeledDemos
    control.maxErrors control.metricThreshold
    (control.teacherCandidate.identityHash ≠ control.baseCandidate.identityHash)
    control.teacherCompiled rng control.demoMode

variable [LaterChecks F L]

/- `_canonical_completed_effects` -/
def canonicalCompletedEffects (state : Miprov2State F L) :
    Except String (List Miprov2CompletedEffect) := do
  let bootstraps := state.bootstrapEvidence.map fun event : BootstrapFoldEvidence F =>
    (⟨.bootstrapGenerations, event.attempt.identityHash, state.control.numSeeds⟩ :
      Miprov2CompletedEffect)
  bootstraps.forM Miprov2CompletedEffect.validate
  return bootstraps ++ LaterChecks.laterEffects state

def requireLedger (state : Miprov2State F L) (effects : List Miprov2CompletedEffect) :
    Except String Unit := do
  raiseIf (¬ (state.completedEffects.map Miprov2CompletedEffect.identityHash).Nodup)
    "completed effect identities must be unique"
  state.completedEffects.forM fun effect => do
    raiseIf (effect.kind = .bootstrapGenerations ∧ effect.taskRows ≠ state.control.numSeeds)
      "bootstrap ledger entries require one task per repeat"
    raiseIf (effect.kind = .evaluations ∧ effect.taskRows ≤ 0)
      "evaluation ledger entries require tasks"
  raiseIf (state.completedEffects ≠ effects)
    "completed-effect ledger is not the canonical evidence replay"

/- `_verify_canonical_state` -/
def verifyCanonicalState (state : Miprov2State F L) : Except String Unit := do
  raiseIf (state.runId = "") "MIPROv2 run_id cannot be empty"
  LaterChecks.requireRun state
  raiseIf (state.inputDataIdentityHash ≠ inputDataHash state)
    "runtime inputs conflict with their exact content binding"
  requireBindings state
  requireLayout state
  raiseIf (¬ (0 ≤ state.bootstrapPlanIndex ∧
      state.bootstrapPlanIndex ≤ state.bootstrapPlans.length))
    "bootstrap plan cursor is outside its plan set"
  LaterChecks.requirePending state
  let planning ← expectedPlanning state
  raiseIf (pyEq state.bootstrapPlans planning.1 = false)
    "bootstrap plans are not the canonical control replay"
  LaterChecks.replayLater state planning.2
  let attempt ← canonicalBootstrapProjection state planning.1
  let effects ← canonicalCompletedEffects state
  LaterChecks.requireReplay state planning.2
  raiseIf (pyEq state.pendingBootstrap attempt = false)
    "bootstrap phase state is not the canonical evidence replay"
  requireLedger state effects
  LaterChecks.requireLater state planning.2

end States

end Whetstone.Optim.Miprov2
