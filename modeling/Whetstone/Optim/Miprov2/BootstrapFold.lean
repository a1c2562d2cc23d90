import Whetstone.Optim.Miprov2.BootstrapPlan

/-! The resumable bootstrap compiler of MIPROv2: the attempts of a candidate plan, the state that
their results are folded into, and the demonstrations that come of it. -/
namespace Whetstone.Optim.Miprov2
open Whetstone.Core Whetstone.Lib

/- A bootstrap candidate that has reached its error limit raises another exception than the checks. -/
inductive BootstrapError where
  | value (message : String)
  | errorLimitReached (errorCount : Nat) (maxErrors : Int) (error : String)
deriving DecidableEq

/-! ### Attempts -/

structure AttemptFields (F : Type) where
  bindings : Miprov2DurableBindings
  planIdentityHash : String
  taskIndex : Nat
  taskHash : String
  roundIndex : Nat
  excludeEqualTaskFromAllTeacherComponents : Bool
  restoreTeacherDemosAfterEffect : Bool
  copyTaskModel : Bool
  generationId : Option Nat
  temperature : Option F

section Attempts

variable {F : Type} [FiniteFloats F]

/- `1.0` -/
def oneFloat : F := FloatOps.ratio 1 1

def AttemptFields.validate (attempt : AttemptFields F) : Except String Unit := do
  requireFullHash attempt.planIdentityHash "plan_identity_hash"
  requireFullHash attempt.taskHash "task_hash"
  raiseIf (attempt.excludeEqualTaskFromAllTeacherComponents = false)
    "the current task must be excluded by equality from every teacher component"
  raiseIf (attempt.restoreTeacherDemosAfterEffect = false)
    "teacher demos must be restored after the effect"
  let retry : Bool := 0 < attempt.roundIndex
  raiseIf (attempt.copyTaskModel ≠ retry ∨ attempt.generationId.isSome ≠ retry ∨
    attempt.temperature.isSome ≠ retry) "only rounds after zero copy the task model"
  raiseIf (retry = true ∧ (attempt.generationId ≠ some attempt.roundIndex ∨
      attempt.temperature.any (FiniteFloats.eq · oneFloat) = false))
    "retry generation_id must equal round and temperature must be 1.0"

structure BootstrapAttemptPlan (F : Type) [FiniteFloats F] extends AttemptFields F where
  valid : toAttemptFields.validate = .ok ()

def AttemptFields.modelValidate (attempt : AttemptFields F) :
    Except String (BootstrapAttemptPlan F) :=
  match h : attempt.validate with
  | .ok () => .ok ⟨attempt, h⟩
  | .error message => .error message

instance : PyEq (BootstrapAttemptPlan F) := ⟨fun a b =>
  pyEq a.bindings b.bindings && pyEq a.planIdentityHash b.planIdentityHash &&
    pyEq a.taskIndex b.taskIndex && pyEq a.taskHash b.taskHash &&
    pyEq a.roundIndex b.roundIndex &&
    pyEq a.excludeEqualTaskFromAllTeacherComponents b.excludeEqualTaskFromAllTeacherComponents &&
    pyEq a.restoreTeacherDemosAfterEffect b.restoreTeacherDemosAfterEffect &&
    pyEq a.copyTaskModel b.copyTaskModel && pyEq a.generationId b.generationId &&
    thresholdEq a.temperature b.temperature⟩

def BootstrapAttemptPlan.identityPayload [FloatJson F] (attempt : BootstrapAttemptPlan F) : Json :=
  .obj [("bindings", attempt.bindings.modelDump),
    ("plan_identity_hash", .str attempt.planIdentityHash), ("task_index", .int attempt.taskIndex),
    ("task_hash", .str attempt.taskHash), ("round_index", .int attempt.roundIndex),
    ("exclude_equal_task_from_all_teacher_components",
      .bool attempt.excludeEqualTaskFromAllTeacherComponents),
    ("restore_teacher_demos_after_effect", .bool attempt.restoreTeacherDemosAfterEffect),
    ("copy_task_model", .bool attempt.copyTaskModel),
    ("generation_id", Json.nullable (fun index : Nat => .int index) attempt.generationId),
    ("temperature", Json.nullable FloatJson.number attempt.temperature)]

def BootstrapAttemptPlan.identityHash [FloatJson F] [IdentityHasher]
    (attempt : BootstrapAttemptPlan F) : String :=
  IdentityHasher.computeIdentityHash bootstrapAttemptSchema bootstrapSchemaVersion
    attempt.identityPayload

end Attempts

/-! ### Results and their evidence -/

structure ResultFields (F : Type) [FiniteFloats F] extends SourceHashes where
  attemptIdentityHash : String
  metricPresent : Bool
  score : Option (MetricValue F)
  traceSteps : List ObservedTraceStep
  error : Option String

section Results

variable {F : Type} [FiniteFloats F]

def ResultFields.requireOutcome (result : ResultFields F) : Except String Unit :=
  match result.error with
  | some error => do
    raiseIf (error = "") "error must be non-empty when present"
    raiseIf (result.score.isSome ∨ result.traceSteps ≠ [])
      "failed generation cannot carry score or trace steps"
  | none => requireScore result.metricPresent result.score

def ResultFields.validate (result : ResultFields F) : Except String Unit := do
  requireFullHash result.attemptIdentityHash "attempt_identity_hash"
  result.toSourceHashes.require
  result.requireOutcome

structure BootstrapGenerationResult (F : Type) [FiniteFloats F] extends ResultFields F where
  valid : toResultFields.validate = .ok ()

def BootstrapGenerationResult.eqWith
    (objectEq : List (String × Json) → List (String × Json) → Bool)
    (a b : BootstrapGenerationResult F) : Bool :=
  pyEq a.attemptIdentityHash b.attemptIdentityHash && pyEq a.toSourceHashes b.toSourceHashes &&
    pyEq a.metricPresent b.metricPresent && pyEq a.score b.score &&
    listEq (ObservedTraceStep.eqWith objectEq) a.traceSteps b.traceSteps && pyEq a.error b.error

instance : PyEq (BootstrapGenerationResult F) := ⟨BootstrapGenerationResult.eqWith canonicalEq⟩

/- `_accept_result` -/
def acceptResult (result : ResultFields F) (metricThreshold : Option F) : Except String Bool :=
  if result.metricPresent = false then .ok true
  else match result.score with
    | none => .error "AssertionError"
    | some score => .ok (score.accepted metricThreshold)

/- `_acceptance_for`. The threshold of the plan is a plain float, that of an acceptance a finite
one, whose zero has no sign. -/
def acceptanceFor (attempt : BootstrapAttemptPlan F) (result : ResultFields F)
    (metricThreshold : Option F) : Except String (BootstrapAcceptance F) := do
  let accepted ← acceptResult result metricThreshold
  let threshold ← metricThreshold.mapM FiniteFloat.create
  AcceptanceFields.modelValidate
    { toSourceHashes := result.toSourceHashes, sourceTaskHash := attempt.taskHash
      metricPresent := result.metricPresent, score := result.score
      metricThreshold := threshold, accepted := accepted }

variable [FloatJson F] [IdentityHasher]

structure EvidenceFields (F : Type) [FiniteFloats F] where
  attempt : BootstrapAttemptPlan F
  result : BootstrapGenerationResult F
  acceptance : Option (BootstrapAcceptance F)

def EvidenceFields.validate (event : EvidenceFields F) : Except String Unit := do
  raiseIf (event.result.attemptIdentityHash ≠ event.attempt.identityHash)
    "bootstrap evidence result belongs to another attempt"
  match event.result.error, event.acceptance with
  | some _, acceptance =>
    raiseIf acceptance.isSome "failed bootstrap evidence cannot be accepted"
  | none, none => .error "completed bootstrap evidence requires acceptance"
  | none, some acceptance => do
    let expected ← acceptanceFor event.attempt event.result.toResultFields
      (acceptance.metricThreshold.map FiniteFloat.value)
    raiseIf (pyEq acceptance expected = false)
      "bootstrap acceptance does not match generation evidence"

structure BootstrapFoldEvidence (F : Type) [FiniteFloats F] [FloatJson F] [IdentityHasher]
    extends EvidenceFields F where
  valid : toEvidenceFields.validate = .ok ()

def EvidenceFields.modelValidate (event : EvidenceFields F) :
    Except String (BootstrapFoldEvidence F) :=
  match h : event.validate with
  | .ok () => .ok ⟨event, h⟩
  | .error message => .error message

def BootstrapFoldEvidence.eqWith (objectEq : List (String × Json) → List (String × Json) → Bool)
    (a b : BootstrapFoldEvidence F) : Bool :=
  pyEq a.attempt b.attempt && a.result.eqWith objectEq b.result && pyEq a.acceptance b.acceptance

instance : PyEq (BootstrapFoldEvidence F) := ⟨BootstrapFoldEvidence.eqWith canonicalEq⟩

end Results

/-! ### Compiler states -/

structure TerminalFields where
  attemptIdentityHash : String
  errorCount : Nat
  maxErrors : Int
  error : String
deriving DecidableEq

def TerminalFields.validate (failure : TerminalFields) : Except String Unit := do
  requireFullHash failure.attemptIdentityHash "attempt_identity_hash"
  raiseIf ((failure.errorCount : Int) < failure.maxErrors ∨ failure.error = "")
    "terminal bootstrap failure must reach the error limit"

structure BootstrapTerminalFailure extends TerminalFields where
  valid : toTerminalFields.validate = .ok ()
deriving DecidableEq

instance : PyEq BootstrapTerminalFailure := ⟨fun a b => decide (a = b)⟩

def TerminalFields.modelValidate (failure : TerminalFields) :
    Except String BootstrapTerminalFailure :=
  match h : failure.validate with
  | .ok () => .ok ⟨failure, h⟩
  | .error message => .error message

section Compiler

variable {F : Type} [FiniteFloats F] [FloatJson F] [IdentityHasher]

/- Copies of a state are not validated, so that its checks are no field of it. -/
structure BootstrapCompilerState (F : Type) [FiniteFloats F] [FloatJson F] [IdentityHasher] where
  planIdentityHash : String
  taskCursor : Nat
  roundCursor : Nat
  errorCount : Nat
  attemptCount : Nat
  bootstrappedTaskIndices : List Nat
  augmentedDemos : Dict String (List (ComponentDemo F))
  evidence : List (BootstrapFoldEvidence F)
  terminalFailure : Option BootstrapTerminalFailure

namespace BootstrapCompilerState

/- `_validate_state`, which runs when a state is constructed. -/
def validate (state : BootstrapCompilerState F) : Except String Unit := do
  requireFullHash state.planIdentityHash "plan_identity_hash"
  raiseIf (¬ state.bootstrappedTaskIndices.Pairwise (· < ·))
    "bootstrapped task indices must be unique and ordered"
  raiseIf (state.attemptCount ≠ state.evidence.length)
    "bootstrap attempt count must equal append-only evidence count"
  raiseIf (state.terminalFailure.isSome ∧
      (state.evidence.getLast?.bind fun event => event.result.error) = none)
    "terminal bootstrap failure requires final error evidence"

def eqWith (objectEq : List (String × Json) → List (String × Json) → Bool)
    (a b : BootstrapCompilerState F) : Bool :=
  pyEq a.planIdentityHash b.planIdentityHash && pyEq a.taskCursor b.taskCursor &&
    pyEq a.roundCursor b.roundCursor && pyEq a.errorCount b.errorCount &&
    pyEq a.attemptCount b.attemptCount &&
    pyEq a.bootstrappedTaskIndices b.bootstrappedTaskIndices &&
    dictEq (listEq (ComponentDemo.eqWith objectEq)) a.augmentedDemos b.augmentedDemos &&
    listEq (BootstrapFoldEvidence.eqWith objectEq) a.evidence b.evidence &&
    pyEq a.terminalFailure b.terminalFailure

instance : PyEq (BootstrapCompilerState F) := ⟨eqWith canonicalEq⟩

end BootstrapCompilerState

/- `dict.fromkeys(component_ids, ())` -/
def noDemos (componentIds : List String) : Dict String (List (ComponentDemo F)) :=
  Dict.ofPairs (componentIds.map fun componentId => (componentId, []))

def emptyCompilerState (plan : FewshotCandidatePlan F) : BootstrapCompilerState F where
  planIdentityHash := plan.identityHash
  taskCursor := 0
  roundCursor := 0
  errorCount := 0
  attemptCount := 0
  bootstrappedTaskIndices := []
  augmentedDemos := noDemos plan.componentIds
  evidence := []
  terminalFailure := none

def initialCompilerState (plan : FewshotCandidatePlan F) :
    Except String (BootstrapCompilerState F) := do
  raiseIf (plan.kind ≠ .bootstrap) "only bootstrap candidates have compiler state"
  (emptyCompilerState plan).validate
  return emptyCompilerState plan

/- `_next_bootstrap_attempt_unchecked` -/
def nextBootstrapAttemptUnchecked (plan : FewshotCandidatePlan F)
    (state : BootstrapCompilerState F) : Except String (Option (BootstrapAttemptPlan F)) :=
  if plan.maxRounds ≤ 0 ∨ plan.maxBootstrappedDemos ≤ state.bootstrappedTaskIndices.length then
    .ok none
  else match plan.trainsetTaskHashes[state.taskCursor]? with
    | none => .ok none
    | some taskHash =>
      let retry : Bool := 0 < state.roundCursor
      (AttemptFields.modelValidate
        { bindings := plan.bindings, planIdentityHash := state.planIdentityHash
          taskIndex := state.taskCursor, taskHash := taskHash, roundIndex := state.roundCursor
          excludeEqualTaskFromAllTeacherComponents := true
          restoreTeacherDemosAfterEffect := true, copyTaskModel := retry
          generationId := if retry then some state.roundCursor else none
          temperature := if retry then some oneFloat else none }).map some

/-! ### The choice of a trace step -/

/-- The draw that the digest of the pickled examples seeds: the position of a step. -/
class TraceChoice where
  position : (examples : List (List (String × Json))) → Nat
  position_lt : ∀ examples, 1 < examples.length → position examples < examples.length

/- The keyword arguments of an example, of which two are taken. -/
def exampleOf (step : ObservedTraceStep) : Except String (List (String × Json)) := do
  let fields := step.inputs ++ step.outputs
  raiseIf ("augmented" ∈ fieldNames fields) "got multiple values for keyword argument 'augmented'"
  raiseIf ("self" ∈ fieldNames fields) "got multiple values for argument 'self'"
  return fields

/- `_choose_trace_step` -/
def chooseTraceStep [TraceChoice] (steps : List ObservedTraceStep) :
    Except String ObservedTraceStep :=
  match steps with
  | [step] => .ok step
  | steps => do
    let examples ← steps.mapM exampleOf
    match steps[TraceChoice.position examples]? with
    | some step => return step
    | none => .error "list index out of range"

/-! ### Folding a result -/

def advanceState (plan : FewshotCandidatePlan F) (state : BootstrapCompilerState F)
    (success : Bool) : BootstrapCompilerState F :=
  if success = true ∨ plan.maxRounds ≤ state.roundCursor + 1 then
    { state with taskCursor := state.taskCursor + 1, roundCursor := 0 }
  else { state with roundCursor := state.roundCursor + 1 }

/- The steps of the known components, grouped in the order in which components come up. -/
def groupSteps (componentIds : List String) :
    List ObservedTraceStep → Dict String (List ObservedTraceStep) →
    Dict String (List ObservedTraceStep)
  | [], grouped => grouped
  | step :: rest, grouped => match step.componentId with
    | some componentId =>
      if componentId ∈ componentIds then
        groupSteps componentIds rest
          (grouped.set componentId ((grouped.get? componentId).getD [] ++ [step]))
      else groupSteps componentIds rest grouped
    | none => groupSteps componentIds rest grouped

variable [TraceChoice]

def bootstrappedDemo (event : EvidenceFields F) (acceptance : BootstrapAcceptance F)
    (componentId : String) (chosen : ObservedTraceStep) : Except String (ComponentDemo F) :=
  DemoFields.modelValidate
    { toSourceHashes := event.result.toSourceHashes, componentId := componentId
      sourceKind := .bootstrapped, inputs := chosen.inputs, outputs := chosen.outputs
      augmented := true, sourceTaskHash := event.attempt.taskHash
      sourceTraceIndex := some chosen.traceIndex, score := event.result.score
      acceptanceIdentityHash := acceptance.identityHash }

def addDemos (event : EvidenceFields F) (acceptance : BootstrapAcceptance F) :
    List (String × List ObservedTraceStep) → Dict String (List (ComponentDemo F)) →
    Except String (Dict String (List (ComponentDemo F)))
  | [], augmented => .ok augmented
  | (componentId, steps) :: rest, augmented => do
    let chosen ← chooseTraceStep steps
    let demo ← bootstrappedDemo event acceptance componentId chosen
    addDemos event acceptance rest
      (augmented.set componentId ((augmented.get? componentId).getD [] ++ [demo]))

/- An error, which counts towards the limit. -/
def applyError (plan : FewshotCandidatePlan F) (state : BootstrapCompilerState F)
    (event : BootstrapFoldEvidence F) (error : String) :
    Except String (BootstrapCompilerState F) :=
  let attempted : BootstrapCompilerState F :=
    { state with
      errorCount := state.errorCount + 1, attemptCount := state.attemptCount + 1
      evidence := state.evidence ++ [event] }
  if plan.maxErrors ≤ attempted.errorCount then do
    let failure ← TerminalFields.modelValidate
      ⟨event.attempt.identityHash, attempted.errorCount, plan.maxErrors, error⟩
    return { attempted with terminalFailure := some failure }
  else .ok (advanceState plan attempted false)

def applyRejection (plan : FewshotCandidatePlan F) (state : BootstrapCompilerState F)
    (event : BootstrapFoldEvidence F) : BootstrapCompilerState F :=
  advanceState plan
    { state with attemptCount := state.attemptCount + 1, evidence := state.evidence ++ [event] }
    false

def applyAcceptance (plan : FewshotCandidatePlan F) (state : BootstrapCompilerState F)
    (event : BootstrapFoldEvidence F) (acceptance : BootstrapAcceptance F) :
    Except String (BootstrapCompilerState F) := do
  let grouped := groupSteps plan.componentIds event.result.traceSteps Dict.empty
  let augmented ← addDemos event.toEvidenceFields acceptance grouped.pairs state.augmentedDemos
  return advanceState plan
    { state with
      attemptCount := state.attemptCount + 1
      bootstrappedTaskIndices := state.bootstrappedTaskIndices ++ [event.attempt.taskIndex]
      augmentedDemos := augmented, evidence := state.evidence ++ [event] }
    true

/- `_apply_bootstrap_event_unchecked` -/
def applyBootstrapEventUnchecked (plan : FewshotCandidatePlan F)
    (state : BootstrapCompilerState F) (event : BootstrapFoldEvidence F) :
    Except String (BootstrapCompilerState F) :=
  match event.result.error, event.acceptance with
  | some error, _ => applyError plan state event error
  | none, none => .error "AssertionError"
  | none, some acceptance =>
    if acceptance.accepted then applyAcceptance plan state event acceptance
    else .ok (applyRejection plan state event)

/- One step of the replay of the evidence. -/
def replayEvent (plan : FewshotCandidatePlan F) (replay : BootstrapCompilerState F)
    (event : BootstrapFoldEvidence F) : Except String (BootstrapCompilerState F) := do
  raiseIf replay.terminalFailure.isSome "bootstrap evidence continues after terminal failure"
  let expected ← nextBootstrapAttemptUnchecked plan replay
  match expected with
  | none => .error "bootstrap evidence skips or rewrites the next attempt"
  | some expected => do
    raiseIf (pyEq event.attempt expected = false)
      "bootstrap evidence skips or rewrites the next attempt"
    raiseIf (event.result.attemptIdentityHash ≠ expected.identityHash)
      "bootstrap evidence result belongs to another attempt"
    if event.result.error.isNone then do
      let acceptance ← acceptanceFor expected event.result.toResultFields plan.metricThreshold
      raiseIf (pyEq event.acceptance (some acceptance) = false)
        "bootstrap evidence acceptance conflicts with candidate plan"
    else raiseIf event.acceptance.isSome "failed bootstrap evidence cannot be accepted"
    applyBootstrapEventUnchecked plan replay event

def replayEvidence (plan : FewshotCandidatePlan F) :
    List (BootstrapFoldEvidence F) → BootstrapCompilerState F →
    Except String (BootstrapCompilerState F)
  | [], replay => .ok replay
  | event :: rest, replay => do
    let next ← replayEvent plan replay event
    replayEvidence plan rest next

/- `_validate_state_for_plan` -/
def validateStateForPlan (plan : FewshotCandidatePlan F) (state : BootstrapCompilerState F) :
    Except String Unit := do
  raiseIf (plan.kind ≠ .bootstrap) "only bootstrap candidates can be folded"
  raiseIf (state.planIdentityHash ≠ plan.identityHash)
    "bootstrap state belongs to another candidate plan"
  raiseIf (¬ (state.augmentedDemos.keys ⊆ plan.componentIds ∧
      plan.componentIds ⊆ state.augmentedDemos.keys))
    "bootstrap state's component mapping does not match the plan"
  raiseIf (state.augmentedDemos.pairs.any fun pair =>
      pair.2.any fun demo => demo.componentId ≠ pair.1)
    "bootstrap state contains a demo under another component"
  let replay ← replayEvidence plan state.evidence (emptyCompilerState plan)
  raiseIf (replay.eqWith dumpEq state = false)
    "bootstrap state cursors or demos do not match evidence replay"

def nextBootstrapAttempt (plan : FewshotCandidatePlan F) (state : BootstrapCompilerState F) :
    Except BootstrapError (Option (BootstrapAttemptPlan F)) := do
  (validateStateForPlan plan state).mapError .value
  match state.terminalFailure with
  | some failure =>
    .error (.errorLimitReached failure.errorCount failure.maxErrors failure.error)
  | none => (nextBootstrapAttemptUnchecked plan state).mapError .value

def foldBootstrapResult (plan : FewshotCandidatePlan F) (state : BootstrapCompilerState F)
    (attempt : BootstrapAttemptPlan F) (result : BootstrapGenerationResult F)
    (metricThreshold : Option F) (componentIds : List String) :
    Except String (BootstrapCompilerState F) := do
  validateStateForPlan plan state
  raiseIf (componentIds ≠ plan.componentIds) "component_ids do not match the candidate plan"
  raiseIf (thresholdEq metricThreshold plan.metricThreshold = false)
    "metric_threshold does not match the candidate plan"
  let expected ← nextBootstrapAttemptUnchecked plan state
  raiseIf (expected.any (pyEq attempt) = false)
    "bootstrap result does not match the next attempt"
  raiseIf (result.attemptIdentityHash ≠ attempt.identityHash)
    "bootstrap result belongs to another attempt"
  let acceptance ← match result.error with
    | some _ => Except.ok none
    | none => (acceptanceFor attempt result.toResultFields metricThreshold).map some
  let event ← EvidenceFields.modelValidate ⟨attempt, result, acceptance⟩
  let advanced ← applyBootstrapEventUnchecked plan state event
  validateStateForPlan plan advanced
  return advanced

end Compiler

/-! ### The demonstrations of a candidate -/

section Materialize

variable {F : Type} [FiniteFloats F]

def materializeResetDemoSet (plan : FewshotCandidatePlan F) (componentIds : List String) :
    Except String (ComponentDemoSet F) := do
  raiseIf (plan.kind ≠ .reset) "plan is not the reset candidate"
  raiseIf (componentIds ≠ plan.componentIds) "component_ids do not match the candidate plan"
  let components ← componentIds.mapM fun componentId =>
    SequenceFields.modelValidate ⟨componentId, []⟩
  SetFields.modelValidate ⟨plan.candidateSeed, components⟩

def requirePlanOrderedLabeledTrainset (plan : FewshotCandidatePlan F)
    (labeledTrainset : List LabeledTaskDemo) : Except String Unit :=
  raiseIf ((labeledTrainset.map fun task => task.sourceTaskHash) ≠ plan.trainsetTaskHashes)
    "labeled_trainset order does not match candidate plan task order"

variable [IdentityHasher]

def labeledAt (F : Type) [FiniteFloats F] (labeledTrainset : List LabeledTaskDemo)
    (componentId : String) (index : Nat) : Except String (ComponentDemo F) :=
  match labeledTrainset[index]? with
  | none => .error "labeled selection index is outside the trainset"
  | some task => task.forComponent F componentId

def materializeLabeledSelection (F : Type) [FiniteFloats F] (candidateSeed : Int)
    (selection : LabeledSelectionPlan) (labeledTrainset : List LabeledTaskDemo) :
    Except String (ComponentDemoSet F) := do
  let components ← (selection.componentIds.zip selection.perComponentTaskIndices).mapM
    fun entry => do
      let demos ← entry.2.mapM (labeledAt F labeledTrainset entry.1)
      SequenceFields.modelValidate ⟨entry.1, demos⟩
  SetFields.modelValidate ⟨candidateSeed, components⟩

def materializeLabelsOnlyDemoSet (plan : FewshotCandidatePlan F)
    (labeledTrainset : List LabeledTaskDemo) : Except String (ComponentDemoSet F) := do
  raiseIf (plan.kind ≠ .labelsOnly) "plan is not the labels-only candidate"
  match plan.labelsOnlySelection with
  | none => .error "plan is not the labels-only candidate"
  | some selection => do
    requirePlanOrderedLabeledTrainset plan labeledTrainset
    materializeLabeledSelection F plan.candidateSeed selection labeledTrainset

variable [FloatJson F] [TraceChoice] [RandomDraws]

/- The tasks that no accepted attempt took, in the plan's order. -/
def validationTasks (labeledTrainset : List LabeledTaskDemo) (accepted : List Nat) :
    List LabeledTaskDemo :=
  (labeledTrainset.zipIdx.filter fun entry => entry.2 ∉ accepted).map Prod.fst

/- Each component samples from the tasks that the one before it sampled. -/
def bootstrapSequences (plan : FewshotCandidatePlan F) (state : BootstrapCompilerState F) :
    List String → List LabeledTaskDemo → RandomSample.Rng →
    Except String (List (ComponentDemoSequence F))
  | [], _, _ => .ok []
  | componentId :: rest, rawDemos, rng => do
    let augmented := ((state.augmentedDemos.get? componentId).getD []).take
      plan.maxBootstrappedDemos.toNat
    let sampleSize := min (plan.maxLabeledDemos - augmented.length) rawDemos.length
    let sampled ← sampleList rng rawDemos (max 0 sampleSize).toNat
    let labeled ← sampled.1.mapM fun task => task.forComponent F componentId
    let sequence ← SequenceFields.modelValidate ⟨componentId, augmented ++ labeled⟩
    let others ← bootstrapSequences plan state rest sampled.1 sampled.2
    return sequence :: others

def materializeBootstrapDemoSet (plan : FewshotCandidatePlan F) (state : BootstrapCompilerState F)
    (labeledTrainset : List LabeledTaskDemo) (componentIds : List String) :
    Except String (ComponentDemoSet F) := do
  validateStateForPlan plan state
  raiseIf (componentIds ≠ plan.componentIds) "component_ids do not match the candidate plan"
  requirePlanOrderedLabeledTrainset plan labeledTrainset
  let validation := validationTasks labeledTrainset state.bootstrappedTaskIndices
  let shuffled := (shuffleList (RandomSample.seeded 0) validation).1
  let components ← bootstrapSequences plan state componentIds shuffled (RandomSample.seeded 0)
  SetFields.modelValidate ⟨plan.candidateSeed, components⟩

end Materialize

end Whetstone.Optim.Miprov2
