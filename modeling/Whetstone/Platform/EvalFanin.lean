import Whetstone.Platform.StepExecutor

/-! The evaluation-row and fan-in stages of a deferral episode. A fan-in resolves the
episode's intents from its row records and resumes the work state the episode was parked on. -/
namespace Whetstone.Platform
open Whetstone.Lib

def rowRecord (rowInput : EvalRowInput) (outcome : Option RowOutcome) : RowRecord where
  optimEvalRequest := rowInput.optimEvalRequest
  taskId := rowInput.taskId
  seedIndex := rowInput.seedIndex
  deferralOriginStageIndex := rowInput.deferralOriginStageIndex
  rowOrdinal := rowInput.rowOrdinal
  outcome := outcome

/- `executor` is what the row executor of this call returns. -/
def executeEvalRow (runtime : Runtime) (rowInput : EvalRowInput) (stageIndex : Option Nat)
    (executor : Except String (Option RowOutcome)) : Stage StageCompletion := do
  let s ← Act.read
  match s.rows.get? rowInput with
  | some record => return ⟨.row record, []⟩
  | none =>
    Act.ofExcept (requireControllerIdentity runtime rowInput.workState.workInput)
    Act.ofExcept (validatePlatformStageIndex stageIndex
      (rowInput.deferralOriginStageIndex + 1 + rowInput.rowOrdinal))
    let outcome ← Act.ofExcept executor
    Act.update fun s => { s with rows := s.rows.set rowInput (rowRecord rowInput outcome) }
    return ⟨.row (rowRecord rowInput outcome), []⟩

/- The environment of one fan-in: the predecessors its ledger lists, when the call names a
work item, and what the evaluation service answers for an intent that is not resolved. -/
structure FaninAnswer where
  predecessors : Option (Except String (List RowRecord))
  resolve : OptimEvalRequest → Except String IntentResolution

def boundRowRecord (s : Store) (rowInput : EvalRowInput) : Except String RowRecord :=
  match s.rows.get? rowInput with
  | some record => .ok record
  | none => .error "eval row input is not bound to a completion record"

def collectEpisodeRowRecords (runtime : Runtime) (s : Store) (join : DeferralJoinInput)
    (answer : FaninAnswer) : Except String (List RowRecord) := do
  raiseIf (join.workState.pendingDeferredIntents = [])
    "deferral episode is missing pending deferred intents"
  let expected ← deferredRowCount runtime join.workState.pendingDeferredIntents
  match answer.predecessors with
  | some listed =>
    let records ← listed
    raiseIf (records.length ≠ expected)
      "eval fan-in ledger predecessors do not match episode row count"
    return records
  | none =>
    raiseIf (join.rowInputs.length ≠ expected)
      "eval fan-in persisted row refs do not match episode row count"
    join.rowInputs.mapM (boundRowRecord s)

/- The intents of the records, each where it first occurs. -/
def uniqueIntents (records : List RowRecord) : List OptimEvalRequest :=
  (records.map (fun record => record.optimEvalRequest)).foldl
    (fun seen intent => if intent ∈ seen then seen else seen ++ [intent]) []

/- The resolutions an earlier execution of this fan-in recorded, or those bound already. -/
def cachedFaninResolutions (s : Store) (join : DeferralJoinInput)
    (intents : List OptimEvalRequest) : Option (List IntentResolution) :=
  match s.fanins.get? join with
  | some resolutions => some resolutions
  | none => intents.mapM fun intent => s.resolutions.get? intent

def resolveEpisodeIntent (records : List RowRecord) (answer : FaninAnswer)
    (intent : OptimEvalRequest) : Stage IntentResolution := do
  let s ← Act.read
  match s.resolutions.get? intent with
  | some existing => return existing
  | none =>
    Act.ofExcept (raiseIf (∀ record ∈ records, record.optimEvalRequest ≠ intent)
      "deferral episode is missing row outcomes for intent")
    let resolution ← Act.ofExcept (answer.resolve intent)
    Act.update fun s => { s with resolutions := s.resolutions.set intent resolution }
    return resolution

def resolveEpisodeIntents (records : List RowRecord) (answer : FaninAnswer) :
    List OptimEvalRequest → Stage (List IntentResolution)
  | [] => return []
  | intent :: rest => do
    let resolution ← resolveEpisodeIntent records answer intent
    let resolutions ← resolveEpisodeIntents records answer rest
    return resolution :: resolutions

def headIsLaterEpisode (head : OptimWorkState) (stepIndex episodeStageIndex
    faninResumeStageIndex : Nat) : Bool :=
  if head.stepIndex > stepIndex then true
  else if head.stepIndex < stepIndex then false
  else match head.deferralOptimStepStageIndex with
    | some origin => decide (origin > episodeStageIndex)
    | none => decide (head.stage > faninResumeStageIndex + 1)

/- The resumed work state; `none` is a stale fan-in, which leaves the head alone. -/
abbrev Resumed := Option OptimWorkState

/- GEPA resumes the step that was interrupted, unless the head has left the episode. -/
def finalizeGepa (workState : OptimWorkState) (episodeStageIndex : Nat) : Stage Resumed := do
  let s ← Act.read
  let stale := match s.head with
    | some head => headIsLaterEpisode head workState.stepIndex episodeStageIndex workState.stage
    | none => false
  if stale then return none
  evictDeferredIntents workState.stepIndex
  match s.head with
  | some head =>
    if head.stepIndex = workState.stepIndex ∧ head.pendingStepResultRef = none ∧
        head.pendingDeferredIntents = [] then
      return some { workInput := workState.workInput, stepIndex := head.stepIndex
                    stepResultRefs := head.stepResultRefs, terminal := head.terminal }
    else return some (interrupted workState)
  | none => return some (interrupted workState)
where
  interrupted (workState : OptimWorkState) : OptimWorkState :=
    { workInput := workState.workInput, stepIndex := workState.stepIndex
      stepResultRefs := workState.stepResultRefs.take workState.stepIndex }

/- Other optimizers keep the step with its resolutions and go on to the next. -/
def finalizeMerged (workState : OptimWorkState) (pending : OptimStepResult)
    (resolutions : List IntentResolution) : Stage Resumed := do
  evictDeferredIntents workState.stepIndex
  let merged := { pending with resolvedIntents := resolutions }
  bindStepResult workState.stepIndex merged
  return some { workInput := workState.workInput, stepIndex := workState.stepIndex + 1
                stepResultRefs := workState.stepResultRefs ++ [merged] }

/- The snapshot that the fan-in names is the one whose position is compared with it, so the
source's two tests for a work state beyond the step never succeed. -/
def finalizeDeferredStep (runtime : Runtime) (workState : OptimWorkState)
    (pending : OptimStepResult) (resolutions : List IntentResolution)
    (episodeStageIndex : Nat) : Stage Resumed := do
  Act.ofExcept (raiseIf (pending.resolvedIntents ≠ [] ∧ pending.resolvedIntents ≠ resolutions)
    "fan-in retry conflicts with merged step resolutions")
  if runtime.gepa then finalizeGepa workState episodeStageIndex
  else finalizeMerged workState pending resolutions

/- Record the resolutions of this input once; a retry takes those recorded. -/
def recordFanin (join : DeferralJoinInput) (resolutions : List IntentResolution) :
    Stage (List IntentResolution) := do
  let s ← Act.read
  match s.fanins.get? join with
  | some recorded => return recorded
  | none =>
    Act.update fun s => { s with fanins := s.fanins.set join resolutions }
    return resolutions

def completeFaninHandoff (runtime : Runtime) (join : DeferralJoinInput)
    (pending : OptimStepResult) (resolutions : List IntentResolution) :
    Stage StageCompletion := do
  Act.ofExcept (raiseIf (resolutions = []) "tuple index out of range")
  let resolutions ← recordFanin join resolutions
  let output := OutputReference.fanin join.primaryOptimEvalRequest resolutions
  let resumed ← finalizeDeferredStep runtime join.workState pending resolutions
    join.deferralOptimStepStageIndex
  match resumed with
  | none => return ⟨output, []⟩
  | some resumed =>
    let state ← persistWorkState
      { workInput := nextWorkInput resumed (resumed.stage + 1), stepIndex := resumed.stepIndex
        stepResultRefs := resumed.stepResultRefs, terminal := resumed.terminal }
    return ⟨output,
      [{ stageKey := .optimStep, stageIndex := state.stage, input := .workState state }]⟩

def executeEvalFanin (runtime : Runtime) (join : DeferralJoinInput) (stageIndex : Option Nat)
    (answer : FaninAnswer) : Stage StageCompletion := do
  let s ← Act.read
  Act.ofExcept (requireControllerIdentity runtime join.workState.workInput)
  Act.ofExcept (validatePlatformStageIndex stageIndex join.workState.stage)
  match join.workState.pendingStepResultRef with
  | none => Act.raise "deferral fan-in requires a pending step result"
  | some pending =>
    let records ← Act.ofExcept (collectEpisodeRowRecords runtime s join answer)
    let intents := uniqueIntents records
    Act.ofExcept (raiseIf (intents = []) "deferral episode has no deferred intents")
    match cachedFaninResolutions s join intents with
    | some resolutions => completeFaninHandoff runtime join pending resolutions
    | none =>
      Act.ofExcept (raiseIf (∀ record ∈ records, record.outcome = none)
        "deferral episode is incomplete: row outcomes are required for platform fan-in")
      Act.ofExcept (raiseIf (∃ record ∈ records, record.outcome = none)
        "eval row output is missing row outcome")
      let resolutions ← resolveEpisodeIntents records answer intents
      completeFaninHandoff runtime join pending resolutions

end Whetstone.Platform
