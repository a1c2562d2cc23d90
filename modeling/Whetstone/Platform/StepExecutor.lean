import Whetstone.Platform.WorkState

/-! The optimizer-step stage of a platform member. A stage execution loads an immutable
snapshot, runs at most one harness step, and rebinds the work-state head. The harness runs
the adapter, so what a fresh step returns is an answer of the environment. -/
namespace Whetstone.Platform
open Whetstone.Lib

/- What a completion names as its output: a work state, a row record, or the resolutions a
fan-in recorded for the request that leads its episode. -/
inductive OutputReference where
  | workState (state : OptimWorkState)
  | row (record : RowRecord)
  | fanin (optimEvalRequest : OptimEvalRequest) (resolutions : List IntentResolution)
deriving DecidableEq

structure StageCompletion where
  outputReference : OutputReference
  successors : List StageSuccessor
deriving DecidableEq

/- What the adapter and the evaluation service leave in a step that is not bound yet. -/
inductive HarnessAnswer where
  | raises (message : String)
  | steps (body : String) (status : StepStatus) (resolvedIntents : List IntentResolution)
      (deferred : List OptimEvalRequest)
deriving DecidableEq

def nextWorkInput (state : OptimWorkState) (platformStageIndex : Nat) : OptimWorkInput :=
  { state.workInput with platformStageIndex := platformStageIndex }

/- `_deferred_row_count` -/
def deferredRowCount (runtime : Runtime) (intents : List OptimEvalRequest) : Except String Nat := do
  let counts ← intents.mapM fun intent => do
    return (← runtime.taskIds intent).length * runtime.numSeeds
  return counts.foldl (· + ·) 0

/- The rows of one intent from an ordinal on. -/
def intentRows (runtime : Runtime) (state : OptimWorkState) (origin : Nat)
    (intent : OptimEvalRequest) : Except String (List (Nat → EvalRowInput)) := do
  let taskIds ← runtime.taskIds intent
  return taskIds.flatMap fun taskId => (List.range runtime.numSeeds).map fun seedIndex ordinal =>
    { workState := state, deferralOriginStageIndex := origin, rowOrdinal := ordinal
      optimEvalRequest := intent, taskId := taskId, seedIndex := seedIndex }

def expandEvalRows (runtime : Runtime) (intents : List OptimEvalRequest) (origin : Nat)
    (state : OptimWorkState) : Except String (List EvalRowInput) := do
  let rows ← intents.mapM (intentRows runtime state origin)
  let inputs := rows.flatten.mapIdx fun ordinal row => row ordinal
  raiseIf (∃ row ∈ inputs, row.taskId = "") "task_id must be non-empty"
  return inputs

def joinInput (intents : List OptimEvalRequest) (origin : Nat) (state : OptimWorkState)
    (rows : List EvalRowInput) : Except String DeferralJoinInput :=
  match intents with
  | [] => .error "list index out of range"
  | primary :: _ => do
    raiseIf (rows = []) "row_input_refs must be non-empty"
    return { workState := state, deferralOptimStepStageIndex := origin
             primaryOptimEvalRequest := primary, rowInputs := rows }

/- One successor for each row and the fan-in that joins them. -/
def emitDeferredSuccessors (runtime : Runtime) (intents : List OptimEvalRequest) (origin : Nat)
    (state : OptimWorkState) : Except String (List StageSuccessor) := do
  let rows ← expandEvalRows runtime intents origin state
  let join ← joinInput intents origin state rows
  return rows.mapIdx (fun ordinal row =>
      { stageKey := .evalRow, stageIndex := origin + 1 + ordinal, input := .evalRow row }) ++
    [{ stageKey := .evalFanin, stageIndex := origin + 1 + rows.length, input := .join join
       barrier := true }]

/- The head is parked on the barrier behind the rows before the rows are emitted. -/
def platformDeferredSuccessors (runtime : Runtime) (state : OptimWorkState)
    (deferred : List OptimEvalRequest) (currentStageIndex : Nat) (pending : OptimStepResult) :
    Stage StageCompletion := do
  let rowCount ← Act.ofExcept (deferredRowCount runtime deferred)
  let parked ← persistWorkState
    { workInput := nextWorkInput state (currentStageIndex + rowCount + 1)
      stepIndex := state.stepIndex
      stepResultRefs := state.stepResultRefs
      pendingStepResultRef := some pending
      deferralOptimStepStageIndex := some currentStageIndex
      pendingDeferredIntents := deferred }
  let successors ← Act.ofExcept (emitDeferredSuccessors runtime deferred currentStageIndex parked)
  return ⟨.workState parked, successors⟩

def platformDeferredResume (runtime : Runtime) (state : OptimWorkState) :
    Stage StageCompletion :=
  match state.pendingStepResultRef, state.deferralOptimStepStageIndex with
  | none, _ => Act.raise "deferred resume requires a pending step result"
  | _, none => Act.raise "deferred resume requires a deferral origin stage index"
  | some _, some origin => do
    Act.ofExcept (raiseIf (state.pendingDeferredIntents = [])
      "deferred resume requires pending deferred intents")
    let parked ← persistWorkState state
    let successors ← Act.ofExcept
      (emitDeferredSuccessors runtime state.pendingDeferredIntents origin parked)
    return ⟨.workState parked, successors⟩

def bindRunMemberTerminal (state : OptimWorkState) : Stage Unit := do
  if state.workInput.platformRunKey = "" ∨ state.workInput.workKey = "" then return ()
  let s ← Act.read
  match s.memberTerminal with
  | none => Act.update fun s => { s with memberTerminal := some state }
  | some bound => Act.ofExcept (raiseIf (bound ≠ state) "binding conflict")

/- A bound step result that waits for evaluations whose intents are still persisted. -/
def unresolvedDeferralAt (s : Store) (stepIndex : Nat) :
    Option (Nat × OptimStepResult × List OptimEvalRequest) :=
  match s.stepResults.get? stepIndex with
  | none => none
  | some result =>
    let deferred := loadPersistedDeferredIntents s stepIndex
    if result.status = .continue ∧ result.resolvedIntents = [] ∧ deferred ≠ [] then
      some (stepIndex, result, deferred)
    else none

def boundUnresolvedDeferral (s : Store) (state : OptimWorkState) :
    Option (Nat × OptimStepResult × List OptimEvalRequest) :=
  match unresolvedDeferralAt s state.stepIndex with
  | some found => some found
  | none => if 0 < state.stepIndex then unresolvedDeferralAt s (state.stepIndex - 1) else none

/- The work state a deferral is emitted for. -/
def emitState (state : OptimWorkState) (deferralStepIndex : Nat) : OptimWorkState :=
  { workInput := state.workInput, stepIndex := deferralStepIndex
    stepResultRefs := state.stepResultRefs.take deferralStepIndex }

/- Persist the intents, park the head, and drop the placeholder result with its intents. -/
def deferStep (runtime : Runtime) (state : OptimWorkState) (deferralStepIndex : Nat)
    (pending : OptimStepResult) (deferred : List OptimEvalRequest) : Stage StageCompletion := do
  persistDeferredIntents deferralStepIndex deferred
  let completion ← platformDeferredSuccessors runtime (emitState state deferralStepIndex)
    deferred state.stage pending
  evictStepResultBinding deferralStepIndex
  evictDeferredIntents deferralStepIndex
  return completion

def platformStageSalt (runtime : Runtime) (state : OptimWorkState) : Option Nat :=
  if runtime.gepa then some state.stage else none

/- The position and the name of the step request. -/
def stepRequest (runtime : Runtime) (state : OptimWorkState) : Except String (Nat × String) := do
  raiseIf (runtime.launchControlHash ≠ state.workInput.controlIdentityHash)
    "work input control hash does not match launch"
  raiseIf (runtime.launchPoolsClaimStageIndex = true)
    "launch extra_pools may not set 'platform_stage_index'"
  if state.stepIndex = 0 then
    return (0, ← runtime.requestHash 0 [] (platformStageSalt runtime state))
  match state.stepResultRefs.getLast? with
  | none => throw "list index out of range"
  | some prior =>
    raiseIf (runtime.launchHasControl = false)
      "continuing run requires a bound optimizer control"
    return (prior.stepIndex + 1,
      ← runtime.requestHash (prior.stepIndex + 1) state.stepResultRefs
        (platformStageSalt runtime state))

/- A bound result is returned for the request it was made for, and no intent is deferred. -/
def runStepResult (s : Store) (stepIndex : Nat) (requestHash : String) (answer : HarnessAnswer) :
    Except String (OptimStepResult × List OptimEvalRequest) :=
  match s.stepResults.get? stepIndex with
  | some existing =>
    if existing.requestHash = requestHash then .ok (existing, [])
    else .error "Step Result conflict"
  | none =>
    match answer with
    | .raises message => .error message
    | .steps body status resolvedIntents deferred =>
      .ok (⟨requestHash, stepIndex, body, resolvedIntents, status⟩, deferred)

/- `s` is the store as the step finds it. -/
def runStep (s : Store) (stepIndex : Nat) (requestHash : String) (answer : HarnessAnswer) :
    Stage (OptimStepResult × List OptimEvalRequest) := do
  let (result, deferred) ← Act.ofExcept (runStepResult s stepIndex requestHash answer)
  if deferred ≠ [] then persistDeferredIntents stepIndex deferred
  bindStepResult stepIndex result
  return (result, deferred)

/- The intents the step defers to the platform; none when it does not defer. -/
def deferredIntents (s : Store) (state : OptimWorkState) (stepIndex : Nat)
    (result : OptimStepResult) (deferred : List OptimEvalRequest) : List OptimEvalRequest :=
  if state.workInput.dispatchMode = .platform ∧ result.resolvedIntents = [] ∧
      result.status = .continue then
    if deferred ≠ [] then deferred
    else if state.pendingDeferredIntents ≠ [] then state.pendingDeferredIntents
    else loadPersistedDeferredIntents s stepIndex
  else []

def advanceStep (state : OptimWorkState) (stepIndex : Nat) (result : OptimStepResult) :
    Stage StageCompletion := do
  bindStepResult stepIndex result
  let updated ← persistWorkState
    { workInput := nextWorkInput state (state.stage + 1)
      stepIndex := state.stepIndex + 1
      stepResultRefs := state.stepResultRefs ++ [result]
      terminal := decide (result.status ≠ .continue) }
  if updated.terminal then
    bindRunMemberTerminal updated
    return ⟨.workState updated, []⟩
  return ⟨.workState updated,
    [{ stageKey := .optimStep, stageIndex := state.stage + 1, input := .workState updated }]⟩

/- The step proper. A step that defers nothing has persisted no intents either, so the
persisted intents are still those of `s`. -/
def harnessStep (runtime : Runtime) (s : Store) (state : OptimWorkState)
    (answer : HarnessAnswer) : Stage StageCompletion := do
  let (stepIndex, requestHash) ← Act.ofExcept (stepRequest runtime state)
  let (result, deferred) ← runStep s stepIndex requestHash answer
  match deferredIntents s state stepIndex result deferred with
  | [] => advanceStep state stepIndex result
  | intent :: rest => deferStep runtime state stepIndex result (intent :: rest)

def expectedStageIndex (state : OptimWorkState) : Nat :=
  match state.pendingStepResultRef, state.deferralOptimStepStageIndex with
  | some _, some origin => origin
  | _, _ => state.stage

def parked (state : OptimWorkState) : Bool :=
  state.workInput.dispatchMode = .platform && state.pendingStepResultRef.isSome

/- The deferral a crash left between its result and its parked head. -/
def crashWindow (s : Store) (state : OptimWorkState) :
    Option (Nat × OptimStepResult × List OptimEvalRequest) :=
  if state.workInput.dispatchMode = .platform then boundUnresolvedDeferral s state else none

/- The stage from the store `s` on, which nothing has written since it was read. -/
def optimStepFrom (runtime : Runtime) (s : Store) (input : StageInput) (stageIndex : Option Nat)
    (answer : HarnessAnswer) : Stage StageCompletion := do
  let state ← Act.ofExcept (loadWorkState runtime s input)
  Act.ofExcept (requireControllerIdentity runtime state.workInput)
  Act.ofExcept (validatePlatformStageIndex stageIndex (expectedStageIndex state))
  if state.terminal then
    let bound ← persistWorkState state
    bindRunMemberTerminal bound
    return ⟨.workState bound, []⟩
  else if parked state then
    let completion ← platformDeferredResume runtime state
    evictDeferredIntents state.stepIndex
    return completion
  else
    match crashWindow s state with
    | some (deferralStepIndex, pending, deferred) =>
      deferStep runtime state deferralStepIndex pending deferred
    | none => harnessStep runtime s state answer

def executeOptimStep (runtime : Runtime) (input : StageInput) (stageIndex : Option Nat)
    (answer : HarnessAnswer) : Stage StageCompletion := do
  let s ← Act.read
  optimStepFrom runtime s input stageIndex answer

end Whetstone.Platform
