import Whetstone.Lib.Act
import Whetstone.Lib.Dict
import Whetstone.Lib.Raise

/-! The durable state of one platform member: its work-state head, the step results bound to
step positions, the deferred intents, and what the evaluation stages bound. A reference to a
stored object is the object itself; records are named by their content. -/
namespace Whetstone.Platform
open Whetstone.Lib

inductive EvalDispatchMode where
  | inline
  | platform
deriving DecidableEq

structure OptimWorkInput where
  runId : String
  controllerIdentityHash : String
  controlIdentityHash : String
  dispatchMode : EvalDispatchMode
  platformStageIndex : Nat
  platformRunKey : String
  workKey : String
deriving DecidableEq

/- `requestId` stands for the rest of the request. -/
structure OptimEvalRequest where
  requestId : String
  taskHashes : Option (List String)
deriving DecidableEq

inductive IntentOutcome where
  | completed
  | failed
  | rejected
deriving DecidableEq

structure IntentResolution where
  optimEvalRequest : OptimEvalRequest
  outcome : IntentOutcome
  detail : String
deriving DecidableEq

inductive StepStatus where
  | continue
  | complete
  | failed
deriving DecidableEq

/- `body` is everything else the adapter left in the record. -/
structure OptimStepResult where
  requestHash : String
  stepIndex : Nat
  body : String
  resolvedIntents : List IntentResolution
  status : StepStatus
deriving DecidableEq

structure OptimWorkState where
  workInput : OptimWorkInput
  stepIndex : Nat := 0
  stepResultRefs : List OptimStepResult := []
  terminal : Bool := false
  pendingStepResultRef : Option OptimStepResult := none
  deferralOptimStepStageIndex : Option Nat := none
  pendingDeferredIntents : List OptimEvalRequest := []
deriving DecidableEq

def OptimWorkState.stage (state : OptimWorkState) : Nat := state.workInput.platformStageIndex

structure EvalRowInput where
  workState : OptimWorkState
  deferralOriginStageIndex : Nat
  rowOrdinal : Nat
  optimEvalRequest : OptimEvalRequest
  taskId : String
  seedIndex : Nat
deriving DecidableEq

structure DeferralJoinInput where
  workState : OptimWorkState
  deferralOptimStepStageIndex : Nat
  primaryOptimEvalRequest : OptimEvalRequest
  rowInputs : List EvalRowInput
deriving DecidableEq

inductive RowOutcome where
  | evidence (reference : String)
  | rejected (detail : String)
deriving DecidableEq

structure RowRecord where
  optimEvalRequest : OptimEvalRequest
  taskId : String
  seedIndex : Nat
  deferralOriginStageIndex : Nat
  rowOrdinal : Nat
  outcome : Option RowOutcome
deriving DecidableEq

inductive StageInput where
  | workInput (input : OptimWorkInput)
  | workState (state : OptimWorkState)
  | evalRow (input : EvalRowInput)
  | join (input : DeferralJoinInput)
deriving DecidableEq

inductive StageKey where
  | optimStep
  | evalRow
  | evalFanin
deriving DecidableEq

structure StageSuccessor where
  stageKey : StageKey
  stageIndex : Nat
  input : StageInput
  barrier : Bool := false
deriving DecidableEq

/- The store as one member's stages see it. -/
structure Store where
  head : Option OptimWorkState
  stepResults : Dict Nat OptimStepResult
  deferredIntents : Dict Nat (List OptimEvalRequest)
  rows : Dict EvalRowInput RowRecord
  fanins : Dict DeferralJoinInput (List IntentResolution)
  resolutions : Dict OptimEvalRequest IntentResolution
  memberTerminal : Option OptimWorkState
deriving DecidableEq

abbrev Stage := Act Store

/- What a member's stages run against. `requestHash` names the step request that is built
from the step position, the prior results and the stage salt. -/
structure Runtime where
  runtimeHash : String
  launchBound : Bool
  launchControlHash : String
  launchHasControl : Bool
  launchPoolsClaimStageIndex : Bool
  gepa : Bool
  taskIds : OptimEvalRequest → Except String (List String)
  numSeeds : Nat
  requestHash : Nat → List OptimStepResult → Option Nat → Except String String

/- A binding is written once; writing the same reference again changes nothing. -/
def bindKey {κ ν : Type} [DecidableEq κ] [DecidableEq ν] (d : Dict κ ν) (key : κ) (value : ν) :
    Except String (Dict κ ν) :=
  match d.get? key with
  | none => .ok (d.set key value)
  | some bound => if bound = value then .ok d else .error "binding conflict"

/- Evict, then bind: the head is replaced whatever it was. -/
def bindWorkStateHead (state : OptimWorkState) : Stage Unit :=
  Act.update fun s => { s with head := some state }

def persistWorkState (state : OptimWorkState) : Stage OptimWorkState := do
  bindWorkStateHead state
  return state

def persistDeferredIntents (stepIndex : Nat) (intents : List OptimEvalRequest) : Stage Unit := do
  let s ← Act.read
  let bound ← Act.ofExcept (bindKey s.deferredIntents stepIndex intents)
  Act.update fun s => { s with deferredIntents := bound }

def loadPersistedDeferredIntents (s : Store) (stepIndex : Nat) : List OptimEvalRequest :=
  (s.deferredIntents.get? stepIndex).getD []

def evictDeferredIntents (stepIndex : Nat) : Stage Unit :=
  Act.update fun s => { s with deferredIntents := s.deferredIntents.erase stepIndex }

def bindStepResult (stepIndex : Nat) (result : OptimStepResult) : Stage Unit := do
  let s ← Act.read
  let bound ← Act.ofExcept (bindKey s.stepResults stepIndex result)
  Act.update fun s => { s with stepResults := bound }

def evictStepResultBinding (stepIndex : Nat) : Stage Unit :=
  Act.update fun s => { s with stepResults := s.stepResults.erase stepIndex }

def validatePlatformStageIndex (stageIndex : Option Nat) (expected : Nat) : Except String Unit :=
  match stageIndex with
  | none => .ok ()
  | some index => raiseIf (index ≠ expected) "platform stage_index mismatch"

def requireControllerIdentity (runtime : Runtime) (workInput : OptimWorkInput) :
    Except String Unit :=
  raiseIf (workInput.controllerIdentityHash ≠ runtime.runtimeHash)
    "work input controller identity does not match bound runtime"

def acceptWorkStateHead (head : OptimWorkState) (workInput : OptimWorkInput) : Bool :=
  if head.workInput.runId ≠ workInput.runId then false
  else if head.workInput.controllerIdentityHash ≠ workInput.controllerIdentityHash then false
  else if head.workInput.controlIdentityHash ≠ workInput.controlIdentityHash then false
  else if head.stage < workInput.platformStageIndex then false
  else if head.pendingStepResultRef.isSome then true
  else head.stage = workInput.platformStageIndex

/- The bound results from a position on, up to the first that ends the run. The bindings are
finite, so as many positions as there are bindings suffice. -/
def boundResults (s : Store) : (fuel stepIndex : Nat) → List OptimStepResult
  | 0, _ => []
  | fuel + 1, stepIndex =>
    match s.stepResults.get? stepIndex with
    | none => []
    | some result =>
      if result.status ≠ .continue then [result]
      else result :: boundResults s fuel (stepIndex + 1)

def rebuildWorkState (s : Store) (workInput : OptimWorkInput) : OptimWorkState :=
  let results := boundResults s s.stepResults.pairs.length 0
  { workInput := workInput, stepIndex := results.length, stepResultRefs := results
    terminal := results.any (fun result => result.status ≠ .continue) }

def loadWorkState (runtime : Runtime) (s : Store) (input : StageInput) :
    Except String OptimWorkState :=
  match input with
  | .workState state => .ok state
  | .workInput workInput =>
    if runtime.launchBound = false then .error "optimization run launch is not bound"
    else match s.head with
      | some head =>
        if acceptWorkStateHead head workInput then .ok head
        else .ok (rebuildWorkState s workInput)
      | none => .ok (rebuildWorkState s workInput)
  | _ => .error "work input reference has the wrong schema"

end Whetstone.Platform
