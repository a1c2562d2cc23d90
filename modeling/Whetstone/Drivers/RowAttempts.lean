import Whetstone.Drivers.RowCodec
import Whetstone.Provider.LlmCall

/-! The two ways a rollout row is driven: in process, with re-execution of a row whose node
failed without an attribution, and in a worker that returns its row as a JSON payload.
The nodes behave as a function of the rendered prompt, the seed and the drive ordinal. -/
namespace Whetstone.Drivers
open Whetstone.Core Whetstone.Lib Whetstone.Eval Whetstone.Provider

variable {F : Type}

/- How one call of the graph engine ends. -/
inductive GraphExecution (F : Type) where
  | completed (result : GraphRunResult F)
  | interrupted (partialResult : GraphRunResult F)
  | raised (message : String)
deriving DecidableEq

def executeRolloutGraph : GraphExecution F → Except String (GraphRunResult F)
  | .completed result => .ok result
  | .interrupted partialResult => .ok partialResult
  | .raised message => .error message

/- What the rows of one evaluation share: the rendering of a template, the behaviour of the
graph nodes with the request identities they issue, and the provider execution policy. -/
structure RolloutContext (F : Type) where
  render : (template : Json) → (values : Dict String String) → Except String String
  execute : (rendered : String) → (rngSeed : Int) → (driveOrdinal : Nat) → GraphExecution F
  identities : (rendered : String) → (rngSeed : Int) → (driveOrdinal : Nat) → List String
  executionPolicy : Json
  policyIdentityHash : Json → String

/- Scheduling a row raises unless its task names itself. -/
structure ScheduledRow where
  candidateId : String
  template : Json
  taskId : String
  taskHash : String
  taskIndex : Nat
  seedIndex : Nat
  promptInputs : Dict String String
  seedPlan : SeedPlan
  splitRole : String
  named : taskId ≠ ""

def ScheduledRow.key (row : ScheduledRow) : RowKey :=
  ⟨row.candidateId, row.taskId, row.taskIndex, row.seedIndex⟩

def ScheduledRow.rngSeed (row : ScheduledRow) : Int :=
  resolveEvalRngSeed row.candidateId row.taskId row.taskHash row.seedIndex row.seedPlan

def defaultMaxRowAttempts : Nat := 3

def sumOptional (left right : Option Int) : Option Int :=
  match left, right with
  | none, right => right
  | left, none => left
  | some l, some r => some (l + r)

def sumOptionalCost [FloatOps F] (left right : Option F) : Option F :=
  match left, right with
  | none, right => right
  | left, none => left
  | some l, some r => some (FloatOps.add l r)

section InProcess
variable [JsonText]

def withAccumulatedAttemptUsage [FloatOps F] (output : RolloutRowOutput F)
    (previous : Option (RolloutRowOutput F)) (attempts : Nat) : RolloutRowOutput F :=
  match previous with
  | none => { output with rowAttempts := attempts }
  | some previous =>
    { output with
      rowAttempts := attempts
      promptTokens := sumOptional previous.promptTokens output.promptTokens
      completionTokens := sumOptional previous.completionTokens output.completionTokens
      providerCost := sumOptionalCost previous.providerCost output.providerCost }

def rowIsRetryable (output : RolloutRowOutput F) : Bool :=
  output.rowState = .failed && (attributeGeneratedRowCell output.failureCode).isNone

/- The attempt loop from `attemptIndex` on, with `remaining` attempts left. -/
def attemptLoop [FloatOps F] (execute : Nat → Except String (RolloutRowOutput F)) :
    (remaining attemptIndex : Nat) → (previous : Option (RolloutRowOutput F)) →
      Except String (RolloutRowOutput F)
  | 0, _, previous => raised "AssertionError" previous
  | remaining + 1, attemptIndex, previous => do
    let output ← execute attemptIndex
    let output := withAccumulatedAttemptUsage output previous (attemptIndex + 1)
    if rowIsRetryable output then
      attemptLoop execute remaining (attemptIndex + 1) (some output)
    else return output

variable [Conversions F]

/- One execution of the row's graph, projected. -/
def executeAttempt (context : RolloutContext F) (key : RowKey) (rendered : String)
    (rngSeed : Int) (driveOrdinal : Nat) : Except String (RolloutRowOutput F) := do
  let result ← executeRolloutGraph (context.execute rendered rngSeed driveOrdinal)
  graphResultToRowFields result key

def runRolloutRow [FloatOps F] (context : RolloutContext F) (row : ScheduledRow)
    (maxRowAttempts : Nat) : Except String (RolloutRowOutput F) := do
  raiseIf (maxRowAttempts < 1) "max_row_attempts must be at least 1"
  raiseIf (row.taskId = "") "task must expose a non-empty task_id"
  let rendered ← context.render row.template row.promptInputs
  attemptLoop (executeAttempt context row.key rendered row.rngSeed) maxRowAttempts 0 none

end InProcess

section Worker
variable [JsonText] [Conversions F]

inductive RowDispatchStatus where
  | completed
  | unitTimeout
  | operationDeadline
  | notDispatched
deriving DecidableEq

def RowDispatchStatus.value : RowDispatchStatus → String
  | .completed => "completed"
  | .unitTimeout => "unit-timeout"
  | .operationDeadline => "deadline"
  | .notDispatched => "not-dispatched"

structure GraphRowRequest where
  key : RowKey
  splitRole : String
  renderedPrompt : String
  rngSeed : Int
  executionPolicy : Json
  executionPolicyHash : String
deriving DecidableEq

def buildGraphRowRequest (context : RolloutContext F) (row : ScheduledRow) :
    Except String GraphRowRequest := do
  let rendered ← context.render row.template row.promptInputs
  return { key := row.key, splitRole := row.splitRole, renderedPrompt := rendered
           rngSeed := row.rngSeed, executionPolicy := context.executionPolicy
           executionPolicyHash := context.policyIdentityHash context.executionPolicy }

def runRow (context : RolloutContext F) (request : GraphRowRequest) :
    Except String (Payload F) := do
  raiseIf (context.policyIdentityHash request.executionPolicy ≠ request.executionPolicyHash)
    "execution_policy_hash does not match worker policy"
  let output ← executeAttempt context request.key request.renderedPrompt request.rngSeed 0
  return rolloutRowOutputToJson output
    (context.identities request.renderedPrompt request.rngSeed 0)

/- How the worker pool reports one job. -/
inductive Completion (F : Type) where
  | cancelled (started : Bool)
  | budgetExceeded (wallTime : Bool)
  | exited (payload : Payload F)
  | failed (detail : String)

def interpretCompletion : Completion F → Except String (Payload F × RowDispatchStatus)
  | .cancelled true => .ok (Dict.empty, .operationDeadline)
  | .cancelled false => .ok (Dict.empty, .notDispatched)
  | .budgetExceeded true => .ok (Dict.empty, .unitTimeout)
  | .budgetExceeded false => .error "row exceeded an unexpected budget"
  | .exited payload => .ok (payload, .completed)
  | .failed detail => .error ("row failed in its worker: " ++ detail)

def decodeGraphRowOutput (payload : Payload F) (request : GraphRowRequest)
    (dispatchStatus : RowDispatchStatus) : Except String (RolloutRowOutput F) :=
  match dispatchStatus with
  | .completed => rolloutRowOutputFromWorkerPayload payload
  | status => .ok (missingRow request.key status.value)

/- With no deadline a job ends as its entry point does. -/
def undisturbed : Except String (Payload F) → Completion F
  | .ok payload => .exited payload
  | .error detail => .failed detail

def subprocessRow (context : RolloutContext F) (row : ScheduledRow)
    (pool : Except String (Payload F) → Completion F) : Except String (RolloutRowOutput F) := do
  let request ← buildGraphRowRequest context row
  let (payload, status) ← interpretCompletion (pool (runRow context request))
  decodeGraphRowOutput payload request status

end Worker
end Whetstone.Drivers
