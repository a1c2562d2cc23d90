import Whetstone.Tools.CallStore

/-! The evaluating tool executor: one invocation of a runtime handle, and the machine in
which any number of invocations share one Tool Call Store. -/
namespace Whetstone.Tools
open Whetstone.Core Whetstone.Lib Whetstone.Experiment

def toolEvaluationRejectedCode : String := "tool_evaluation_rejected"

section Execute

variable [ToolIdentity] [LeaseText] {F : Type} [FiniteFloats F] [DecidableEq F]
variable [RewardIdentity F] [ResultIdentity F]

open ToolCallStore

structure EvaluatingToolExecutor (F : Type) [FiniteFloats F] where
  rewardPolicy : RewardPolicy F
  ownerId : String
  replayPolicy : ReplayPolicy

/- What `runtime_handle` checks of the config it is given. -/
def validateHandle (executor : EvaluatingToolExecutor F) (config : ToolConfig) :
    Except String Unit := do
  raiseIf (config.rewardPolicyHash ≠ RewardIdentity.rewardPolicyHash executor.rewardPolicy)
    ("Tool Config reward_policy_hash does not match the executor's exact Reward Policy " ++
      "Identity Hash")
  raiseIf (executor.replayPolicy ≠
      (if config.idempotentReplay then .idempotent else .noRedrive))
    "explicit ReplayPolicy disagrees with the exact Tool Config"

structure RuntimeToolHandle (F : Type) [FiniteFloats F] [RewardIdentity F] where
  executor : EvaluatingToolExecutor F
  config : ToolConfig
  valid : validateHandle executor config = .ok ()

variable (handle : RuntimeToolHandle F)

/- The outcome of an evaluation: a result, or the failure the call ends in. `message` is the
   text of the exception. -/
def successfulResult (call : ToolCall) (ordinal : Nat) (evaluation : ToolEvaluation F) :
    Except TerminalFailure (ToolResult F) :=
  if evaluation.evalConfigHash ≠ handle.config.evalConfig.configHash then
    .error ⟨"tool_eval_config_mismatch", "Tool evaluation bound a different exact Eval Config",
      .obj [("expected", .str handle.config.evalConfig.configHash),
        ("actual", .str evaluation.evalConfigHash)]⟩
  else
    let built : Except String (ToolResult F) := do
      let reward ← applyRewardPolicy handle.executor.rewardPolicy evaluation.aggregates .internal
        evaluation.generationRefs (some ordinal)
      ({ call := call, output := some evaluation.output
         evaluationEvidenceRefs := evaluation.generationRefs, reward := some reward
         provenanceOrdinal := some ordinal : ResultFields F }).modelValidate
    match built with
    | .ok result => .ok result
    | .error message => .error ⟨"tool_evaluation_contract",
        "Tool evaluation produced invalid deterministic result evidence",
        .obj [("error", .str message)]⟩

def rejectedFailure (reason : String) : TerminalFailure where
  code := toolEvaluationRejectedCode
  message := "Tool evaluation was rejected after the call was admitted"
  details := .obj [("reason", .str reason)]

/- The result of the evaluation and the failure to publish with it. Exceptions other than
   the two the executor catches pass through. -/
def evaluateCall (call : ToolCall) (ordinal : Nat) :
    ToolProg F (ToolResult F × Option TerminalFailure) := do
  let failed (failure : TerminalFailure) : ToolProg F (ToolResult F × Option TerminalFailure) := do
    let result ← fromValidation ({ call := call, terminalFailure := some failure
                                   provenanceOrdinal := some ordinal :
                                     ResultFields F }).modelValidate
    return (result, some failure)
  match ← perform (.evaluate call) with
  | .error (.evaluation failure) => failed failure
  | .error (.validation reason) => failed (rejectedFailure reason)
  | .error (.other message) => .raise (.evaluator (.other message))
  | .ok evaluation =>
    match successfulResult handle call ordinal evaluation with
    | .error failure => failed failure
    | .ok result => return (result, none)

/- A terminal that an earlier attempt published. -/
def replayTerminal (call : ToolCall) (terminal : EffectTerminal) : ToolProg F (ToolResult F) := do
  match terminal.outcome with
  | .succeeded =>
    match terminal.resultRef with
    | none => .raise (.runtime "succeeded Tool effect has no exact Tool Result ref")
    | some resultRef =>
      let result ← loadResult resultRef call
      Prog.ofExcept (raiseIf (result.terminalFailure ≠ none)
        (.runtime "succeeded Tool effect references a failed Tool Result"))
      let completed ← ToolCallStore.complete result terminal
      loadTerminalResult completed
  | .failed =>
    match terminal.resultRef, terminal.failure with
    | some resultRef, some failure =>
      let result ← loadResult resultRef call
      Prog.ofExcept (raiseIf (result.terminalFailure ≠ some failure)
        (.runtime "failed Tool effect and Tool Result disagree"))
      let completed ← ToolCallStore.complete result terminal
      loadTerminalResult completed
    | _, _ => .raise (.runtime "failed Tool effect has incomplete terminal evidence")
  | .recoveryRequired =>
    match terminal.failure with
    | none => .raise (.runtime "recovery-required Tool effect has no failure")
    | some failure => .raise (.recoveryRequired failure)

/- The evaluation under a lease, its publication and the completion of the entry. -/
def evaluateUnderLease (call : ToolCall) (entry : ToolCallStoreEntry) (lease : Lease) :
    ToolProg F (ToolResult F) := do
  match entry.capacityDebitOrdinal with
  | none => .raise (.runtime "accepted Tool Call entry has no capacity ordinal")
  | some ordinal =>
    let (result, failure) ← evaluateCall handle call ordinal
    let resultRef ← persistResult result
    let outcome := if failure.isSome then TerminalOutcome.failed else .succeeded
    let terminal ← fromLease (← perform (.publish lease outcome resultRef failure))
    let completed ← ToolCallStore.complete result terminal
    loadTerminalResult completed

def executeEntry (call : ToolCall) (entry : ToolCallStoreEntry) : ToolProg F (ToolResult F) := do
  let acquired ← fromLease (← perform (.acquire (toolEffectRequest call) handle.executor.ownerId))
  match acquired with
  | .terminal terminal => replayTerminal call terminal
  | .busy => .raise .busy
  | .requestConflict =>
    .raise (.requestConflict "Tool execution key is bound to another exact request")
  | .lease lease => evaluateUnderLease handle call entry lease

/- An entry that an earlier decision left, or that this call was admitted with. -/
def executeDecided (call : ToolCall) (entry : ToolCallStoreEntry) : ToolProg F (ToolResult F) :=
  if entry.state = .refused then loadTerminalResult entry else executeEntry handle call entry

/- The first decision on a call that has no entry. -/
def executeFresh (call : ToolCall) : ToolProg F (ToolResult F) := do
  match ← perform (.validate call) with
  | .error (.validation reason) =>
    let entry ← ToolCallStore.refuse call handle.config ⟨.validation, reason⟩
    loadTerminalResult entry
  | .error error => .raise (.evaluator error)
  | .ok () =>
    let entry ← admitCall call handle.config
    executeDecided handle call entry

def execute (call : ToolCall) : ToolProg F (ToolResult F) := do
  refuseIf (call.toolConfig ≠ handle.config)
    "Tool Call must cite the runtime handle's exact Config"
  match ← ToolCallStore.get call with
  | some existing => executeDecided handle call existing
  | none => executeFresh handle call

end Execute

/-! ### The machine -/

section Machine

variable [ToolIdentity] [LeaseText] (F : Type) [FiniteFloats F] [DecidableEq F]
variable [RewardIdentity F] [ResultIdentity F]

/- One call of `execute`, by its number among the calls of the run. -/
structure Invocation where
  number : Nat
  handle : RuntimeToolHandle F
  call : ToolCall

inductive ExecutionEvent where
  | entered (invocation : Invocation F)
  | evaluated (invocation : Invocation F)
  | returned (invocation : Invocation F) (result : ToolResult F)

structure ExecutionState (b : AdmissionBackend) (authority : LeaseAuthority) where
  admission : b.State
  results : Dict TypedRef (ToolResult F)
  leases : authority.State
  history : List (ExecutionEvent F)

/- What the environment chooses for one operation. -/
inductive ExecutionAnswer (authority : LeaseAuthority) where
  | silent
  | lease (attemptId : String) (choice : authority.Choice)
  | validated (reply : Except EvaluatorError Unit)
  | evaluated (reply : Except EvaluatorError (ToolEvaluation F))

variable {F} {b : AdmissionBackend} {authority : LeaseAuthority}

namespace ExecutionState

/- Objects are addressed by their content: what a reference holds stays. -/
def putResult (result : ToolResult F) (s : ExecutionState F b authority) :
    ExecutionState F b authority :=
  match s.results.get? (toolResultReference result) with
  | some _ => s
  | none => { s with results := s.results.set (toolResultReference result) result }

def record (event : ExecutionEvent F) (s : ExecutionState F b authority) :
    ExecutionState F b authority :=
  { s with history := s.history ++ [event] }

def withAdmission {α : Type} (s : ExecutionState F b authority) (decided : α × b.State) :
    α × ExecutionState F b authority :=
  (decided.1, { s with admission := decided.2 })

def withLeases {α : Type} (s : ExecutionState F b authority) (decided : α × authority.State) :
    α × ExecutionState F b authority :=
  (decided.1, { s with leases := decided.2 })

end ExecutionState

/- An operation of the stores, which the environment has no part in. -/
def storeOp (o : ToolOp F) (s : ExecutionState F b authority) :
    Option (o.Reply × ExecutionState F b authority) :=
  match o with
  | .getEntry key => some (b.get key s.admission, s)
  | .admitEntry accepted refused limit =>
    some (s.withAdmission (ToolAdmissionAuthority.admitCall b accepted refused limit s.admission))
  | .refuseEntry entry =>
    some (s.withAdmission (ToolAdmissionAuthority.refuse b entry s.admission))
  | .completeEntry entry =>
    some (s.withAdmission (ToolAdmissionAuthority.complete b entry s.admission))
  | .acceptedCount query => some (b.acceptedCount query s.admission, s)
  | .putResult result => some (toolResultReference result, s.putResult result)
  | .getResult ref => some (s.results.get? ref, s)
  | .verifyTerminal terminal => some (authority.effectVerify terminal s.leases, s)
  | _ => none

def execOp (invocation : Invocation F) (o : ToolOp F) (answer : ExecutionAnswer F authority)
    (s : ExecutionState F b authority) : Option (o.Reply × ExecutionState F b authority) :=
  match o, answer with
  | .enter, _ => some ((), s.record (.entered invocation))
  | .leave result, _ => some ((), s.record (.returned invocation result))
  | .acquire request ownerId, .lease attemptId choice =>
    some (s.withLeases (authority.effectAcquire request ownerId attemptId choice s.leases))
  | .publish lease outcome resultRef failure, .lease _ choice =>
    some (s.withLeases (authority.effectPublish lease outcome resultRef failure choice s.leases))
  | .validate _, .validated reply => some (reply, s)
  | .evaluate _, .evaluated reply => some (reply, s.record (.evaluated invocation))
  | o, _ => storeOp o s

variable (F b authority) in
def executionMachine : Machine (Invocation F) (ExecutionState F b authority)
    (ExecutionAnswer F authority) (ToolOp F) ToolOp.Reply ExecutionError where
  exec := execOp
  spawns := fun _ => []
  code := fun invocation => do
    ToolCallStore.perform .enter
    let result ← execute invocation.handle invocation.call
    ToolCallStore.perform (.leave result)

variable (b authority) in
/- Fresh stores, and one invocation for each handle and call, numbered in order. -/
def executionPool (calls : List (RuntimeToolHandle F × ToolCall)) :
    Pool (Invocation F) (ExecutionState F b authority) (ToolOp F) ToolOp.Reply ExecutionError where
  state := ⟨b.empty, Dict.empty, authority.initial, []⟩
  threads := calls.mapIdx fun number call =>
    (executionMachine F b authority).start ⟨number, call.1, call.2⟩

end Machine
end Whetstone.Tools
