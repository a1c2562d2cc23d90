import Whetstone.Core.Leasing
import Whetstone.Lib.Prog
import Whetstone.Tools.Backends
import Whetstone.Tools.Results

/-! The Tool Call Store as programs over single operations of the admission authority, the
object store and the lease authority. The records of a call's chain and of a reward are put
beside its result; no function here reads them back, so these puts are left out. -/
namespace Whetstone.Tools
open Whetstone.Core Whetstone.Lib Whetstone.Experiment

/- The exceptions of an evaluator. -/
inductive EvaluatorError where
  | evaluation (failure : TerminalFailure)
  | validation (reason : String)
  | other (message : String)
deriving DecidableEq

structure ToolEvaluation (F : Type) where
  output : List (String × Json)
  generationRefs : List TypedRef
  aggregates : Dict String (Option F)
  evalConfigHash : String

section Operations

variable [ToolIdentity] [LeaseText]

/- `lease` is an exception of the lease authority; `evaluator` one that the executor does not
   take as the outcome of the call. -/
inductive ExecutionError where
  | value (message : String)
  | runtime (message : String)
  | admission (error : AdmissionError)
  | lease (message : String)
  | busy
  | requestConflict (message : String)
  | recoveryRequired (failure : TerminalFailure)
  | evaluator (error : EvaluatorError)

variable (F : Type) [FiniteFloats F] [DecidableEq F] [RewardIdentity F]

/- `enter` and `leave` mark where an invocation begins and returns; the source has no
   operation there. -/
inductive ToolOp where
  | enter
  | leave (result : ToolResult F)
  | getEntry (key : EntryKey)
  | admitEntry (accepted refused : ToolCallStoreEntry) (maxAcceptedCalls : Int)
  | refuseEntry (entry : ToolCallStoreEntry)
  | completeEntry (entry : ToolCallStoreEntry)
  | acceptedCount (query : ScopeQuery)
  | putResult (result : ToolResult F)
  | getResult (ref : TypedRef)
  | acquire (request : EffectRequest) (ownerId : String)
  | publish (lease : Lease) (outcome : TerminalOutcome) (resultRef : TypedRef)
      (failure : Option TerminalFailure)
  | verifyTerminal (terminal : EffectTerminal)
  | validate (call : ToolCall)
  | evaluate (call : ToolCall)

variable {F}

abbrev ToolOp.Reply : ToolOp F → Type
  | .enter => Unit
  | .leave _ => Unit
  | .getEntry _ => Except AdmissionError (Option ToolCallStoreEntry)
  | .admitEntry _ _ _ => Except AdmissionError ToolCallStoreEntry
  | .refuseEntry _ => Except AdmissionError ToolCallStoreEntry
  | .completeEntry _ => Except AdmissionError ToolCallStoreEntry
  | .acceptedCount _ => Except AdmissionError Nat
  | .putResult _ => TypedRef
  | .getResult _ => Option (ToolResult F)
  | .acquire _ _ => Except String (Acquired EffectTerminal)
  | .publish _ _ _ _ => Except String EffectTerminal
  | .verifyTerminal _ => Except String EffectTerminal
  | .validate _ => Except EvaluatorError Unit
  | .evaluate _ => Except EvaluatorError (ToolEvaluation F)

variable (F) in
abbrev ToolProg := Prog (ToolOp F) ToolOp.Reply ExecutionError

end Operations

namespace ToolCallStore

variable [ToolIdentity] [LeaseText] {F : Type} [FiniteFloats F] [DecidableEq F]
variable [RewardIdentity F] [ResultIdentity F]

abbrev perform (o : ToolOp F) : ToolProg F o.Reply := Prog.perform o

def raiseValue {α : Type} (message : String) : ToolProg F α := .raise (.value message)

def refuseIf (bad : Prop) [Decidable bad] (message : String) : ToolProg F Unit :=
  Prog.ofExcept (raiseIf bad (.value message))

def fromAdmission {α : Type} : Except AdmissionError α → ToolProg F α
  | .ok a => .done a
  | .error error => .raise (.admission error)

def fromValidation {α : Type} : Except String α → ToolProg F α
  | .ok a => .done a
  | .error message => .raise (.value message)

def fromLease {α : Type} : Except String α → ToolProg F α
  | .ok a => .done a
  | .error message => .raise (.lease message)

def callKey (call : ToolCall) : EntryKey := (call.storeNamespaceKey, call.callId)

def get (call : ToolCall) : ToolProg F (Option ToolCallStoreEntry) := do
  match ← fromAdmission (← perform (.getEntry (callKey call))) with
  | none => return none
  | some existing =>
    Prog.ofExcept (raiseIf (existing.toolCall ≠ call) (.admission (.conflict existing .accepted
      "the existing key cites a different exact Tool Call")))
    return some existing

def persistResult (result : ToolResult F) : ToolProg F TypedRef := do
  let persisted ← perform (.putResult result)
  refuseIf (persisted ≠ toolResultReference result) "persisted Tool Result ref failed validation"
  return persisted

/- The fields every entry of a call shares. -/
def entryFields (call : ToolCall) (state : ToolCallState) : EntryFields where
  toolCall := call
  toolConfig := call.toolConfig
  storeNamespaceKey := call.storeNamespaceKey
  capacityScope := call.capacityScope
  capacityScopeId := call.capacityScopeId
  state := state
  capacityDebitOrdinal := none
  refusal := none
  toolResultRef := none
  effectTerminal := none

def capacityRefusal (config : ToolConfig) : ToolRefusal where
  refusalClass := .capacity
  reason := "Tool Capacity exhausted: " ++ toString config.capacity.maxAcceptedCalls ++ "/" ++
    toString config.capacity.maxAcceptedCalls ++ " accepted calls consumed"

/- A refusal's result, persisted, and the entry that cites it. -/
def refusedEntry (call : ToolCall) (refusal : ToolRefusal) :
    ToolProg F ToolCallStoreEntry := do
  let result ← fromValidation
    ({ call := call, refusal := some refusal : ResultFields F }).modelValidate
  let resultRef ← persistResult result
  fromAdmission ({ entryFields call .refused with
    refusal := some refusal, toolResultRef := some resultRef }).modelValidate

def admitCall (call : ToolCall) (config : ToolConfig) : ToolProg F ToolCallStoreEntry := do
  refuseIf (call.toolConfig ≠ config) "Tool Call must cite the exact supplied Tool Config"
  let accepted ← fromAdmission ({ entryFields call .accepted with
    capacityDebitOrdinal := some 1 }).modelValidate
  let refused ← refusedEntry call (capacityRefusal config)
  fromAdmission (← perform (.admitEntry accepted refused config.capacity.maxAcceptedCalls))

def refuse (call : ToolCall) (config : ToolConfig) (refusal : ToolRefusal) :
    ToolProg F ToolCallStoreEntry := do
  refuseIf (refusal.refusalClass = .capacity) "capacity refusal is owned by admission"
  refuseIf (call.toolConfig ≠ config) "Tool Call must cite the exact supplied Tool Config"
  let entry ← refusedEntry call refusal
  fromAdmission (← perform (.refuseEntry entry))

def scopeOf (entry : ToolCallStoreEntry) : ScopeQuery where
  storeNamespaceKey := entry.storeNamespaceKey
  toolConfigHash := entry.toolConfigHash
  capacityScope := entry.toolCall.capacityBinding.scope
  capacityScopeId := entry.toolCall.capacityBinding.capacityScopeId

def validateResultAuthority (result : ToolResult F) (entry : ToolCallStoreEntry) :
    ToolProg F Unit := do
  refuseIf (result.refusal ≠ none) "a refused Tool Result has no capacity provenance"
  match entry.capacityDebitOrdinal with
  | none =>
    raiseValue "a non-refused Tool Result requires an admitted capacity ordinal"
  | some ordinal =>
    let acceptedCount ← fromAdmission (← perform (.acceptedCount (scopeOf entry)))
    refuseIf (¬ (1 ≤ ordinal ∧ ordinal ≤ acceptedCount))
      "completed entry capacity ordinal is outside the durable admission projection"
    refuseIf (result.provenanceOrdinal = none ∨ result.provenanceOrdinal = some 0)
      "a non-refused Tool Result requires a positive provenance ordinal"
    refuseIf (result.provenanceOrdinal ≠ some ordinal)
      ("Tool Result provenance ordinal disagrees with the durable admission capacity ordinal")

/- The checks of a completion against the terminal that proves it. -/
def validateTerminalProof (result : ToolResult F) (terminal : EffectTerminal) :
    Except String Unit := do
  raiseIf (terminal.request ≠ toolEffectRequest result.call)
    "effect terminal belongs to another exact Tool request"
  raiseIf (terminal.resultRef ≠ some (toolResultReference result))
    "effect terminal references another exact Tool Result"
  match terminal.outcome with
  | .succeeded =>
    raiseIf (result.terminalFailure ≠ none)
      "succeeded effect terminal references a failed Tool Result"
  | .failed =>
    raiseIf (terminal.failure ≠ result.terminalFailure)
      "failed effect terminal and Tool Result disagree"
  | .recoveryRequired => throw "recovery-required effects have no completed Tool Result"

def complete (result : ToolResult F) (terminal : EffectTerminal) :
    ToolProg F ToolCallStoreEntry := do
  refuseIf (result.refusal ≠ none) "a refused Tool Result is terminal at admission"
  match ← get result.call with
  | none => raiseValue "the exact Tool Call was never admitted"
  | some existing =>
    validateResultAuthority result existing
    fromValidation (validateTerminalProof result terminal)
    let authoritative ← fromLease (← perform (.verifyTerminal terminal))
    let resultRef ← persistResult result
    let completed ← fromAdmission ({ entryFields result.call .completed with
      capacityDebitOrdinal := existing.capacityDebitOrdinal
      toolResultRef := some resultRef
      effectTerminal := some authoritative }).modelValidate
    fromAdmission (← perform (.completeEntry completed))

/- The content of a reference; a hash that no record has is an error of the object store. -/
def readResult (ref : TypedRef) : ToolProg F (ToolResult F) := do
  match ← perform (.getResult ref) with
  | none => raiseValue "durable record is missing"
  | some result => return result

def validateStoredOutcome (result : ToolResult F) (entry : ToolCallStoreEntry) :
    ToolProg F Unit := do
  match entry.state with
  | .refused =>
    refuseIf (result.refusal ≠ entry.refusal)
      "persisted Tool Result and admission refusal disagree"
  | .completed =>
    match entry.effectTerminal with
    | none => raiseValue "completed entry validation lost its effect terminal"
    | some terminal =>
      refuseIf (terminal.outcome ≠
          (if result.terminalFailure.isSome then .failed else .succeeded))
        "persisted Tool Result and effect terminal outcome disagree"
      refuseIf (terminal.failure ≠ result.terminalFailure)
        "persisted Tool Result and effect terminal failure disagree"
      validateResultAuthority result entry
  | .accepted => return

/- A completed entry's terminal is the authority's own. -/
def verifyEntryTerminal (entry : ToolCallStoreEntry) : ToolProg F Unit := do
  if entry.state = .completed then
    match entry.effectTerminal with
    | none => raiseValue "completed entry has no exact effect terminal"
    | some terminal =>
      let _ ← fromLease (← perform (.verifyTerminal terminal))
  return

def loadTerminalResult (entry : ToolCallStoreEntry) : ToolProg F (ToolResult F) := do
  match entry.toolResultRef with
  | none => raiseValue "entry has no terminal Tool Result"
  | some resultRef =>
    let durable ← fromAdmission
      (← perform (.getEntry (entry.storeNamespaceKey, entry.toolCall.callId)))
    refuseIf (durable ≠ some entry)
      "terminal entry does not match the durable admission decision"
    verifyEntryTerminal entry
    let result ← readResult resultRef
    refuseIf (toolResultReference result ≠ resultRef)
      "persisted Tool Result ref does not match the terminal entry"
    refuseIf (result.call ≠ entry.toolCall)
      "persisted Tool Result belongs to a different exact Tool Call"
    validateStoredOutcome result entry
    return result

def loadResult (resultRef : TypedRef) (expectedCall : ToolCall) : ToolProg F (ToolResult F) := do
  refuseIf (resultRef.schemaName ≠ toolResultSchema) "effect terminal references a non-Tool Result"
  let result ← readResult resultRef
  refuseIf (toolResultReference result ≠ resultRef) "effect terminal Tool Result ref is not exact"
  refuseIf (result.call ≠ expectedCall) "effect terminal Tool Result belongs to another Tool Call"
  return result

end ToolCallStore
end Whetstone.Tools
