import Whetstone.Lib.Crash
import Whetstone.Tools.IssuedSlots

/-! Crash recovery of an issued Tool Call ledger with one writer. A session builds a fresh
ledger, issues the adapter's calls in order and takes the checkpoint; it may stop at any
operation, and the next session starts over from what it left. The Tool Call Store is a state
machine with the laws that recovery rests on. -/
namespace Whetstone.Tools.Issued
open Whetstone.Lib

section Sessions

variable [ToolIdentity] {Body Payload : Type} [DecidableEq Body] [DecidableEq Payload]
variable (request : OptimStepRequest Body)

def skippedMessage (ordinal : Nat) (callId : String) : String :=
  "recovered adapter skipped its durable Tool Call replay prefix before checkpoint: expected " ++
    "ordinal " ++ toString ordinal ++ " call '" ++ callId ++ "'"

def validateReplayComplete (ledger : Nat) : IssuedProg Body Payload Unit := do
  perform (.acquire ledger)
  let expected ← perform (.replaySlot ledger)
  perform (.release ledger)
  match expected with
  | none => return
  | some slot => raise (.value (skippedMessage slot.ordinal slot.claim.call.callId))

def issueAll (ledger : Nat) : List ToolCall → IssuedProg Body Payload (List (ToolResult Payload))
  | [] => return []
  | call :: rest => do
    let result ← issue request ledger call
    let results ← issueAll ledger rest
    return result :: results

/- The adapter's part of a session: an exception of `issue` ends it. -/
def adapter (calls : List ToolCall) : IssuedProg Body Payload (List (ToolResult Payload)) := do
  newLedger request 0 []
  issueAll request 0 calls

def checkpoint : IssuedProg Body Payload (List (ToolResult Payload × ToolCallStoreEntry)) := do
  validateReplayComplete 0
  evidence request

def session (calls : List ToolCall) :
    IssuedProg Body Payload (List (ToolResult Payload × ToolCallStoreEntry)) := do
  let _ ← adapter request calls
  checkpoint request

end Sessions

/-! ### The Tool Call Store -/

section Authority

variable [ToolIdentity] {Payload : Type}

/-- `Script` is what decides an execution beside the state; an execution without a reply has
stopped on the way. -/
structure ToolAuthority (Payload : Type) where
  State : Type
  Script : Type
  inv : State → Prop
  get : ToolCall → State → Except String (Option ToolCallStoreEntry)
  loadTerminalResult : ToolCallStoreEntry → State → Except String (ToolResult Payload)
  persistResult : ToolResult Payload → State → Except String Bool × State
  execute : ToolCall → Script → State → Option (Except String (ToolResult Payload)) × State

namespace ToolAuthority

variable (A : ToolAuthority Payload)

/- The entry of a call and the terminal result it has for good. -/
structure Authoritative (s : A.State) (call : ToolCall) (entry : ToolCallStoreEntry)
    (result : ToolResult Payload) : Prop where
  get : A.get call s = .ok (some entry)
  terminal : terminalState entry = true
  load : A.loadTerminalResult entry s = .ok result
  call : result.call = call

structure Steady : Prop where
  persist_inv : ∀ result s, A.inv s → A.inv (A.persistResult result s).2
  persist_keeps : ∀ result s, A.inv s → ∀ call entry kept, A.Authoritative s call entry kept →
    A.Authoritative (A.persistResult result s).2 call entry kept
  persist_exact : ∀ result s exact, (A.persistResult result s).1 = .ok exact → exact = true
  execute_inv : ∀ call script s, A.inv s → A.inv (A.execute call script s).2
  execute_keeps : ∀ call script s, A.inv s → ∀ call' entry kept,
    A.Authoritative s call' entry kept →
      A.Authoritative (A.execute call script s).2 call' entry kept
  execute_settles : ∀ call script s result, A.inv s →
    (A.execute call script s).1 = some (.ok result) →
      ∃ entry, A.Authoritative (A.execute call script s).2 call entry result
  load_cites : ∀ call s entry result, A.inv s → A.get call s = .ok (some entry) →
    A.loadTerminalResult entry s = .ok result → result.call = call

def answers (s : A.State) : ToolCallStore Payload where
  get := fun call => A.get call s
  loadTerminalResult := fun entry => A.loadTerminalResult entry s
  persistResult := fun result => (A.persistResult result s).1
  execute := fun _ => .error "no execution"

end ToolAuthority

end Authority

section Machine

variable [ToolIdentity] {Body Payload : Type} [DecidableEq Body] [DecidableEq Payload]

structure RecoveryState (Body : Type) {Payload : Type} (A : ToolAuthority Payload) where
  ledger : IssuedStore Body Payload
  tools : A.State

/- An operation of a session. An execution without a script stops at once; an operation that
   is not enabled stops too. -/
def recoveryExec (A : ToolAuthority Payload) (o : IssuedOp Body Payload)
    (script : Option A.Script) (s : RecoveryState Body A) :
    Option o.Reply × RecoveryState Body A :=
  match o with
  | .execute call =>
    match script with
    | none => (none, s)
    | some script =>
      let (reply, tools) := A.execute call script s.tools
      (reply, { s with tools := tools })
  | .persistResult result =>
    let (reply, tools) := A.persistResult result s.tools
    (some reply, { s with tools := tools })
  | o =>
    match execute (.caller 0 []) o (A.answers s.tools) s.ledger with
    | none => (none, s)
    | some (reply, ledger) => (some reply, { s with ledger := ledger })

/- The stores after any number of sessions, each ended by a crash, an exception or its
   return. -/
def recovered (A : ToolAuthority Payload) (request : OptimStepRequest Body)
    (calls : List ToolCall) (tools : A.State) (sessions : List (List (Option A.Script))) :
    RecoveryState Body A :=
  sessions.foldl (fun s scripts => ((session request calls).attempt (recoveryExec A) scripts s).state)
    ⟨.empty, tools⟩

end Machine
end Whetstone.Tools.Issued
