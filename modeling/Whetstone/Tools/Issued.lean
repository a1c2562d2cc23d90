import Whetstone.Lib.Prog
import Whetstone.Tools.Admission

/-! The issued Tool Call ledger of one Step request: claims, slots and terminals, as programs
over single store operations.

A store reference is the record it addresses. The keys are those of one request, which is part
of every key the source computes. The Tool Call Store is asked at every step anew, so its
answers may change between any two operations; the executor is part of it. -/
namespace Whetstone.Tools.Issued
open Whetstone.Lib

/- `toolCalls` is the remaining tool_calls budget, a validated non-negative integer where it
   is present; `body` stands for the other fields of the request. -/
structure OptimStepRequest (Body : Type) where
  toolCalls : Option Nat
  body : Body
deriving DecidableEq

def OptimStepRequest.limit {Body : Type} (request : OptimStepRequest Body) : Nat :=
  request.toolCalls.getD 0

/- `payload` stands for the output, refusal, failure, evidence and reward of a result. -/
structure ToolResult (Payload : Type) where
  call : ToolCall
  payload : Payload
deriving DecidableEq

structure IssuedToolCallClaim (Body : Type) where
  request : OptimStepRequest Body
  call : ToolCall
deriving DecidableEq

structure IssuedToolCallSlot (Body : Type) where
  request : OptimStepRequest Body
  ordinal : Nat
  claim : IssuedToolCallClaim Body
  valid : claim.request = request
deriving DecidableEq

structure IssuedToolCallTerminal (Body Payload : Type) where
  claim : IssuedToolCallClaim Body
  result : ToolResult Payload
  valid : result.call = claim.call
deriving DecidableEq

inductive IssuedKey (Body : Type) where
  | call (callId : String)
  | slot (ordinal : Nat)
  | terminal (claim : IssuedToolCallClaim Body)
deriving DecidableEq

inductive IssuedObject (Body Payload : Type) where
  | claim (claim : IssuedToolCallClaim Body)
  | slot (slot : IssuedToolCallSlot Body)
  | terminal (terminal : IssuedToolCallTerminal Body Payload)
deriving DecidableEq

/- `toolStore` is an exception of the Tool Call Store or of the executor. -/
inductive IssuedError where
  | conflict (callId : String)
  | value (message : String)
  | runtime (message : String)
  | toolStore (message : String)
  | outOfFuel
deriving DecidableEq

def IssuedError.message : IssuedError → String
  | .conflict callId => "Tool Call ID '" ++ callId ++ "' is bound to another exact Tool Call"
  | .value message => message
  | .runtime message => message
  | .toolStore message => message
  | .outOfFuel => "maximum recursion depth exceeded"

section Operations

variable [ToolIdentity]

structure ToolCallStore (Payload : Type) where
  get : ToolCall → Except String (Option ToolCallStoreEntry)
  loadTerminalResult : ToolCallStoreEntry → Except String (ToolResult Payload)
  persistResult : ToolResult Payload → Except String Bool
  execute : ToolCall → Except String (ToolResult Payload)

/- One use of a ledger by a thread that holds it. -/
inductive LedgerCall where
  | issue (call : ToolCall)
  | evidence

inductive IssuedOp (Body Payload : Type) where
  | resolve (key : IssuedKey Body)
  | put (object : IssuedObject Body Payload)
  | get (ref : IssuedObject Body Payload)
  | bind (key : IssuedKey Body) (ref : IssuedObject Body Payload)
  | openLedger (ledger : Nat) (threads : List (List LedgerCall))
      (replayPrefix : List (IssuedToolCallSlot Body))
  | acquire (ledger : Nat)
  | release (ledger : Nat)
  | enter (ledger : Nat) (callId : String)
  | leave (ledger : Nat) (callId : String)
  | replaySlot (ledger : Nat)
  | advance (ledger : Nat)
  | toolStoreGet (call : ToolCall)
  | loadTerminalResult (entry : ToolCallStoreEntry)
  | persistResult (result : ToolResult Payload)
  | execute (call : ToolCall)

abbrev IssuedOp.Reply {Body Payload : Type} : IssuedOp Body Payload → Type
  | .resolve _ => Option (IssuedObject Body Payload)
  | .put _ => Unit
  | .get _ => Option (IssuedObject Body Payload)
  | .bind _ _ => Bool
  | .openLedger _ _ _ => Unit
  | .acquire _ => Unit
  | .release _ => Unit
  | .enter _ _ => Bool
  | .leave _ _ => Unit
  | .replaySlot _ => Option (IssuedToolCallSlot Body)
  | .advance _ => Unit
  | .toolStoreGet _ => Except String (Option ToolCallStoreEntry)
  | .loadTerminalResult _ => Except String (ToolResult Payload)
  | .persistResult _ => Except String Bool
  | .execute _ => Except String (ToolResult Payload)

abbrev IssuedProg (Body Payload : Type) :=
  Prog (IssuedOp Body Payload) IssuedOp.Reply IssuedError

end Operations

section Programs

variable [ToolIdentity] {Body Payload : Type}

abbrev perform (o : IssuedOp Body Payload) : IssuedProg Body Payload o.Reply := Prog.perform o

def raise {α : Type} (error : IssuedError) : IssuedProg Body Payload α := .raise error

def refuse (bad : Prop) [Decidable bad] (error : IssuedError) : IssuedProg Body Payload Unit :=
  Prog.ofExcept (raiseIf bad error)

/- An answer of the Tool Call Store, whose exceptions pass through. -/
def fromToolStore {α : Type} : Except String α → IssuedProg Body Payload α
  | .ok a => .done a
  | .error message => .raise (.toolStore message)

/- `try: … finally: cleanup`, for a cleanup that does not raise. -/
def withCleanup {α : Type} (p : IssuedProg Body Payload α) (cleanup : IssuedProg Body Payload Unit) :
    IssuedProg Body Payload α := do
  let a ← p.handle fun error => do
    cleanup
    raise error
  cleanup
  return a

variable [DecidableEq Body] [DecidableEq Payload] (request : OptimStepRequest Body)

def claimReference (call : ToolCall) : IssuedProg Body Payload (IssuedToolCallClaim Body) := do
  let record : IssuedToolCallClaim Body := ⟨request, call⟩
  perform (.put (.claim record))
  return record

def loadClaim (ref : IssuedObject Body Payload) :
    IssuedProg Body Payload (IssuedToolCallClaim Body) := do
  match ref with
  | .claim _ =>
    match ← perform (.get ref) with
    | some (.claim record) =>
      refuse (record.request ≠ request)
        (.value "Issued Tool Call claim belongs to another exact request")
      return record
    | _ => raise (.value "durable record is missing")
  | _ => raise (.value "Issued Tool Call claim ref has the wrong schema")

def loadSlot (ref : IssuedObject Body Payload) (ordinal : Nat) :
    IssuedProg Body Payload (IssuedToolCallSlot Body) := do
  match ref with
  | .slot _ =>
    match ← perform (.get ref) with
    | some (.slot slot) =>
      refuse (slot.request ≠ request ∨ slot.ordinal ≠ ordinal)
        (.value "Issued Tool Call slot belongs to another request or ordinal")
      let claim ← loadClaim request (.claim slot.claim)
      refuse (claim ≠ slot.claim)
        (.value "Issued Tool Call slot does not contain its exact durable claim")
      return slot
    | _ => raise (.value "durable record is missing")
  | _ => raise (.value "Issued Tool Call slot ref has the wrong schema")

/- The binding of a call id after an attempt to bind it to this claim; a conflict is not an
   error here, the winner is read back. -/
def resolveOrBind (claim : IssuedToolCallClaim Body) :
    IssuedProg Body Payload (Option (IssuedObject Body Payload)) := do
  match ← perform (.resolve (.call claim.call.callId)) with
  | some bound => return some bound
  | none =>
    let _ ← perform (.bind (.call claim.call.callId) (.claim claim))
    perform (.resolve (.call claim.call.callId))

def validateOrReconcileClaimBinding (claim : IssuedToolCallClaim Body) :
    IssuedProg Body Payload Unit := do
  match ← resolveOrBind claim with
  | none => raise (.runtime "Issued Tool Call claim binding disappeared")
  | some bound =>
    let loaded ← loadClaim request bound
    refuse (loaded ≠ claim) (.conflict claim.call.callId)

def resolveSlots : Nat → Nat → IssuedProg Body Payload (List (Option (IssuedObject Body Payload)))
  | 0, _ => return []
  | count + 1, ordinal => do
    let ref ← perform (.resolve (.slot ordinal))
    let rest ← resolveSlots count (ordinal + 1)
    return ref :: rest

/- The references before the first gap; a reference after it is an error. -/
def beforeGap : List (Option (IssuedObject Body Payload)) →
    Except IssuedError (List (IssuedObject Body Payload))
  | [] => .ok []
  | none :: rest => do
    raiseIf (rest.any Option.isSome = true)
      (.value "Issued Tool Call slots must be contiguous from ordinal zero")
    return []
  | some ref :: rest => do
    let refs ← beforeGap rest
    return ref :: refs

def loadSlots : Nat → List (IssuedToolCallClaim Body) → List (IssuedObject Body Payload) →
    IssuedProg Body Payload (List (IssuedToolCallSlot Body))
  | _, _, [] => return []
  | ordinal, seenClaims, ref :: refs => do
    let slot ← loadSlot request ref ordinal
    refuse (slot.claim ∈ seenClaims)
      (.value "Issued Tool Call claim occupies multiple durable slots")
    let slots ← loadSlots (ordinal + 1) (slot.claim :: seenClaims) refs
    return slot :: slots

def reconcileSlots : List (IssuedToolCallSlot Body) → IssuedProg Body Payload Unit
  | [] => return
  | slot :: slots => do
    validateOrReconcileClaimBinding request slot.claim
    reconcileSlots slots

def overflowMessage (limit : Nat) : String :=
  "Issued Tool Call slot ordinal is outside the bounded budget: found ordinal " ++
    toString limit ++ ", limit " ++ toString limit

def readSlots : IssuedProg Body Payload (List (IssuedToolCallSlot Body)) := do
  let overflow ← perform (.resolve (.slot request.limit))
  refuse (overflow.isSome = true) (.value (overflowMessage request.limit))
  let refs ← resolveSlots request.limit 0
  let bound ← Prog.ofExcept (beforeGap refs)
  let slots ← loadSlots request 0 [] bound
  reconcileSlots request slots
  return slots

def exhaustedMessage (callId : String) (limit : Nat) : String :=
  "Tool Call budget exhausted before dispatch: attempted call '" ++ callId ++ "', but only " ++
    toString limit ++ " tool_calls remain"

/- `_reserve` calls itself after a conflict. The conflicting slot is found by the next scan, so
   more than `limit + 1` rounds cannot be needed. -/
def reserve (claim : IssuedToolCallClaim Body) : Nat →
    IssuedProg Body Payload (IssuedToolCallSlot Body)
  | 0 => raise .outOfFuel
  | fuel + 1 => do
    let slots ← readSlots request
    match slots.filter (fun slot => slot.claim = claim) with
    | [slot] => return slot
    | _ :: _ :: _ => raise (.value "Issued Tool Call claim occupies multiple durable slots")
    | [] =>
      refuse (request.limit ≤ slots.length)
        (.value (exhaustedMessage claim.call.callId request.limit))
      if valid : claim.request = request then
        let slot : IssuedToolCallSlot Body := ⟨request, slots.length, claim, valid⟩
        perform (.put (.slot slot))
        if ← perform (.bind (.slot slots.length) (.slot slot)) then
          let bound ← perform (.resolve (.slot slots.length))
          refuse (bound ≠ some (.slot slot))
            (.runtime "Issued Tool Call slot binding disappeared")
          return slot
        else reserve claim fuel
      else raise (.value "Issued Tool Call slot and claim must cite the exact request")

def claimAndReserve (call : ToolCall) : IssuedProg Body Payload (IssuedToolCallClaim Body) := do
  let requested ← claimReference request call
  match ← perform (.resolve (.call call.callId)) with
  | some existingRef =>
    let existing ← loadClaim request existingRef
    refuse (existing ≠ requested) (.conflict call.callId)
    let _ ← reserve request existing (request.limit + 1)
    return existing
  | none =>
    let _ ← reserve request requested (request.limit + 1)
    validateOrReconcileClaimBinding request requested
    return requested

def loadTerminal (ref : IssuedObject Body Payload) (claim : IssuedToolCallClaim Body) :
    IssuedProg Body Payload (IssuedToolCallTerminal Body Payload) := do
  match ref with
  | .terminal _ =>
    match ← perform (.get ref) with
    | some (.terminal terminal) =>
      refuse (terminal.claim ≠ claim)
        (.value "Issued Tool Call terminal belongs to another exact claim")
      return terminal
    | _ => raise (.value "durable record is missing")
  | _ => raise (.value "Issued Tool Call terminal ref has the wrong schema")

def terminalForClaim (claim : IssuedToolCallClaim Body) :
    IssuedProg Body Payload (Option (IssuedToolCallTerminal Body Payload)) := do
  match ← perform (.resolve (.terminal claim)) with
  | none => return none
  | some ref =>
    let terminal ← loadTerminal ref claim
    return some terminal

def authoritativeTerminal (terminal : IssuedToolCallTerminal Body Payload) :
    IssuedProg Body Payload (ToolResult Payload × ToolCallStoreEntry) := do
  match ← fromToolStore (← perform (.toolStoreGet terminal.claim.call)) with
  | none => raise (.value "Issued Tool Call terminal has no Tool Call Store entry")
  | some entry =>
    let result ← fromToolStore (← perform (.loadTerminalResult entry))
    refuse (result ≠ terminal.result)
      (.value "Issued Tool Call ledger and Tool Call Store terminal disagree")
    return (result, entry)

/- Binds a terminal, or accepts the one that is bound when it is the same. -/
def bindTerminal (claim : IssuedToolCallClaim Body)
    (terminal : IssuedToolCallTerminal Body Payload) : IssuedProg Body Payload Unit := do
  perform (.put (.terminal terminal))
  if ← perform (.bind (.terminal claim) (.terminal terminal)) then return
  else
    match ← perform (.resolve (.terminal claim)) with
    | none => raise (.runtime "Issued Tool Call terminal binding disappeared")
    | some existingRef =>
      let existing ← loadTerminal existingRef claim
      refuse (existing ≠ terminal) (.value "Issued Tool Call already has another exact terminal")

def recordTerminal (claim : IssuedToolCallClaim Body) (result : ToolResult Payload) :
    IssuedProg Body Payload (ToolResult Payload) := do
  if valid : result.call = claim.call then
    let persisted ← fromToolStore (← perform (.persistResult result))
    refuse (persisted = false) (.value "persisted Tool Result ref failed validation")
    match ← fromToolStore (← perform (.toolStoreGet claim.call)) with
    | none => raise (.value "Tool Result has no Tool Call Store entry")
    | some entry =>
      let authoritative ← fromToolStore (← perform (.loadTerminalResult entry))
      refuse (authoritative ≠ result)
        (.value "Tool executor result differs from its authoritative terminal")
      let terminal : IssuedToolCallTerminal Body Payload := ⟨claim, result, valid⟩
      bindTerminal claim terminal
      match ← perform (.resolve (.terminal claim)) with
      | none => raise (.runtime "Issued Tool Call terminal binding disappeared")
      | some bound =>
        let persistedTerminal ← loadTerminal bound claim
        refuse (persistedTerminal ≠ terminal)
          (.value "Issued Tool Call already has another exact terminal")
        return authoritative
  else raise (.value "Tool executor returned a result for another exact Tool Call")

def replayMessage (ordinal : Nat) (expected callId : String) : String :=
  "recovered adapter must replay the exact durable Tool Call prefix in order before issuing a " ++
    "novel call: expected ordinal " ++ toString ordinal ++ " call '" ++ expected ++ "', got '" ++
    callId ++ "'"

/- The claim a call is issued under: the next one of the replay prefix, or a new one. -/
def issuedClaim (ledger : Nat) (call : ToolCall) :
    IssuedProg Body Payload (IssuedToolCallClaim Body) := do
  match ← perform (.replaySlot ledger) with
  | some expectedSlot =>
    if expectedSlot.claim.call ≠ call then
      if expectedSlot.claim.call.callId = call.callId then raise (.conflict call.callId)
      else raise (.value (replayMessage expectedSlot.ordinal expectedSlot.claim.call.callId
        call.callId))
    else
      validateOrReconcileClaimBinding request expectedSlot.claim
      perform (.advance ledger)
      return expectedSlot.claim
  | none => claimAndReserve request call

def lookupCall (ledger : Nat) (call : ToolCall) : IssuedProg Body Payload
    (IssuedToolCallClaim Body × Option (IssuedToolCallTerminal Body Payload)) := do
  let claim ← issuedClaim request ledger call
  let existing ← terminalForClaim claim
  return (claim, existing)

def terminalState (entry : ToolCallStoreEntry) : Bool :=
  entry.state = .refused ∨ entry.state = .completed

/- What a claimed call without a terminal does: adopt the result the Tool Call Store has, or
   execute the call. -/
def finishCall (claim : IssuedToolCallClaim Body) (call : ToolCall) :
    IssuedProg Body Payload (ToolResult Payload) := do
  match ← fromToolStore (← perform (.toolStoreGet call)) with
  | some entry =>
    if terminalState entry then
      let terminalResult ← fromToolStore (← perform (.loadTerminalResult entry))
      recordTerminal claim terminalResult
    else executed
  | none => executed
where
  executed : IssuedProg Body Payload (ToolResult Payload) := do
    let result ← fromToolStore (← perform (.execute call))
    recordTerminal claim result

def issue (ledger : Nat) (call : ToolCall) : IssuedProg Body Payload (ToolResult Payload) := do
  perform (.acquire ledger)
  if ← perform (.enter ledger call.callId) then
    let (claim, existing) ← (lookupCall request ledger call).handle fun error => do
      perform (.leave ledger call.callId)
      perform (.release ledger)
      raise error
    perform (.release ledger)
    withCleanup (match existing with
      | some terminal => do
        let (result, _entry) ← authoritativeTerminal terminal
        return result
      | none => finishCall claim call) (leaveLocked ledger call.callId)
  else
    perform (.release ledger)
    raise (.value "Tool Call IDs must be unique within a Step attempt")
where
  leaveLocked (ledger : Nat) (callId : String) : IssuedProg Body Payload Unit := do
    perform (.acquire ledger)
    perform (.leave ledger callId)
    perform (.release ledger)

def evidenceFrom : List (IssuedToolCallClaim Body) → List (IssuedToolCallSlot Body) →
    IssuedProg Body Payload (List (ToolResult Payload × ToolCallStoreEntry))
  | _, [] => return []
  | seenClaims, slot :: slots => do
    refuse (slot.claim ∈ seenClaims)
      (.value "Issued Tool Call claim occupies multiple durable slots")
    match ← terminalForClaim slot.claim with
    | none => raise (.value ("Issued Tool Call has no durable terminal result; " ++
        "adapter recovery is required"))
    | some terminal =>
      let (_result, entry) ← authoritativeTerminal terminal
      let rest ← evidenceFrom (slot.claim :: seenClaims) slots
      return (terminal.result, entry) :: rest

def evidence : IssuedProg Body Payload (List (ToolResult Payload × ToolCallStoreEntry)) := do
  let slots ← readSlots request
  evidenceFrom [] slots

/- A ledger reads its replay prefix when it is built, and is then shared by its threads. -/
def newLedger (ledger : Nat) (threads : List (List LedgerCall)) :
    IssuedProg Body Payload Unit := do
  let replayPrefix ← readSlots request
  perform (.openLedger ledger threads replayPrefix)

def ledgerCall (ledger : Nat) : LedgerCall → IssuedProg Body Payload Unit
  | .issue call => do
    let _ ← issue request ledger call
    return
  | .evidence => do
    let _ ← evidence request
    return

/- The calls of one thread; one that raises is given up and the next one made. -/
def caller (ledger : Nat) : List LedgerCall → IssuedProg Body Payload Unit
  | [] => return
  | call :: rest => do
    (ledgerCall request ledger call).handle fun _ => pure ()
    caller ledger rest

end Programs

/-! ### The store -/

structure LedgerState (Body : Type) where
  locked : Bool
  activeCallIds : List String
  seenCallIds : List String
  replayPrefix : List (IssuedToolCallSlot Body)
  replayOrdinal : Nat

namespace LedgerState

variable {Body : Type}

def opened (replayPrefix : List (IssuedToolCallSlot Body)) : LedgerState Body :=
  ⟨false, [], [], replayPrefix, 0⟩

/- A held lock blocks: the step is not enabled. -/
def acquire (st : LedgerState Body) : Option (Unit × LedgerState Body) :=
  if st.locked then none else some ((), { st with locked := true })

def release (st : LedgerState Body) : Option (Unit × LedgerState Body) :=
  some ((), { st with locked := false })

def enter (callId : String) (st : LedgerState Body) : Option (Bool × LedgerState Body) :=
  if callId ∈ st.activeCallIds ∨ callId ∈ st.seenCallIds then some (false, st)
  else some (true, { st with
    seenCallIds := callId :: st.seenCallIds
    activeCallIds := callId :: st.activeCallIds })

def leave (callId : String) (st : LedgerState Body) : Option (Unit × LedgerState Body) :=
  some ((), { st with activeCallIds := st.activeCallIds.erase callId })

def replaySlot (st : LedgerState Body) :
    Option (Option (IssuedToolCallSlot Body) × LedgerState Body) :=
  some (st.replayPrefix[st.replayOrdinal]?, st)

def advance (st : LedgerState Body) : Option (Unit × LedgerState Body) :=
  some ((), { st with replayOrdinal := st.replayOrdinal + 1 })

end LedgerState

structure IssuedStore (Body Payload : Type) where
  objects : List (IssuedObject Body Payload)
  bindings : Dict (IssuedKey Body) (IssuedObject Body Payload)
  ledgers : Dict Nat (LedgerState Body)

section Store

variable {Body Payload : Type}

def IssuedStore.empty : IssuedStore Body Payload := ⟨[], Dict.empty, Dict.empty⟩

def IssuedStore.onLedger {α : Type} (s : IssuedStore Body Payload) (ledger : Nat)
    (f : LedgerState Body → Option (α × LedgerState Body)) :
    Option (α × IssuedStore Body Payload) :=
  match s.ledgers.get? ledger with
  | none => none
  | some st =>
    match f st with
    | none => none
    | some (a, st') => some (a, { s with ledgers := s.ledgers.set ledger st' })

variable [DecidableEq Body] [DecidableEq Payload]

/- First writer wins; binding the bound reference again succeeds. -/
def IssuedStore.bind (key : IssuedKey Body) (ref : IssuedObject Body Payload)
    (s : IssuedStore Body Payload) : Bool × IssuedStore Body Payload :=
  match s.bindings.get? key with
  | some bound => (bound = ref, s)
  | none => (true, { s with bindings := s.bindings.set key ref })

inductive IssuedLabel where
  | ledger (ledger : Nat) (threads : List (List LedgerCall))
  | caller (ledger : Nat) (calls : List LedgerCall)

variable [ToolIdentity]

def execute (_ : IssuedLabel) (o : IssuedOp Body Payload) (tools : ToolCallStore Payload)
    (s : IssuedStore Body Payload) : Option (o.Reply × IssuedStore Body Payload) :=
  match o with
  | .resolve key => some (s.bindings.get? key, s)
  | .put object => some ((), { s with objects := object :: s.objects })
  | .get ref => some (if ref ∈ s.objects then some ref else none, s)
  | .bind key ref => some (s.bind key ref)
  | .openLedger ledger _ replayPrefix =>
    some ((), { s with ledgers := s.ledgers.set ledger (.opened replayPrefix) })
  | .acquire ledger => s.onLedger ledger LedgerState.acquire
  | .release ledger => s.onLedger ledger LedgerState.release
  | .enter ledger callId => s.onLedger ledger (LedgerState.enter callId)
  | .leave ledger callId => s.onLedger ledger (LedgerState.leave callId)
  | .replaySlot ledger => s.onLedger ledger LedgerState.replaySlot
  | .advance ledger => s.onLedger ledger LedgerState.advance
  | .toolStoreGet call => some (tools.get call, s)
  | .loadTerminalResult entry => some (tools.loadTerminalResult entry, s)
  | .persistResult result => some (tools.persistResult result, s)
  | .execute call => some (tools.execute call, s)

def spawned : IssuedOp Body Payload → List IssuedLabel
  | .openLedger ledger threads _ => threads.map (.caller ledger)
  | _ => []

def issuedMachine (request : OptimStepRequest Body) :
    Machine IssuedLabel (IssuedStore Body Payload) (ToolCallStore Payload)
      (IssuedOp Body Payload) IssuedOp.Reply IssuedError where
  exec := execute
  spawns := spawned
  code
    | .ledger ledger threads => newLedger request ledger threads
    | .caller ledger calls => caller request ledger calls

/- Any number of ledgers over one request, each with the threads that will use it. -/
def startPool (request : OptimStepRequest Body) (ledgers : List (List (List LedgerCall))) :
    Pool IssuedLabel (IssuedStore Body Payload) (IssuedOp Body Payload) IssuedOp.Reply
      IssuedError :=
  ⟨.empty, ledgers.zipIdx.map fun l => (issuedMachine request).start (.ledger l.2 l.1)⟩

end Store
end Whetstone.Tools.Issued
