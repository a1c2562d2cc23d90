import Whetstone.Tools.Admission
import Whetstone.Lib.DebitLedger

/-! The memory and SQLite admission backends and the authority in front of them.
Every operation is one function of the tables, as the memory lock and the BEGIN IMMEDIATE
transaction make it; a raised error is returned beside the tables it leaves. -/
namespace Whetstone.Tools
open Whetstone.Core Whetstone.Lib

variable [ToolIdentity]

structure AdmissionBackend where
  State : Type
  empty : State
  admitCall : (accepted refused : ToolCallStoreEntry) → (maxAcceptedCalls : Int) → State →
    Except AdmissionError ToolCallStoreEntry × State
  refuse : ToolCallStoreEntry → State → Except AdmissionError ToolCallStoreEntry × State
  complete : ToolCallStoreEntry → State → Except AdmissionError ToolCallStoreEntry × State
  get : EntryKey → State → Except AdmissionError (Option ToolCallStoreEntry)
  acceptedCount : ScopeQuery → State → Except AdmissionError Nat
  admittedEntries : ScopeQuery → State → Except AdmissionError (List ToolCallStoreEntry)
  capacityRow : ScopeKey → State → Option (Int × Nat)

/-! ### Memory -/

structure MemoryTables where
  entries : Dict EntryKey ToolCallStoreEntry
  capacity : Dict ScopeKey (Int × Nat)

namespace MemoryTables

def admitCall (accepted refused : ToolCallStoreEntry) (maxAcceptedCalls : Int) (t : MemoryTables) :
    Except AdmissionError ToolCallStoreEntry × MemoryTables :=
  let key := accepted.entryKey
  match t.entries.get? key with
  | some existing => (replayOrConflict existing accepted, t)
  | none =>
    let scopeKey := accepted.scopeKey
    let (maximum, consumed) := (t.capacity.get? scopeKey).getD (maxAcceptedCalls, 0)
    if maximum ≠ maxAcceptedCalls then
      (.error (.runtime "capacity maximum changed within one scope"), t)
    else if (consumed : Int) < maximum then
      let ordinal := consumed + 1
      match acceptedWithOrdinal accepted ordinal with
      | .error error => (.error error, t)
      | .ok decision =>
        (.ok decision, ⟨t.entries.set key decision, t.capacity.set scopeKey (maximum, ordinal)⟩)
    else (.ok refused, { t with entries := t.entries.set key refused })

def refuse (entry : ToolCallStoreEntry) (t : MemoryTables) :
    Except AdmissionError ToolCallStoreEntry × MemoryTables :=
  let key := entry.entryKey
  match t.entries.get? key with
  | some existing => (replayOrConflict existing entry, t)
  | none => (.ok entry, { t with entries := t.entries.set key entry })

def complete (entry : ToolCallStoreEntry) (t : MemoryTables) :
    Except AdmissionError ToolCallStoreEntry × MemoryTables :=
  let key := entry.entryKey
  match completeTransition (t.entries.get? key) entry with
  | .error error => (.error error, t)
  | .ok completed => (.ok completed, { t with entries := t.entries.set key completed })

def acceptedCount (q : ScopeQuery) (t : MemoryTables) : Except AdmissionError Nat := do
  let scope ← q.key
  return ((t.capacity.get? scope).getD (0, 0)).2

def admittedEntries (q : ScopeQuery) (t : MemoryTables) :
    Except AdmissionError (List ToolCallStoreEntry) :=
  entriesInScope t.entries.values q

end MemoryTables

def memoryBackend : AdmissionBackend where
  State := MemoryTables
  empty := ⟨Dict.empty, Dict.empty⟩
  admitCall := MemoryTables.admitCall
  refuse := MemoryTables.refuse
  complete := MemoryTables.complete
  get := fun key t => .ok (t.entries.get? key)
  acceptedCount := MemoryTables.acceptedCount
  admittedEntries := MemoryTables.admittedEntries
  capacityRow := fun scope t => t.capacity.get? scope

/-! ### SQLite -/

/-- Entry text as it stands in the entry table. JSON encoding and strict decoding with record
validation are library code; the one law used is that decoding restores what was encoded. -/
structure EntryCodec (Text : Type) where
  entryText : ToolCallStoreEntry → Text
  decodeEntry : Text → Except AdmissionError ToolCallStoreEntry
  decode_text : ∀ e, decodeEntry (entryText e) = .ok e

/- The first integer beyond the signed 64-bit range of an INTEGER column. -/
def sqliteIntegerLimit : Int := 9223372036854775808

variable {Text : Type}

structure SqliteTables (Text : Type) where
  entry : Dict EntryKey Text
  capacity : Dict ScopeKey (Int × Nat)

namespace SqliteTables

def load (codec : EntryCodec Text) (key : EntryKey) (t : SqliteTables Text) :
    Except AdmissionError (Option ToolCallStoreEntry) :=
  match t.entry.get? key with
  | none => .ok none
  | some raw => (codec.decodeEntry raw).map some

def insertEntry (codec : EntryCodec Text) (key : EntryKey) (e : ToolCallStoreEntry)
    (t : SqliteTables Text) : Except AdmissionError ToolCallStoreEntry × SqliteTables Text :=
  match t.entry.get? key with
  | some _ => (.error (.runtime "UNIQUE constraint failed"), t)
  | none => (.ok e, { t with entry := t.entry.set key (codec.entryText e) })

def updateEntry (key : EntryKey) (raw : Text) (t : SqliteTables Text) : SqliteTables Text :=
  match t.entry.get? key with
  | some _ => { t with entry := t.entry.set key raw }
  | none => t

def insertOrIgnoreCapacity (scope : ScopeKey) (maxAcceptedCalls : Int) (t : SqliteTables Text) :
    SqliteTables Text :=
  match t.capacity.get? scope with
  | some _ => t
  | none => { t with capacity := t.capacity.set scope (maxAcceptedCalls, 0) }

/- A body that raises is rolled back to the tables it began with. -/
def transaction {α : Type}
    (body : SqliteTables Text → Except AdmissionError α × SqliteTables Text)
    (t : SqliteTables Text) : Except AdmissionError α × SqliteTables Text :=
  match body t with
  | (.ok a, t') => (.ok a, t')
  | (.error error, _) => (.error error, t)

def admitCall (codec : EntryCodec Text) (accepted refused : ToolCallStoreEntry)
    (maxAcceptedCalls : Int) : SqliteTables Text →
      Except AdmissionError ToolCallStoreEntry × SqliteTables Text :=
  transaction fun t =>
    let key := accepted.entryKey
    match t.load codec key with
    | .error error => (.error error, t)
    | .ok (some existing) => (replayOrConflict existing accepted, t)
    | .ok none =>
      let scope := accepted.scopeKey
      if sqliteIntegerLimit ≤ maxAcceptedCalls then
        (.error (.runtime "Python int too large to convert to SQLite INTEGER"), t)
      else
        let t := t.insertOrIgnoreCapacity scope maxAcceptedCalls
        match t.capacity.get? scope with
        | none => (.error (.runtime "capacity scope disappeared"), t)
        | some (maximum, consumed) =>
          if maximum ≠ maxAcceptedCalls then
            (.error (.runtime "capacity maximum changed within one scope"), t)
          else if (consumed : Int) < maximum then
            let ordinal := consumed + 1
            match acceptedWithOrdinal accepted ordinal with
            | .error error => (.error error, t)
            | .ok decision =>
              let t := { t with capacity := t.capacity.set scope (maximum, ordinal) }
              t.insertEntry codec key decision
          else t.insertEntry codec key refused

def refuse (codec : EntryCodec Text) (entry : ToolCallStoreEntry) : SqliteTables Text →
    Except AdmissionError ToolCallStoreEntry × SqliteTables Text :=
  transaction fun t =>
    let key := entry.entryKey
    match t.load codec key with
    | .error error => (.error error, t)
    | .ok (some existing) => (replayOrConflict existing entry, t)
    | .ok none => t.insertEntry codec key entry

def complete (codec : EntryCodec Text) (entry : ToolCallStoreEntry) : SqliteTables Text →
    Except AdmissionError ToolCallStoreEntry × SqliteTables Text :=
  transaction fun t =>
    let key := entry.entryKey
    match t.load codec key with
    | .error error => (.error error, t)
    | .ok held =>
      match completeTransition held entry with
      | .error error => (.error error, t)
      | .ok completed => (.ok completed, t.updateEntry key (codec.entryText completed))

def acceptedCount (q : ScopeQuery) (t : SqliteTables Text) : Except AdmissionError Nat := do
  let scope ← q.key
  match t.capacity.get? scope with
  | none => return 0
  | some (_, consumed) => return consumed

/- The SELECT names no order; the table's own order is used and sorting by ordinal follows. -/
def admittedEntries (codec : EntryCodec Text) (q : ScopeQuery) (t : SqliteTables Text) :
    Except AdmissionError (List ToolCallStoreEntry) := do
  let _scopeId ← backendScopeId q.capacityScope q.capacityScopeId
  let rows := t.entry.pairs.filter fun p => decide (p.1.1 = q.storeNamespaceKey)
  let entries ← rows.mapM fun p => codec.decodeEntry p.2
  entriesInScope entries q

end SqliteTables

def sqliteBackend (codec : EntryCodec Text) : AdmissionBackend where
  State := SqliteTables Text
  empty := ⟨Dict.empty, Dict.empty⟩
  admitCall := SqliteTables.admitCall codec
  refuse := SqliteTables.refuse codec
  complete := SqliteTables.complete codec
  get := SqliteTables.load codec
  acceptedCount := SqliteTables.acceptedCount
  admittedEntries := SqliteTables.admittedEntries codec
  capacityRow := fun scope t => t.capacity.get? scope

inductive BackendKind where
  | memory
  | sqlite
deriving DecidableEq

def backend (codec : EntryCodec Text) : BackendKind → AdmissionBackend
  | .memory => memoryBackend
  | .sqlite => sqliteBackend codec

/-! ### The authority -/

inductive AdmissionRequest where
  | admitCall (accepted refused : ToolCallStoreEntry) (maxAcceptedCalls : Int)
  | refuse (entry : ToolCallStoreEntry)
  | complete (entry : ToolCallStoreEntry)

namespace ToolAdmissionAuthority

variable (b : AdmissionBackend)

def admitCall (accepted refused : ToolCallStoreEntry) (maxAcceptedCalls : Int) (s : b.State) :
    Except AdmissionError ToolCallStoreEntry × b.State :=
  match validateAdmissionAttempt accepted refused maxAcceptedCalls with
  | .error error => (.error error, s)
  | .ok () => b.admitCall accepted refused maxAcceptedCalls s

def refuse (entry : ToolCallStoreEntry) (s : b.State) :
    Except AdmissionError ToolCallStoreEntry × b.State :=
  if entry.state ≠ .refused then (.error (.value "refusal candidate must be refused"), s)
  else if entry.refusal.map ToolRefusal.refusalClass = some .capacity then
    (.error (.value "capacity refusal is owned by admission"), s)
  else b.refuse entry s

def complete (entry : ToolCallStoreEntry) (s : b.State) :
    Except AdmissionError ToolCallStoreEntry × b.State :=
  if entry.state ≠ .completed then (.error (.value "completion candidate must be completed"), s)
  else b.complete entry s

def step (s : b.State) : AdmissionRequest → Except AdmissionError ToolCallStoreEntry × b.State
  | .admitCall accepted refused maxAcceptedCalls => admitCall b accepted refused maxAcceptedCalls s
  | .refuse entry => refuse b entry s
  | .complete entry => complete b entry s

def run : b.State → List AdmissionRequest → b.State
  | s, [] => s
  | s, request :: rest => run (step b s request).2 rest

end ToolAdmissionAuthority
end Whetstone.Tools
