import Whetstone.Tools.AdmissionLedger
import Whetstone.Tools.IssuedLedger

/-! The memory and SQLite backends side by side. Both hold the same entries; they differ in
the capacity rows, since SQLite opens a row before it decides and memory writes one only when
it accepts. -/
namespace Whetstone.Tools
open Whetstone.Core Whetstone.Lib

section Backends

variable [ToolIdentity]

inductive AuthorityCall where
  | change (request : AdmissionRequest)
  | get (storeNamespaceKey callId : String)
  | acceptedCount (query : ScopeQuery)
  | admittedEntries (query : ScopeQuery)

/- What a caller sees. Which error was raised is not part of it. -/
inductive AuthorityReply where
  | entry (entry : ToolCallStoreEntry)
  | held (entry : Option ToolCallStoreEntry)
  | count (count : Nat)
  | entries (entries : List ToolCallStoreEntry)
  | raised
deriving DecidableEq

def AuthorityReply.of {α : Type} (reply : α → AuthorityReply) :
    Except AdmissionError α → AuthorityReply
  | .ok value => reply value
  | .error _ => .raised

namespace ToolAdmissionAuthority

variable (b : AdmissionBackend)

def answer (s : b.State) : AuthorityCall → AuthorityReply × b.State
  | .change request => (.of .entry (step b s request).1, (step b s request).2)
  | .get storeNamespaceKey callId => (.of .held (b.get (storeNamespaceKey, callId) s), s)
  | .acceptedCount query => (.of .count (b.acceptedCount query s), s)
  | .admittedEntries query => (.of .entries (b.admittedEntries query s), s)

def replies : b.State → List AuthorityCall → List AuthorityReply
  | _, [] => []
  | s, call :: rest => (answer b s call).1 :: replies (answer b s call).2 rest

end ToolAdmissionAuthority

def ToolCallStoreEntry.isCapacityRefusal (e : ToolCallStoreEntry) : Bool :=
  e.refusal.map ToolRefusal.refusalClass = some .capacity

def capacityRefused (m : MemoryTables) (scope : ScopeKey) : Bool :=
  m.entries.values.any fun e => e.isCapacityRefusal && decide (e.scopeKey = scope)

/-- A first admission of a scope that has accepted nothing: the maximum is one SQLite can hold,
and it is not raised from the zero that an earlier admission of the scope was refused under. -/
def settledCall (m : MemoryTables) : AuthorityCall → Prop
  | .change (.admitCall accepted refused maxAcceptedCalls) =>
    validateAdmissionAttempt accepted refused maxAcceptedCalls = .ok () →
    m.entries.get? accepted.entryKey = none → m.capacity.get? accepted.scopeKey = none →
    maxAcceptedCalls < sqliteIntegerLimit ∧
      (maxAcceptedCalls = 0 ∨ capacityRefused m accepted.scopeKey = false)
  | _ => True

def settledCalls : MemoryTables → List AuthorityCall → Prop
  | _, [] => True
  | m, call :: rest => settledCall m call ∧
      settledCalls (ToolAdmissionAuthority.answer memoryBackend m call).2 rest

/- The row SQLite holds for a scope in which memory has accepted nothing. -/
def refusedRow (m : MemoryTables) (scope : ScopeKey) : Option (Int × Nat) :=
  if capacityRefused m scope then some (0, 0) else none

theorem capacityRefused_iff (m : MemoryTables) (scope : ScopeKey) :
    capacityRefused m scope = true ↔ ∃ key e, m.entries.get? key = some e ∧
      e.isCapacityRefusal = true ∧ e.scopeKey = scope := by
  simp only [capacityRefused, List.any_eq_true, Dict.mem_values_iff, Bool.and_eq_true,
    decide_eq_true_eq]
  constructor
  · rintro ⟨e,⟨key,he⟩,h⟩
    exact ⟨key, e, he, h⟩
  · rintro ⟨key,e,he,h⟩
    exact ⟨e, ⟨key, he⟩, h⟩

/-- A write under a key that held no capacity refusal adds one exactly when it is one. -/
theorem capacityRefused_set (m : MemoryTables) (rows : Dict ScopeKey (Int × Nat)) (key : EntryKey)
    (e : ToolCallStoreEntry)
    (hold : ∀ old, m.entries.get? key = some old → old.isCapacityRefusal = false)
    (scope : ScopeKey) :
    capacityRefused ⟨m.entries.set key e, rows⟩ scope =
      (capacityRefused m scope || (e.isCapacityRefusal && decide (e.scopeKey = scope))) := by
  rw [Bool.eq_iff_iff, Bool.or_eq_true, capacityRefused_iff, capacityRefused_iff,
    Bool.and_eq_true, decide_eq_true_eq]
  constructor
  · rintro ⟨k,old,hget,hcap⟩
    simp only [Dict.get?_set] at hget
    split at hget
    · cases hget
      exact .inr hcap
    · exact .inl ⟨k, old, hget, hcap⟩
  · rintro (⟨k,old,hget,hcap⟩ | hcap)
    · have hne : k ≠ key := by
        intro hk
        subst hk
        have hfree := hold old hget
        rw [hfree] at hcap
        cases hcap.1
      exact ⟨k, old, by rw [Dict.get?_set_ne _ _ _ _ hne, hget], hcap⟩
    · exact ⟨key, e, Dict.get?_set_self _ _ _, hcap⟩

theorem ToolCallStoreEntry.not_capacityRefusal_of_state (e : ToolCallStoreEntry)
    (h : e.state ≠ .refused) : e.isCapacityRefusal = false := by
  have hs := e.validate_parts.2.1
  have hnone : e.refusal = none := by
    unfold EntryFields.validateState at hs
    cases hstate : e.state with
    | refused => exact absurd hstate h
    | accepted => simp_all
    | completed => simp_all
  simp [isCapacityRefusal, hnone]

section Agreement

variable {Text : Type} (codec : EntryCodec Text)

/-- SQLite tables that go with memory tables: the same entries, and the same rows but for those
opened by an admission that was refused under a maximum of zero. -/
structure Matches (m : MemoryTables) (t : SqliteTables Text) : Prop where
  entry : t.entry = m.entries.mapValues codec.entryText
  row : ∀ scope, t.capacity.get? scope = (m.capacity.get? scope).or (refusedRow m scope)
  bounded : ∀ scope maximum consumed, m.capacity.get? scope = some (maximum, consumed) →
    maximum < sqliteIntegerLimit
  keyed : Keyed (memoryLedger m)

variable {codec} {m : MemoryTables} {t : SqliteTables Text}

theorem Matches.tables (h : Matches codec m t) :
    t = ⟨m.entries.mapValues codec.entryText, t.capacity⟩ := by
  rw [← h.entry]

theorem Matches.load (h : Matches codec m t) (key : EntryKey) :
    t.load codec key = .ok (m.entries.get? key) := by
  rw [h.tables]
  exact sqlite_load codec ⟨m.entries, t.capacity⟩ key

theorem Matches.insertEntry (h : Matches codec m t) (rows : Dict ScopeKey (Int × Nat))
    (key : EntryKey) (e : ToolCallStoreEntry) (fresh : m.entries.get? key = none) :
    SqliteTables.insertEntry codec key e { t with capacity := rows } =
      (.ok e, ⟨(m.entries.set key e).mapValues codec.entryText, rows⟩) := by
  rw [h.entry]
  exact sqlite_insertEntry codec ⟨m.entries, rows⟩ rows key e fresh

/-- Writing one entry that leaves the capacity refusals as they were keeps the match. -/
theorem Matches.set (h : Matches codec m t) (key : EntryKey) (e : ToolCallStoreEntry)
    (hkey : e.entryKey = key)
    (hold : ∀ old, m.entries.get? key = some old → old.isCapacityRefusal = false)
    (hnew : e.isCapacityRefusal = false) :
    Matches codec ⟨m.entries.set key e, m.capacity⟩
      ⟨(m.entries.set key e).mapValues codec.entryText, t.capacity⟩ where
  entry := rfl
  row := by
    intro scope
    simp only [refusedRow, capacityRefused_set m m.capacity key e hold scope, hnew,
      Bool.false_and, Bool.or_false]
    exact h.row scope
  bounded := h.bounded
  keyed := Advance.set_keyed (memoryLedger m) m.capacity key e hkey h.keyed

variable (codec) in
/- Both backends answer a call alike and hold matching tables after it. -/
structure Agrees (x : Except AdmissionError ToolCallStoreEntry × MemoryTables)
    (y : Except AdmissionError ToolCallStoreEntry × SqliteTables Text) : Prop where
  reply : AuthorityReply.of .entry x.1 = AuthorityReply.of .entry y.1
  tables : Matches codec x.2 y.2

theorem transaction_unchanged {α : Type}
    (body : SqliteTables Text → Except AdmissionError α × SqliteTables Text)
    (r : Except AdmissionError α) (h : body t = (r, t)) :
    SqliteTables.transaction body t = (r, t) := by
  rw [SqliteTables.transaction, h]
  cases r <;> rfl

theorem Matches.refuse (h : Matches codec m t) (entry : ToolCallStoreEntry)
    (hclass : entry.isCapacityRefusal = false) :
    Agrees codec (m.refuse entry) (t.refuse codec entry) := by
  cases hget : m.entries.get? entry.entryKey with
  | some existing =>
    have hm : m.refuse entry = (replayOrConflict existing entry, m) := by
      simp only [MemoryTables.refuse, hget]
    have ht : t.refuse codec entry = (replayOrConflict existing entry, t) :=
      transaction_unchanged _ _ (by simp only [h.load, hget])
    rw [hm, ht]
    exact ⟨rfl, h⟩
  | none =>
    have hinsert := h.insertEntry t.capacity entry.entryKey entry hget
    simp only [MemoryTables.refuse, SqliteTables.refuse, SqliteTables.transaction, h.load, hget,
      hinsert]
    exact ⟨rfl, h.set entry.entryKey entry rfl (by simp [hget]) hclass⟩

theorem completeTransition_state (existing : Option ToolCallStoreEntry)
    (entry completed : ToolCallStoreEntry) (hstate : entry.state = .completed)
    (h : completeTransition existing entry = .ok completed) : completed.state = .completed := by
  cases existing with
  | none => simp [completeTransition] at h
  | some held =>
    simp only [completeTransition] at h
    split_ifs at h with h1 h2 h3 h4
    · rw [(replayOrConflict_ok held entry completed h).1, h2]
    · cases h
      exact hstate

theorem Matches.complete (h : Matches codec m t) (entry : ToolCallStoreEntry)
    (hstate : entry.state = .completed) :
    Agrees codec (m.complete entry) (t.complete codec entry) := by
  cases hct : completeTransition (m.entries.get? entry.entryKey) entry with
  | error error =>
    have hm : m.complete entry = (.error error, m) := by
      simp only [MemoryTables.complete, hct]
    have ht : t.complete codec entry = (.error error, t) :=
      transaction_unchanged _ _ (by simp only [h.load, hct])
    rw [hm, ht]
    exact ⟨rfl, h⟩
  | ok completed =>
    obtain ⟨held,hheld,hcall,hcase⟩ := completeTransition_ok _ _ _ hct
    have hdone := completeTransition_state _ _ _ hstate hct
    have hupdate : t.updateEntry entry.entryKey (codec.entryText completed) =
        ⟨(m.entries.set entry.entryKey completed).mapValues codec.entryText, t.capacity⟩ := by
      rw [SqliteTables.updateEntry, h.entry, Dict.get?_mapValues, hheld]
      simp [Dict.set_mapValues]
    have hkey : completed.entryKey = entry.entryKey := by
      rcases hcase with rfl | ⟨_,rfl,_⟩
      · exact ToolCallStoreEntry.entryKey_eq_of_toolCall completed entry hcall
      · rfl
    have hheldState : held.state ≠ .refused := by
      rcases hcase with rfl | ⟨hacc,_⟩
      · simp [hdone]
      · simp [hacc]
    simp only [MemoryTables.complete, SqliteTables.complete, SqliteTables.transaction, h.load, hct,
      hupdate]
    refine ⟨rfl, h.set entry.entryKey completed hkey ?_
      (completed.not_capacityRefusal_of_state (by simp [hdone]))⟩
    intro old hold
    rw [hheld] at hold
    cases hold
    exact held.not_capacityRefusal_of_state hheldState

/-! ### Admission -/

section Admission

variable {accepted refused : ToolCallStoreEntry} {limit : Int} {consumed : Nat}
variable {rows : Dict ScopeKey (Int × Nat)}

/-- Both backends write the accepted entry and its ordinal. -/
theorem Matches.accept (h : Matches codec m t) (decision : ToolCallStoreEntry)
    (hkey : decision.entryKey = accepted.entryKey) (hstate : decision.state = .accepted)
    (fresh : m.entries.get? accepted.entryKey = none) (hlimit : limit < sqliteIntegerLimit)
    (hrows : ∀ scope, scope ≠ accepted.scopeKey → rows.get? scope = t.capacity.get? scope) :
    Matches codec
      ⟨m.entries.set accepted.entryKey decision,
        m.capacity.set accepted.scopeKey (limit, consumed + 1)⟩
      ⟨(m.entries.set accepted.entryKey decision).mapValues codec.entryText,
        rows.set accepted.scopeKey (limit, consumed + 1)⟩ where
  entry := rfl
  row := by
    intro scope
    have hnot := decision.not_capacityRefusal_of_state (by simp [hstate])
    simp only [refusedRow, capacityRefused_set m _ accepted.entryKey decision (by simp [fresh]),
      hnot, Bool.false_and, Bool.or_false, Dict.get?_set]
    by_cases hscope : scope = accepted.scopeKey
    · simp [hscope]
    · simp only [hscope, if_false, hrows scope hscope]
      exact h.row scope
  bounded := by
    intro scope maximum count hget
    simp only [Dict.get?_set] at hget
    split at hget
    · cases hget
      exact hlimit
    · exact h.bounded scope maximum count hget
  keyed := Advance.set_keyed (memoryLedger m) _ accepted.entryKey decision hkey h.keyed

/-- Both backends write the refused entry. The row that only SQLite holds is empty. -/
theorem Matches.decline (h : Matches codec m t) (hcall : accepted.toolCall = refused.toolCall)
    (hclass : refused.isCapacityRefusal = true)
    (fresh : m.entries.get? accepted.entryKey = none)
    (hrow : m.capacity.get? accepted.scopeKey = none → limit = 0 ∧ consumed = 0)
    (hsome : ∀ row, m.capacity.get? accepted.scopeKey = some row → row = (limit, consumed))
    (hself : rows.get? accepted.scopeKey = some (limit, consumed))
    (hrows : ∀ scope, scope ≠ accepted.scopeKey → rows.get? scope = t.capacity.get? scope) :
    Matches codec ⟨m.entries.set accepted.entryKey refused, m.capacity⟩
      ⟨(m.entries.set accepted.entryKey refused).mapValues codec.entryText, rows⟩ where
  entry := rfl
  row := by
    intro scope
    have hscopeKey := ToolCallStoreEntry.scopeKey_eq_of_toolCall accepted refused hcall
    simp only [refusedRow, capacityRefused_set m _ accepted.entryKey refused (by simp [fresh]),
      hclass, Bool.true_and, ← hscopeKey]
    by_cases hscope : scope = accepted.scopeKey
    · subst hscope
      cases hm : m.capacity.get? accepted.scopeKey with
      | none =>
        obtain ⟨rfl,rfl⟩ := hrow hm
        simp [hself]
      | some row => simp [hself, hsome row hm]
    · have hne : accepted.scopeKey ≠ scope := fun he => hscope he.symm
      simp only [hne, decide_false, Bool.or_false, hrows scope hscope]
      exact h.row scope
  bounded := h.bounded
  keyed := Advance.set_keyed (memoryLedger m) _ accepted.entryKey refused
    (ToolCallStoreEntry.entryKey_eq_of_toolCall refused accepted hcall.symm) h.keyed

omit [ToolIdentity] in
theorem insertOrIgnoreCapacity_spec (t : SqliteTables Text) (scope : ScopeKey) (limit : Int) :
    ∃ rows, t.insertOrIgnoreCapacity scope limit = { t with capacity := rows } ∧
      rows.get? scope = some ((t.capacity.get? scope).getD (limit, 0)) ∧
      ∀ other, other ≠ scope → rows.get? other = t.capacity.get? other := by
  cases hrow : t.capacity.get? scope with
  | some row => exact ⟨t.capacity, by simp [SqliteTables.insertOrIgnoreCapacity, hrow], hrow,
      fun _ _ => rfl⟩
  | none => exact ⟨t.capacity.set scope (limit, 0),
      by simp [SqliteTables.insertOrIgnoreCapacity, hrow], by simp,
      fun other hne => Dict.get?_set_ne _ _ _ _ hne⟩

/-- When both backends read the same row, they decide alike. -/
theorem Matches.admitCall (h : Matches codec m t)
    (hv : validateAdmissionAttempt accepted refused limit = .ok ())
    (fresh : m.entries.get? accepted.entryKey = none) (hlimit : limit < sqliteIntegerLimit)
    (hrow : (t.capacity.get? accepted.scopeKey).getD (limit, 0) =
      (m.capacity.get? accepted.scopeKey).getD (limit, 0)) :
    Agrees codec (m.admitCall accepted refused limit)
      (t.admitCall codec accepted refused limit) := by
  obtain ⟨hacc,_,hcall,_⟩ := validateAdmissionAttempt_ok accepted refused limit hv
  have hclass : refused.isCapacityRefusal = true := by
    simp only [validateAdmissionAttempt, raiseIf_bind_eq_ok, not_not] at hv
    simp [ToolCallStoreEntry.isCapacityRefusal, hv.2.2.2.1]
  obtain ⟨rows,hopen,hself,hrows⟩ := insertOrIgnoreCapacity_spec t accepted.scopeKey limit
  rw [hrow] at hself
  have hbig : ¬ sqliteIntegerLimit ≤ limit := not_le.mpr hlimit
  obtain ⟨⟨maximum,consumed⟩,hcap⟩ :
      ∃ p, (m.capacity.get? accepted.scopeKey).getD (limit, 0) = p := ⟨_, rfl⟩
  rw [hcap] at hself
  simp only [MemoryTables.admitCall, SqliteTables.admitCall, SqliteTables.transaction, h.load,
    fresh, hcap, hbig, if_false, hopen, hself]
  by_cases hmax : maximum = limit
  · subst hmax
    simp only [ne_eq, not_true_eq_false, if_false]
    by_cases hroom : (consumed : Int) < maximum
    · obtain ⟨decision,hok,hfields⟩ := acceptedWithOrdinal_ok accepted (consumed + 1) hacc
        (Nat.succ_pos consumed)
      have hdcall : decision.toolCall = accepted.toolCall := by rw [hfields]
      have hkey := ToolCallStoreEntry.entryKey_eq_of_toolCall decision accepted hdcall
      have hinsert := h.insertEntry (rows.set accepted.scopeKey (maximum, consumed + 1))
        accepted.entryKey decision fresh
      simp only [hroom, if_true, hok, hinsert]
      exact ⟨rfl, h.accept decision hkey (by rw [hfields, hacc]) fresh hlimit hrows⟩
    · have hinsert := h.insertEntry rows accepted.entryKey refused fresh
      simp only [hroom, if_false, hinsert]
      refine ⟨rfl, h.decline hcall hclass fresh ?_ ?_ hself hrows⟩
      · intro hnone
        rw [hnone, Option.getD_none] at hcap
        cases hcap
        have hnonneg := (validateAdmissionAttempt_ok accepted refused maximum hv).2.2.2
        exact ⟨by omega, rfl⟩
      · intro row hsome
        rw [hsome, Option.getD_some] at hcap
        exact hcap
  · simp only [ne_eq, hmax, not_false_eq_true, if_true]
    exact ⟨rfl, h⟩

/-- The row memory reads is the one SQLite reads, once the call is settled. -/
theorem Matches.admit (h : Matches codec m t)
    (hv : validateAdmissionAttempt accepted refused limit = .ok ())
    (hs : m.entries.get? accepted.entryKey = none → m.capacity.get? accepted.scopeKey = none →
      limit < sqliteIntegerLimit ∧ (limit = 0 ∨ capacityRefused m accepted.scopeKey = false)) :
    Agrees codec (m.admitCall accepted refused limit)
      (t.admitCall codec accepted refused limit) := by
  cases fresh : m.entries.get? accepted.entryKey with
  | some existing =>
    have hm : m.admitCall accepted refused limit = (replayOrConflict existing accepted, m) := by
      simp only [MemoryTables.admitCall, fresh]
    have ht : t.admitCall codec accepted refused limit =
        (replayOrConflict existing accepted, t) :=
      transaction_unchanged _ _ (by simp only [h.load, fresh])
    rw [hm, ht]
    exact ⟨rfl, h⟩
  | none =>
    cases hrow : m.capacity.get? accepted.scopeKey with
    | none =>
      obtain ⟨hlimit,hzero⟩ := hs fresh hrow
      refine h.admitCall hv fresh hlimit ?_
      rw [h.row, hrow]
      rcases hzero with rfl | hclear
      · cases hrefused : capacityRefused m accepted.scopeKey with
        | true => simp [refusedRow, hrefused]
        | false => simp [refusedRow, hrefused]
      · simp [refusedRow, hclear]
    | some row =>
      by_cases hbig : sqliteIntegerLimit ≤ limit
      · -- the row memory holds has a maximum that SQLite can hold, so it is another one
        have hlt := h.bounded accepted.scopeKey row.1 row.2 hrow
        have hne : row.1 ≠ limit := by omega
        have hm : m.admitCall accepted refused limit =
            (.error (.runtime "capacity maximum changed within one scope"), m) := by
          simp [MemoryTables.admitCall, fresh, hrow, hne]
        have ht : t.admitCall codec accepted refused limit =
            (.error (.runtime "Python int too large to convert to SQLite INTEGER"), t) :=
          transaction_unchanged _ _ (by simp [h.load, fresh, hbig])
        rw [hm, ht]
        exact ⟨rfl, h⟩
      · refine h.admitCall hv fresh (not_le.mp hbig) ?_
        simp [h.row, hrow]

/-- In a scope memory has accepted nothing in, a positive maximum is accepted by memory; SQLite
raises when it cannot hold the maximum or when it holds the row of an earlier zero. -/
theorem Matches.diverges (h : Matches codec m t)
    (hv : validateAdmissionAttempt accepted refused limit = .ok ())
    (fresh : m.entries.get? accepted.entryKey = none)
    (hnone : m.capacity.get? accepted.scopeKey = none)
    (hbad : ¬ (limit < sqliteIntegerLimit ∧
      (limit = 0 ∨ capacityRefused m accepted.scopeKey = false))) :
    AuthorityReply.of .entry (m.admitCall accepted refused limit).1 ≠
      AuthorityReply.of .entry (t.admitCall codec accepted refused limit).1 := by
  obtain ⟨hacc,_,_,hnonneg⟩ := validateAdmissionAttempt_ok accepted refused limit hv
  have hpos : 0 < limit := by
    by_contra hzero
    have hlimit : limit = 0 := by omega
    exact hbad ⟨by simp [hlimit, sqliteIntegerLimit], .inl hlimit⟩
  obtain ⟨decision,hok,_⟩ := acceptedWithOrdinal_ok accepted 1 hacc Nat.one_pos
  have hmemory : (m.admitCall accepted refused limit).1 = .ok decision := by
    simp [MemoryTables.admitCall, fresh, hnone, hpos, hok]
  have hsqlite : ∃ error, (t.admitCall codec accepted refused limit).1 = .error error := by
    by_cases hbig : sqliteIntegerLimit ≤ limit
    · exact ⟨.runtime "Python int too large to convert to SQLite INTEGER", by
        simp [SqliteTables.admitCall, SqliteTables.transaction, h.load, fresh, hbig]⟩
    · have hrefused : capacityRefused m accepted.scopeKey = true := by
        by_contra hfalse
        exact hbad ⟨not_le.mp hbig, .inr (by simpa using hfalse)⟩
      have hrow : t.capacity.get? accepted.scopeKey = some (0, 0) := by
        rw [h.row, hnone]
        simp [refusedRow, hrefused]
      have hne : (0 : Int) ≠ limit := by omega
      exact ⟨.runtime "capacity maximum changed within one scope", by
        simp [SqliteTables.admitCall, SqliteTables.transaction, h.load, fresh, hbig,
          SqliteTables.insertOrIgnoreCapacity, hrow, hne]⟩
  obtain ⟨error,herror⟩ := hsqlite
  rw [hmemory, herror]
  simp [AuthorityReply.of]

end Admission

/-! ### Runs of both authorities -/

open ToolAdmissionAuthority

theorem Matches.step (h : Matches codec m t) (request : AdmissionRequest)
    (hs : settledCall m (.change request)) :
    Agrees codec (step memoryBackend m request) (step (sqliteBackend codec) t request) := by
  cases request with
  | admitCall accepted refused limit =>
    simp only [ToolAdmissionAuthority.step, ToolAdmissionAuthority.admitCall]
    cases hv : validateAdmissionAttempt accepted refused limit with
    | error error => exact ⟨rfl, h⟩
    | ok u => exact h.admit hv (hs hv)
  | refuse entry =>
    simp only [ToolAdmissionAuthority.step, ToolAdmissionAuthority.refuse]
    by_cases hstate : entry.state = .refused
    · by_cases hclass : entry.refusal.map ToolRefusal.refusalClass = some .capacity
      · simp only [ne_eq, hstate, not_true_eq_false, if_false, hclass, if_true]
        exact ⟨rfl, h⟩
      · simp only [ne_eq, hstate, not_true_eq_false, if_false, hclass]
        exact h.refuse entry (by simp [ToolCallStoreEntry.isCapacityRefusal, hclass])
    · simp only [ne_eq, hstate, not_false_eq_true, if_true]
      exact ⟨rfl, h⟩
  | complete entry =>
    simp only [ToolAdmissionAuthority.step, ToolAdmissionAuthority.complete]
    by_cases hstate : entry.state = .completed
    · simp only [ne_eq, hstate, not_true_eq_false, if_false]
      exact h.complete entry hstate
    · simp only [ne_eq, hstate, not_false_eq_true, if_true]
      exact ⟨rfl, h⟩

theorem Matches.acceptedCount (h : Matches codec m t) (q : ScopeQuery) :
    AuthorityReply.of .count (m.acceptedCount q) = AuthorityReply.of .count (t.acceptedCount q) := by
  cases hq : q.key with
  | error error => simp [MemoryTables.acceptedCount, SqliteTables.acceptedCount, hq]
  | ok scope =>
    simp only [MemoryTables.acceptedCount, SqliteTables.acceptedCount, hq, ok_bind, h.row]
    cases m.capacity.get? scope with
    | some row => rfl
    | none =>
      cases hrefused : capacityRefused m scope with
      | true => simp [refusedRow, hrefused]
      | false => simp [refusedRow, hrefused]

theorem Matches.admittedEntries (h : Matches codec m t) (q : ScopeQuery) :
    AuthorityReply.of .entries (m.admittedEntries q) =
      AuthorityReply.of .entries (t.admittedEntries codec q) := by
  cases hq : q.key with
  | error error =>
    have hm : m.admittedEntries q = .error error := by
      simp [MemoryTables.admittedEntries, entriesInScope, hq]
    have hid : ∃ error, backendScopeId q.capacityScope q.capacityScopeId = .error error := by
      cases hb : backendScopeId q.capacityScope q.capacityScopeId with
      | error error => exact ⟨error, rfl⟩
      | ok scopeId =>
        simp only [ScopeQuery.key, hb, ok_bind] at hq
        cases hq
    obtain ⟨error',hid⟩ := hid
    simp [hm, SqliteTables.admittedEntries, hid, AuthorityReply.of]
  | ok scope =>
    rw [h.tables, sqlite_admittedEntries codec ⟨m.entries, t.capacity⟩ h.keyed q scope hq]
    exact congrArg _ (memoryRefinement.admittedEntries m (memoryLedger m) q scope rfl h.keyed hq)

theorem Matches.call_agrees (h : Matches codec m t) (call : AuthorityCall) (hs : settledCall m call) :
    (answer memoryBackend m call).1 = (answer (sqliteBackend codec) t call).1 ∧
      Matches codec (answer memoryBackend m call).2 (answer (sqliteBackend codec) t call).2 := by
  cases call with
  | change request =>
    have hstep := h.step request hs
    exact ⟨hstep.reply, hstep.tables⟩
  | get storeNamespaceKey callId =>
    refine ⟨?_, h⟩
    simp only [ToolAdmissionAuthority.answer, memoryBackend, sqliteBackend, h.load]
  | acceptedCount query => exact ⟨h.acceptedCount query, h⟩
  | admittedEntries query => exact ⟨h.admittedEntries query, h⟩

theorem Matches.call_differs (h : Matches codec m t) (call : AuthorityCall)
    (hs : ¬ settledCall m call) :
    (answer memoryBackend m call).1 ≠ (answer (sqliteBackend codec) t call).1 := by
  cases call with
  | change request =>
    cases request with
    | admitCall accepted refused limit =>
      simp only [settledCall, Classical.not_imp] at hs
      obtain ⟨hv,fresh,hnone,hbad⟩ := hs
      have hne := h.diverges hv fresh hnone hbad
      simp only [ToolAdmissionAuthority.answer, ToolAdmissionAuthority.step,
        ToolAdmissionAuthority.admitCall, hv]
      exact hne
    | refuse entry => exact absurd trivial hs
    | complete entry => exact absurd trivial hs
  | get storeNamespaceKey callId => exact absurd trivial hs
  | acceptedCount query => exact absurd trivial hs
  | admittedEntries query => exact absurd trivial hs

theorem Matches.replies_iff (h : Matches codec m t) (calls : List AuthorityCall) :
    replies memoryBackend m calls = replies (sqliteBackend codec) t calls ↔
      settledCalls m calls := by
  induction calls generalizing m t with
  | nil => exact ⟨fun _ => trivial, fun _ => rfl⟩
  | cons call rest ih =>
    simp only [replies, settledCalls, List.cons.injEq]
    by_cases hs : settledCall m call
    · obtain ⟨hreply,hnext⟩ := h.call_agrees call hs
      simp only [hreply, hs, true_and]
      exact ih hnext
    · have hne := h.call_differs call hs
      simp only [hne, hs, false_and]

theorem matches_empty : Matches codec memoryBackend.empty (sqliteBackend codec).empty where
  entry := rfl
  row := fun _ => rfl
  bounded := by
    intro scope maximum consumed h
    cases h
  keyed := keyed_empty

end Agreement

end Backends

/-! ### A maximum raised from zero -/

section Example

open Issued

attribute [local instance] plainIdentity

def acceptedScore (callId : String) : ToolCallStoreEntry where
  toolCall := scoreCall callId "template"
  toolConfig := scoreTool
  storeNamespaceKey := "namespace"
  capacityScope := .global
  capacityScopeId := globalCapacityScopeId
  state := .accepted
  capacityDebitOrdinal := some 1
  refusal := none
  toolResultRef := none
  effectTerminal := none
  valid := rfl

def refusedScore (callId : String) : ToolCallStoreEntry where
  toolCall := scoreCall callId "template"
  toolConfig := scoreTool
  storeNamespaceKey := "namespace"
  capacityScope := .global
  capacityScopeId := globalCapacityScopeId
  state := .refused
  capacityDebitOrdinal := none
  refusal := some ⟨.capacity, "the capacity is spent"⟩
  toolResultRef := some ⟨toolResultSchema, "refused"⟩
  effectTerminal := none
  valid := rfl

def exactCodec : EntryCodec ToolCallStoreEntry := ⟨id, .ok, fun _ => rfl⟩

def raisedMaximum : List AuthorityCall :=
  [.change (.admitCall (acceptedScore "x") (refusedScore "x") 0),
    .change (.admitCall (acceptedScore "y") (refusedScore "y") 5)]

end Example

end Whetstone.Tools
