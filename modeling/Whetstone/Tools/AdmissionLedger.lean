import Whetstone.Tools.Backends

/-! Both admission backends refine one debit ledger keyed by capacity scope. Density of the
ordinals and the life of an entry are proved once, over that ledger. -/
namespace Whetstone.Tools
open Whetstone.Core Whetstone.Lib

variable [ToolIdentity]

abbrev Ledger := DebitLedger EntryKey ScopeKey ToolCallStoreEntry

abbrev debitOrdinal (e : ToolCallStoreEntry) : Option Nat := e.capacityDebitOrdinal

/-- What may become of a decided entry: nothing, or completion of an accepted one. -/
def Settles (e e' : ToolCallStoreEntry) : Prop :=
  e' = e ∨ e.state = .accepted ∧ e'.state = .completed ∧ e'.toolCall = e.toolCall ∧
    e'.capacityDebitOrdinal = e.capacityDebitOrdinal

theorem Settles.trans {e e' e'' : ToolCallStoreEntry} (h : Settles e e') (h' : Settles e' e'') :
    Settles e e'' := by
  rcases h with rfl | ⟨ha,hc,hcall,hord⟩
  · exact h'
  · rcases h' with rfl | ⟨ha',_⟩
    · exact .inr ⟨ha, hc, hcall, hord⟩
    · rw [hc] at ha'
      cases ha'

def Keyed (L : Ledger) : Prop := ∀ k e, L.entries.get? k = some e → e.entryKey = k

structure Advance (L L' : Ledger) : Prop where
  steps : DebitLedger.Steps ToolCallStoreEntry.scopeKey debitOrdinal L L'
  settles : ∀ k e, L.entries.get? k = some e →
    ∃ e', L'.entries.get? k = some e' ∧ Settles e e'
  keyed : Keyed L → Keyed L'

namespace Advance

theorem refl (L : Ledger) : Advance L L :=
  ⟨.refl, fun _ e h => ⟨e, h, .inl rfl⟩, id⟩

theorem trans {L M N : Ledger} (h : Advance L M) (h' : Advance M N) : Advance L N where
  steps := h.steps.trans h'.steps
  settles := by
    intro k e he
    obtain ⟨e1,h1,s1⟩ := h.settles k e he
    obtain ⟨e2,h2,s2⟩ := h'.settles k e1 h1
    exact ⟨e2, h2, s1.trans s2⟩
  keyed := fun hk => h'.keyed (h.keyed hk)

theorem insert_settles (L : Ledger) (k : EntryKey) (e : ToolCallStoreEntry)
    (fresh : L.entries.get? k = none) (k' : EntryKey) (e' : ToolCallStoreEntry)
    (h : L.entries.get? k' = some e') :
    ∃ e'', (L.entries.set k e).get? k' = some e'' ∧ Settles e' e'' := by
  have hne : k' ≠ k := by
    rintro rfl
    rw [fresh] at h
    cases h
  exact ⟨e', by rw [Dict.get?_set_ne _ _ _ _ hne, h], .inl rfl⟩

theorem set_keyed (L : Ledger) (rows : Dict ScopeKey (Int × Nat)) (k : EntryKey)
    (e : ToolCallStoreEntry) (he : e.entryKey = k) (hL : Keyed L) :
    Keyed ⟨L.entries.set k e, rows⟩ := by
  intro k' e' h
  by_cases hk : k' = k
  · subst hk
    have hee : e = e' := by simpa using h
    rw [← hee, he]
  · rw [Dict.get?_set_ne _ _ _ _ hk] at h
    exact hL k' e' h

theorem debit (L : Ledger) (e : ToolCallStoreEntry) (limit : Int)
    (fresh : L.entries.get? e.entryKey = none)
    (row : L.rows.get? e.scopeKey = none ∨
      L.rows.get? e.scopeKey = some (limit, L.consumed e.scopeKey))
    (room : (L.consumed e.scopeKey : Int) < limit)
    (next : e.capacityDebitOrdinal = some (L.consumed e.scopeKey + 1)) :
    Advance L ⟨L.entries.set e.entryKey e,
      L.rows.set e.scopeKey (limit, L.consumed e.scopeKey + 1)⟩ where
  steps := .single (.debit L e.entryKey e limit fresh row room next)
  settles := insert_settles L e.entryKey e fresh
  keyed := set_keyed L _ e.entryKey e rfl

theorem decline (L : Ledger) (e : ToolCallStoreEntry)
    (fresh : L.entries.get? e.entryKey = none) (free : e.state = .refused) :
    Advance L ⟨L.entries.set e.entryKey e, L.rows⟩ where
  steps := .single (.decline L e.entryKey e fresh (e.ordinal_none_iff.mpr free))
  settles := insert_settles L e.entryKey e fresh
  keyed := set_keyed L _ e.entryKey e rfl

theorem openRow (L : Ledger) (scope : ScopeKey) (limit : Int)
    (fresh : L.rows.get? scope = none) (nonneg : 0 ≤ limit) :
    Advance L ⟨L.entries, L.rows.set scope (limit, 0)⟩ where
  steps := .single (.openRow L scope limit fresh nonneg)
  settles := fun _ e h => ⟨e, h, .inl rfl⟩
  keyed := id

theorem settle (L : Ledger) (held e : ToolCallStoreEntry) (k : EntryKey)
    (hheld : L.entries.get? k = some held) (hk : e.entryKey = k)
    (hcall : held.toolCall = e.toolCall)
    (hord : e.capacityDebitOrdinal = held.capacityDebitOrdinal) (hs : Settles held e) :
    Advance L ⟨L.entries.set k e, L.rows⟩ where
  steps := .single (.settle L k held e hheld
    (ToolCallStoreEntry.scopeKey_eq_of_toolCall e held hcall.symm) hord)
  settles := by
    intro k' e' h
    by_cases hkk : k' = k
    · subst hkk
      rw [hheld] at h
      cases h
      exact ⟨e, by simp, hs⟩
    · exact ⟨e', by rw [Dict.get?_set_ne _ _ _ _ hkk, h], .inl rfl⟩
  keyed := set_keyed L _ k e hk

end Advance

/-- A successful completion advances the ledger, whether it replays or settles. -/
theorem completeTransition_advance (L : Ledger) (entry completed : ToolCallStoreEntry)
    (hstate : entry.state = .completed)
    (h : completeTransition (L.entries.get? entry.entryKey) entry = .ok completed) :
    ∃ held, L.entries.get? entry.entryKey = some held ∧
      Advance L ⟨L.entries.set entry.entryKey completed, L.rows⟩ := by
  obtain ⟨held,hheld,hcall,hcase⟩ := completeTransition_ok _ _ _ h
  refine ⟨held, hheld, ?_⟩
  have hkey := ToolCallStoreEntry.entryKey_eq_of_toolCall held entry hcall
  rcases hcase with rfl | ⟨ha,rfl,hord⟩
  · exact .settle L completed completed entry.entryKey hheld hkey rfl rfl (.inl rfl)
  · exact .settle L held completed completed.entryKey hheld rfl hcall hord.symm
      (.inr ⟨ha, hstate, hcall.symm, hord.symm⟩)

/- A backend operation either raises and keeps its state, or returns from a state that
   represents an advanced ledger. -/
def Simulates {S : Type} (represents : S → Ledger → Prop)
    (op : S → Except AdmissionError ToolCallStoreEntry × S) : Prop :=
  ∀ s L, represents s L →
    (∃ error, op s = (.error error, s)) ∨
    ∃ e s' L', op s = (.ok e, s') ∧ represents s' L' ∧ Advance L L'

theorem Simulates.replay {S : Type} (represents : S → Ledger → Prop) (s : S) (L : Ledger)
    (hs : represents s L) (existing attempted : ToolCallStoreEntry) :
    (∃ error, (replayOrConflict existing attempted, s) =
        ((.error error, s) : Except AdmissionError ToolCallStoreEntry × S)) ∨
    ∃ e s' L', (replayOrConflict existing attempted, s) =
        ((.ok e, s') : Except AdmissionError ToolCallStoreEntry × S) ∧
      represents s' L' ∧ Advance L L' := by
  cases replayOrConflict existing attempted with
  | error error => exact .inl ⟨error, rfl⟩
  | ok e => exact .inr ⟨e, s, L, rfl, hs, .refl L⟩

structure Refinement (b : AdmissionBackend) where
  represents : b.State → Ledger → Prop
  init : represents b.empty DebitLedger.empty
  admitCall : ∀ accepted refused maxAcceptedCalls,
    validateAdmissionAttempt accepted refused maxAcceptedCalls = .ok () →
      Simulates represents (b.admitCall accepted refused maxAcceptedCalls)
  refuse : ∀ entry, entry.state = .refused → Simulates represents (b.refuse entry)
  complete : ∀ entry, entry.state = .completed → Simulates represents (b.complete entry)
  get : ∀ s L key, represents s L → b.get key s = .ok (L.entries.get? key)
  capacityRow : ∀ s L scope, represents s L → b.capacityRow scope s = L.rows.get? scope
  acceptedCount : ∀ s L q scope, represents s L → q.key = .ok scope →
    b.acceptedCount q s = .ok (L.consumed scope)
  admittedEntries : ∀ s L q scope, represents s L → Keyed L → q.key = .ok scope →
    b.admittedEntries q s = .ok
      ((L.debits ToolCallStoreEntry.scopeKey debitOrdinal scope).mergeSort fun a b =>
        decide (a.capacityDebitOrdinal.getD 0 ≤ b.capacityDebitOrdinal.getD 0))

theorem validateAdmissionAttempt_ok (accepted refused : ToolCallStoreEntry) (limit : Int)
    (h : validateAdmissionAttempt accepted refused limit = .ok ()) :
    accepted.state = .accepted ∧ refused.state = .refused ∧
      accepted.toolCall = refused.toolCall ∧ 0 ≤ limit := by
  simp only [validateAdmissionAttempt, raiseIf_bind_eq_ok, raiseIf_eq_ok, not_not, not_lt] at h
  exact ⟨h.1, h.2.1, h.2.2.1, h.2.2.2.2⟩

/-- The accepted branch of an admission debits the next ordinal of its scope. -/
theorem admit_debit (L : Ledger) (accepted : ToolCallStoreEntry) (limit : Int)
    (hstate : accepted.state = .accepted)
    (fresh : L.entries.get? accepted.entryKey = none)
    (row : L.rows.get? accepted.scopeKey = none ∨
      L.rows.get? accepted.scopeKey = some (limit, L.consumed accepted.scopeKey))
    (room : (L.consumed accepted.scopeKey : Int) < limit) :
    ∃ decision, acceptedWithOrdinal accepted (L.consumed accepted.scopeKey + 1) = .ok decision ∧
      Advance L ⟨L.entries.set accepted.entryKey decision,
        L.rows.set accepted.scopeKey (limit, L.consumed accepted.scopeKey + 1)⟩ := by
  obtain ⟨decision,hok,hfields⟩ := acceptedWithOrdinal_ok accepted
    (L.consumed accepted.scopeKey + 1) hstate (Nat.succ_pos _)
  have hcall : decision.toolCall = accepted.toolCall := by rw [hfields]
  have hkey := ToolCallStoreEntry.entryKey_eq_of_toolCall decision accepted hcall
  have hscope := ToolCallStoreEntry.scopeKey_eq_of_toolCall decision accepted hcall
  refine ⟨decision, hok, ?_⟩
  have hadv := Advance.debit L decision limit
  rw [hkey, hscope] at hadv
  exact hadv fresh row room (by rw [hfields])

/-! ### The memory backend -/

def memoryLedger (t : MemoryTables) : Ledger := ⟨t.entries, t.capacity⟩

theorem memory_admitCall (accepted refused : ToolCallStoreEntry) (limit : Int)
    (h : validateAdmissionAttempt accepted refused limit = .ok ()) :
    Simulates (fun t L => L = memoryLedger t) (MemoryTables.admitCall accepted refused limit) := by
  rintro t L rfl
  obtain ⟨hacc,href,hcall,_⟩ := validateAdmissionAttempt_ok accepted refused limit h
  simp only [MemoryTables.admitCall]
  cases hget : t.entries.get? accepted.entryKey with
  | some existing => exact Simulates.replay _ t _ rfl existing accepted
  | none =>
    have hdecline : Advance (memoryLedger t)
        (memoryLedger { t with entries := t.entries.set accepted.entryKey refused }) := by
      have hkey := ToolCallStoreEntry.entryKey_eq_of_toolCall accepted refused hcall
      rw [hkey] at hget ⊢
      exact Advance.decline (memoryLedger t) refused hget href
    have hrow : ∀ maximum consumed,
        (t.capacity.get? accepted.scopeKey).getD (limit, 0) = (maximum, consumed) →
        maximum = limit →
        (memoryLedger t).consumed accepted.scopeKey = consumed ∧
        ((memoryLedger t).rows.get? accepted.scopeKey = none ∨
          (memoryLedger t).rows.get? accepted.scopeKey = some (limit, consumed)) := by
      intro maximum consumed hcap hmax
      cases hc : t.capacity.get? accepted.scopeKey with
      | none =>
        simp only [hc, Option.getD_none, Prod.mk.injEq] at hcap
        exact ⟨by simp [DebitLedger.consumed, memoryLedger, hc, hcap.2], .inl hc⟩
      | some row =>
        simp only [hc, Option.getD_some] at hcap
        subst hcap hmax
        exact ⟨by simp [DebitLedger.consumed, memoryLedger, hc], .inr hc⟩
    obtain ⟨⟨maximum,consumed⟩,hcap⟩ :
        ∃ p, (t.capacity.get? accepted.scopeKey).getD (limit, 0) = p := ⟨_, rfl⟩
    simp only [hcap]
    by_cases hmax : maximum = limit
    · obtain ⟨hcons,hrows⟩ := hrow maximum consumed hcap hmax
      subst hmax
      by_cases hroom : (consumed : Int) < maximum
      · subst hcons
        obtain ⟨decision,hok,hadv⟩ := admit_debit (memoryLedger t) accepted maximum hacc hget
          hrows hroom
        simp only [ne_eq, not_true_eq_false, if_false, hroom, if_true, hok]
        exact .inr ⟨_, _, _, rfl, rfl, hadv⟩
      · simp only [ne_eq, not_true_eq_false, if_false, hroom]
        exact .inr ⟨_, _, _, rfl, rfl, hdecline⟩
    · simp only [ne_eq, hmax, not_false_eq_true, if_true]
      exact .inl ⟨_, rfl⟩

theorem memory_refuse (entry : ToolCallStoreEntry) (h : entry.state = .refused) :
    Simulates (fun t L => L = memoryLedger t) (MemoryTables.refuse entry) := by
  rintro t L rfl
  simp only [MemoryTables.refuse]
  cases hget : t.entries.get? entry.entryKey with
  | some existing => exact Simulates.replay _ t _ rfl existing entry
  | none => exact .inr ⟨_, _, _, rfl, rfl, Advance.decline (memoryLedger t) entry hget h⟩

theorem memory_complete (entry : ToolCallStoreEntry) (h : entry.state = .completed) :
    Simulates (fun t L => L = memoryLedger t) (MemoryTables.complete entry) := by
  rintro t L rfl
  simp only [MemoryTables.complete]
  cases hct : completeTransition (t.entries.get? entry.entryKey) entry with
  | error error => exact .inl ⟨error, rfl⟩
  | ok completed =>
    obtain ⟨_,_,hadv⟩ := completeTransition_advance (memoryLedger t) entry completed h hct
    exact .inr ⟨_, _, _, rfl, rfl, hadv⟩

def memoryRefinement : Refinement memoryBackend where
  represents := fun t L => L = memoryLedger t
  init := rfl
  admitCall := memory_admitCall
  refuse := memory_refuse
  complete := memory_complete
  get := by
    rintro t L key rfl
    rfl
  capacityRow := by
    rintro t L scope rfl
    rfl
  acceptedCount := by
    rintro t L q scope rfl hq
    simp only [memoryBackend, MemoryTables.acceptedCount, hq, ok_bind, DebitLedger.consumed,
      memoryLedger]
    cases t.capacity.get? scope <;> rfl
  admittedEntries := by
    rintro t L q scope rfl _ hq
    exact entriesInScope_eq t.entries.values q scope hq

/-! ### The SQLite backend -/

section Sqlite

variable {Text : Type} (codec : EntryCodec Text)

def SqliteRepresents (t : SqliteTables Text) (L : Ledger) : Prop :=
  t = ⟨L.entries.mapValues codec.entryText, L.rows⟩

theorem sqlite_load (L : Ledger) (key : EntryKey) :
    SqliteTables.load codec key ⟨L.entries.mapValues codec.entryText, L.rows⟩ =
      .ok (L.entries.get? key) := by
  simp only [SqliteTables.load, Dict.get?_mapValues]
  cases L.entries.get? key with
  | none => rfl
  | some e => simp [codec.decode_text, Except.map]

theorem sqlite_insertEntry (L : Ledger) (rows : Dict ScopeKey (Int × Nat)) (key : EntryKey)
    (e : ToolCallStoreEntry) (fresh : L.entries.get? key = none) :
    SqliteTables.insertEntry codec key e ⟨L.entries.mapValues codec.entryText, rows⟩ =
      (.ok e, ⟨(L.entries.set key e).mapValues codec.entryText, rows⟩) := by
  simp [SqliteTables.insertEntry, Dict.get?_mapValues, fresh, Dict.set_mapValues]

theorem transaction_simulates
    (body : SqliteTables Text → Except AdmissionError ToolCallStoreEntry × SqliteTables Text)
    (h : ∀ L, (∃ error t, body ⟨L.entries.mapValues codec.entryText, L.rows⟩ = (.error error, t)) ∨
      ∃ e L', body ⟨L.entries.mapValues codec.entryText, L.rows⟩ =
        (.ok e, ⟨L'.entries.mapValues codec.entryText, L'.rows⟩) ∧ Advance L L') :
    Simulates (SqliteRepresents codec) (SqliteTables.transaction body) := by
  rintro t L rfl
  rcases h L with ⟨error,t',he⟩ | ⟨e,L',he,hadv⟩
  · exact .inl ⟨error, by simp [SqliteTables.transaction, he]⟩
  · exact .inr ⟨e, _, L', by simp [SqliteTables.transaction, he], rfl, hadv⟩

theorem replay_sqlite (L : Ledger) (existing attempted : ToolCallStoreEntry) :
    (∃ error t, (replayOrConflict existing attempted,
        (⟨L.entries.mapValues codec.entryText, L.rows⟩ : SqliteTables Text)) = (.error error, t)) ∨
    ∃ e L', (replayOrConflict existing attempted,
        (⟨L.entries.mapValues codec.entryText, L.rows⟩ : SqliteTables Text)) =
        (.ok e, ⟨L'.entries.mapValues codec.entryText, L'.rows⟩) ∧ Advance L L' := by
  cases replayOrConflict existing attempted with
  | error error => exact .inl ⟨error, _, rfl⟩
  | ok e => exact .inr ⟨e, L, rfl, .refl L⟩

/-- Past the load, an SQLite admission runs over a ledger whose scope row is open. -/
theorem sqlite_admit_open (L : Ledger) (accepted refused : ToolCallStoreEntry) (limit : Int)
    (h : validateAdmissionAttempt accepted refused limit = .ok ())
    (fresh : L.entries.get? accepted.entryKey = none) (maximum : Int) (consumed : Nat)
    (hrow : L.rows.get? accepted.scopeKey = some (maximum, consumed)) :
    ∃ e L', (if (consumed : Int) < maximum then
        match acceptedWithOrdinal accepted (consumed + 1) with
        | .error error => (.error error, ⟨L.entries.mapValues codec.entryText, L.rows⟩)
        | .ok decision =>
          SqliteTables.insertEntry codec accepted.entryKey decision
            ⟨L.entries.mapValues codec.entryText,
              L.rows.set accepted.scopeKey (maximum, consumed + 1)⟩
      else SqliteTables.insertEntry codec accepted.entryKey refused
        ⟨L.entries.mapValues codec.entryText, L.rows⟩) =
      (.ok e, ⟨L'.entries.mapValues codec.entryText, L'.rows⟩) ∧ Advance L L' := by
  obtain ⟨hacc,href,hcall,_⟩ := validateAdmissionAttempt_ok accepted refused limit h
  have hcons : L.consumed accepted.scopeKey = consumed := by simp [DebitLedger.consumed, hrow]
  by_cases hroom : (consumed : Int) < maximum
  · subst hcons
    obtain ⟨decision,hok,hadv⟩ := admit_debit L accepted maximum hacc fresh (.inr hrow) hroom
    refine ⟨decision, _, ?_, hadv⟩
    simp only [hroom, if_true, hok]
    exact sqlite_insertEntry codec L _ accepted.entryKey decision fresh
  · have hkey := ToolCallStoreEntry.entryKey_eq_of_toolCall accepted refused hcall
    rw [hkey] at fresh ⊢
    refine ⟨refused, _, ?_, Advance.decline L refused fresh href⟩
    simp only [hroom, if_false]
    exact sqlite_insertEntry codec L L.rows refused.entryKey refused fresh

theorem sqlite_admitCall (accepted refused : ToolCallStoreEntry) (limit : Int)
    (h : validateAdmissionAttempt accepted refused limit = .ok ()) :
    Simulates (SqliteRepresents codec) (SqliteTables.admitCall codec accepted refused limit) := by
  obtain ⟨_,_,_,hnonneg⟩ := validateAdmissionAttempt_ok accepted refused limit h
  refine transaction_simulates codec _ fun L => ?_
  simp only [sqlite_load]
  cases hget : L.entries.get? accepted.entryKey with
  | some existing => exact replay_sqlite codec L existing accepted
  | none =>
    by_cases hbig : sqliteIntegerLimit ≤ limit
    · simp only [hbig, if_true]
      exact .inl ⟨_, _, rfl⟩
    · simp only [hbig, if_false]
      cases hrow : L.rows.get? accepted.scopeKey with
      | some row =>
        obtain ⟨maximum,consumed⟩ := row
        simp only [SqliteTables.insertOrIgnoreCapacity, hrow]
        by_cases hmax : maximum = limit
        · simp only [ne_eq, hmax, not_true_eq_false, if_false]
          subst hmax
          exact .inr (sqlite_admit_open codec L accepted refused maximum h hget maximum consumed
            hrow)
        · simp only [ne_eq, hmax, not_false_eq_true, if_true]
          exact .inl ⟨_, _, rfl⟩
      | none =>
        simp only [SqliteTables.insertOrIgnoreCapacity, hrow, Dict.get?_set_self, ne_eq,
          not_true_eq_false, if_false]
        -- the INSERT OR IGNORE opens the row before the decision is taken
        have hopen := Advance.openRow L accepted.scopeKey limit hrow hnonneg
        obtain ⟨e,L',he,hadv⟩ := sqlite_admit_open codec
          ⟨L.entries, L.rows.set accepted.scopeKey (limit, 0)⟩ accepted refused limit h hget
          limit 0 (by simp)
        exact .inr ⟨e, L', he, hopen.trans hadv⟩

theorem sqlite_refuse (entry : ToolCallStoreEntry) (h : entry.state = .refused) :
    Simulates (SqliteRepresents codec) (SqliteTables.refuse codec entry) := by
  refine transaction_simulates codec _ fun L => ?_
  simp only [sqlite_load]
  cases hget : L.entries.get? entry.entryKey with
  | some existing => exact replay_sqlite codec L existing entry
  | none =>
    exact .inr ⟨_, _, sqlite_insertEntry codec L L.rows entry.entryKey entry hget,
      Advance.decline L entry hget h⟩

theorem sqlite_complete (entry : ToolCallStoreEntry) (h : entry.state = .completed) :
    Simulates (SqliteRepresents codec) (SqliteTables.complete codec entry) := by
  refine transaction_simulates codec _ fun L => ?_
  simp only [sqlite_load]
  cases hct : completeTransition (L.entries.get? entry.entryKey) entry with
  | error error => exact .inl ⟨error, _, rfl⟩
  | ok completed =>
    obtain ⟨held,hheld,hadv⟩ := completeTransition_advance L entry completed h hct
    refine .inr ⟨completed, _, ?_, hadv⟩
    simp [SqliteTables.updateEntry, Dict.get?_mapValues, hheld, Dict.set_mapValues]

/-- Narrowing the rows to the namespace first loses no entry of the scope. -/
theorem sqlite_admittedEntries (L : Ledger) (hL : Keyed L) (q : ScopeQuery) (scope : ScopeKey)
    (hq : q.key = .ok scope) :
    SqliteTables.admittedEntries codec q ⟨L.entries.mapValues codec.entryText, L.rows⟩ = .ok
      ((L.debits ToolCallStoreEntry.scopeKey debitOrdinal scope).mergeSort fun a b =>
        decide (a.capacityDebitOrdinal.getD 0 ≤ b.capacityDebitOrdinal.getD 0)) := by
  obtain ⟨scopeId,hid,hscope⟩ := (bind_eq_ok _ _ _).mp hq
  have hns : scope.1 = q.storeNamespaceKey := by
    cases hscope
    rfl
  have hrows : (List.filter (fun p => decide (p.1.1 = q.storeNamespaceKey))
        (L.entries.mapValues codec.entryText).pairs).mapM (fun p => codec.decodeEntry p.2) =
      .ok ((L.entries.pairs.filter fun p => decide (p.1.1 = q.storeNamespaceKey)).map Prod.snd) := by
    simp only [Dict.mapValues, List.filter_map, List.mapM_map]
    exact mapM_ok _ Prod.snd _ fun p _ => codec.decode_text p.2
  simp only [SqliteTables.admittedEntries, hid, hrows, bind, Except.bind]
  rw [entriesInScope_eq _ q scope hq]
  congr 2
  simp only [DebitLedger.debits, Dict.values, List.filter_map, List.filter_filter]
  congr 1
  refine List.filter_congr fun p hp => ?_
  have hkey := hL p.1 p.2 ((Dict.get?_eq_some_iff _ _ _).mpr hp)
  by_cases hin : p.2.scopeKey = scope
  · have hp1 : p.1.1 = q.storeNamespaceKey := by
      rw [← hkey, ← hns, ← hin]
      rfl
    simp [DebitLedger.isDebit, hp1, hin]
  · simp [DebitLedger.isDebit, hin]

def sqliteRefinement : Refinement (sqliteBackend codec) where
  represents := SqliteRepresents codec
  init := rfl
  admitCall := sqlite_admitCall codec
  refuse := sqlite_refuse codec
  complete := sqlite_complete codec
  get := by
    rintro t L key rfl
    exact sqlite_load codec L key
  capacityRow := by
    rintro t L scope rfl
    rfl
  acceptedCount := by
    rintro t L q scope rfl hq
    simp only [sqliteBackend, SqliteTables.acceptedCount, hq, ok_bind, DebitLedger.consumed]
    cases L.rows.get? scope <;> rfl
  admittedEntries := by
    rintro t L q scope rfl hL hq
    exact sqlite_admittedEntries codec L hL q scope hq

end Sqlite

/-! ### Runs of the authority -/

namespace ToolAdmissionAuthority

variable {b : AdmissionBackend} (r : Refinement b)

/-- One authority call raises with its tables unchanged, or advances the ledger. -/
theorem step_simulates (request : AdmissionRequest) :
    Simulates r.represents (fun s => step b s request) := by
  intro s L hs
  cases request with
  | admitCall accepted refused limit =>
    simp only [step, admitCall]
    cases hv : validateAdmissionAttempt accepted refused limit with
    | error error => exact .inl ⟨error, rfl⟩
    | ok u => exact r.admitCall accepted refused limit hv s L hs
  | refuse entry =>
    simp only [step, refuse]
    split_ifs with h1 h2
    · exact .inl ⟨_, rfl⟩
    · exact .inl ⟨_, rfl⟩
    · exact r.refuse entry (not_not.mp h1) s L hs
  | complete entry =>
    simp only [step, complete]
    split_ifs with h1
    · exact .inl ⟨_, rfl⟩
    · exact r.complete entry (not_not.mp h1) s L hs

theorem run_append (s : b.State) (earlier later : List AdmissionRequest) :
    run b s (earlier ++ later) = run b (run b s earlier) later := by
  induction earlier generalizing s with
  | nil => rfl
  | cons request rest ih => exact ih (step b s request).2

/-- A run from a represented ledger ends in a represented, advanced one. -/
theorem run_simulates (requests : List AdmissionRequest) (s : b.State) (L : Ledger)
    (hs : r.represents s L) : ∃ L', r.represents (run b s requests) L' ∧ Advance L L' := by
  induction requests generalizing s L with
  | nil => exact ⟨L, hs, .refl L⟩
  | cons request rest ih =>
    rcases step_simulates r request s L hs with ⟨error,he⟩ | ⟨e,s',L',he,hs',hadv⟩
    · simpa only [run, he] using ih s L hs
    · obtain ⟨L2,h2,hadv2⟩ := ih s' L' hs'
      exact ⟨L2, by simpa only [run, he] using h2, hadv.trans hadv2⟩

end ToolAdmissionAuthority

/-- The two tables agree in every capacity scope: no row is overdrawn, `admitted_entries` lists
exactly the decided entries that debited the scope, in the order of their ordinals one to
`accepted_count`, and refused entries hold no ordinal. -/
structure LedgerSound (b : AdmissionBackend) (s : b.State) : Prop where
  within_max : ∀ scope maximum consumed,
    b.capacityRow scope s = some (maximum, consumed) → (consumed : Int) ≤ maximum
  admitted : ∀ q scope, q.key = .ok scope → ∃ entries count,
    b.admittedEntries q s = .ok entries ∧ b.acceptedCount q s = .ok count ∧
    entries.map (·.capacityDebitOrdinal) = (List.range' 1 count).map some ∧
    ∀ e, e ∈ entries ↔ (∃ key, b.get key s = .ok (some e)) ∧
      (e.state = .accepted ∨ e.state = .completed) ∧ e.scopeKey = scope
  refused_free : ∀ key e, b.get key s = .ok (some e) → e.state = .refused →
    e.capacityDebitOrdinal = none

theorem keyed_empty : Keyed (DebitLedger.empty : Ledger) := by
  intro k e h
  cases h

theorem mem_debits_iff (L : Ledger) (scope : ScopeKey) (e : ToolCallStoreEntry) :
    e ∈ L.debits ToolCallStoreEntry.scopeKey debitOrdinal scope ↔
      (∃ key, L.entries.get? key = some e) ∧
        (e.state = .accepted ∨ e.state = .completed) ∧ e.scopeKey = scope := by
  have hord : e.capacityDebitOrdinal.isSome = true ↔
      e.state = .accepted ∨ e.state = .completed := by
    rw [Option.isSome_iff_ne_none, ne_eq, e.ordinal_none_iff]
    cases e.state <;> simp
  simp only [DebitLedger.debits, List.mem_filter, Dict.mem_values_iff, DebitLedger.isDebit,
    Bool.and_eq_true, decide_eq_true_eq, debitOrdinal, hord]

theorem Refinement.sound {b : AdmissionBackend} (r : Refinement b) (s : b.State) (L : Ledger)
    (hs : r.represents s L) (hk : Keyed L)
    (hd : DebitLedger.Dense ToolCallStoreEntry.scopeKey debitOrdinal L) : LedgerSound b s where
  within_max := by
    intro scope maximum consumed h
    rw [r.capacityRow s L scope hs] at h
    exact hd.bounded scope maximum consumed h
  admitted := by
    intro q scope hq
    refine ⟨_, _, r.admittedEntries s L q scope hs hk hq, r.acceptedCount s L q scope hs hq,
      DebitLedger.map_ordinal_mergeSort _ _ (hd.numbered scope), fun e => ?_⟩
    rw [List.mem_mergeSort, mem_debits_iff]
    simp only [r.get s L _ hs, Except.ok.injEq]
  refused_free := fun _ e _ he => e.ordinal_none_iff.mpr he

/-- Every run of the admission authority, over either backend and from empty tables, keeps the
ledger sound; a call that raises leaves the tables as they were; and a decided key keeps its
entry through every continuation, except that an accepted entry may complete once. -/
theorem admission_ledger_invariant {Text : Type} (codec : EntryCodec Text) (kind : BackendKind)
    (requests : List AdmissionRequest) :
    let b := backend codec kind
    let s := ToolAdmissionAuthority.run b b.empty requests
    LedgerSound b s ∧
    (∀ request error, (ToolAdmissionAuthority.step b s request).1 = .error error →
      (ToolAdmissionAuthority.step b s request).2 = s) ∧
    ∀ later key e, b.get key s = .ok (some e) →
      ∃ e', b.get key (ToolAdmissionAuthority.run b b.empty (requests ++ later)) = .ok (some e') ∧
        Settles e e' := by
  intro b s
  have r : Refinement b := by
    cases kind with
    | memory => exact memoryRefinement
    | sqlite => exact sqliteRefinement codec
  obtain ⟨L,hs,hadv⟩ := ToolAdmissionAuthority.run_simulates r requests b.empty _ r.init
  have hd := (DebitLedger.dense_empty ToolCallStoreEntry.scopeKey debitOrdinal).steps hadv.steps
  refine ⟨r.sound s L hs (hadv.keyed keyed_empty) hd, ?_, ?_⟩
  · intro request error h
    rcases ToolAdmissionAuthority.step_simulates r request s L hs with
      ⟨error',he⟩ | ⟨e,s',_,he,_⟩
    · exact congrArg Prod.snd he
    · have hok := (congrArg Prod.fst he).symm.trans h
      cases hok
  · intro later key e h
    obtain ⟨L2,hs2,hadv2⟩ := ToolAdmissionAuthority.run_simulates r later s L hs
    rw [r.get s L key hs, Except.ok.injEq] at h
    obtain ⟨e',he',hset⟩ := hadv2.settles key e h
    refine ⟨e', ?_, hset⟩
    rw [ToolAdmissionAuthority.run_append, r.get _ L2 key hs2, he']

end Whetstone.Tools
