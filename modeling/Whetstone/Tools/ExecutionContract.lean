import Whetstone.Tools.AdmissionLedger
import Whetstone.Tools.Execution

/-! What invocations of the tool executor may assume of one another. Decided entries, stored
results and published terminals stay; a returned result is backed by a decided entry of its
call; and no invocation that began behind a return of its call evaluates. -/
namespace Whetstone.Tools
open Whetstone.Core Whetstone.Lib Whetstone.Experiment

section Replies

variable [ToolIdentity]

/-- A refinement whose replies cite the call they were asked about. -/
structure CitingRefinement (b : AdmissionBackend) extends Refinement b where
  admit_cites : ∀ accepted refused limit s e,
    validateAdmissionAttempt accepted refused limit = .ok () →
    (b.admitCall accepted refused limit s).1 = .ok e → e.toolCall = accepted.toolCall
  refuse_cites : ∀ entry s e, (b.refuse entry s).1 = .ok e → e.toolCall = entry.toolCall
  complete_cites : ∀ entry s e, (b.complete entry s).1 = .ok e → e.toolCall = entry.toolCall

theorem acceptedWithOrdinal_cites (accepted e : ToolCallStoreEntry) (ordinal : Nat)
    (h : acceptedWithOrdinal accepted ordinal = .ok e) : e.toolCall = accepted.toolCall := by
  have hfields := modelValidate_fields _ _ h
  rw [hfields]

theorem completeTransition_cites (existing : Option ToolCallStoreEntry)
    (completed e : ToolCallStoreEntry) (h : completeTransition existing completed = .ok e) :
    e.toolCall = completed.toolCall := by
  obtain ⟨held,_,hcall,hcase⟩ := completeTransition_ok existing completed e h
  rcases hcase with rfl | ⟨_,rfl,_⟩
  · exact hcall
  · rfl

def memoryCiting : CitingRefinement memoryBackend where
  toRefinement := memoryRefinement
  admit_cites := by
    intro accepted refused limit t e hvalid h
    obtain ⟨_,_,hcall,_⟩ := validateAdmissionAttempt_ok accepted refused limit hvalid
    change (MemoryTables.admitCall accepted refused limit t).1 = .ok e at h
    unfold MemoryTables.admitCall at h
    cases hget : t.entries.get? accepted.entryKey with
    | some existing =>
      simp only [hget] at h
      obtain ⟨rfl,hsame⟩ := replayOrConflict_ok existing accepted e h
      exact hsame
    | none =>
      simp only [hget] at h
      split at h
      · cases h
      · split at h
        · cases hdecision : acceptedWithOrdinal accepted
            (((t.capacity.get? accepted.scopeKey).getD (limit, 0)).2 + 1) with
          | error error =>
            simp only [hdecision] at h
            cases h
          | ok decision =>
            simp only [hdecision] at h
            cases h
            exact acceptedWithOrdinal_cites accepted e _ hdecision
        · cases h
          exact hcall.symm
  refuse_cites := by
    intro entry t e h
    change (MemoryTables.refuse entry t).1 = .ok e at h
    unfold MemoryTables.refuse at h
    cases hget : t.entries.get? entry.entryKey with
    | some existing =>
      simp only [hget] at h
      obtain ⟨rfl,hsame⟩ := replayOrConflict_ok existing entry e h
      exact hsame
    | none =>
      simp only [hget] at h
      cases h
      rfl
  complete_cites := by
    intro entry t e h
    change (MemoryTables.complete entry t).1 = .ok e at h
    unfold MemoryTables.complete at h
    cases hcomplete : completeTransition (t.entries.get? entry.entryKey) entry with
    | error error =>
      simp only [hcomplete] at h
      cases h
    | ok completed =>
      simp only [hcomplete] at h
      cases h
      exact completeTransition_cites _ _ _ hcomplete

section Sqlite

variable {Text : Type} (codec : EntryCodec Text)

theorem transaction_ok
    (body : SqliteTables Text → Except AdmissionError ToolCallStoreEntry × SqliteTables Text)
    (t : SqliteTables Text) (e : ToolCallStoreEntry)
    (h : (SqliteTables.transaction body t).1 = .ok e) : (body t).1 = .ok e := by
  unfold SqliteTables.transaction at h
  split at h
  · rename_i a t' hbody
    rw [hbody]
    exact h
  · cases h

theorem insertEntry_ok (key : EntryKey) (entry e : ToolCallStoreEntry) (t : SqliteTables Text)
    (h : (SqliteTables.insertEntry codec key entry t).1 = .ok e) : e = entry := by
  unfold SqliteTables.insertEntry at h
  split at h
  · cases h
  · cases h
    rfl

def sqliteCiting : CitingRefinement (sqliteBackend codec) where
  toRefinement := sqliteRefinement codec
  admit_cites := by
    intro accepted refused limit t e hvalid h
    obtain ⟨_,_,hcall,_⟩ := validateAdmissionAttempt_ok accepted refused limit hvalid
    have hbody := transaction_ok _ t e h
    cases hload : t.load codec accepted.entryKey with
    | error error =>
      simp only [hload] at hbody
      cases hbody
    | ok found =>
      simp only [hload] at hbody
      cases found with
      | some existing =>
        obtain ⟨rfl,hsame⟩ := replayOrConflict_ok existing accepted e hbody
        exact hsame
      | none =>
        simp only at hbody
        split at hbody
        · cases hbody
        · split at hbody
          · cases hbody
          · split at hbody
            · cases hbody
            · split at hbody
              · split at hbody
                · cases hbody
                · rename_i decision hdecision
                  rw [insertEntry_ok codec _ _ _ _ hbody]
                  exact acceptedWithOrdinal_cites accepted decision _ hdecision
              · rw [insertEntry_ok codec _ _ _ _ hbody]
                exact hcall.symm
  refuse_cites := by
    intro entry t e h
    have hbody := transaction_ok _ t e h
    cases hload : t.load codec entry.entryKey with
    | error error =>
      simp only [hload] at hbody
      cases hbody
    | ok found =>
      simp only [hload] at hbody
      cases found with
      | some existing =>
        obtain ⟨rfl,hsame⟩ := replayOrConflict_ok existing entry e hbody
        exact hsame
      | none => rw [insertEntry_ok codec _ _ _ _ hbody]
  complete_cites := by
    intro entry t e h
    have hbody := transaction_ok _ t e h
    cases hload : t.load codec entry.entryKey with
    | error error =>
      simp only [hload] at hbody
      cases hbody
    | ok found =>
      simp only [hload] at hbody
      split at hbody
      · cases hbody
      · rename_i completed hcomplete
        cases hbody
        exact completeTransition_cites _ _ _ hcomplete

end Sqlite

/-- Both backends refine the ledger and cite what they were asked about. -/
def citingRefinement {Text : Type} (codec : EntryCodec Text) :
    (kind : BackendKind) → CitingRefinement (backend codec kind)
  | .memory => memoryCiting
  | .sqlite => sqliteCiting codec

theorem simulates_raise {b : AdmissionBackend} {represents : b.State → Ledger → Prop}
    (error : AdmissionError) : Simulates represents fun s => (.error error, s) :=
  fun _ _ _ => .inl ⟨error, rfl⟩

variable {b : AdmissionBackend} {r : CitingRefinement b}

theorem admitCall_simulates (accepted refused : ToolCallStoreEntry) (limit : Int) :
    Simulates r.represents (ToolAdmissionAuthority.admitCall b accepted refused limit) := by
  intro s L hL
  unfold ToolAdmissionAuthority.admitCall
  cases hvalid : validateAdmissionAttempt accepted refused limit with
  | error error => exact simulates_raise error s L hL
  | ok _ => exact r.admitCall accepted refused limit hvalid s L hL

theorem refuse_simulates (entry : ToolCallStoreEntry) :
    Simulates r.represents (ToolAdmissionAuthority.refuse b entry) := by
  intro s L hL
  unfold ToolAdmissionAuthority.refuse
  by_cases hstate : entry.state = .refused
  · rw [if_neg (not_not.mpr hstate)]
    split
    · exact simulates_raise _ s L hL
    · exact r.refuse entry hstate s L hL
  · rw [if_pos hstate]
    exact simulates_raise _ s L hL

theorem complete_simulates (entry : ToolCallStoreEntry) :
    Simulates r.represents (ToolAdmissionAuthority.complete b entry) := by
  intro s L hL
  unfold ToolAdmissionAuthority.complete
  by_cases hstate : entry.state = .completed
  · rw [if_neg (not_not.mpr hstate)]
    exact r.complete entry hstate s L hL
  · rw [if_pos hstate]
    exact simulates_raise _ s L hL

/-- What the authority replies cites the call it was asked about. -/
theorem admitCall_reply {accepted refused e : ToolCallStoreEntry} {limit : Int} {s : b.State}
    (r : CitingRefinement b)
    (h : (ToolAdmissionAuthority.admitCall b accepted refused limit s).1 = .ok e) :
    e.toolCall = accepted.toolCall := by
  unfold ToolAdmissionAuthority.admitCall at h
  cases hvalid : validateAdmissionAttempt accepted refused limit with
  | error error =>
    rw [hvalid] at h
    cases h
  | ok _ =>
    rw [hvalid] at h
    exact r.admit_cites accepted refused limit s e hvalid h

theorem refuse_reply {entry e : ToolCallStoreEntry} {s : b.State} (r : CitingRefinement b)
    (h : (ToolAdmissionAuthority.refuse b entry s).1 = .ok e) : e.toolCall = entry.toolCall := by
  unfold ToolAdmissionAuthority.refuse at h
  split at h
  · cases h
  · split at h
    · cases h
    · exact r.refuse_cites entry s e h

theorem complete_reply {entry e : ToolCallStoreEntry} {s : b.State} (r : CitingRefinement b)
    (h : (ToolAdmissionAuthority.complete b entry s).1 = .ok e) :
    e.toolCall = entry.toolCall := by
  unfold ToolAdmissionAuthority.complete at h
  split at h
  · cases h
  · exact r.complete_cites entry s e h

end Replies

/- A last event ends the list that is split, or the list behind the split. -/
theorem append_singleton_cases {α : Type} {history before after : List α} {event other : α}
    (h : history ++ [event] = before ++ other :: after) :
    (after = [] ∧ history = before ∧ event = other) ∨
      ∃ rest, after = rest ++ [event] ∧ history = before ++ other :: rest := by
  rcases List.eq_nil_or_concat after with rfl | ⟨rest,last,rfl⟩
  · have hsame : history ++ [event] = before ++ [other] := h
    have hlast := List.append_inj' hsame rfl
    exact .inl ⟨rfl, hlast.1, by simpa using hlast.2⟩
  · rw [List.concat_eq_append] at h ⊢
    have hsame : history ++ [event] = (before ++ other :: rest) ++ [last] := by simpa using h
    have hlast := List.append_inj' hsame rfl
    have hevent : event = last := by simpa using hlast.2
    exact .inr ⟨rest, by rw [hevent], hlast.1⟩

section Contract

variable [ToolIdentity] [LeaseText] {F : Type} [FiniteFloats F] [DecidableEq F]
variable [RewardIdentity F]
variable {b : AdmissionBackend} {authority : LeaseAuthority} {s t u : ExecutionState F b authority}

/- The durable entry of a key. -/
def entryAt (s : ExecutionState F b authority) (key : EntryKey) : Option ToolCallStoreEntry :=
  match b.get key s.admission with
  | .ok entry => entry
  | .error _ => none

/- What every operation keeps. -/
structure Evolves (s t : ExecutionState F b authority) : Prop where
  entries : ∀ key e, entryAt s key = some e → ∃ e', entryAt t key = some e' ∧ Settles e e'
  results : ∀ ref result, s.results.get? ref = some result → t.results.get? ref = some result
  published : ∀ request terminal, authority.published s.leases request = some terminal →
    authority.published t.leases request = some terminal

theorem Evolves.refl (s : ExecutionState F b authority) : Evolves s s :=
  ⟨fun _ e h => ⟨e, h, .inl rfl⟩, fun _ _ h => h, fun _ _ h => h⟩

theorem Evolves.trans (h : Evolves s t) (h' : Evolves t u) : Evolves s u where
  entries := by
    intro key e he
    obtain ⟨e1,h1,s1⟩ := h.entries key e he
    obtain ⟨e2,h2,s2⟩ := h'.entries key e1 h1
    exact ⟨e2, h2, s1.trans s2⟩
  results := fun ref result hget => h'.results ref result (h.results ref result hget)
  published := fun request terminal hp => h'.published request terminal (h.published _ _ hp)

/-- A refused or completed entry stays as it is. -/
theorem Evolves.terminal (h : Evolves s t) {key : EntryKey} {e : ToolCallStoreEntry}
    (he : entryAt s key = some e) (hstate : e.state ≠ .accepted) : entryAt t key = some e := by
  obtain ⟨e',he',hsettles⟩ := h.entries key e he
  rcases hsettles with rfl | ⟨haccepted,_⟩
  · exact he'
  · exact absurd haccepted hstate

/- The decided entry of a call, and the result that stands for it: a refusal, or the one
   terminal result, under the ordinal the call was debited. -/
def Backed (s : ExecutionState F b authority) (call : ToolCall) (result : ToolResult F) : Prop :=
  ∃ e ref, entryAt s (ToolCallStore.callKey call) = some e ∧ e.toolCall = call ∧
    result.call = call ∧ e.toolResultRef = some ref ∧ s.results.get? ref = some result ∧
    (e.state = .refused ∧ result.refusal ≠ none ∨
      e.state = .completed ∧ result.refusal = none ∧
        result.provenanceOrdinal = e.capacityDebitOrdinal ∧
        (authority.published s.leases (toolEffectRequest call)).isSome = true)

theorem Backed.evolves {call : ToolCall} {result : ToolResult F} (h : Backed s call result)
    (hst : Evolves s t) : Backed t call result := by
  obtain ⟨e,ref,he,hcall,hcites,href,hresult,hstate⟩ := h
  have hterminal : e.state ≠ .accepted := by
    rcases hstate with ⟨hs,_⟩ | ⟨hs,_⟩
    · rw [hs]
      decide
    · rw [hs]
      decide
  refine ⟨e, ref, hst.terminal he hterminal, hcall, hcites, href,
    hst.results ref result hresult, ?_⟩
  rcases hstate with hrefused | ⟨hs,hnone,hordinal,hpublished⟩
  · exact .inl hrefused
  · obtain ⟨terminal,hterm⟩ := Option.isSome_iff_exists.mp hpublished
    refine .inr ⟨hs, hnone, hordinal, ?_⟩
    rw [hst.published _ _ hterm]
    rfl

/-- Two results that back one call are both refusals or the same. -/
theorem Backed.unique {call : ToolCall} {result result' : ToolResult F} (h : Backed s call result)
    (h' : Backed s call result') : result = result' := by
  obtain ⟨e,ref,he,_,_,href,hresult,_⟩ := h
  obtain ⟨e',ref',he',_,_,href',hresult',_⟩ := h'
  rw [he, Option.some.injEq] at he'
  subst he'
  rw [href, Option.some.injEq] at href'
  subst href'
  rw [hresult, Option.some.injEq] at hresult'
  exact hresult'

def ExecutionEvent.invocation : ExecutionEvent F → Invocation F
  | .entered invocation => invocation
  | .evaluated invocation => invocation
  | .returned invocation _ => invocation

/- A call of the invocation's own Tool Call returned before the invocation began. -/
def Late (history : List (ExecutionEvent F)) (invocation : Invocation F) : Prop :=
  ∃ before middle after earlier result,
    history = before ++ .returned earlier result :: middle ++ .entered invocation :: after ∧
      earlier.call = invocation.call

/- No late invocation evaluates. -/
def Punctual (history : List (ExecutionEvent F)) : Prop :=
  ∀ before invocation after, history = before ++ .evaluated invocation :: after →
    ¬ Late before invocation

/- Every returned result is backed by the entry of its call. -/
structure ExecutionInv (r : CitingRefinement b) (s : ExecutionState F b authority) : Prop where
  represents : ∃ L, r.represents s.admission L
  backed : ∀ invocation result, .returned invocation result ∈ s.history →
    Backed s invocation.call result
  punctual : Punctual s.history

/- What one invocation may assume of a step of the others. -/
structure ExecutionRely (number : Nat) (s t : ExecutionState F b authority) : Prop where
  evolves : Evolves s t
  history : ∃ later, t.history = s.history ++ later ∧
    ∀ event ∈ later, event.invocation.number ≠ number

theorem ExecutionRely.refl (number : Nat) (s : ExecutionState F b authority) :
    ExecutionRely number s s :=
  ⟨.refl s, [], (List.append_nil _).symm, fun _ h => by cases h⟩

theorem ExecutionRely.trans {number : Nat} (h : ExecutionRely number s t)
    (h' : ExecutionRely number t u) : ExecutionRely number s u := by
  obtain ⟨hevolves,later,hlater,hothers⟩ := h
  obtain ⟨hevolves',later',hlater',hothers'⟩ := h'
  refine ⟨hevolves.trans hevolves', later ++ later', ?_, ?_⟩
  · rw [hlater', hlater, List.append_assoc]
  · intro event hevent
    rcases List.mem_append.mp hevent with hevent | hevent
    · exact hothers event hevent
    · exact hothers' event hevent

variable {r : CitingRefinement b}

theorem entryAt_represents {s : ExecutionState F b authority} {L : Ledger}
    (h : r.represents s.admission L) (key : EntryKey) : entryAt s key = L.entries.get? key := by
  unfold entryAt
  rw [r.get s.admission L key h]

/-- An admission request settles entries, whatever it replies. -/
theorem simulates_evolves {op : b.State → Except AdmissionError ToolCallStoreEntry × b.State}
    (hop : Simulates r.represents op) (hs : ∃ L, r.represents s.admission L) :
    (∃ L, r.represents (op s.admission).2 L) ∧
      Evolves s { s with admission := (op s.admission).2 } := by
  obtain ⟨L,hL⟩ := hs
  rcases hop s.admission L hL with ⟨error,he⟩ | ⟨e,a,L',he,hL',hadvance⟩
  · rw [he]
    exact ⟨⟨L, hL⟩, .refl s⟩
  · rw [he]
    refine ⟨⟨L', hL'⟩, ?_, fun _ _ h => h, fun _ _ h => h⟩
    intro key e' hkey
    rw [entryAt_represents hL] at hkey
    rw [entryAt_represents (s := { s with admission := a }) hL']
    exact hadvance.settles key e' hkey

theorem acquire_evolves (request : EffectRequest) (owner attempt : String)
    (choice : authority.Choice) :
    Evolves s { s with
      leases := (authority.effectAcquire request owner attempt choice s.leases).2 } :=
  ⟨fun _ e h => ⟨e, h, .inl rfl⟩, fun _ _ h => h,
    fun request' terminal h => authority.acquire_keeps request owner attempt choice s.leases
      request' terminal h⟩

theorem publish_evolves (lease : Lease) (outcome : TerminalOutcome) (ref : TypedRef)
    (failure : Option TerminalFailure) (choice : authority.Choice) :
    Evolves s { s with
      leases := (authority.effectPublish lease outcome ref failure choice s.leases).2 } :=
  ⟨fun _ e h => ⟨e, h, .inl rfl⟩, fun _ _ h => h,
    fun request' terminal h => authority.publish_keeps lease outcome (some ref) _ choice s.leases
      request' terminal h⟩

variable (r)

/-- Invocations with different numbers may run together. -/
def executionContract (authority : LeaseAuthority) :
    Contract (Invocation F) (ExecutionState F b authority) (ToolOp F) where
  inv := ExecutionInv r
  allowed := fun _ _ _ => True
  rely := fun invocation => ExecutionRely invocation.number
  compat := fun invocation invocation' => invocation.number ≠ invocation'.number
  pre := fun _ _ => True
  rely_refl := fun invocation s => ExecutionRely.refl invocation.number s
  rely_trans := fun _ _ _ _ h h' => h.trans h'

/-! ### Histories -/

omit [ToolIdentity] [LeaseText] in
/-- Recording any event but a late evaluation keeps the history punctual. -/
theorem Punctual.record {history : List (ExecutionEvent F)} (h : Punctual history)
    (event : ExecutionEvent F)
    (hevent : ∀ invocation, event = .evaluated invocation → ¬ Late history invocation) :
    Punctual (history ++ [event]) := by
  intro before invocation after hsplit
  rcases append_singleton_cases hsplit with ⟨_,rfl,rfl⟩ | ⟨rest,_,hrest⟩
  · exact hevent invocation rfl
  · exact h before invocation rest hrest

omit [ToolIdentity] [LeaseText] in
/-- A late invocation was late before the events of others. -/
theorem Late.before {history later : List (ExecutionEvent F)} {invocation : Invocation F}
    (hothers : ∀ event ∈ later, event.invocation.number ≠ invocation.number)
    (h : Late (history ++ later) invocation) : Late history invocation := by
  induction later generalizing history with
  | nil => simpa using h
  | cons event rest ih =>
    have hlate : Late ((history ++ [event]) ++ rest) invocation := by simpa using h
    obtain ⟨before,middle,after,earlier,result,hsplit,hcall⟩ :=
      ih (fun other hother => hothers other (List.mem_cons_of_mem _ hother)) hlate
    rcases append_singleton_cases hsplit with ⟨_,_,hlast⟩ | ⟨rest',_,hrest⟩
    · have hne := hothers event List.mem_cons_self
      rw [hlast] at hne
      exact absurd rfl hne
    · exact ⟨before, middle, rest', earlier, result, hrest, hcall⟩

omit [ToolIdentity] [LeaseText] in
theorem Late.returned {history : List (ExecutionEvent F)} {invocation : Invocation F}
    (h : Late history invocation) :
    ∃ earlier result, .returned earlier result ∈ history ∧ earlier.call = invocation.call := by
  obtain ⟨before,middle,after,earlier,result,rfl,hcall⟩ := h
  exact ⟨earlier, result, by simp, hcall⟩

theorem ExecutionRely.late {invocation : Invocation F}
    (h : ExecutionRely invocation.number s t) (hlate : Late t.history invocation) :
    Late s.history invocation := by
  obtain ⟨later,hlater,hothers⟩ := h.history
  rw [hlater] at hlate
  exact hlate.before hothers

end Contract
end Whetstone.Tools
