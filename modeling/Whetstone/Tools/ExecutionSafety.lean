import Whetstone.Tools.ExecutionContract

/-! Tool execution has one terminal result. Every operation of an invocation keeps the
contract, so every function of the executor is safe under it, and so is every pool of
invocations. -/
namespace Whetstone.Tools
open Whetstone.Core Whetstone.Lib Whetstone.Experiment

section Safety

variable [ToolIdentity] [LeaseText] {F : Type} [FiniteFloats F] [DecidableEq F]
variable [RewardIdentity F] [ResultIdentity F]
variable {b : AdmissionBackend} {authority : LeaseAuthority} {r : CitingRefinement b}
variable {s t t' u : ExecutionState F b authority} {l : Invocation F}

/- What an operation must bring along: a returned result its entry, an evaluation its
   punctuality. -/
structure Justified (l : Invocation F) (o : ToolOp F) (s : ExecutionState F b authority) :
    Prop where
  leave : ∀ result, o = .leave result → Backed s l.call result
  evaluate : ∀ call, o = .evaluate call → ¬ Late s.history l

theorem putResult_evolves (result : ToolResult F) : Evolves s (s.putResult result) := by
  unfold ExecutionState.putResult
  cases hget : s.results.get? (toolResultReference result) with
  | some _ => exact .refl s
  | none =>
    refine ⟨fun _ e h => ⟨e, h, .inl rfl⟩, ?_, fun _ _ h => h⟩
    intro ref found hfound
    have hne : ref ≠ toolResultReference result := by
      rintro rfl
      rw [hget] at hfound
      cases hfound
    simpa [Dict.get?_set, hne] using hfound

/- The event an operation records, if any. -/
def recorded (l : Invocation F) (o : ToolOp F) : List (ExecutionEvent F) :=
  match o with
  | .enter => [.entered l]
  | .leave result => [.returned l result]
  | .evaluate _ => [.evaluated l]
  | _ => []

/-- One operation: entries settle, nothing is lost, and only its own event is recorded. -/
theorem execOp_evolves {o : ToolOp F} {answer : ExecutionAnswer F authority} {reply : o.Reply}
    (hs : ∃ L, r.represents s.admission L) (h : execOp l o answer s = some (reply, t)) :
    (∃ L, r.represents t.admission L) ∧ Evolves s t ∧ t.history = s.history ++ recorded l o := by
  cases o with
  | enter =>
    cases h
    exact ⟨hs, ⟨fun _ e h => ⟨e, h, .inl rfl⟩, fun _ _ h => h, fun _ _ h => h⟩, rfl⟩
  | leave result =>
    cases h
    exact ⟨hs, ⟨fun _ e h => ⟨e, h, .inl rfl⟩, fun _ _ h => h, fun _ _ h => h⟩, rfl⟩
  | evaluate call =>
    cases answer with
    | evaluated found =>
      cases h
      exact ⟨hs, ⟨fun _ e h => ⟨e, h, .inl rfl⟩, fun _ _ h => h, fun _ _ h => h⟩, rfl⟩
    | _ => cases h
  | getEntry key =>
    cases h
    exact ⟨hs, .refl s, (List.append_nil _).symm⟩
  | admitEntry accepted refused limit =>
    cases h
    obtain ⟨hL,hevolves⟩ := simulates_evolves (admitCall_simulates accepted refused limit) hs
    exact ⟨hL, hevolves, (List.append_nil _).symm⟩
  | refuseEntry entry =>
    cases h
    obtain ⟨hL,hevolves⟩ := simulates_evolves (refuse_simulates entry) hs
    exact ⟨hL, hevolves, (List.append_nil _).symm⟩
  | completeEntry entry =>
    cases h
    obtain ⟨hL,hevolves⟩ := simulates_evolves (complete_simulates entry) hs
    exact ⟨hL, hevolves, (List.append_nil _).symm⟩
  | acceptedCount query =>
    cases h
    exact ⟨hs, .refl s, (List.append_nil _).symm⟩
  | putResult result =>
    cases h
    refine ⟨?_, putResult_evolves result, ?_⟩
    · unfold ExecutionState.putResult
      split <;> exact hs
    · unfold ExecutionState.putResult
      split <;> exact (List.append_nil _).symm
  | getResult ref =>
    cases h
    exact ⟨hs, .refl s, (List.append_nil _).symm⟩
  | acquire request owner =>
    cases answer with
    | lease attempt choice =>
      cases h
      exact ⟨hs, acquire_evolves request owner attempt choice, (List.append_nil _).symm⟩
    | _ => cases h
  | publish lease outcome ref failure =>
    cases answer with
    | lease attempt choice =>
      cases h
      exact ⟨hs, publish_evolves lease outcome ref failure choice, (List.append_nil _).symm⟩
    | _ => cases h
  | verifyTerminal terminal =>
    cases h
    exact ⟨hs, .refl s, (List.append_nil _).symm⟩
  | validate call =>
    cases answer with
    | validated found =>
      cases h
      exact ⟨hs, .refl s, (List.append_nil _).symm⟩
    | _ => cases h

omit [LeaseText] [ResultIdentity F] in
theorem recorded_invocation {o : ToolOp F} {event : ExecutionEvent F} (h : event ∈ recorded l o) :
    event.invocation = l := by
  cases o <;> simp_all [recorded, ExecutionEvent.invocation]

/-- An operation that brings what it must keeps the invariant and what the others rely on. -/
theorem execOp_sound {o : ToolOp F} {answer : ExecutionAnswer F authority} {reply : o.Reply}
    (hs : ExecutionInv r s) (hjust : Justified l o s) (h : execOp l o answer s = some (reply, t)) :
    ExecutionInv r t ∧ ∀ number, l.number ≠ number → ExecutionRely number s t := by
  obtain ⟨hL,hevolves,hhistory⟩ := execOp_evolves hs.represents h
  refine ⟨⟨hL, ?_, ?_⟩, ?_⟩
  · intro invocation result hmem
    rw [hhistory, List.mem_append] at hmem
    rcases hmem with hmem | hmem
    · exact (hs.backed invocation result hmem).evolves hevolves
    · have hleave : o = .leave result ∧ invocation = l := by
        cases o <;> simp_all [recorded]
      rw [hleave.2]
      exact (hjust.leave result hleave.1).evolves hevolves
  · rw [hhistory]
    cases o with
    | enter => exact hs.punctual.record _ fun _ h => by cases h
    | leave result => exact hs.punctual.record _ fun _ h => by cases h
    | evaluate call =>
      refine hs.punctual.record _ fun invocation hevent => ?_
      cases hevent
      exact hjust.evaluate call rfl
    | _ => simpa [recorded] using hs.punctual
  · intro number hne
    refine ⟨hevolves, recorded l o, hhistory, fun event hevent => ?_⟩
    rw [recorded_invocation hevent]
    exact hne

variable (r) in
abbrev ExecutionSafe {α : Type} (l : Invocation F) (Q : α → ExecutionState F b authority → Prop)
    (p : ToolProg F α) (s : ExecutionState F b authority) : Prop :=
  (executionContract r authority).Safe (executionMachine F b authority) l Q p s

/-- An operation that is justified in every state it may be reached in. -/
theorem safe_justified (o : ToolOp F) (Post : ExecutionState F b authority → Prop)
    (hjust : ∀ t, ExecutionRely l.number s t → ExecutionInv r t → Justified l o t)
    (h : ∀ t, ExecutionInv r t → Post t) :
    ExecutionSafe r l (fun _ u => Post u) (ToolCallStore.perform o) s := by
  intro t a reply t' hst ht _ he
  obtain ⟨hinv,hothers⟩ := execOp_sound ht (hjust t hst ht) he
  exact ⟨hinv, fun l' hne => hothers l'.number hne, fun _ _ => trivial, fun u _ hu => h u hu⟩

/-- An operation that records nothing needs no justification. -/
theorem safe_quiet (o : ToolOp F) (ho : recorded l o = [])
    (Post : o.Reply → ExecutionState F b authority → Prop)
    (h : ∀ t a reply t', ExecutionRely l.number s t → ExecutionInv r t →
      execOp l o a t = some (reply, t') → Post reply t')
    (hPost : ∀ reply t u, ExecutionRely l.number t u → Post reply t → Post reply u) :
    ExecutionSafe r l (fun reply u => ExecutionRely l.number s u ∧ Post reply u)
      (ToolCallStore.perform o) s := by
  intro t a reply t' hst ht _ he
  have hjust : Justified l o t := by
    constructor <;> intro x hx <;> subst hx <;> cases ho
  obtain ⟨_,hevolves,hhistory⟩ := execOp_evolves ht.represents he
  obtain ⟨hinv,hothers⟩ := execOp_sound ht hjust he
  have hown : ExecutionRely l.number t t' :=
    ⟨hevolves, [], by rw [hhistory, ho], fun _ hmem => by cases hmem⟩
  refine ⟨hinv, fun l' hne => hothers l'.number hne, fun _ _ => trivial, ?_⟩
  intro u hu _
  exact ⟨(hst.trans hown).trans hu, hPost reply t' u hu (h t a reply t' hst ht he)⟩

/-! ### Checks -/

theorem safe_return {α : Type} {Q : α → ExecutionState F b authority → Prop} (a : α)
    (h : ∀ u, ExecutionRely l.number s u → ExecutionInv r u → Q a u) :
    ExecutionSafe r l Q (pure a) s := h

theorem safe_raise {α : Type} (Q : α → ExecutionState F b authority → Prop)
    (error : ExecutionError) : ExecutionSafe r l Q (.raise error) s := trivial

theorem safe_check (bad : Prop) [Decidable bad] (error : ExecutionError) :
    ExecutionSafe r l (fun _ u => ExecutionRely l.number s u ∧ ¬ bad)
      (Prog.ofExcept (raiseIf bad error) : ToolProg F Unit) s := by
  refine Contract.safe_ofExcept _ s fun _ hok t hst _ => ⟨hst, ?_⟩
  exact (raiseIf_eq_ok bad error).mp hok

theorem safe_refuseIf (bad : Prop) [Decidable bad] (message : String) :
    ExecutionSafe r l (fun _ u => ExecutionRely l.number s u ∧ ¬ bad)
      (ToolCallStore.refuseIf bad message : ToolProg F Unit) s :=
  safe_check bad (.value message)

theorem safe_fromAdmission {α : Type} (x : Except AdmissionError α) :
    ExecutionSafe r l (fun a u => ExecutionRely l.number s u ∧ x = .ok a)
      (ToolCallStore.fromAdmission x : ToolProg F α) s := by
  cases x with
  | ok a => exact fun u hu _ => ⟨hu, rfl⟩
  | error error => trivial

theorem safe_fromValidation {α : Type} (x : Except String α) :
    ExecutionSafe r l (fun a u => ExecutionRely l.number s u ∧ x = .ok a)
      (ToolCallStore.fromValidation x : ToolProg F α) s := by
  cases x with
  | ok a => exact fun u hu _ => ⟨hu, rfl⟩
  | error message => trivial

theorem safe_fromLease {α : Type} (x : Except String α) :
    ExecutionSafe r l (fun a u => ExecutionRely l.number s u ∧ x = .ok a)
      (ToolCallStore.fromLease x : ToolProg F α) s := by
  cases x with
  | ok a => exact fun u hu _ => ⟨hu, rfl⟩
  | error message => trivial

/-! ### Operations -/

/-- A read entry: a decided entry is read as it stands, and what is decided stays. -/
theorem safe_getEntry (key : EntryKey) :
    ExecutionSafe r l (fun reply u => ExecutionRely l.number s u ∧
        ((∀ e, reply = .ok (some e) → e.state ≠ .accepted → entryAt u key = some e) ∧
          ∀ e found, entryAt s key = some e → e.state ≠ .accepted → reply = .ok found →
            found = some e))
      (ToolCallStore.perform (.getEntry key : ToolOp F)) s := by
  refine safe_quiet (.getEntry key) rfl _ ?_ ?_
  · intro t a reply t' hst _ he
    cases he
    refine ⟨fun e hreply _ => ?_, fun e found he hstate hfound => ?_⟩
    · unfold entryAt
      rw [hreply]
    · have hentry := hst.evolves.terminal he hstate
      unfold entryAt at hentry
      rw [hfound] at hentry
      exact hentry
  · intro reply t u htu hpost
    exact ⟨fun e hreply hstate => htu.evolves.terminal (hpost.1 e hreply hstate) hstate, hpost.2⟩

theorem safe_admitEntry (accepted refused : ToolCallStoreEntry) (limit : Int) :
    ExecutionSafe r l (fun reply u => ExecutionRely l.number s u ∧
        ∀ e, reply = .ok e → e.toolCall = accepted.toolCall)
      (ToolCallStore.perform (.admitEntry accepted refused limit : ToolOp F)) s := by
  refine safe_quiet (.admitEntry accepted refused limit) rfl _ ?_ fun _ _ _ _ h => h
  intro t a reply t' _ _ he e hreply
  cases he
  exact admitCall_reply r hreply

theorem safe_refuseEntry (entry : ToolCallStoreEntry) :
    ExecutionSafe r l (fun reply u => ExecutionRely l.number s u ∧
        ∀ e, reply = .ok e → e.toolCall = entry.toolCall)
      (ToolCallStore.perform (.refuseEntry entry : ToolOp F)) s := by
  refine safe_quiet (.refuseEntry entry) rfl _ ?_ fun _ _ _ _ h => h
  intro t a reply t' _ _ he e hreply
  cases he
  exact refuse_reply r hreply

theorem safe_completeEntry (entry : ToolCallStoreEntry) :
    ExecutionSafe r l (fun reply u => ExecutionRely l.number s u ∧
        ∀ e, reply = .ok e → e.toolCall = entry.toolCall)
      (ToolCallStore.perform (.completeEntry entry : ToolOp F)) s := by
  refine safe_quiet (.completeEntry entry) rfl _ ?_ fun _ _ _ _ h => h
  intro t a reply t' _ _ he e hreply
  cases he
  exact complete_reply r hreply

theorem safe_getResult (ref : TypedRef) :
    ExecutionSafe r l (fun reply u => ExecutionRely l.number s u ∧
        ∀ result, reply = some result → u.results.get? ref = some result)
      (ToolCallStore.perform (.getResult ref : ToolOp F)) s := by
  refine safe_quiet (.getResult ref) rfl _ ?_ ?_
  · intro t a reply t' _ _ he result hreply
    cases he
    exact hreply
  · exact fun reply t u htu hpost result hreply => htu.evolves.results _ _ (hpost result hreply)

theorem safe_verifyTerminal (terminal : EffectTerminal) :
    ExecutionSafe r l (fun reply u => ExecutionRely l.number s u ∧
        ∀ found, reply = .ok found →
          (authority.published u.leases terminal.request).isSome = true)
      (ToolCallStore.perform (.verifyTerminal terminal : ToolOp F)) s := by
  refine safe_quiet (.verifyTerminal terminal) rfl _ ?_ ?_
  · intro t a reply t' _ _ he found hreply
    cases he
    obtain ⟨kept,hkept,_⟩ := (bind_eq_ok _ _ _).mp hreply
    have hpublished : authority.published t.leases terminal.request = some kept :=
      authority.verify_published _ _ _ hkept
    rw [hpublished]
    rfl
  · intro reply t u htu hpost found hreply
    obtain ⟨kept,hkept⟩ := Option.isSome_iff_exists.mp (hpost found hreply)
    rw [htu.evolves.published _ _ hkept]
    rfl

/-- A lease is granted only where no terminal is published. -/
theorem safe_acquire (request : EffectRequest) (owner : String) :
    ExecutionSafe r l (fun reply u => ExecutionRely l.number s u ∧
        ∀ lease, reply = .ok (.lease lease) →
          (authority.published s.leases request).isSome = false)
      (ToolCallStore.perform (.acquire request owner : ToolOp F)) s := by
  refine safe_quiet (.acquire request owner) rfl _ ?_ fun _ _ _ _ h => h
  intro t a reply t' hst _ he lease hreply
  cases a with
  | lease attempt choice =>
    cases he
    cases hpublished : authority.published s.leases request with
    | none => rfl
    | some terminal =>
      have hreplays := authority.acquire_replays request owner attempt choice t.leases terminal
        (hst.evolves.published _ _ hpublished)
      simp only [LeaseAuthority.effectAcquire, hreplays, LeaseAuthority.effectAcquired] at hreply
      obtain ⟨_,_,hterminal⟩ := (bind_eq_ok _ _ _).mp hreply
      cases hterminal
  | _ => cases he

/-- An operation whose reply carries nothing the proof needs. -/
theorem safe_plain (o : ToolOp F) (ho : recorded l o = []) :
    ExecutionSafe r l (fun _ u => ExecutionRely l.number s u) (ToolCallStore.perform o) s :=
  Contract.safe_mono (safe_quiet o ho (fun _ _ => True) (fun _ _ _ _ _ _ _ => trivial)
    fun _ _ _ _ _ => trivial) fun _ _ _ h => h.1

/-! ### The facade -/

open ToolCallStore

theorem safe_get (call : ToolCall) :
    ExecutionSafe r l (fun found u => ExecutionRely l.number s u ∧
        (∀ e, found = some e → e.toolCall = call) ∧
        ∀ e, entryAt s (callKey call) = some e → e.state ≠ .accepted → found = some e)
      (ToolCallStore.get call : ToolProg F _) s := by
  refine Contract.safe_bind (safe_getEntry (callKey call)) ?_
  intro reply t _ ⟨ht,_,hdecided⟩
  refine Contract.safe_bind (safe_fromAdmission reply) ?_
  intro found t1 _ ⟨ht1,hreply⟩
  have hsame : ∀ e, entryAt s (callKey call) = some e → e.state ≠ .accepted → found = some e :=
    fun e he hstate => hdecided e found he hstate hreply
  cases found with
  | none =>
    refine safe_return _ fun u hu _ => ⟨(ht.trans ht1).trans hu, ?_, hsame⟩
    intro e he
    cases he
  | some existing =>
    refine Contract.safe_bind (safe_check _ _) ?_
    intro _ t2 _ ⟨ht2,hcall⟩
    refine safe_return _ fun u hu _ => ⟨((ht.trans ht1).trans ht2).trans hu, ?_, hsame⟩
    intro e he
    cases he
    exact not_not.mp hcall

theorem safe_persistResult (result : ToolResult F) :
    ExecutionSafe r l (fun _ u => ExecutionRely l.number s u) (persistResult result) s := by
  refine Contract.safe_bind (safe_plain (.putResult result) rfl) ?_
  intro persisted t _ ht
  refine Contract.safe_bind (safe_refuseIf _ _) ?_
  intro _ t1 _ ⟨ht1,_⟩
  exact safe_return _ fun u hu _ => (ht.trans ht1).trans hu

theorem safe_refusedEntry (call : ToolCall) (refusal : ToolRefusal) :
    ExecutionSafe r l (fun e u => ExecutionRely l.number s u ∧ e.toolCall = call)
      (refusedEntry call refusal : ToolProg F _) s := by
  refine Contract.safe_bind (safe_fromValidation _) ?_
  intro result t _ ⟨ht,_⟩
  refine Contract.safe_bind (safe_persistResult result) ?_
  intro resultRef t1 _ ht1
  refine Contract.safe_mono (safe_fromAdmission _) ?_
  intro e u _ ⟨hu,he⟩
  refine ⟨(ht.trans ht1).trans hu, ?_⟩
  rw [modelValidate_fields _ _ he]
  rfl

theorem safe_admitCall (call : ToolCall) (config : ToolConfig) :
    ExecutionSafe r l (fun e u => ExecutionRely l.number s u ∧ e.toolCall = call)
      (ToolCallStore.admitCall call config : ToolProg F _) s := by
  refine Contract.safe_bind (safe_refuseIf _ _) ?_
  intro _ t _ ⟨ht,_⟩
  refine Contract.safe_bind (safe_fromAdmission _) ?_
  intro accepted t1 _ ⟨ht1,haccepted⟩
  refine Contract.safe_bind (safe_refusedEntry call _) ?_
  intro refused t2 _ ⟨ht2,_⟩
  refine Contract.safe_bind (safe_admitEntry accepted refused _) ?_
  intro reply t3 _ ⟨ht3,hcites⟩
  refine Contract.safe_mono (safe_fromAdmission reply) ?_
  intro e u _ ⟨hu,hreply⟩
  refine ⟨(((ht.trans ht1).trans ht2).trans ht3).trans hu, ?_⟩
  rw [hcites e hreply, modelValidate_fields _ _ haccepted]
  rfl

theorem safe_refuse (call : ToolCall) (config : ToolConfig) (refusal : ToolRefusal) :
    ExecutionSafe r l (fun e u => ExecutionRely l.number s u ∧ e.toolCall = call)
      (ToolCallStore.refuse call config refusal : ToolProg F _) s := by
  refine Contract.safe_bind (safe_refuseIf _ _) ?_
  intro _ t _ ⟨ht,_⟩
  refine Contract.safe_bind (safe_refuseIf _ _) ?_
  intro _ t1 _ ⟨ht1,_⟩
  refine Contract.safe_bind (safe_refusedEntry call refusal) ?_
  intro entry t2 _ ⟨ht2,hentry⟩
  refine Contract.safe_bind (safe_refuseEntry entry) ?_
  intro reply t3 _ ⟨ht3,hcites⟩
  refine Contract.safe_mono (safe_fromAdmission reply) ?_
  intro e u _ ⟨hu,hreply⟩
  refine ⟨(((ht.trans ht1).trans ht2).trans ht3).trans hu, ?_⟩
  rw [hcites e hreply, hentry]

/-- A result under an entry's authority carries the ordinal of the entry. -/
theorem safe_validateResultAuthority (result : ToolResult F) (entry : ToolCallStoreEntry) :
    ExecutionSafe r l (fun _ u => ExecutionRely l.number s u ∧ result.refusal = none ∧
        result.provenanceOrdinal = entry.capacityDebitOrdinal)
      (validateResultAuthority result entry) s := by
  refine Contract.safe_bind (safe_refuseIf _ _) ?_
  intro _ t _ ⟨ht,hrefusal⟩
  cases hordinal : entry.capacityDebitOrdinal with
  | none => exact safe_raise _ _
  | some ordinal =>
    refine Contract.safe_bind (safe_plain (.acceptedCount (scopeOf entry)) rfl) ?_
    intro reply t1 _ ht1
    refine Contract.safe_bind (safe_fromAdmission reply) ?_
    intro count t2 _ ⟨ht2,_⟩
    refine Contract.safe_bind (safe_refuseIf _ _) ?_
    intro _ t3 _ ⟨ht3,_⟩
    refine Contract.safe_bind (safe_refuseIf _ _) ?_
    intro _ t4 _ ⟨ht4,_⟩
    refine Contract.safe_mono (safe_refuseIf _ _) ?_
    intro _ u _ ⟨hu,hsame⟩
    exact ⟨((((ht.trans ht1).trans ht2).trans ht3).trans ht4).trans hu, not_not.mp hrefusal,
      not_not.mp hsame⟩

theorem safe_complete (result : ToolResult F) (terminal : EffectTerminal) :
    ExecutionSafe r l (fun e u => ExecutionRely l.number s u ∧ e.toolCall = result.call)
      (ToolCallStore.complete result terminal) s := by
  refine Contract.safe_bind (safe_refuseIf _ _) ?_
  intro _ t _ ⟨ht,_⟩
  refine Contract.safe_bind (safe_get result.call) ?_
  intro found t1 _ ⟨ht1,_⟩
  cases found with
  | none => exact safe_raise _ _
  | some existing =>
    refine Contract.safe_bind (safe_validateResultAuthority result existing) ?_
    intro _ t2 _ ⟨ht2,_⟩
    refine Contract.safe_bind (safe_fromValidation _) ?_
    intro _ t3 _ ⟨ht3,_⟩
    refine Contract.safe_bind (safe_verifyTerminal terminal) ?_
    intro reply t4 _ ⟨ht4,_⟩
    refine Contract.safe_bind (safe_fromLease reply) ?_
    intro authoritative t5 _ ⟨ht5,_⟩
    refine Contract.safe_bind (safe_persistResult result) ?_
    intro resultRef t6 _ ht6
    refine Contract.safe_bind (safe_fromAdmission _) ?_
    intro completed t7 _ ⟨ht7,hcompleted⟩
    refine Contract.safe_bind (safe_completeEntry completed) ?_
    intro reply' t8 _ ⟨ht8,hcites⟩
    refine Contract.safe_mono (safe_fromAdmission reply') ?_
    intro e u _ ⟨hu,hreply⟩
    have hfirst := ((ht.trans ht1).trans ht2).trans ht3
    have hsecond := ((ht4.trans ht5).trans ht6).trans ht7
    refine ⟨((hfirst.trans hsecond).trans ht8).trans hu, ?_⟩
    rw [hcites e hreply, modelValidate_fields _ _ hcompleted]
    rfl

theorem safe_readResult (ref : TypedRef) :
    ExecutionSafe r l (fun result u => ExecutionRely l.number s u ∧
        u.results.get? ref = some result) (readResult ref : ToolProg F _) s := by
  refine Contract.safe_bind (safe_getResult ref) ?_
  intro reply t _ ⟨ht,hreply⟩
  cases reply with
  | none => exact safe_raise _ _
  | some result =>
    exact safe_return _ fun u hu _ =>
      ⟨ht.trans hu, hu.evolves.results _ _ (hreply result rfl)⟩

/-- The outcome a stored result was checked for. -/
theorem safe_validateStoredOutcome (result : ToolResult F) (entry : ToolCallStoreEntry) :
    ExecutionSafe r l (fun _ u => ExecutionRely l.number s u ∧
        (entry.state = .refused → result.refusal ≠ none) ∧
        (entry.state = .completed → result.refusal = none ∧
          result.provenanceOrdinal = entry.capacityDebitOrdinal))
      (validateStoredOutcome result entry) s := by
  unfold validateStoredOutcome
  cases hstate : entry.state with
  | accepted => exact safe_return _ fun u hu _ => ⟨hu, by simp, by simp⟩
  | refused =>
    refine Contract.safe_mono (safe_refuseIf _ _) ?_
    intro _ u _ ⟨hu,hsame⟩
    refine ⟨hu, fun _ => ?_, by simp⟩
    rw [not_not.mp hsame]
    exact entry.refusal_ne_none hstate
  | completed =>
    cases hterminal : entry.effectTerminal with
    | none => exact safe_raise _ _
    | some terminal =>
      refine Contract.safe_bind (safe_refuseIf _ _) ?_
      intro _ t _ ⟨ht,_⟩
      refine Contract.safe_bind (safe_refuseIf _ _) ?_
      intro _ t1 _ ⟨ht1,_⟩
      refine Contract.safe_mono (safe_validateResultAuthority result entry) ?_
      intro _ u _ ⟨hu,hresult⟩
      exact ⟨(ht.trans ht1).trans hu, by simp, fun _ => hresult⟩

theorem safe_verifyEntryTerminal (entry : ToolCallStoreEntry) :
    ExecutionSafe r l (fun _ u => ExecutionRely l.number s u ∧ (entry.state = .completed →
        (authority.published u.leases (toolEffectRequest entry.toolCall)).isSome = true))
      (verifyEntryTerminal entry : ToolProg F _) s := by
  unfold verifyEntryTerminal
  by_cases hstate : entry.state = .completed
  · rw [if_pos hstate]
    cases hterminal : entry.effectTerminal with
    | none => exact safe_raise _ _
    | some terminal =>
      refine Contract.safe_bind (safe_verifyTerminal terminal) ?_
      intro reply t _ ⟨ht,hpublished⟩
      refine Contract.safe_bind (safe_fromLease reply) ?_
      intro found t1 _ ⟨ht1,hreply⟩
      refine safe_return _ fun u hu _ => ⟨(ht.trans ht1).trans hu, fun _ => ?_⟩
      obtain ⟨kept,hkept⟩ := Option.isSome_iff_exists.mp (hpublished found hreply)
      rw [← entry.terminal_request terminal hterminal,
        (ht1.trans hu).evolves.published _ _ hkept]
      rfl
  · rw [if_neg hstate]
    exact safe_return _ fun u hu _ => ⟨hu, fun h => absurd h hstate⟩

/-- A loaded terminal result is backed by its entry. -/
theorem safe_loadTerminalResult (entry : ToolCallStoreEntry) :
    ExecutionSafe r l (fun result u => ExecutionRely l.number s u ∧
        Backed u entry.toolCall result) (loadTerminalResult entry : ToolProg F _) s := by
  unfold loadTerminalResult
  cases href : entry.toolResultRef with
  | none => exact safe_raise _ _
  | some ref =>
    have hdecided : entry.state ≠ .accepted := by
      apply entry.state_of_result
      rw [href]
      simp
    have hkey : (entry.storeNamespaceKey, entry.toolCall.callId) = callKey entry.toolCall := by
      rw [callKey, entry.citation.2.1]
    refine Contract.safe_bind (safe_getEntry _) ?_
    intro reply t _ ⟨ht,hdurable,_⟩
    refine Contract.safe_bind (safe_fromAdmission reply) ?_
    intro durable t1 _ ⟨ht1,hreply⟩
    refine Contract.safe_bind (safe_refuseIf _ _) ?_
    intro _ t2 _ ⟨ht2,hentry⟩
    refine Contract.safe_bind (safe_verifyEntryTerminal entry) ?_
    intro _ t3 _ ⟨ht3,hpublished⟩
    refine Contract.safe_bind (safe_readResult ref) ?_
    intro result t4 _ ⟨ht4,hresult⟩
    refine Contract.safe_bind (safe_refuseIf _ _) ?_
    intro _ t5 _ ⟨ht5,_⟩
    refine Contract.safe_bind (safe_refuseIf _ _) ?_
    intro _ t6 _ ⟨ht6,hcites⟩
    refine Contract.safe_bind (safe_validateStoredOutcome result entry) ?_
    intro _ t7 _ ⟨ht7,hrefused,hcompleted⟩
    refine safe_return _ fun u hu _ => ?_
    have hafter : ExecutionRely l.number t4 u := ((ht5.trans ht6).trans ht7).trans hu
    have hlater : ExecutionRely l.number t u := ((ht1.trans ht2).trans (ht3.trans ht4)).trans hafter
    rw [not_not.mp hentry] at hreply
    refine ⟨ht.trans hlater, entry, ref, ?_, rfl, not_not.mp hcites, href,
      hafter.evolves.results _ _ hresult, ?_⟩
    · rw [← hkey]
      exact hlater.evolves.terminal (hdurable entry hreply hdecided) hdecided
    · cases hstate : entry.state with
      | accepted => exact absurd hstate hdecided
      | refused => exact .inl ⟨rfl, hrefused hstate⟩
      | completed =>
        obtain ⟨kept,hkept⟩ := Option.isSome_iff_exists.mp (hpublished hstate)
        refine .inr ⟨rfl, (hcompleted hstate).1, (hcompleted hstate).2, ?_⟩
        rw [(ht4.trans hafter).evolves.published _ _ hkept]
        rfl

theorem safe_loadResult (ref : TypedRef) (call : ToolCall) :
    ExecutionSafe r l (fun result u => ExecutionRely l.number s u ∧ result.call = call)
      (loadResult ref call : ToolProg F _) s := by
  refine Contract.safe_bind (safe_refuseIf _ _) ?_
  intro _ t _ ⟨ht,_⟩
  refine Contract.safe_bind (safe_readResult ref) ?_
  intro result t1 _ ⟨ht1,_⟩
  refine Contract.safe_bind (safe_refuseIf _ _) ?_
  intro _ t2 _ ⟨ht2,_⟩
  refine Contract.safe_bind (safe_refuseIf _ _) ?_
  intro _ t3 _ ⟨ht3,hcall⟩
  exact safe_return _ fun u hu _ =>
    ⟨(((ht.trans ht1).trans ht2).trans ht3).trans hu, not_not.mp hcall⟩

/-! ### The executor -/

/- A completion and the load of what it left. -/
theorem safe_completeAndLoad (result : ToolResult F) (terminal : EffectTerminal) :
    ExecutionSafe r l (fun final u => Backed u result.call final)
      (ToolCallStore.complete result terminal >>= loadTerminalResult) s := by
  refine Contract.safe_bind (safe_complete result terminal) ?_
  intro completed t _ ⟨_,hcall⟩
  refine Contract.safe_mono (safe_loadTerminalResult completed) ?_
  intro final u _ ⟨_,hbacked⟩
  rw [← hcall]
  exact hbacked

theorem safe_replayTerminal (call : ToolCall) (terminal : EffectTerminal) :
    ExecutionSafe r l (fun final u => Backed u call final)
      (replayTerminal call terminal : ToolProg F _) s := by
  have hreplay : ∀ ref (bad : ToolResult F → Prop) [∀ result, Decidable (bad result)]
      (error : ExecutionError),
      ExecutionSafe r l (fun final u => Backed u call final)
        (do
          let result ← loadResult ref call
          Prog.ofExcept (raiseIf (bad result) error)
          let completed ← ToolCallStore.complete result terminal
          loadTerminalResult completed) s := by
    intro ref bad _ error
    refine Contract.safe_bind (safe_loadResult ref call) ?_
    intro result t _ ⟨_,hcall⟩
    refine Contract.safe_bind (safe_check _ _) ?_
    intro _ t1 _ _
    rw [← hcall]
    exact safe_completeAndLoad result terminal
  unfold replayTerminal
  cases terminal.outcome with
  | succeeded =>
    cases terminal.resultRef with
    | none => exact safe_raise _ _
    | some ref => exact hreplay ref (fun result => result.terminalFailure ≠ none) _
  | failed =>
    cases terminal.resultRef with
    | none => exact safe_raise _ _
    | some ref =>
      cases terminal.failure with
      | none => exact safe_raise _ _
      | some failure => exact hreplay ref (fun result => result.terminalFailure ≠ some failure) _
  | recoveryRequired =>
    cases terminal.failure with
    | none => exact safe_raise _ _
    | some failure => exact safe_raise _ _

variable (handle : RuntimeToolHandle F)

omit [ToolIdentity] [LeaseText] [ResultIdentity F] in
theorem resultFields_modelValidate (fields : ResultFields F) (result : ToolResult F)
    (h : fields.modelValidate = .ok result) : result.toResultFields = fields := by
  unfold ResultFields.modelValidate at h
  split at h
  · cases h
    rfl
  · cases h

omit [ToolIdentity] [LeaseText] [ResultIdentity F] in
theorem successfulResult_call (call : ToolCall) (ordinal : Nat) (evaluation : ToolEvaluation F)
    (result : ToolResult F) (h : successfulResult handle call ordinal evaluation = .ok result) :
    result.call = call := by
  unfold successfulResult at h
  split at h
  · cases h
  · simp only at h
    split at h
    · rename_i built hbuilt
      cases h
      obtain ⟨reward,_,hfields⟩ := (bind_eq_ok _ _ _).mp hbuilt
      rw [resultFields_modelValidate _ _ hfields]
    · cases h

/-- An evaluation by an invocation that is not late. -/
theorem safe_evaluateCall (call : ToolCall) (ordinal : Nat) (hlate : ¬ Late s.history l) :
    ExecutionSafe r l (fun outcome _ => outcome.1.call = call)
      (evaluateCall handle call ordinal) s := by
  have hfailed : ∀ (failure : TerminalFailure) (t : ExecutionState F b authority),
      ExecutionSafe r l (fun outcome _ => outcome.1.call = call)
        (do
          let result ← fromValidation ({ call := call, terminalFailure := some failure
                                         provenanceOrdinal := some ordinal :
                                           ResultFields F }).modelValidate
          return (result, some failure)) t := by
    intro failure t
    refine Contract.safe_bind (safe_fromValidation _) ?_
    intro result t1 _ ⟨_,hresult⟩
    refine safe_return _ fun u _ _ => ?_
    rw [resultFields_modelValidate _ _ hresult]
  have hjust : ∀ t, ExecutionRely l.number s t → ExecutionInv r t →
      Justified l (.evaluate call) t := by
    intro t hst _
    exact ⟨fun _ h => (by cases h), fun _ _ h => hlate (hst.late h)⟩
  refine Contract.safe_bind (safe_justified (.evaluate call) (fun _ => True) hjust
    fun _ _ => trivial) ?_
  intro reply t' _ _
  cases reply with
  | error error =>
    cases error with
    | evaluation failure => exact hfailed failure t'
    | validation reason => exact hfailed (rejectedFailure reason) t'
    | other message => exact safe_raise _ _
  | ok evaluation =>
    cases hresult : successfulResult handle call ordinal evaluation with
    | error failure => simpa only [hresult] using hfailed failure t'
    | ok result =>
      simp only [hresult]
      exact safe_return _ fun _ _ _ => successfulResult_call handle call ordinal _ _ hresult

theorem safe_evaluateUnderLease (call : ToolCall) (entry : ToolCallStoreEntry) (lease : Lease)
    (hlate : ¬ Late s.history l) :
    ExecutionSafe r l (fun final u => Backed u call final)
      (evaluateUnderLease handle call entry lease) s := by
  unfold evaluateUnderLease
  cases entry.capacityDebitOrdinal with
  | none => exact safe_raise _ _
  | some ordinal =>
    refine Contract.safe_bind (safe_evaluateCall handle call ordinal hlate) ?_
    rintro ⟨result,failure⟩ t _ hcall
    refine Contract.safe_bind (safe_persistResult result) ?_
    intro resultRef t1 _ _
    refine Contract.safe_bind (safe_plain (.publish lease _ resultRef failure) rfl) ?_
    intro reply t2 _ _
    refine Contract.safe_bind (safe_fromLease reply) ?_
    intro terminal t3 _ _
    have hresult : result.call = call := hcall
    rw [← hresult]
    exact safe_completeAndLoad result terminal

/-- A late invocation finds the terminal of its request, and so no lease. -/
theorem safe_executeEntry (call : ToolCall) (entry : ToolCallStoreEntry)
    (hlate : Late s.history l →
      (authority.published s.leases (toolEffectRequest call)).isSome = true) :
    ExecutionSafe r l (fun final u => Backed u call final) (executeEntry handle call entry) s := by
  refine Contract.safe_bind (safe_acquire (toolEffectRequest call) handle.executor.ownerId) ?_
  intro reply t _ ⟨ht,hlease⟩
  refine Contract.safe_bind (safe_fromLease reply) ?_
  intro acquired t1 _ ⟨ht1,hreply⟩
  cases acquired with
  | terminal terminal => exact safe_replayTerminal call terminal
  | busy => exact safe_raise _ _
  | requestConflict => exact safe_raise _ _
  | lease lease =>
    refine safe_evaluateUnderLease handle call entry lease fun h => ?_
    have hpublished := hlate ((ht.trans ht1).late h)
    rw [hlease lease hreply] at hpublished
    cases hpublished

theorem safe_executeDecided (call : ToolCall) (entry : ToolCallStoreEntry)
    (hcall : entry.toolCall = call)
    (hlate : Late s.history l → entry.state ≠ .refused →
      (authority.published s.leases (toolEffectRequest call)).isSome = true) :
    ExecutionSafe r l (fun final u => Backed u call final)
      (executeDecided handle call entry) s := by
  unfold executeDecided
  by_cases hstate : entry.state = .refused
  · rw [if_pos hstate]
    refine Contract.safe_mono (safe_loadTerminalResult entry) ?_
    intro final u _ ⟨_,hbacked⟩
    rw [← hcall]
    exact hbacked
  · rw [if_neg hstate]
    exact safe_executeEntry handle call entry fun h => hlate h hstate

theorem safe_executeFresh (call : ToolCall) (hlate : ¬ Late s.history l) :
    ExecutionSafe r l (fun final u => Backed u call final) (executeFresh handle call) s := by
  refine Contract.safe_bind (safe_plain (.validate call) rfl) ?_
  intro reply t _ ht
  cases reply with
  | error error =>
    cases error with
    | evaluation failure => exact safe_raise _ _
    | other message => exact safe_raise _ _
    | validation reason =>
      refine Contract.safe_bind (safe_refuse call handle.config ⟨.validation, reason⟩) ?_
      intro entry t1 _ ⟨_,hcall⟩
      refine Contract.safe_mono (safe_loadTerminalResult entry) ?_
      intro final u _ ⟨_,hbacked⟩
      rw [← hcall]
      exact hbacked
  | ok _ =>
    refine Contract.safe_bind (safe_admitCall call handle.config) ?_
    intro entry t1 _ ⟨ht1,hcall⟩
    exact safe_executeDecided handle call entry hcall fun h =>
      absurd ((ht.trans ht1).late h) hlate

/-- An invocation returns a result that its entry backs, and evaluates only if it is not
late. -/
theorem safe_execute (call : ToolCall) (hlate : Late s.history l → ∃ result, Backed s call result) :
    ExecutionSafe r l (fun final u => Backed u call final) (execute handle call) s := by
  refine Contract.safe_bind (safe_refuseIf _ _) ?_
  intro _ t _ ⟨ht,_⟩
  refine Contract.safe_bind (safe_get call) ?_
  intro found t1 _ ⟨ht1,hcites,hdecided⟩
  -- a late invocation reads the decided entry that backs the earlier result
  have hfound : Late t1.history l → ∃ entry, found = some entry ∧ (entry.state ≠ .refused →
      (authority.published t1.leases (toolEffectRequest call)).isSome = true) := by
    intro h
    obtain ⟨result,hbacked⟩ := hlate ((ht.trans ht1).late h)
    obtain ⟨entry,ref,hentry,_,_,_,_,hstate⟩ := hbacked.evolves ht.evolves
    have hterminal : entry.state ≠ .accepted := by
      rcases hstate with ⟨hs,_⟩ | ⟨hs,_⟩ <;> rw [hs] <;> decide
    refine ⟨entry, hdecided entry hentry hterminal, fun hrefused => ?_⟩
    rcases hstate with ⟨hs,_⟩ | ⟨_,_,_,hpublished⟩
    · exact absurd hs hrefused
    · obtain ⟨kept,hkept⟩ := Option.isSome_iff_exists.mp hpublished
      rw [ht1.evolves.published _ _ hkept]
      rfl
  cases found with
  | none =>
    refine safe_executeFresh handle call fun h => ?_
    obtain ⟨entry,hnone,_⟩ := hfound h
    cases hnone
  | some existing =>
    refine safe_executeDecided handle call existing (hcites existing rfl) fun h => ?_
    obtain ⟨entry,hsome,hpublished⟩ := hfound h
    cases hsome
    exact hpublished

/-! ### Pools -/

theorem safe_code (invocation : Invocation F) :
    ExecutionSafe r invocation (fun _ _ => True)
      ((executionMachine F b authority).code invocation) s := by
  -- what a late invocation is late for is backed
  have hlate : ∀ t : ExecutionState F b authority, ExecutionInv r t →
      Late t.history invocation → ∃ result, Backed t invocation.call result := by
    intro t hinv h
    obtain ⟨earlier,result,hreturned,hcall⟩ := h.returned
    refine ⟨result, ?_⟩
    rw [← hcall]
    exact hinv.backed earlier result hreturned
  refine Contract.safe_bind (safe_justified .enter _ ?_ hlate) ?_
  · exact fun _ _ _ => ⟨fun _ h => (by cases h), fun _ h => (by cases h)⟩
  · intro _ t _ ht
    refine Contract.safe_bind (safe_execute invocation.handle invocation.call ht) ?_
    intro final t1 _ hbacked
    refine safe_justified (.leave final) (fun _ => True) ?_ fun _ _ => trivial
    intro t2 hst _
    refine ⟨fun result h => ?_, fun _ h => (by cases h)⟩
    cases h
    exact hbacked.evolves hst.evolves

theorem execution_starts :
    Contract.Starts (executionContract r authority) (executionMachine F b authority) where
  compat := fun _ _ h => by cases h
  safe := fun _ _ _ _ => safe_code _

theorem executionInv_initial (calls : List (RuntimeToolHandle F × ToolCall)) :
    ExecutionInv r (executionPool b authority calls).state where
  represents := ⟨_, r.init⟩
  backed := fun _ _ h => by cases h
  punctual := by
    intro before invocation after h
    cases before <;> cases h

theorem sound_executionPool (calls : List (RuntimeToolHandle F × ToolCall)) :
    Contract.Sound (executionContract r authority) (executionMachine F b authority)
      (executionPool b authority calls) where
  inv := executionInv_initial calls
  compat := by
    rw [List.pairwise_map, List.pairwise_iff_getElem]
    intro i j hi hj hij
    simp only [executionPool, List.getElem_mapIdx]
    exact ⟨Nat.ne_of_lt hij, Nat.ne_of_gt hij⟩
  safe := by
    intro th hth
    obtain ⟨i,hi,rfl⟩ := List.mem_mapIdx.mp hth
    exact safe_code _

/-- The state after any run of any number of invocations. -/
theorem run_executionInv (calls : List (RuntimeToolHandle F × ToolCall))
    (schedule : List (Nat × ExecutionAnswer F authority)) :
    ExecutionInv r ((executionMachine F b authority).run (executionPool b authority calls)
      schedule).state :=
  ((sound_executionPool calls).run execution_starts schedule
    (Machine.meets_true _ _ (fun _ _ _ => trivial) _ _)).inv

end Safety

section Main

variable [ToolIdentity] [LeaseText] {F : Type} [FiniteFloats F] [DecidableEq F]
variable [RewardIdentity F] [ResultIdentity F]

/-- Along a run the stores only evolve. -/
theorem run_evolves {b : AdmissionBackend} {authority : LeaseAuthority} (r : CitingRefinement b)
    (c : Pool (Invocation F) (ExecutionState F b authority) (ToolOp F) ToolOp.Reply ExecutionError)
    (schedule : List (Nat × ExecutionAnswer F authority))
    (hc : ∃ L, r.represents c.state.admission L) :
    Evolves c.state ((executionMachine F b authority).run c schedule).state := by
  induction schedule generalizing c with
  | nil => exact .refl c.state
  | cons x rest ih =>
    obtain ⟨i,answer⟩ := x
    cases hstep : (executionMachine F b authority).step c i answer with
    | none => simpa [Machine.run, hstep] using ih c hc
    | some c' =>
      obtain ⟨l,o,next,reply,_,he,_⟩ := Machine.step_some _ c c' i answer hstep
      obtain ⟨hL,hevolves,_⟩ := execOp_evolves hc he
      simpa [Machine.run, hstep] using hevolves.trans (ih c' hL)

/- The shared stores after the first `k` steps of a schedule. -/
def executionAfter (b : AdmissionBackend) (authority : LeaseAuthority)
    (calls : List (RuntimeToolHandle F × ToolCall))
    (schedule : List (Nat × ExecutionAnswer F authority)) (k : Nat) :
    ExecutionState F b authority :=
  ((executionMachine F b authority).run (executionPool b authority calls) (schedule.take k)).state

theorem executionAfter_evolves {b : AdmissionBackend} {authority : LeaseAuthority}
    (r : CitingRefinement b) (calls : List (RuntimeToolHandle F × ToolCall))
    (schedule : List (Nat × ExecutionAnswer F authority)) (j k : Nat) (hjk : j ≤ k) :
    Evolves (executionAfter b authority calls schedule j)
      (executionAfter b authority calls schedule k) := by
  unfold executionAfter
  rw [Machine.run_take _ _ schedule hjk]
  exact run_evolves r _ _ (run_executionInv (r := r) calls (schedule.take j)).represents

/-- Tool execution has one terminal result. Whatever the backend of the Tool Call Store, the
lease authority, the invocations and their schedule, and whatever the evaluator answers each
time: all invocations of one exact Tool Call that return, return the same result; one that is
not refused carries the ordinal its call was debited at admission, which every earlier entry
of the call has; and no invocation that begins after a return of its call evaluates. -/
theorem tool_execution_single_result {Text : Type} (codec : EntryCodec Text) (kind : BackendKind)
    (authority : LeaseAuthority) (calls : List (RuntimeToolHandle F × ToolCall))
    (schedule : List (Nat × ExecutionAnswer F authority)) (k : Nat) :
    let after := executionAfter (backend codec kind) authority calls schedule
    (∀ invocation invocation' result result', .returned invocation result ∈ (after k).history →
      .returned invocation' result' ∈ (after k).history → invocation.call = invocation'.call →
      result = result') ∧
    (∀ invocation result, .returned invocation result ∈ (after k).history →
      result.refusal = none →
      ∃ e, entryAt (after k) (ToolCallStore.callKey invocation.call) = some e ∧
        e.state = .completed ∧ e.toolCall = invocation.call ∧
        e.toolResultRef.bind (after k).results.get? = some result ∧
        ∃ ordinal, result.provenanceOrdinal = some ordinal ∧
          ∀ j ≤ k, ∀ earlier, entryAt (after j) (ToolCallStore.callKey invocation.call) =
            some earlier → earlier.capacityDebitOrdinal = some ordinal) ∧
    Punctual (after k).history := by
  intro after
  have hinv : ExecutionInv (citingRefinement codec kind) (after k) := run_executionInv calls _
  refine ⟨?_, ?_, hinv.punctual⟩
  · intro invocation invocation' result result' hreturned hreturned' hcall
    have hbacked := hinv.backed invocation result hreturned
    rw [hcall] at hbacked
    exact hbacked.unique (hinv.backed invocation' result' hreturned')
  · intro invocation result hreturned hnone
    obtain ⟨e,ref,he,hcall,_,href,hresult,hstate⟩ := hinv.backed invocation result hreturned
    rcases hstate with ⟨_,hrefused⟩ | ⟨hcompleted,_,hordinal,_⟩
    · exact absurd hnone hrefused
    · refine ⟨e, he, hcompleted, hcall, by rw [href]; exact hresult, ?_⟩
      have hdebited : e.capacityDebitOrdinal ≠ none := by
        rw [Ne, e.ordinal_none_iff, hcompleted]
        decide
      obtain ⟨ordinal,hsome⟩ := Option.ne_none_iff_exists'.mp hdebited
      refine ⟨ordinal, hordinal.trans hsome, fun j hjk earlier hearlier => ?_⟩
      have hevolves := executionAfter_evolves (citingRefinement codec kind) calls schedule j k hjk
      obtain ⟨e',he',hsettles⟩ := hevolves.entries _ earlier hearlier
      have hsame : e' = e := Option.some.inj (he'.symm.trans he)
      rw [hsame] at hsettles
      rcases hsettles with rfl | ⟨_,_,_,hkept⟩
      · exact hsome
      · exact hkept.symm.trans hsome

end Main

/-! ### A call whose first owner stops after its publication -/

section Example

@[reducible] def gradeIdentity : ToolIdentity where
  toolConfigHash := fun _ => "config"
  toolCallRef := fun call => ⟨"whetstone.tool_call", call.callId⟩
  effectSemanticKey := fun storeNamespaceKey callId => storeNamespaceKey ++ "/" ++ callId
  effectRequestHash := fun call => call.callId

@[reducible] def exactFailures : LeaseText where
  LeaseFailure := TerminalFailure
  toLease := id
  fromLease := .ok

attribute [local instance] gradeIdentity exactFailures exactFiniteFloats

@[reducible] def gradeRewards : RewardIdentity Rat where
  rewardPolicyHash := fun policy => policy.policyName
  rewardHash := fun reward => reward.rewardName

attribute [local instance] gradeRewards

@[reducible] def gradeResults : ResultIdentity Rat where
  resultHash := fun result => result.call.callId ++ (if result.output.isSome then "+" else "-")

attribute [local instance] gradeResults

def gradePolicy : RewardPolicy Rat where
  policyName := "policy"
  rewardName := "reward"
  terms := [⟨"score", ⟨1, rfl⟩, true, ⟨0, rfl⟩⟩]
  missingData := .fail
  valid := rfl

def gradeTool : ToolConfig where
  definition := ⟨"grade", 1, ["template"], ["score"], [.capacity, .validation], none, rfl⟩
  endpointKey := "endpoint"
  evalConfig := default
  rewardPolicyHash := "policy"
  capacity := ⟨4, .run⟩
  timeoutPolicyRef := none
  operationalPolicyRefs := [⟨"whetstone.policy", "retries"⟩]
  storeNamespaceKey := "namespace"
  idempotentReplay := true
  candidateTemplateField := "template"
  valid := rfl

def gradeCall : ToolCall where
  callId := "x"
  toolConfig := gradeTool
  capacityBinding := ⟨.run, some ⟨runCapacitySubjectSchema, "run"⟩, rfl⟩
  args := [("template", .str "text")]
  valid := by
    simp [validateCall, gradeTool]

def gradeHandle (ownerId : String) : RuntimeToolHandle Rat where
  executor := ⟨gradePolicy, ownerId, .idempotent⟩
  config := gradeTool
  valid := rfl

def gradeEvaluation : ToolEvaluation Rat where
  output := [("score", .int 1)]
  generationRefs := [⟨"whetstone.eval", "generation"⟩]
  aggregates := Dict.ofPairs [("score", some (1 / 2))]
  evalConfigHash := gradeTool.evalConfig.configHash

def gradeCalls : List (RuntimeToolHandle Rat × ToolCall) :=
  [(gradeHandle "first", gradeCall), (gradeHandle "second", gradeCall),
    (gradeHandle "third", gradeCall)]

def leaseAt (attemptId : String) (time : Nat) : ExecutionAnswer Rat fencedLeases :=
  .lease attemptId time

/- The first owner is never scheduled again after it has published; the others replay. -/
def gradeSchedule : List (Nat × ExecutionAnswer Rat fencedLeases) :=
  let silent (n i : Nat) := List.replicate n ((i, .silent) : Nat × ExecutionAnswer Rat fencedLeases)
  silent 2 0 ++ [(0, .validated (.ok ()))] ++ silent 2 0 ++ [(0, leaseAt "a" 0),
    (0, .evaluated (.ok gradeEvaluation)), (0, .silent), (0, leaseAt "a" 1)] ++
  silent 2 1 ++ [(1, leaseAt "b" 2)] ++ silent 11 1 ++
  silent 2 2 ++ [(2, leaseAt "c" 3)] ++ silent 11 2

def ExecutionEvent.isReturned : ExecutionEvent Rat → Bool
  | .returned _ result => result.refusal = none
  | _ => false

def ExecutionEvent.isEvaluated : ExecutionEvent Rat → Bool
  | .evaluated _ => true
  | _ => false

def plainCodec : EntryCodec ToolCallStoreEntry := ⟨id, .ok, fun _ => rfl⟩

/-- Two invocations return, after one evaluation, and they return one result. -/
theorem grade_calls_share_result :
    let history := (executionAfter (backend plainCodec .sqlite) fencedLeases gradeCalls
      gradeSchedule 37).history
    history.countP ExecutionEvent.isReturned = 2 ∧ history.countP ExecutionEvent.isEvaluated = 1 ∧
      ∀ invocation invocation' result result', .returned invocation result ∈ history →
        .returned invocation' result' ∈ history → invocation.call = invocation'.call →
        result = result' :=
  ⟨by decide +kernel, by decide +kernel,
    (tool_execution_single_result plainCodec .sqlite fencedLeases gradeCalls gradeSchedule 37).1⟩

end Example
end Whetstone.Tools
