import Whetstone.Optim.StepInvariant

/-! What an operation of an invocation may do to the stores, and the contract under which
invocations run together. -/
namespace Whetstone.Optim.Step
open Whetstone.Core Whetstone.Lib Whetstone.Experiment Whetstone.Eval Whetstone.Tools

variable [PyIdentifiers] [CandidateIdentity] [ToolIdentity] [LeaseText]
variable {F : Type} [FiniteFloats F] [DecidableEq F] [RewardIdentity F] [ResultIdentity F]
variable [RequestIdentity F] [StepResultIdentity F] [HarnessIdentity F]
variable {authority : LeaseAuthority} {s t u : StepState F authority} {l : Invocation F}

/-! ### Moves -/

variable (l) in
inductive Moves : StepOp F → StepState F authority → StepState F authority → Prop
  | still (o : StepOp F) (s : StepState F authority) : Moves o s s
  | enter (s : StepState F authority) :
    Moves .enter s (s.record (.entered l (adapterSettled s l.request)))
  | leave (result : OptimStepResult F) (ref : TypedRef) (s : StepState F authority) :
    Moves (.leave result ref) s (s.record (.returned l result ref))
  | put (record : Record F) (s : StepState F authority) : Moves (.put record) s (s.put record).2
  | bind (key : BindingKey) (ref : TypedRef) (s : StepState F authority) :
    Moves (.bind key ref) s (s.bind key ref).2
  | acquire (effect : EffectRequest) (ownerId attemptId : String) (choice : authority.Choice)
      (s : StepState F authority) :
    Moves (.acquire effect ownerId) s
      { s with leases := (authority.acquire effect ownerId attemptId choice s.leases).2 }
  | publish (subject : EffectSubject) (lease : Lease) (outcome : TerminalOutcome)
      (ref : TypedRef) (failure : Option TerminalFailure) (choice : authority.Choice)
      (s : StepState F authority) :
    Moves (.publish subject lease outcome ref failure) s
      { s with leases := (authority.publish lease outcome (some ref)
          (failure.map LeaseText.toLease) choice s.leases).2 }
  | invoke (request : OptimStepRequest F) (slots : List (Option (ToolEvidence F)))
      (stored : List (TypedRef × ForeignRecord F)) (s : StepState F authority)
      (hslots : leavesSlots request (s.slots request) slots = true) :
    Moves (.invoke request) s
      { s.storeForeign stored with
        ledgers := s.ledgers.set request.recordRef slots
        history := s.history ++ [.invoked l] }
  | resolveIntent (intent : OptimEvalRequest) (stored : List (TypedRef × ForeignRecord F))
      (s : StepState F authority) :
    Moves (.resolveIntent intent) s (s.storeForeign stored)

theorem execOp_moves {o : StepOp F} {answer : StepAnswer F authority} {reply : o.Reply}
    (h : execOp l o answer s = some (reply, t)) : Moves l o s t := by
  cases o with
  | enter =>
    cases h
    exact .enter s
  | leave result ref =>
    cases h
    exact .leave result ref s
  | put record =>
    have hput : (s.put record).2 = t := congrArg Prod.snd (Option.some.inj h)
    rw [← hput]
    exact .put record s
  | bind key ref =>
    have hbind : (s.bind key ref).2 = t := congrArg Prod.snd (Option.some.inj h)
    rw [← hbind]
    exact .bind key ref s
  | resolve key =>
    cases h
    exact .still _ s
  | get ref =>
    cases h
    exact .still _ s
  | objects =>
    cases h
    exact .still _ s
  | ledger request =>
    cases h
    exact .still _ s
  | acquire effect ownerId =>
    cases answer with
    | lease attemptId choice =>
      cases h
      exact .acquire effect ownerId attemptId choice s
    | _ => cases h
  | publish subject lease outcome ref failure =>
    cases answer with
    | lease attemptId choice =>
      cases h
      exact .publish subject lease outcome ref failure choice s
    | _ => cases h
  | runtimeHandle config binding =>
    cases answer with
    | handle found =>
      cases h
      exact .still _ s
    | _ => cases h
  | invoke request =>
    cases answer with
    | adapter found slots stored =>
      simp only [execOp] at h
      split at h
      · rename_i hslots
        cases h
        exact .invoke request slots stored s hslots
      · cases h
    | _ => cases h
  | resolveIntent intent =>
    cases answer with
    | service found stored =>
      cases h
      exact .resolveIntent intent stored s
    | _ => cases h
  | validateGraph resolution =>
    cases answer with
    | graph found =>
      cases h
      exact .still _ s
    | _ => cases h

/-! ### The object store -/

theorem put_objects (record : Record F) {ref : TypedRef} {found : Record F}
    (h : s.objects.get? ref = some found) : (s.put record).2.objects.get? ref = some found := by
  unfold StepState.put
  cases hget : s.objects.get? record.ref with
  | some held => exact h
  | none =>
    have hne : ref ≠ record.ref := by
      rintro rfl
      rw [hget] at h
      cases h
    simpa [Dict.get?_set, hne] using h

theorem put_addressed (record : Record F)
    (hs : ∀ ref found, s.objects.get? ref = some found → found.ref = ref) (ref : TypedRef)
    (found : Record F) (h : (s.put record).2.objects.get? ref = some found) : found.ref = ref := by
  unfold StepState.put at h
  cases hget : s.objects.get? record.ref with
  | some held =>
    rw [hget] at h
    exact hs ref found h
  | none =>
    simp only [hget, Dict.get?_set] at h
    by_cases hkey : ref = record.ref
    · rw [if_pos hkey, Option.some.injEq] at h
      rw [← h, hkey]
    · rw [if_neg hkey] at h
      exact hs ref found h

theorem put_rest (record : Record F) (s : StepState F authority) :
    (s.put record).2.bindings = s.bindings ∧ (s.put record).2.leases = s.leases ∧
      (s.put record).2.history = s.history := by
  unfold StepState.put
  split <;> exact ⟨rfl, rfl, rfl⟩

theorem put_ledgers (record : Record F) (s : StepState F authority) :
    (s.put record).2.ledgers = s.ledgers := by
  unfold StepState.put
  split <;> rfl

/-- A put that succeeds leaves its record under its reference. -/
theorem put_stored {record : Record F} (h : (s.put record).1 = true) :
    Stored (s.put record).2 record := by
  unfold Stored
  unfold StepState.put at h ⊢
  cases hget : s.objects.get? record.ref with
  | some held =>
    simp only [hget, decide_eq_true_eq] at h ⊢
    rw [h]
  | none => simp

theorem put_evolves (record : Record F) (s : StepState F authority) :
    Evolves s (s.put record).2 := by
  obtain ⟨hbindings,hleases,hhistory⟩ := put_rest record s
  refine ⟨fun ref found h => put_objects record h, ?_, ?_, [], ?_⟩
  · rw [hbindings]
    exact fun _ _ h => h
  · rw [hleases]
    exact fun _ _ h => h
  · rw [hhistory, List.append_nil]

theorem storeForeign_rest (stored : List (TypedRef × ForeignRecord F))
    (s : StepState F authority) : (s.storeForeign stored).bindings = s.bindings ∧
      (s.storeForeign stored).leases = s.leases ∧
      (s.storeForeign stored).history = s.history := by
  induction stored generalizing s with
  | nil => exact ⟨rfl, rfl, rfl⟩
  | cons item rest ih =>
    obtain ⟨hbindings,hleases,hhistory⟩ := put_rest (.foreign item.1 item.2) s
    obtain ⟨hbindings',hleases',hhistory'⟩ := ih (s.put (.foreign item.1 item.2)).2
    exact ⟨hbindings'.trans hbindings, hleases'.trans hleases, hhistory'.trans hhistory⟩

theorem storeForeign_ledgers (stored : List (TypedRef × ForeignRecord F))
    (s : StepState F authority) : (s.storeForeign stored).ledgers = s.ledgers := by
  induction stored generalizing s with
  | nil => rfl
  | cons item rest ih => exact (ih _).trans (put_ledgers _ _)

theorem storeForeign_objects (stored : List (TypedRef × ForeignRecord F)) {ref : TypedRef}
    {found : Record F} (h : s.objects.get? ref = some found) :
    (s.storeForeign stored).objects.get? ref = some found := by
  induction stored generalizing s with
  | nil => exact h
  | cons item rest ih => exact ih (put_objects _ h)

theorem storeForeign_addressed (stored : List (TypedRef × ForeignRecord F))
    (hs : ∀ ref found, s.objects.get? ref = some found → found.ref = ref) :
    ∀ ref found, (s.storeForeign stored).objects.get? ref = some found → found.ref = ref := by
  induction stored generalizing s with
  | nil => exact hs
  | cons item rest ih => exact ih (put_addressed _ hs)

omit [HarnessIdentity F] in
theorem bind_bindings (key : BindingKey) (ref : TypedRef) {key' : BindingKey} {ref' : TypedRef}
    (h : s.bindings.get? key' = some ref') :
    (s.bind key ref).2.bindings.get? key' = some ref' := by
  unfold StepState.bind
  cases hget : s.bindings.get? key with
  | some bound => exact h
  | none =>
    have hne : key' ≠ key := by
      rintro rfl
      rw [hget] at h
      cases h
    simpa [Dict.get?_set, hne] using h

omit [HarnessIdentity F] in
theorem bind_written {key key' : BindingKey} {ref ref' : TypedRef}
    (h : (s.bind key ref).2.bindings.get? key' = some ref') :
    s.bindings.get? key' = some ref' ∨ key' = key ∧ ref' = ref := by
  unfold StepState.bind at h
  cases hget : s.bindings.get? key with
  | some bound =>
    rw [hget] at h
    exact .inl h
  | none =>
    simp only [hget, Dict.get?_set] at h
    by_cases hkey : key' = key
    · rw [if_pos hkey, Option.some.injEq] at h
      exact .inr ⟨hkey, h.symm⟩
    · rw [if_neg hkey] at h
      exact .inl h

omit [HarnessIdentity F] in
theorem bind_rest (key : BindingKey) (ref : TypedRef) (s : StepState F authority) :
    (s.bind key ref).2.objects = s.objects ∧ (s.bind key ref).2.leases = s.leases ∧
      (s.bind key ref).2.history = s.history := by
  unfold StepState.bind
  split <;> exact ⟨rfl, rfl, rfl⟩

omit [HarnessIdentity F] in
/-- A binding that is created or idempotent holds the reference. -/
theorem bind_bound {key : BindingKey} {ref : TypedRef}
    (h : (s.bind key ref).1 = .created ∨ (s.bind key ref).1 = .idempotent) :
    (s.bind key ref).2.bindings.get? key = some ref := by
  unfold StepState.bind at h ⊢
  cases hget : s.bindings.get? key with
  | none => simp
  | some bound =>
    simp only [hget] at h ⊢
    by_cases hbound : bound = ref
    · rw [hbound]
    · simp [hbound] at h

/-! ### What a move keeps, and what it writes -/

theorem Moves.evolves {o : StepOp F} (h : Moves l o s t) : Evolves s t := by
  cases h with
  | still => exact .refl s
  | enter => exact ⟨fun _ _ h => h, fun _ _ h => h, fun _ _ h => h, _, rfl⟩
  | leave result ref => exact ⟨fun _ _ h => h, fun _ _ h => h, fun _ _ h => h, _, rfl⟩
  | put record => exact put_evolves record s
  | bind key ref =>
    obtain ⟨hobjects,hleases,hhistory⟩ := bind_rest key ref s
    refine ⟨?_, fun _ _ h => bind_bindings key ref h, ?_, [], ?_⟩
    · rw [hobjects]
      exact fun _ _ h => h
    · rw [hleases]
      exact fun _ _ h => h
    · rw [hhistory, List.append_nil]
  | acquire effect ownerId attemptId choice =>
    exact ⟨fun _ _ h => h, fun _ _ h => h,
      fun request terminal h => authority.acquire_keeps effect ownerId attemptId choice s.leases
        request terminal h, [], (List.append_nil _).symm⟩
  | publish subject lease outcome ref failure choice =>
    exact ⟨fun _ _ h => h, fun _ _ h => h,
      fun request terminal h => authority.publish_keeps lease outcome (some ref) _ choice
        s.leases request terminal h, [], (List.append_nil _).symm⟩
  | invoke request slots stored =>
    obtain ⟨hbindings,hleases,_⟩ := storeForeign_rest stored s
    refine ⟨fun _ _ h => storeForeign_objects stored h, ?_, ?_, _, rfl⟩
    · simp only [hbindings]
      exact fun _ _ h => h
    · simp only [hleases]
      exact fun _ _ h => h
  | resolveIntent intent stored =>
    obtain ⟨hbindings,hleases,hhistory⟩ := storeForeign_rest stored s
    refine ⟨fun _ _ h => storeForeign_objects stored h, ?_, ?_, [], ?_⟩
    · rw [hbindings]
      exact fun _ _ h => h
    · rw [hleases]
      exact fun _ _ h => h
    · rw [hhistory, List.append_nil]

theorem Moves.addressed {o : StepOp F} (h : Moves l o s t)
    (hs : ∀ ref record, s.objects.get? ref = some record → record.ref = ref) :
    ∀ ref record, t.objects.get? ref = some record → record.ref = ref := by
  cases h with
  | put record => exact put_addressed record hs
  | bind key ref =>
    rw [(bind_rest key ref s).1]
    exact hs
  | invoke request slots stored => exact storeForeign_addressed stored hs
  | resolveIntent intent stored => exact storeForeign_addressed stored hs
  | _ => exact hs

theorem Moves.bindings {o : StepOp F} (h : Moves l o s t) {key : BindingKey} {ref : TypedRef}
    (hget : t.bindings.get? key = some ref) :
    s.bindings.get? key = some ref ∨ o = .bind key ref := by
  cases h with
  | put record =>
    rw [(put_rest record s).1] at hget
    exact .inl hget
  | bind key' ref' =>
    rcases bind_written hget with hold | ⟨rfl,rfl⟩
    · exact .inl hold
    · exact .inr rfl
  | invoke request slots stored =>
    rw [(storeForeign_rest stored s).1] at hget
    exact .inl hget
  | resolveIntent intent stored =>
    rw [(storeForeign_rest stored s).1] at hget
    exact .inl hget
  | _ => exact .inl hget

/-- A new terminal requires recovery, or is what a publication was given. -/
theorem Moves.published (laws : EffectLaws authority) {o : StepOp F} (h : Moves l o s t)
    {effect : EffectRequest} {terminal : Terminal}
    (hget : authority.published t.leases effect = some terminal) :
    authority.published s.leases effect = some terminal ∨ terminal.outcome = .recoveryRequired ∨
      ∃ subject lease outcome ref failure, o = .publish subject lease outcome ref failure ∧
        effect = lease.request ∧ terminal.outcome = outcome ∧ terminal.resultRef = some ref ∧
        terminal.failure = failure.map LeaseText.toLease := by
  cases h with
  | put record =>
    rw [(put_rest record s).2.1] at hget
    exact .inl hget
  | bind key ref =>
    rw [(bind_rest key ref s).2.1] at hget
    exact .inl hget
  | acquire request ownerId attemptId choice =>
    rcases laws.acquire_writes _ _ _ _ _ _ _ hget with hold | hrecovery
    · exact .inl hold
    · exact .inr (.inl hrecovery)
  | publish subject lease outcome ref failure choice =>
    rcases laws.publish_writes _ _ _ _ _ _ _ _ hget with hold | ⟨heffect,hfields⟩
    · exact .inl hold
    · exact .inr (.inr ⟨subject, lease, outcome, ref, failure, rfl, heffect, hfields⟩)
  | invoke request slots stored =>
    rw [(storeForeign_rest stored s).2.1] at hget
    exact .inl hget
  | resolveIntent intent stored =>
    rw [(storeForeign_rest stored s).2.1] at hget
    exact .inl hget
  | _ => exact .inl hget

/-- Only an invocation writes a ledger, with calls through the handles of its request. -/
theorem Moves.ledgers {o : StepOp F} (h : Moves l o s t) {ref : TypedRef}
    {slots : List (Option (ToolEvidence F))} (hget : t.ledgers.get? ref = some slots) :
    s.ledgers.get? ref = some slots ∨ ∃ request, o = .invoke request ∧
      ref = request.recordRef ∧ leavesSlots request (s.slots request) slots = true := by
  cases h with
  | put record =>
    rw [put_ledgers] at hget
    exact .inl hget
  | bind key bound =>
    have hsame : (s.bind key bound).2.ledgers = s.ledgers := by
      unfold StepState.bind
      split <;> rfl
    rw [hsame] at hget
    exact .inl hget
  | invoke request found stored _ hslots =>
    simp only [Dict.get?_set] at hget
    split at hget
    · rename_i href
      cases hget
      exact .inr ⟨request, rfl, href, hslots⟩
    · exact .inl hget
  | resolveIntent intent stored =>
    rw [storeForeign_ledgers] at hget
    exact .inl hget
  | _ => exact .inl hget

theorem Moves.history {o : StepOp F} (h : Moves l o s t) {event : StepEvent F}
    (hmem : event ∈ t.history) : event ∈ s.history ∨
      (o = .enter ∧ event = .entered l (adapterSettled s l.request)) ∨
      (∃ request, o = .invoke request ∧ event = .invoked l) ∨
      ∃ result ref, o = .leave result ref ∧ event = .returned l result ref := by
  cases h with
  | enter =>
    rcases List.mem_append.mp hmem with hold | hnew
    · exact .inl hold
    · exact .inr (.inl ⟨rfl, List.mem_singleton.mp hnew⟩)
  | leave result ref =>
    rcases List.mem_append.mp hmem with hold | hnew
    · exact .inl hold
    · exact .inr (.inr (.inr ⟨result, ref, rfl, List.mem_singleton.mp hnew⟩))
  | invoke request slots stored =>
    rcases List.mem_append.mp hmem with hold | hnew
    · exact .inl hold
    · exact .inr (.inr (.inl ⟨request, rfl, List.mem_singleton.mp hnew⟩))
  | put record =>
    rw [(put_rest record s).2.2] at hmem
    exact .inl hmem
  | bind key ref =>
    rw [(bind_rest key ref s).2.2] at hmem
    exact .inl hmem
  | resolveIntent intent stored =>
    rw [(storeForeign_rest stored s).2.2] at hmem
    exact .inl hmem
  | _ => exact .inl hmem

/-! ### The contract -/

variable (run : OptimRun F)

/- A terminal of the lease's effect has these fields. -/
def Publishes (s : StepState F authority) (lease : Lease) (outcome : TerminalOutcome)
    (ref : TypedRef) (failure : Option TerminalFailure) : Prop :=
  ∃ terminal, authority.published s.leases lease.request = some terminal ∧
    terminal.outcome = outcome ∧ terminal.resultRef = some ref ∧
    terminal.failure = failure.map LeaseText.toLease

/- What an operation must bring along. -/
def Justified (l : Invocation F) (o : StepOp F) (s : StepState F authority) : Prop :=
  match o with
  | .leave result ref => Accounted run s (.returned l result ref)
  | .invoke request => Accounted run s (.invoked l) ∧ Stored s (.request request)
  | .bind key ref => ∃ index result, key = .stepResult run.runId index ∧
      ref = result.recordRef ∧ Linked run s index result
  | .publish _ lease outcome ref failure => ∀ t, Evolves s t →
      Publishes t lease outcome ref failure →
      AdapterTerminal run t lease.request ∨ IntentTerminal t lease.request
  | _ => True

variable {run}

/-- The slots that an invocation leaves are calls through the handles of its request. -/
theorem StepInv.handled_slots (hs : StepInv run s) {request : OptimStepRequest F}
    {slots : List (Option (ToolEvidence F))} (hrequest : Stored s (.request request))
    (hslots : leavesSlots request (s.slots request) slots = true) :
    Handled s request.recordRef slots := by
  unfold leavesSlots at hslots
  split at hslots
  · simp only [decide_eq_true_eq] at hslots
    exact ⟨request, hrequest, rfl, hslots.2⟩
  · simp only [decide_eq_true_eq] at hslots
    subst hslots
    unfold StepState.slots
    cases hget : s.ledgers.get? request.recordRef with
    | none => exact ⟨request, hrequest, rfl, by simp⟩
    | some held => exact hs.ledgers _ _ hget

/-- An operation that brings what it must keeps the invariant. -/
theorem Moves.keeps (laws : EffectLaws authority) {o : StepOp F} (h : Moves l o s t)
    (hs : StepInv run s) (hj : Justified run l o s) : StepInv run t := by
  have hst := h.evolves
  refine hs.evolve hst (h.addressed hs.addressed) ?_ ?_ ?_ ?_
  · intro key ref hget
    rcases h.bindings hget with hold | rfl
    · exact .inl hold
    · obtain ⟨index,result,hkey,href,hlinked⟩ := hj
      exact .inr ⟨_, index, result, hkey, href, hlinked.evolves hst⟩
  · intro effect terminal hget
    rcases h.published laws hget with hold | hrecovery |
      ⟨subject,lease,outcome,ref,failure,rfl,rfl,hfields⟩
    · exact .inl hold
    · exact .inr (.inl hrecovery)
    · exact .inr (.inr (hj t hst ⟨terminal, hget, hfields⟩))
  · intro ref slots hget
    rcases h.ledgers hget with hold | ⟨request,rfl,rfl,hslots⟩
    · exact .inl hold
    · obtain ⟨_,hrequest⟩ := hj
      exact .inr (hs.handled_slots hrequest hslots |>.evolves hst)
  · intro event hmem
    rcases h.history hmem with hold | ⟨_,rfl⟩ | ⟨request,rfl,rfl⟩ | ⟨result,ref,rfl,rfl⟩
    · exact .inl hold
    · exact .inr trivial
    · exact .inr (Accounted.evolves hj.1 hst)
    · exact .inr (Accounted.evolves hj hst)

variable (run authority)

/-- Any invocations may run together. -/
def stepContract : Contract (Invocation F) (StepState F authority) (StepOp F) where
  inv := StepInv run
  allowed := fun _ _ _ => True
  rely := fun _ => Evolves
  compat := fun _ _ => True
  pre := fun _ _ => True
  rely_refl := fun _ => Evolves.refl
  rely_trans := fun _ _ _ _ h h' => h.trans h'

variable {authority}

/- A program of an invocation keeps the contract, and a result of it satisfies `Q`. -/
def Keeps {α : Type} (l : Invocation F) (Q : α → StepState F authority → Prop)
    (p : StepProg F α) (s : StepState F authority) : Prop :=
  (stepContract authority run).Safe (stepMachine F authority) l
    (fun a t => Evolves s t ∧ Q a t) p s

variable {run} {α β : Type} {Q : α → StepState F authority → Prop}
variable {Q' : β → StepState F authority → Prop}

theorem keeps_bind {p : StepProg F α} {f : α → StepProg F β} (hp : Keeps run l Q p s)
    (hf : ∀ a t, StepInv run t → Evolves s t → Q a t → Keeps run l Q' (f a) t) :
    Keeps run l Q' (p >>= f) s := by
  refine Contract.safe_bind hp ?_
  intro a t ht ⟨hst,hQ⟩
  refine Contract.safe_mono (hf a t ht hst hQ) ?_
  intro b u _ ⟨htu,hQ'⟩
  exact ⟨hst.trans htu, hQ'⟩

theorem keeps_mono {Q₂ : α → StepState F authority → Prop} {p : StepProg F α}
    (hp : Keeps run l Q p s) (hQ : ∀ a t, StepInv run t → Evolves s t → Q a t → Q₂ a t) :
    Keeps run l Q₂ p s :=
  Contract.safe_mono hp fun a t ht h => ⟨h.1, hQ a t ht h.1 h.2⟩

theorem keeps_return (a : α) (h : ∀ t, StepInv run t → Evolves s t → Q a t) :
    Keeps run l Q (return a) s :=
  fun t hst ht => ⟨hst, h t ht hst⟩

theorem keeps_raise (error : StepError) : Keeps run l Q (.raise error) s := trivial

theorem keeps_ofExcept (x : Except StepError α)
    (h : ∀ a, x = .ok a → ∀ t, StepInv run t → Evolves s t → Q a t) :
    Keeps run l Q (Prog.ofExcept x) s :=
  Contract.safe_ofExcept x s fun a ha t hst ht => ⟨hst, h a ha t ht hst⟩

/-- An operation that is justified wherever it may be taken. -/
theorem keeps_perform (laws : EffectLaws authority) {o : StepOp F}
    {Q : o.Reply → StepState F authority → Prop}
    (hj : ∀ t, StepInv run t → Evolves s t → Justified run l o t)
    (h : ∀ t answer reply t', StepInv run t → Evolves s t →
      execOp l o answer t = some (reply, t') → ∀ u, Evolves t' u → Q reply u) :
    Keeps run l Q (perform o) s := by
  intro t answer reply t' hst ht _ he
  have hmoves := execOp_moves he
  refine ⟨hmoves.keeps laws ht (hj t ht hst), fun _ _ => hmoves.evolves, fun _ _ => trivial, ?_⟩
  intro u hu _
  exact ⟨(hst.trans hmoves.evolves).trans hu, h t answer reply t' ht hst he u hu⟩

end Whetstone.Optim.Step
