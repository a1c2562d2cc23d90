import Whetstone.Coordination.ClaimContract

/-! Safety of the claim stream and of the resolution binding under every interleaving: each
function of a resolver is safe under the claim contract, and so is every pool of resolvers
with distinct owners and the heartbeats they start. -/
namespace Whetstone.Coordination
open Whetstone.Lib

variable {Intent Payload : Type}

section Safety

variable [DecidableEq Intent] [DecidableEq Payload] (intent : Intent) (strict : Prop)

abbrev Safe {α : Type} (l : Label) (Q : α → ClaimStore Intent Payload → Prop)
    (p : ClaimProg Intent Payload α) (s : ClaimStore Intent Payload) : Prop :=
  (claimContract intent strict).Safe (claimMachine intent) l Q p s

variable {intent strict} {l : Label} {s : ClaimStore Intent Payload}

/-- An operation that every thread tolerates, its own included. -/
theorem safe_calm (o : StoreOp Intent Payload) (Post : o.Reply → ClaimStore Intent Payload → Prop)
    (h : ∀ t a r t', Rely l.resolverId s t → StoreInv intent strict t →
      execute l o a t = some (r, t') →
      StoreInv intent strict t' ∧ (∀ me, Rely me t t') ∧ Post r t')
    (hPost : ∀ r t u, Rely l.resolverId t u → Post r t → Post r u) :
    Safe intent strict l (fun r u => Rely l.resolverId s u ∧ Post r u) (perform o) s := by
  intro t a r t' hst ht _ he
  obtain ⟨hinv,hrely,hp⟩ := h t a r t' hst ht he
  refine ⟨hinv, fun l' _ => hrely l'.resolverId, fun _ _ => trivial, ?_⟩
  intro u hu _
  exact ⟨(hst.trans (hrely l.resolverId)).trans hu, hPost r t' u hu hp⟩

/- Operations that only put a question to the environment. -/
def StoreOp.isAsk : StoreOp Intent Payload → Bool
  | .resolve _ | .put _ | .get _ | .bind _ _ | .report _ => false
  | _ => true

theorem execute_ask (o : StoreOp Intent Payload) (ho : o.isAsk = true) (a : Answer Payload)
    (t t' : ClaimStore Intent Payload) (r : o.Reply) (h : execute l o a t = some (r, t')) :
    t' = t := by
  cases o <;> cases a <;> simp_all [execute, StoreOp.isAsk]

theorem safe_ask (o : StoreOp Intent Payload) (ho : o.isAsk = true) :
    Safe intent strict l (fun _ u => Rely l.resolverId s u) (perform o) s := by
  refine Contract.safe_mono (safe_calm o (fun _ _ => True) ?_ fun _ _ _ _ _ => trivial)
    fun _ _ _ hq => hq.1
  intro t a r t' _ ht he
  rw [execute_ask o ho a t t' r he]
  exact ⟨ht, fun me => Rely.refl me t, trivial⟩

/-- A resolved key: a value found stays bound; an absence was true of some state in between. -/
theorem safe_resolve (key : StoreKey) :
    Safe intent strict l (fun r u => Rely l.resolverId s u ∧
        (∀ v, r = some v → u.bindings.get? key = some v) ∧
        (r = none → ∃ t, Rely l.resolverId s t ∧ StoreInv intent strict t ∧
          Rely l.resolverId t u ∧ t.bindings.get? key = none))
      (perform (.resolve key : StoreOp Intent Payload)) s := by
  refine safe_calm (.resolve key) (fun r u => (∀ v, r = some v → u.bindings.get? key = some v) ∧
    (r = none → ∃ t, Rely l.resolverId s t ∧ StoreInv intent strict t ∧
      Rely l.resolverId t u ∧ t.bindings.get? key = none)) ?_ ?_
  · intro t a r t' hst ht he
    simp only [execute, Option.some.injEq, Prod.mk.injEq] at he
    obtain ⟨rfl,rfl⟩ := he
    exact ⟨ht, fun me => Rely.refl me t, fun v hv => hv,
      fun hn => ⟨t, hst, ht, Rely.refl _ t, hn⟩⟩
  · intro r t u htu hp
    refine ⟨fun v hv => htu.bindings key v (hp.1 v hv), fun hn => ?_⟩
    obtain ⟨t0,h1,h2,h3,h4⟩ := hp.2 hn
    exact ⟨t0, h1, h2, h3.trans htu, h4⟩

theorem safe_put (object : StoreObject Intent Payload) :
    Safe intent strict l (fun _ u => Rely l.resolverId s u ∧ object ∈ u.objects)
      (perform (.put object : StoreOp Intent Payload)) s := by
  refine safe_calm _ (fun _ u => object ∈ u.objects) ?_
    fun _ t u htu hp => htu.objects object hp
  intro t a r t' _ ht he
  simp only [execute, Option.some.injEq, Prod.mk.injEq] at he
  obtain ⟨_,rfl⟩ := he
  refine ⟨ht.put object, fun me => ?_, List.mem_cons_self⟩
  exact ⟨fun x hx => List.mem_cons_of_mem object hx, fun _ _ hv => hv, fun _ hf => hf,
    (Rely.refl me t).fence_new, fun _ _ hc _ _ => hc⟩

theorem safe_get (ref : StoreObject Intent Payload) :
    Safe intent strict l (fun r u => Rely l.resolverId s u ∧ ∀ x, r = some x → x = ref)
      (perform (.get ref : StoreOp Intent Payload)) s := by
  refine safe_calm (.get ref) (fun r _ => ∀ x, r = some x → x = ref) ?_ fun _ _ _ _ hp => hp
  intro t a r t' _ ht he
  simp only [execute, Option.some.injEq, Prod.mk.injEq] at he
  obtain ⟨rfl,rfl⟩ := he
  refine ⟨ht, fun me => Rely.refl me t, fun x hx => ?_⟩
  by_cases hm : ref ∈ t.objects
  · rw [if_pos hm, Option.some.injEq] at hx
    exact hx.symm
  · rw [if_neg hm] at hx
    cases hx

/-- Reporting a resolution that is bound keeps the reports true. -/
theorem safe_report (r : IntentResolution Intent Payload)
    (hr : s.bindings.get? .resolution = some (.resolution r)) :
    Safe intent strict l (fun _ _ => True) (perform (.report r : StoreOp Intent Payload)) s := by
  refine Contract.safe_mono (safe_calm _ (fun _ _ => True) ?_ fun _ _ _ _ _ => trivial)
    fun _ _ _ _ => trivial
  intro t a _ t' hst ht he
  simp only [execute, Option.some.injEq, Prod.mk.injEq] at he
  obtain ⟨_,rfl⟩ := he
  refine ⟨⟨ht.stream, ht.fence_iff, ht.kind, ?_, fun hs => ⟨(ht.agrees hs).executed,
    (ht.agrees hs).rejected⟩⟩, fun me => ?_, trivial⟩
  · intro x hx
    rw [List.mem_append, List.mem_singleton] at hx
    rcases hx with hx | rfl
    · exact ht.reported x hx
    · exact hst.bindings _ _ hr
  · exact ⟨fun _ hx => hx, fun _ _ hv => hv, fun _ hf => hf, (Rely.refl me t).fence_new,
      fun _ _ hc _ _ => hc⟩

/-! ### Reading the stream -/

theorem safe_ofExcept_rely {α : Type} (x : Except EvalError α) :
    Safe intent strict l (fun _ u => Rely l.resolverId s u)
      (Prog.ofExcept x : ClaimProg Intent Payload α) s :=
  Contract.safe_ofExcept x s fun _ _ _ ht _ => ht

theorem safe_require (check : GraphCheck Intent Payload) :
    Safe intent strict l (fun _ u => Rely l.resolverId s u) (require check) s := by
  refine Contract.safe_bind (safe_ask (.check check) rfl) ?_
  intro r t _ hst
  cases r with
  | none => exact fun u hu _ => hst.trans hu
  | some message => trivial

theorem safe_loadClaim (ref : StoreObject Intent Payload) :
    Safe intent strict l (fun c u => Rely l.resolverId s u ∧ ref = .claim c) (loadClaim ref) s := by
  refine Contract.safe_bind (safe_get ref) ?_
  intro r t _ ⟨hst,href⟩
  cases r with
  | none => trivial
  | some x =>
    cases x with
    | claim c => exact fun u hu _ => ⟨hst.trans hu, (href _ rfl).symm⟩
    | attestation a => trivial
    | resolution x => trivial

theorem safe_latestClaimFrom (fuel n : Nat) (latest : Option (Claim Intent Payload))
    (hlatest : (latest = none ∧ n = 0) ∨ ∃ c k, latest = some c ∧ n = k + 1 ∧
      s.bindings.get? (.claim k) = some (.claim c)) :
    Safe intent strict l (fun r u => Rely l.resolverId s u ∧ ∃ es,
      Observed intent l.resolverId r u es) (latestClaimFrom intent fuel n latest) s := by
  induction fuel generalizing n latest s with
  | zero => trivial
  | succ fuel ih =>
    refine Contract.safe_bind (safe_resolve (.claim n)) ?_
    intro r t _ ⟨hst,hsome,hnone⟩
    cases r with
    | none =>
      obtain ⟨t0,hst0,hinv0,ht0,hn0⟩ := hnone rfl
      intro u hu _
      have hl : (latest = none ∧ n = 0) ∨ ∃ c k, latest = some c ∧ n = k + 1 ∧
          t0.bindings.get? (.claim k) = some (.claim c) := by
        rcases hlatest with h | ⟨c,k,h1,h2,h3⟩
        · exact .inl h
        · exact .inr ⟨c, k, h1, h2, hst0.bindings _ _ h3⟩
      obtain ⟨es,hes⟩ := hinv0.observed l.resolverId latest n hn0 hl
      exact ⟨hst.trans hu, es, hes.rely (ht0.trans hu)⟩
    | some bound =>
      have hb := hsome bound rfl
      refine Contract.safe_bind (safe_loadClaim bound) ?_
      intro claim t2 _ ⟨ht2,hclaim⟩
      subst hclaim
      refine Contract.safe_bind (safe_ofExcept_rely (checkClaim intent latest n claim)) ?_
      intro _ t3 _ ht3
      have hb3 : t3.bindings.get? (.claim n) = some (.claim claim) :=
        (ht2.trans ht3).bindings _ _ hb
      refine Contract.safe_mono (ih (n + 1) (some claim)
        (.inr ⟨claim, n, rfl, rfl, hb3⟩)) ?_
      intro r u _ ⟨hu,hes⟩
      exact ⟨((hst.trans ht2).trans ht3).trans hu, hes⟩

theorem safe_latestClaim (fuel : Nat) :
    Safe intent strict l (fun r u => Rely l.resolverId s u ∧ ∃ es,
      Observed intent l.resolverId r u es) (latestClaim intent fuel) s :=
  safe_latestClaimFrom fuel 0 none (.inl ⟨rfl, rfl⟩)

/-! ### The two binds -/

theorem execute_bind (key : StoreKey) (ref : StoreObject Intent Payload) (a : Answer Payload)
    (t t' : ClaimStore Intent Payload) (r : BindStatus)
    (h : execute l (.bind key ref) a t = some (r, t')) :
    (∃ v, t.bindings.get? key = some v ∧ t' = t ∧ (r ≠ .conflict → v = ref)) ∨
    (t.bindings.get? key = none ∧ t' = { t with
      bindings := t.bindings.set key ref
      fence := if key = .resolution then some (l.ownerId, t.bindings) else t.fence }) := by
  simp only [execute, ClaimStore.bind, Option.some.injEq] at h
  cases hk : t.bindings.get? key with
  | some v =>
    simp only [hk, Prod.mk.injEq] at h
    refine .inl ⟨v, rfl, h.2.symm, fun hr => ?_⟩
    by_contra hne
    rw [if_neg hne] at h
    exact hr h.1.symm
  | none =>
    simp only [hk, Prod.mk.injEq] at h
    exact .inr ⟨rfl, h.2.symm⟩

/-- Binding a claim event. The thread's own knowledge survives unless it bound an
attestation itself. -/
theorem safe_bindClaim (d : Claim Intent Payload) (hid : d.intentRef = intent)
    (hmay : ∀ t, Rely l.resolverId s t → MayAppend l d t) :
    Safe intent strict l (fun _ u => (d.resultAttestationRef = none → Rely l.resolverId s u) ∧
        (Rely l.resolverId s u ∨
          u.bindings.get? (.claim d.eventOrdinal) = some (.claim d)))
      (perform (.bind (.claim d.eventOrdinal) (.claim d) : StoreOp Intent Payload)) s := by
  intro t a r t' hst ht _ he
  rcases execute_bind _ _ a t t' _ he with ⟨v,_,rfl,_⟩ | ⟨hfree,rfl⟩
  · refine ⟨ht, fun l' _ => Rely.refl l'.resolverId t', fun _ _ => trivial, ?_⟩
    intro u hu _
    exact ⟨fun _ => hst.trans hu, .inl (hst.trans hu)⟩
  · have hmt := hmay t hst
    have hinv := ht.appendMay d hid hmt hfree
    have hrely : ∀ me, (d.resultAttestationRef ≠ none → some d.ownerId ≠ me) → Rely me t
        { t with bindings := t.bindings.set (.claim d.eventOrdinal) (.claim d) } := by
      intro me hme
      refine ⟨fun _ hx => hx, ?_, fun _ hf => hf, (Rely.refl me t).fence_new, ?_⟩
      · intro k v hv
        rw [Dict.get?_set_ne, hv]
        intro hk
        rw [hk, hfree] at hv
        cases hv
      · intro n c hc ha ho
        rw [Dict.get?_set] at hc
        by_cases hn : (StoreKey.claim n) = .claim d.eventOrdinal
        · simp only [hn, if_true, Option.some.injEq, StoreObject.claim.injEq] at hc
          subst hc
          exact absurd ho (hme ha)
        · rw [if_neg hn] at hc
          exact hc
    simp only [reduceCtorEq, if_false]
    refine ⟨hinv, fun l' hcompat => hrely l'.resolverId ?_, fun _ _ => trivial, ?_⟩
    · intro ha ho
      exact hcompat d.ownerId (hmt.attests ha).1 ho.symm
    · intro u hu _
      refine ⟨fun hopen => ?_, .inr (hu.bindings _ _ (by simp))⟩
      exact (hst.trans (hrely l.resolverId fun ha => absurd hopen ha)).trans hu

/-- Binding the resolution: an executed one is attested already; a rejection is bound by a
resolver none of whose events is attested. -/
theorem safe_bindResolutionKey (r : IntentResolution Intent Payload)
    (hl : l.resolverId = some l.ownerId)
    (hexec : r.outcome ≠ .rejected → AttestedAs r s)
    (hrej : r.outcome = .rejected → NoOwnAttestation l.ownerId s) :
    Safe intent strict l (fun st u => st ≠ .conflict →
        u.bindings.get? .resolution = some (.resolution r))
      (perform (.bind .resolution (.resolution r) : StoreOp Intent Payload)) s := by
  intro t a st t' hst ht hal he
  rcases execute_bind _ _ a t t' _ he with ⟨v,hv,rfl,hsame⟩ | ⟨hfree,rfl⟩
  · refine ⟨ht, fun l' _ => Rely.refl l'.resolverId t', fun _ _ => trivial, ?_⟩
    intro u hu _ hne
    rw [hsame hne] at hv
    exact hu.bindings _ _ hv
  · have hgrow : ∀ k v, t.bindings.get? k = some v →
        (t.bindings.set .resolution (.resolution r)).get? k = some v := by
      intro k v hv
      rw [Dict.get?_set_ne, hv]
      intro hk
      rw [hk, hfree] at hv
      cases hv
    have hclaim : ∀ n, (t.bindings.set .resolution (.resolution r)).get? (.claim n) =
        t.bindings.get? (.claim n) := fun n => Dict.get?_set_ne _ _ _ _ (by simp)
    have hfence : t.fence = none := ht.fence_iff.mpr hfree
    simp only [if_true]
    refine ⟨⟨?_, ?_, ?_, ?_, ?_⟩, fun l' hcompat => ⟨fun _ hx => hx, hgrow, ?_, ?_, ?_⟩,
      fun _ _ => trivial, ?_⟩
    · obtain ⟨es,h1,h2,h3⟩ := ht.stream
      exact ⟨es, h1.set_resolution _, h2, h3⟩
    · simp
    · intro v hv
      simp only [Dict.get?_set_self, Option.some.injEq] at hv
      exact ⟨r, hv.symm⟩
    · intro x hx
      have hbound := ht.reported x hx
      rw [hfree] at hbound
      cases hbound
    · intro hstrict
      constructor
      · intro x hx hne
        simp only [Dict.get?_set_self, Option.some.injEq, StoreObject.resolution.injEq] at hx
        subst hx
        obtain ⟨n,c,a,hc,ha,hr⟩ := (hexec hne).rely hst
        exact ⟨n, c, a, hgrow _ _ hc, ha, hr⟩
      · intro x hx hrx
        simp only [Dict.get?_set_self, Option.some.injEq, StoreObject.resolution.injEq] at hx
        subst hx
        obtain ⟨es0,hs,hv0,_⟩ := ht.stream
        have hlatest : latestIsOwn t.bindings l.ownerId = true := by
          have hf : fencedStep l (.bind .resolution (.resolution r)) t = true := hal hstrict
          simpa [fencedStep, hrx, hfree] using hf
        obtain ⟨c,hlast,howner⟩ := latestIsOwn_last hlatest es0 hs
        have hst' : Rely l.resolverId s t := hst
        rw [hl] at hst'
        have hown := (hrej hrx).rely hst'
        refine ⟨?_, l.ownerId, t.bindings, es0, c, rfl, hs, hlast, howner, hgrow⟩
        intro n d hd
        rw [hclaim] at hd
        by_contra ha
        have hdn := (hs.get_iff n d).mp hd
        have hlen := hv0.attested_last n d hdn ha
        rw [List.getLast?_eq_getElem?, hlen, Nat.add_sub_cancel, hdn, Option.some.injEq] at hlast
        subst hlast
        exact hown n d hd ha howner
    · intro f hf
      rw [hfence] at hf
      cases hf
    · intro _ owner before hf
      simp only [Option.some.injEq, Prod.mk.injEq] at hf
      obtain ⟨rfl,rfl⟩ := hf
      exact ⟨fun ho => hcompat l.ownerId hl ho.symm, fun _ _ hv => hv⟩
    · intro n c hc _ _
      exact (hclaim n).symm.trans hc
    · intro u hu _ _
      exact hu.bindings _ _ (by simp)

/-! ### The resolver's functions -/

variable {service : EvalEngineService}

theorem safe_raise {α : Type} (Q : α → ClaimStore Intent Payload → Prop) (error : EvalError) :
    Safe intent strict l Q (raise error) s := trivial

theorem safe_return {α : Type} {Q : α → ClaimStore Intent Payload → Prop} (a : α)
    (h : ∀ u, Rely l.resolverId s u → StoreInv intent strict u → Q a u) :
    Safe intent strict l Q (pure a) s := h

/- The order facts the next ordinal was computed from. -/
def NextOf (service : EvalEngineService) (generation heartbeatOrdinal : Nat)
    (prior : Option (Claim Intent Payload)) (n : Nat) : Prop :=
  match prior with
  | none => n = 0 ∧ generation = 0 ∧ heartbeatOrdinal = 0
  | some c => n = c.eventOrdinal + 1 ∧
    ((generation = c.generation ∧ c.ownerId = service.ownerId ∧
        heartbeatOrdinal = c.heartbeatOrdinal + 1 ∧ c.resultAttestationRef = none) ∨
      (generation = c.generation + 1 ∧ heartbeatOrdinal = 0))

theorem safe_nextOrdinal (prior : Option (Claim Intent Payload))
    (generation heartbeatOrdinal : Nat) :
    Safe intent strict l (fun n u => Rely l.resolverId s u ∧
        NextOf service generation heartbeatOrdinal prior n)
      (nextOrdinal service prior generation heartbeatOrdinal) s := by
  unfold nextOrdinal
  cases prior with
  | none =>
    dsimp only
    split_ifs with h
    · exact safe_raise _ _
    · simp only [not_or, not_not] at h
      exact safe_return 0 fun u hu _ => ⟨hu, rfl, h.1, h.2⟩
  | some c =>
    dsimp only
    split_ifs with h1 h2 h3 h4
    · exact safe_raise _ _
    · exact safe_raise _ _
    · simp only [not_or, not_not] at h2 h3
      exact safe_return _ fun u hu _ => ⟨hu, rfl, .inl ⟨h1, h2.1, h2.2, h3⟩⟩
    · exact safe_raise _ _
    · simp only [not_or, not_not] at h4
      refine Contract.safe_bind (safe_ask .clock rfl) ?_
      intro now t _ hst
      split_ifs with h5
      · exact safe_raise _ _
      · exact safe_return _ fun u hu _ => ⟨hst.trans hu, rfl, .inr h4⟩

theorem safe_readEvent (n : Nat) :
    Safe intent strict l (fun w u => Rely l.resolverId s u ∧ w.eventOrdinal = n ∧
        u.bindings.get? (.claim n) = some (.claim w)) (readEvent intent n) s := by
  refine Contract.safe_bind (safe_resolve (.claim n)) ?_
  intro r t _ ⟨hst,hsome,_⟩
  cases r with
  | none => exact safe_raise _ _
  | some bound =>
    refine Contract.safe_bind (safe_loadClaim bound) ?_
    intro w t2 _ ⟨ht2,hw⟩
    subst hw
    split_ifs with h
    · exact safe_raise _ _
    · simp only [not_or, not_not] at h
      exact safe_return _ fun u hu _ => ⟨(hst.trans ht2).trans hu, h.2,
        (ht2.trans hu).bindings _ _ (hsome _ rfl)⟩

/-- Appending an event and reading back the winner. -/
theorem safe_appendClaimEvent (prior : Option (Claim Intent Payload))
    (generation heartbeatOrdinal : Nat)
    (ref : Option (EvalResultAttestation Intent Payload))
    (hprior : ∀ c, prior = some c → s.bindings.get? (.claim c.eventOrdinal) = some (.claim c) ∧
      (generation ≠ c.generation → c.ownerId ≠ service.ownerId ∧ c.resultAttestationRef = none))
    (href : ref ≠ none → l.resolverId = some service.ownerId ∧
      Attempt service.ownerId generation s ∧ ∃ c, prior = some c ∧ generation = c.generation) :
    Safe intent strict l (fun w u => u.bindings.get? (.claim w.eventOrdinal) = some (.claim w) ∧
        (ref = none → Rely l.resolverId s u) ∧
        (Rely l.resolverId s u ∨ w.resultAttestationRef = ref))
      (appendClaimEvent intent service prior generation heartbeatOrdinal ref) s := by
  refine Contract.safe_bind (safe_nextOrdinal prior generation heartbeatOrdinal) ?_
  intro n t1 _ ⟨ht1,hnext⟩
  refine Contract.safe_bind (safe_ask .clock rfl) ?_
  intro now t2 _ ht2
  refine Contract.safe_bind (safe_put _) ?_
  intro _ t3 _ ⟨ht3,hobj⟩
  have hs3 : Rely l.resolverId s t3 := (ht1.trans ht2).trans ht3
  refine Contract.safe_bind (safe_bindClaim
    (claimEvent intent service n generation heartbeatOrdinal now ref) rfl ?_) ?_
  · intro t htt
    have hst := hs3.trans htt
    refine ⟨htt.objects _ hobj, ?_, ?_⟩
    · cases prior with
      | none => exact .inl hnext
      | some c =>
        obtain ⟨hb,hne⟩ := hprior c rfl
        refine .inr ⟨c, hst.bindings _ _ hb, hnext.1, ?_⟩
        rcases hnext.2 with ⟨hg,ho,hh,hopen⟩ | ⟨hg,hh⟩
        · exact ⟨hopen, .inl ⟨ho.symm, hg, hh⟩⟩
        · obtain ⟨ho,hopen⟩ := hne (by omega)
          exact ⟨hopen, .inr ⟨ho.symm, hg, hh⟩⟩
    · intro ha
      obtain ⟨hl,hat,c,hc,hg⟩ := href ha
      rw [hl] at hst
      refine ⟨hl, hat.rely hst, c, hst.bindings _ _ (hprior c hc).1, ?_⟩
      subst hc
      rcases hnext.2 with ⟨_,ho,hh,hopen⟩ | ⟨hg',_⟩
      · exact ⟨hnext.1, ⟨ho.symm, hg, hh⟩, hopen⟩
      · omega
  · intro _ t4 _ ⟨hopen,hor⟩
    refine Contract.safe_mono (safe_readEvent n) ?_
    intro w u _ ⟨hu,hord,hw⟩
    refine ⟨by rw [hord]; exact hw, fun hn => (hs3.trans (hopen hn)).trans hu, ?_⟩
    rcases hor with h | h
    · exact .inl ((hs3.trans h).trans hu)
    · have hsame := hw.symm.trans (hu.bindings _ _ h)
      simp only [Option.some.injEq, StoreObject.claim.injEq] at hsame
      rw [hsame]
      exact .inr rfl

theorem safe_loadResultAttestation (ref : EvalResultAttestation Intent Payload) :
    Safe intent strict l (fun a u => Rely l.resolverId s u ∧ a = ref)
      (loadResultAttestation intent service ref) s := by
  refine Contract.safe_bind (safe_get (.attestation ref)) ?_
  intro r t _ ⟨hst,href⟩
  cases r with
  | none => exact safe_raise _ _
  | some x =>
    cases x with
    | claim c => exact safe_raise _ _
    | resolution x => exact safe_raise _ _
    | attestation a =>
      have ha : a = ref := by simpa using href _ rfl
      dsimp only
      split_ifs with h1 h2
      · exact safe_raise _ _
      · exact safe_raise _ _
      · exact safe_return _ fun u hu _ => ⟨hst.trans hu, ha⟩

/-- A found attestation is in the stream; none found means that none of this resolver's events
was attested. -/
theorem safe_attestedResolution (fuel : Nat) :
    Safe intent strict l (fun r u => Rely l.resolverId s u ∧
        (∀ x, r = some x → AttestedAs x u) ∧
        (r = none → ∀ owner, l.resolverId = some owner → NoOwnAttestation owner u))
      (attestedResolution intent service fuel) s := by
  refine Contract.safe_bind (safe_latestClaim fuel) ?_
  intro latest t _ ⟨hst,es,hes⟩
  have hown : (∀ c, latest = some c → c.resultAttestationRef = none) →
      ∀ owner, l.resolverId = some owner → NoOwnAttestation owner t := by
    intro hopen owner hl n c hc ha ho
    have hcn := hes.own n c hc ha (by rw [hl, ho])
    have hlen := hes.valid.attested_last n c hcn ha
    have hlast := hes.last
    rw [List.getLast?_eq_getElem?, hlen, Nat.add_sub_cancel, hcn] at hlast
    exact ha (hopen c hlast.symm)
  cases latest with
  | none =>
    refine safe_return _ fun u hu _ => ⟨hst.trans hu, fun x hx => (by cases hx), ?_⟩
    intro _ owner hl
    have hu' : Rely l.resolverId t u := hu
    rw [hl] at hu'
    exact (hown (fun c hc => by cases hc) owner hl).rely hu'
  | some c =>
    dsimp only
    cases ha : c.resultAttestationRef with
    | none =>
      refine safe_return _ fun u hu _ => ⟨hst.trans hu, fun x hx => (by cases hx), ?_⟩
      intro _ owner hl
      have hu' : Rely l.resolverId t u := hu
      rw [hl] at hu'
      refine (hown (fun d hd => ?_) owner hl).rely hu'
      cases hd
      exact ha
    | some ref =>
      refine Contract.safe_bind (safe_loadResultAttestation ref) ?_
      intro a t2 _ ⟨ht2,haref⟩
      subst haref
      refine safe_return _ fun u hu _ => ⟨(hst.trans ht2).trans hu, ?_, fun hn => by cases hn⟩
      intro x hx
      cases hx
      exact ⟨_, c, a, (ht2.trans hu).bindings _ _ hes.latest_bound, ha, rfl⟩

theorem safe_validateAttested (fuel : Nat) (resolution : IntentResolution Intent Payload)
    (required : Bool) :
    Safe intent strict l (fun _ u => Rely l.resolverId s u)
      (validateResultGraph.validateAttested intent service fuel resolution required) s := by
  unfold validateResultGraph.validateAttested
  split_ifs with h
  · refine Contract.safe_bind (safe_attestedResolution fuel) ?_
    intro r t _ ⟨hst,_⟩
    split_ifs
    · exact safe_raise _ _
    · exact safe_return _ fun u hu _ => hst.trans hu
  · exact safe_return _ fun u hu _ => hu

theorem safe_executedGraph (fuel : Nat) (resolution : IntentResolution Intent Payload)
    (required : Bool) (check : GraphCheck Intent Payload) :
    Safe intent strict l (fun _ u => Rely l.resolverId s u)
      (do
        require .executionContract
        validateResultGraph.validateAttested intent service fuel resolution required
        require check) s := by
  refine Contract.safe_bind (safe_require .executionContract) ?_
  intro _ t1 _ ht1
  refine Contract.safe_bind (safe_validateAttested fuel resolution required) ?_
  intro _ t2 _ ht2
  refine Contract.safe_mono (safe_require check) ?_
  intro _ u _ hu
  exact (ht1.trans ht2).trans hu

theorem safe_validateResultGraph (fuel : Nat) (resolution : IntentResolution Intent Payload)
    (required : Bool) :
    Safe intent strict l (fun _ u => Rely l.resolverId s u)
      (validateResultGraph intent service fuel resolution required) s := by
  unfold validateResultGraph
  split_ifs with h
  · exact safe_raise _ _
  · refine Contract.safe_bind (safe_require .targetObjects) ?_
    intro _ t _ hst
    cases resolution.outcome with
    | rejected => exact safe_return _ fun u hu _ => hst.trans hu
    | completed =>
      refine Contract.safe_mono (safe_executedGraph fuel resolution required _) ?_
      intro _ u _ hu
      exact hst.trans hu
    | failed =>
      refine Contract.safe_mono (safe_executedGraph fuel resolution required _) ?_
      intro _ u _ hu
      exact hst.trans hu

/-- Loading the bound reference returns the bound resolution. -/
theorem safe_loadResolution (fuel : Nat) (ref : StoreObject Intent Payload)
    (href : s.bindings.get? .resolution = some ref) :
    Safe intent strict l (fun r u => u.bindings.get? .resolution = some (.resolution r))
      (loadResolution intent service fuel ref) s := by
  unfold loadResolution
  cases ref with
  | claim c => exact safe_raise _ _
  | attestation a => exact safe_raise _ _
  | resolution r =>
    refine Contract.safe_bind (safe_get (.resolution r)) ?_
    intro x t _ ⟨hst,hx⟩
    cases x with
    | none => exact safe_raise _ _
    | some y =>
      cases y with
      | claim c => exact safe_raise _ _
      | attestation a => exact safe_raise _ _
      | resolution z =>
        have hz : z = r := by simpa using hx _ rfl
        subst hz
        refine Contract.safe_bind (safe_validateResultGraph fuel z true) ?_
        intro _ t2 _ ht2
        exact safe_return _ fun u hu _ => ((hst.trans ht2).trans hu).bindings _ _ href

/-- Binding returns the resolution that is bound, its own or the winner's. -/
theorem safe_bindResolution (fuel : Nat) (r : IntentResolution Intent Payload)
    (hl : l.resolverId = some l.ownerId)
    (hexec : r.outcome ≠ .rejected → AttestedAs r s)
    (hrej : r.outcome = .rejected → NoOwnAttestation l.ownerId s) :
    Safe intent strict l (fun x u => u.bindings.get? .resolution = some (.resolution x))
      (bindResolution intent service fuel r) s := by
  refine Contract.safe_bind (safe_validateResultGraph fuel r true) ?_
  intro _ t1 _ ht1
  refine Contract.safe_bind (safe_put (.resolution r)) ?_
  intro _ t2 _ ⟨ht2,_⟩
  have ht : Rely l.resolverId s t2 := ht1.trans ht2
  have hown : r.outcome = .rejected → NoOwnAttestation l.ownerId t2 := by
    intro hr
    rw [hl] at ht
    exact (hrej hr).rely ht
  refine Contract.safe_bind (safe_bindResolutionKey r hl (fun h => (hexec h).rely ht) hown) ?_
  intro st t3 _ hst
  cases st with
  | bound => exact safe_return _ fun u hu _ => hu.bindings _ _ (hst (by simp))
  | idempotent => exact safe_return _ fun u hu _ => hu.bindings _ _ (hst (by simp))
  | conflict =>
    refine Contract.safe_bind (safe_resolve .resolution) ?_
    intro w t4 _ ⟨_,hw,_⟩
    cases w with
    | none => exact safe_raise _ _
    | some ref => exact safe_loadResolution fuel ref (hw ref rfl)

omit [DecidableEq Intent] [DecidableEq Payload] in
theorem ownsLatest_eq (c : Claim Intent Payload) (generation : Nat)
    (h : ¬ ownsLatest service (some c) generation = false) :
    c.ownerId = service.ownerId ∧ c.generation = generation := by
  simpa [ownsLatest] using h

/-- Publication ends only with the attestation in the stream. -/
theorem safe_publishLoop (attestation : EvalResultAttestation Intent Payload)
    (generation scanFuel fuel : Nat) (hl : l.resolverId = some service.ownerId)
    (hat : Attempt service.ownerId generation s) :
    Safe intent strict l (fun _ u => AttestedAs attestation.resolution u)
      (publishLoop intent service attestation generation scanFuel fuel) s := by
  induction fuel generalizing s with
  | zero => exact safe_raise _ _
  | succ fuel ih =>
    refine Contract.safe_bind (safe_latestClaim scanFuel) ?_
    intro latest t _ ⟨hst,es,hes⟩
    cases latest with
    | none => exact safe_raise _ _
    | some c =>
      dsimp only
      split_ifs with hfalse
      · exact safe_raise _ _
      obtain ⟨_,hg⟩ := ownsLatest_eq c generation hfalse
      have hatt : Attempt service.ownerId generation t := by
        rw [hl] at hst
        exact hat.rely hst
      cases ha : c.resultAttestationRef with
      | some ref =>
        refine Contract.safe_bind (safe_loadResultAttestation ref) ?_
        intro a t2 _ ⟨ht2,haref⟩
        subst haref
        split_ifs with hne
        · exact safe_raise _ _
        · simp only [not_not] at hne
          subst hne
          exact safe_return _ fun u hu _ =>
            ⟨_, c, a, (ht2.trans hu).bindings _ _ hes.latest_bound, ha, rfl⟩
      | none =>
        refine Contract.safe_bind (safe_appendClaimEvent (some c) generation _ _ ?_ ?_) ?_
        · intro d hd
          cases hd
          exact ⟨hes.latest_bound, fun hne => absurd hg.symm hne⟩
        · exact fun _ => ⟨hl, hatt, c, rfl, hg.symm⟩
        · intro w u _ ⟨hw,_,hor⟩
          split_ifs with h1 h2 h3
          · exact safe_raise _ _
          · exact safe_return _ fun v hv _ => ⟨_, w, attestation, hv.bindings _ _ hw, h2, rfl⟩
          · exact safe_raise _ _
          · rcases hor with hr | hr
            · rw [hl] at hr
              exact ih (hatt.rely hr)
            · exact absurd hr h2

theorem safe_publishResultAttestation (fuel : Nat) (r : IntentResolution Intent Payload)
    (generation : Nat) (hl : l.resolverId = some service.ownerId)
    (hat : Attempt service.ownerId generation s) :
    Safe intent strict l (fun _ u => AttestedAs r u)
      (publishResultAttestation intent service fuel r generation) s := by
  refine Contract.safe_bind (safe_validateResultGraph fuel r false) ?_
  intro _ t1 _ ht1
  dsimp only
  split_ifs with h
  · refine Contract.safe_bind (safe_put _) ?_
    intro _ t2 _ ⟨ht2,_⟩
    have ht : Rely l.resolverId s t2 := ht1.trans ht2
    rw [hl] at ht
    exact safe_publishLoop ⟨service.graphHash, r, h⟩ generation fuel fuel hl (hat.rely ht)
  · exact safe_raise _ _

theorem safe_renewClaim (fuel generation : Nat) :
    Safe intent strict l (fun _ u => Rely l.resolverId s u)
      (renewClaim intent service fuel generation) s := by
  refine Contract.safe_bind (safe_latestClaim fuel) ?_
  intro latest t _ ⟨hst,es,hes⟩
  cases latest with
  | none => exact safe_raise _ _
  | some c =>
    dsimp only
    split_ifs with h1 h2
    · exact safe_raise _ _
    · exact safe_return _ fun u hu _ => hst.trans hu
    · obtain ⟨_,hg⟩ := ownsLatest_eq c generation h1
      refine Contract.safe_bind (safe_appendClaimEvent (some c) generation _ none ?_ ?_) ?_
      · intro d hd
        cases hd
        exact ⟨hes.latest_bound, fun hne => absurd hg.symm hne⟩
      · exact fun hn => absurd rfl hn
      · intro w u _ ⟨_,hu,_⟩
        split_ifs
        · exact safe_raise _ _
        · exact safe_return _ fun v hv _ => (hst.trans (hu rfl)).trans hv

theorem safe_assertGenerationCurrent (fuel generation : Nat) :
    Safe intent strict l (fun _ u => Rely l.resolverId s u)
      (assertGenerationCurrent intent service fuel generation) s := by
  refine Contract.safe_bind (safe_latestClaim fuel) ?_
  intro latest t _ ⟨hst,_⟩
  split_ifs
  · exact safe_raise _ _
  · exact safe_return _ fun u hu _ => hst.trans hu

theorem safe_currentOrFirst (scanFuel : Nat) :
    Safe intent strict l (fun w u => Rely l.resolverId s u ∧
        u.bindings.get? (.claim w.eventOrdinal) = some (.claim w))
      (claimLoop.currentOrFirst intent service scanFuel) s := by
  refine Contract.safe_bind (safe_latestClaim scanFuel) ?_
  intro latest t _ ⟨hst,es,hes⟩
  cases latest with
  | some c =>
    exact safe_return _ fun u hu _ => ⟨hst.trans hu, hu.bindings _ _ hes.latest_bound⟩
  | none =>
    refine Contract.safe_mono (safe_appendClaimEvent none 0 0 none ?_ ?_) ?_
    · intro c hc
      cases hc
    · exact fun hn => absurd rfl hn
    · intro w u _ ⟨hw,hu,_⟩
      exact ⟨hst.trans (hu rfl), hw⟩

/-- A claimed generation has an event of this owner in the stream. -/
theorem safe_claimLoop (scanFuel fuel : Nat) :
    Safe intent strict l (fun r u => Rely l.resolverId s u ∧
        ∀ g, r = some g → Owns service.ownerId g u) (claimLoop intent service scanFuel fuel) s := by
  induction fuel generalizing s with
  | zero => exact safe_raise _ _
  | succ fuel ih =>
    refine Contract.safe_bind (safe_resolve .resolution) ?_
    intro r t _ ⟨hst,_⟩
    cases r with
    | some v => exact safe_return _ fun u hu _ => ⟨hst.trans hu, fun g hg => by cases hg⟩
    | none =>
      refine Contract.safe_bind (safe_currentOrFirst scanFuel) ?_
      intro w t2 _ ⟨ht2,hw⟩
      split_ifs with h1 h2
      · exact safe_return _ fun u hu _ =>
          ⟨(hst.trans ht2).trans hu, fun g hg => by cases hg⟩
      · refine safe_return _ fun u hu _ => ⟨(hst.trans ht2).trans hu, fun g hg => ?_⟩
        cases hg
        exact ⟨_, w, hu.bindings _ _ hw, h2, rfl⟩
      · refine Contract.safe_bind (safe_ask .clock rfl) ?_
        intro now t3 _ ht3
        split_ifs with h3
        · refine Contract.safe_bind (safe_appendClaimEvent (some w) (w.generation + 1) 0 none
            ?_ ?_) ?_
          · intro c hc
            cases hc
            exact ⟨ht3.bindings _ _ hw, fun _ => ⟨h2, not_not.mp h1⟩⟩
          · exact fun hn => absurd rfl hn
          · intro w2 t4 _ ⟨hw2,ht4,_⟩
            have hs4 : Rely l.resolverId s t4 :=
              ((hst.trans ht2).trans ht3).trans (ht4 rfl)
            split_ifs with h4
            · refine safe_return _ fun u hu _ => ⟨hs4.trans hu, fun g hg => ?_⟩
              cases hg
              exact ⟨_, w2, hu.bindings _ _ hw2, h4, rfl⟩
            · refine Contract.safe_mono ih ?_
              intro r u _ ⟨hu,hg⟩
              exact ⟨hs4.trans hu, hg⟩
        · refine Contract.safe_mono ih ?_
          intro r u _ ⟨hu,hg⟩
          exact ⟨((hst.trans ht2).trans ht3).trans hu, hg⟩

theorem safe_bindIfOwned (fuel : Nat) (r : IntentResolution Intent Payload) (generation : Nat)
    (hl : l.resolverId = some service.ownerId) (ho : l.ownerId = service.ownerId)
    (hat : Attempt service.ownerId generation s) :
    Safe intent strict l (fun x u => u.bindings.get? .resolution = some (.resolution x))
      (bindIfOwned intent service fuel r generation) s := by
  unfold bindIfOwned
  have hlo : l.resolverId = some l.ownerId := by rw [hl, ho]
  cases hr : r.outcome with
  | rejected =>
    refine Contract.safe_bind (safe_assertGenerationCurrent fuel generation) ?_
    intro _ t _ hst
    refine safe_bindResolution fuel r hlo (fun hne => absurd hr hne) fun _ => ?_
    rw [hl] at hst
    rw [ho]
    exact hat.own.rely hst
  | completed =>
    refine Contract.safe_bind (safe_publishResultAttestation fuel r generation hl hat) ?_
    intro _ t _ hatt
    exact safe_bindResolution fuel r hlo (fun _ => hatt) fun h => absurd (hr.symm.trans h) (by simp)
  | failed =>
    refine Contract.safe_bind (safe_publishResultAttestation fuel r generation hl hat) ?_
    intro _ t _ hatt
    exact safe_bindResolution fuel r hlo (fun _ => hatt) fun h => absurd (hr.symm.trans h) (by simp)

theorem safe_bindReply (fuel generation : Nat) (reply : EvalReply Payload)
    (hl : l.resolverId = some service.ownerId) (ho : l.ownerId = service.ownerId)
    (hat : Attempt service.ownerId generation s) :
    Safe intent strict l (fun x u => u.bindings.get? .resolution = some (.resolution x))
      (bindReply intent service fuel generation reply) s := by
  unfold bindReply
  cases reply with
  | rejected payload => exact safe_bindIfOwned fuel _ generation hl ho hat
  | failed payload => exact safe_bindIfOwned fuel _ generation hl ho hat
  | completed payload => exact safe_bindIfOwned fuel _ generation hl ho hat
  | raised message => exact safe_raise _ _

theorem safe_evaluateAndBind (mode : EvalDispatchMode) (fuel generation : Nat)
    (hl : l.resolverId = some service.ownerId) (ho : l.ownerId = service.ownerId)
    (hat : Attempt service.ownerId generation s) :
    Safe intent strict l (fun x u => u.bindings.get? .resolution = some (.resolution x))
      (evaluateAndBind intent service mode fuel generation) s := by
  refine Contract.safe_bind (safe_require .persistTargets) ?_
  intro _ t1 _ ht1
  refine Contract.safe_bind (safe_resolve .resolution) ?_
  intro r t2 _ ⟨ht2,hsome,_⟩
  cases r with
  | some existing => exact safe_loadResolution fuel existing (hsome existing rfl)
  | none =>
    cases mode with
    | platform =>
      refine Contract.safe_bind (safe_require .persistPlatformIntent) ?_
      exact fun _ _ _ _ => safe_raise _ _
    | inline =>
      refine Contract.safe_bind (safe_assertGenerationCurrent fuel generation) ?_
      intro _ t3 _ ht3
      refine Contract.safe_bind (safe_ask .evaluate rfl) ?_
      intro reply t4 _ ht4
      have ht : Rely l.resolverId s t4 := ((ht1.trans ht2).trans ht3).trans ht4
      rw [hl] at ht
      exact safe_bindReply fuel generation reply hl ho (hat.rely ht)

theorem safe_assembleAndBindOutcomes (fuel generation : Nat)
    (hl : l.resolverId = some service.ownerId) (ho : l.ownerId = service.ownerId)
    (hat : Attempt service.ownerId generation s) :
    Safe intent strict l (fun x u => u.bindings.get? .resolution = some (.resolution x))
      (assembleAndBindOutcomes intent service fuel generation) s := by
  refine Contract.safe_bind (safe_require .persistTargets) ?_
  intro _ t1 _ ht1
  refine Contract.safe_bind (safe_assertGenerationCurrent fuel generation) ?_
  intro _ t2 _ ht2
  refine Contract.safe_bind (safe_ask .scanRowOutcomes rfl) ?_
  intro row t3 _ ht3
  have h3 : Rely l.resolverId s t3 := (ht1.trans ht2).trans ht3
  cases row with
  | some reply =>
    rw [hl] at h3
    exact safe_bindReply fuel generation reply hl ho (hat.rely h3)
  | none =>
    refine Contract.safe_bind (safe_require .persistTargets) ?_
    intro _ t4 _ ht4
    refine Contract.safe_bind (safe_assertGenerationCurrent fuel generation) ?_
    intro _ t5 _ ht5
    refine Contract.safe_bind (safe_ask .assemble rfl) ?_
    intro reply t6 _ ht6
    have ht : Rely l.resolverId s t6 := ((h3.trans ht4).trans ht5).trans ht6
    rw [hl] at ht
    exact safe_bindReply fuel generation reply hl ho (hat.rely ht)

theorem safe_heartbeat (generation scanFuel fuel : Nat) :
    Safe intent strict l (fun _ _ => True)
      (heartbeat intent service generation scanFuel fuel) s := by
  induction fuel generalizing s with
  | zero => exact safe_raise _ _
  | succ fuel ih =>
    refine Contract.safe_bind (safe_ask .renewalWait rfl) ?_
    intro stop t _ _
    split_ifs
    · exact safe_return _ fun _ _ _ => trivial
    · refine Contract.safe_bind (safe_renewClaim scanFuel generation) ?_
      exact fun _ _ _ _ => ih

theorem safe_evaluateWithHeartbeat (fuel generation : Nat)
    (body : ClaimProg Intent Payload (IntentResolution Intent Payload))
    (hl : l.resolverId = some service.ownerId) (hat : Attempt service.ownerId generation s)
    (hbody : ∀ t, Attempt service.ownerId generation t → Safe intent strict l
      (fun x u => u.bindings.get? .resolution = some (.resolution x)) body t) :
    Safe intent strict l (fun x u => u.bindings.get? .resolution = some (.resolution x))
      (evaluateWithHeartbeat intent service fuel generation body) s := by
  refine Contract.safe_bind (safe_renewClaim fuel generation) ?_
  intro _ t1 _ ht1
  refine Contract.safe_bind (safe_ask (.startHeartbeat service generation fuel) rfl) ?_
  intro _ t2 _ ht2
  refine Contract.safe_bind (safe_assertGenerationCurrent fuel generation) ?_
  intro _ t3 _ ht3
  have ht : Rely l.resolverId s t3 := (ht1.trans ht2).trans ht3
  rw [hl] at ht
  refine Contract.safe_bind (hbody t3 (hat.rely ht)) ?_
  intro x t4 _ hx
  refine Contract.safe_bind (safe_ask .heartbeatErrors rfl) ?_
  intro errors t5 _ ht5
  split_ifs
  · refine Contract.safe_bind (safe_resolve .resolution) ?_
    intro r t6 _ hr
    have ht6 : Rely l.resolverId t5 t6 := hr.1
    cases r with
    | none => exact safe_raise _ _
    | some v => exact safe_return _ fun u hu _ => ((ht5.trans ht6).trans hu).bindings _ _ hx
  · exact safe_return _ fun u hu _ => (ht5.trans hu).bindings _ _ hx

/-- Every claimed call that returns, returns the bound resolution. -/
theorem safe_resolveClaimed (fuel : Nat)
    (body : Nat → ClaimProg Intent Payload (IntentResolution Intent Payload))
    (hl : l.resolverId = some service.ownerId) (ho : l.ownerId = service.ownerId)
    (hbody : ∀ generation t, Attempt service.ownerId generation t → Safe intent strict l
      (fun x u => u.bindings.get? .resolution = some (.resolution x)) (body generation) t) :
    Safe intent strict l (fun x u => u.bindings.get? .resolution = some (.resolution x))
      (resolveClaimed intent service fuel body) s := by
  have hlo : l.resolverId = some l.ownerId := by rw [hl, ho]
  have hbindAttested : ∀ (x : IntentResolution Intent Payload) (t : ClaimStore Intent Payload),
      AttestedAs x t → Safe intent strict l
        (fun y u => u.bindings.get? .resolution = some (.resolution y))
        (bindResolution intent service fuel x) t := by
    intro x t hx
    refine safe_bindResolution fuel x hlo (fun _ => hx) fun hr => ?_
    obtain ⟨_,_,a,_,_,ha⟩ := hx
    exact absurd (ha ▸ hr) a.executed
  refine Contract.safe_bind (safe_resolve .resolution) ?_
  intro r t1 _ ⟨_,hsome,_⟩
  cases r with
  | some existing => exact safe_loadResolution fuel existing (hsome existing rfl)
  | none =>
    refine Contract.safe_bind (safe_attestedResolution fuel) ?_
    intro a t2 _ ⟨_,hatt,_⟩
    cases a with
    | some x => exact hbindAttested x t2 (hatt x rfl)
    | none =>
      refine Contract.safe_bind (safe_claimLoop fuel fuel) ?_
      intro owned t3 _ ⟨_,howns⟩
      refine Contract.safe_bind (safe_resolve .resolution) ?_
      intro r t4 _ ⟨ht4,hsome,hnone⟩
      cases r with
      | some existing => exact safe_loadResolution fuel existing (hsome existing rfl)
      | none =>
        obtain ⟨t0,h30,hinv0,h04,hun⟩ := hnone rfl
        refine Contract.safe_bind (safe_attestedResolution fuel) ?_
        intro a t5 _ ⟨ht5,hatt,hno⟩
        cases a with
        | some x => exact hbindAttested x t5 (hatt x rfl)
        | none =>
          cases owned with
          | none => exact safe_raise _ _
          | some generation =>
            -- the resolution was unbound at t0, with the acquired event already bound
            have h05 : Rely l.resolverId t0 t5 := h04.trans ht5
            obtain ⟨i,c,hc,hco,hcg⟩ := howns generation rfl
            have hc0 := h30.bindings _ _ hc
            have hat : Attempt service.ownerId generation t5 := by
              refine ⟨⟨i, c, h05.bindings _ _ hc0, hco, hcg, ?_⟩, hno rfl _ hl⟩
              intro other before hf
              obtain ⟨hne,hb⟩ := h05.fence_new (hinv0.fence_iff.mpr hun) other before hf
              rw [hl] at hne
              exact ⟨fun he => hne (congrArg some he), hb _ _ hc0⟩
            exact safe_evaluateWithHeartbeat fuel generation (body generation) hl hat
              (hbody generation)

theorem safe_resolver (service : EvalEngineService) (calls : List Call)
    (hl : l.resolverId = some service.ownerId) (ho : l.ownerId = service.ownerId) :
    Safe intent strict l (fun _ _ => True) (resolver intent service calls) s := by
  induction calls generalizing s with
  | nil => exact safe_return _ fun _ _ _ => trivial
  | cons call rest ih =>
    have hcall : Safe intent strict l
        (fun x u => u.bindings.get? .resolution = some (.resolution x))
        (resolveCall intent service call) s := by
      cases call with
      | resolve mode fuel =>
        exact safe_resolveClaimed fuel _ hl ho fun g t hat =>
          safe_evaluateAndBind mode fuel g hl ho hat
      | fromRowOutcomes fuel =>
        exact safe_resolveClaimed fuel _ hl ho fun g t hat =>
          safe_assembleAndBindOutcomes fuel g hl ho hat
    refine Contract.safe_bind (Q := fun _ _ => True)
      (Contract.safe_handle (Contract.safe_bind hcall ?_) ?_) ?_
    · intro x t _ hx
      exact safe_report x hx
    · intro error t
      exact safe_return _ fun _ _ _ => trivial
    · exact fun _ _ _ _ => ih

/-! ### Pools -/

theorem claim_starts : Contract.Starts
    (claimContract intent strict : Contract Label (ClaimStore Intent Payload) _)
    (claimMachine intent) where
  compat := by
    intro o l hl l'
    have hnone : l.resolverId = none := by
      cases o with
      | startHeartbeat service generation fuel =>
        rw [List.mem_singleton.mp hl]
        rfl
      | _ => cases hl
    refine ⟨fun owner h => ?_, fun owner _ => ?_⟩
    · rw [hnone] at h
      cases h
    · rw [hnone]
      simp
  safe := by
    intro l s _ _
    cases l with
    | resolver service calls => exact safe_resolver service calls rfl rfl
    | heartbeat service generation fuel => exact safe_heartbeat generation fuel fuel

omit [DecidableEq Intent] [DecidableEq Payload] in
theorem storeInv_empty : StoreInv intent strict (.empty : ClaimStore Intent Payload) where
  stream := ⟨[], stream_empty, validStream_nil intent, fun c hc => by cases hc⟩
  fence_iff := ⟨fun _ => rfl, fun _ => rfl⟩
  kind := fun v hv => by cases hv
  reported := fun r hr => by cases hr
  agrees := fun _ => Agrees.of_unbound rfl

theorem sound_startPool (resolvers : List (EvalEngineService × List Call))
    (howners : (resolvers.map fun r => r.1.ownerId).Nodup) :
    Contract.Sound (claimContract intent strict : Contract Label (ClaimStore Intent Payload) _)
      (claimMachine intent) (startPool intent resolvers) where
  inv := storeInv_empty
  compat := by
    simp only [startPool, List.map_map, List.pairwise_map]
    rw [List.Nodup, List.pairwise_map] at howners
    refine howners.imp ?_
    intro a b hab
    refine ⟨fun owner ha hb => hab ?_, fun owner hb ha => hab ?_⟩
    · exact Option.some.inj (ha.trans hb.symm)
    · exact Option.some.inj (ha.trans hb.symm)
  safe := by
    intro th hth
    obtain ⟨r,_,rfl⟩ := List.mem_map.mp hth
    exact safe_resolver r.1 r.2 rfl rfl

/-- The store after any run of resolvers with distinct owners. -/
theorem run_storeInv (resolvers : List (EvalEngineService × List Call))
    (howners : (resolvers.map fun r => r.1.ownerId).Nodup)
    (schedule : List (Nat × Answer Payload))
    (hal : strict → (claimMachine intent).Meets Fenced (startPool intent resolvers) schedule) :
    StoreInv intent strict
      ((claimMachine intent).run (startPool intent resolvers) schedule).state := by
  refine ((sound_startPool resolvers howners).run claim_starts schedule ?_).inv
  by_cases hs : strict
  · exact Machine.meets_mono _ (fun l o s h _ => h) _ _ (hal hs)
  · exact Machine.meets_true _ _ (fun l o s h => absurd h hs) _ _

end Safety

variable [DecidableEq Intent] [DecidableEq Payload]

/-- Claim stream safety: in every state any interleaving of resolvers, their heartbeats and
their crashes can reach, the bound claim events are a gap-free stream that a reader accepts to
its end, generations never decrease along it, and an attested event is the last one. -/
theorem claim_stream_safety (intent : Intent) (resolvers : List (EvalEngineService × List Call))
    (howners : (resolvers.map fun r => r.1.ownerId).Nodup)
    (schedule : List (Nat × Answer Payload)) :
    let s := ((claimMachine intent).run (startPool intent resolvers) schedule).state
    ∃ events : List (Claim Intent Payload), Stream s.bindings events ∧
      (∀ l fuel, events.length < fuel →
        (latestClaim intent fuel).alone (soloExec l) s = some (.ok events.getLast?, s)) ∧
      events.Pairwise (fun c d => c.generation ≤ d.generation) ∧
      ∀ (n : Nat) (c : Claim Intent Payload), events[n]? = some c →
        c.resultAttestationRef ≠ none → n + 1 = events.length := by
  intro s
  have hinv : StoreInv intent False s := run_storeInv resolvers howners schedule fun h => h.elim
  obtain ⟨es,hs,hv,hobj⟩ := hinv.stream
  refine ⟨es, hs, ?_, ?_, fun n c hc ha => (hv.attested_last n c hc ha).symm⟩
  · intro l fuel hfuel
    exact latestClaimFrom_alone intent l s es hs hv hobj fuel 0 (by omega) (by omega)
  · rw [List.pairwise_iff_getElem]
    intro i j hi hj hij
    obtain ⟨k,rfl⟩ := Nat.exists_eq_add_of_lt hij
    exact (hv.generation_mono i (k + 1) es[i] es[i + k + 1] (List.getElem?_eq_getElem hi)
      (List.getElem?_eq_getElem hj)).1

def firstResolver : EvalEngineService := ⟨"a", 10, "g"⟩
def secondResolver : EvalEngineService := ⟨"b", 10, "g"⟩

def twoResolvers : List (EvalEngineService × List Call) :=
  [(firstResolver, [.resolve .inline 9]), (secondResolver, [.resolve .inline 9])]

/-- Non-vacuity: two resolvers, the first of which has claimed the intent. -/
theorem claim_stream_safety_two :
    let s := ((claimMachine ()).run (startPool () twoResolvers)
      (List.replicate 9 (0, (.time 0 : Answer Bool)))).state
    (∃ c, s.bindings.get? (.claim 0) = some (.claim c)) ∧
    ∃ events : List (Claim Unit Bool), Stream s.bindings events ∧
      (∀ l fuel, events.length < fuel →
        (latestClaim () fuel).alone (soloExec l) s = some (.ok events.getLast?, s)) ∧
      events.Pairwise (fun c d => c.generation ≤ d.generation) ∧
      ∀ (n : Nat) (c : Claim Unit Bool), events[n]? = some c →
        c.resultAttestationRef ≠ none → n + 1 = events.length :=
  ⟨⟨⟨(), "a", 0, 0, 0, 10, none⟩, by decide +kernel⟩,
    claim_stream_safety () twoResolvers (by decide)
      (List.replicate 9 (0, (.time 0 : Answer Bool)))⟩

/-- Every call that returns reports the one bound resolution. And in every run that binds a
rejection only while the latest claim event names the binder, an attested stream and a bound
resolution agree. -/
theorem attestation_agrees_when_fenced (intent : Intent)
    (resolvers : List (EvalEngineService × List Call))
    (howners : (resolvers.map fun r => r.1.ownerId).Nodup)
    (schedule : List (Nat × Answer Payload)) :
    let s := ((claimMachine intent).run (startPool intent resolvers) schedule).state
    (∀ r ∈ s.reported, s.bindings.get? .resolution = some (.resolution r)) ∧
    ((claimMachine intent).Meets Fenced (startPool intent resolvers) schedule →
      ∀ events c a r, Stream s.bindings events → events.getLast? = some c →
        c.resultAttestationRef = some a →
        s.bindings.get? .resolution = some (.resolution r) → r = a.resolution) := by
  intro s
  have hany : StoreInv intent False s := run_storeInv resolvers howners schedule fun h => h.elim
  refine ⟨hany.reported, ?_⟩
  intro hfenced es c a r hs hlast ha hr
  have hinv : StoreInv intent True s :=
    run_storeInv resolvers howners schedule fun _ => hfenced
  obtain ⟨es0,hs0,hv0,_⟩ := hinv.stream
  have hes : es0 = es := hs0.unique hs
  subst hes
  rw [List.getLast?_eq_getElem?] at hlast
  have hbound := (hs.get_iff _ c).mpr hlast
  by_cases hrej : r.outcome = .rejected
  · have hnone := ((hinv.agrees trivial).rejected r hr hrej).1 _ c hbound
    rw [ha] at hnone
    cases hnone
  · obtain ⟨m,d,b,hd,hb,hbr⟩ := (hinv.agrees trivial).executed r hr hrej
    have hdm := (hs.get_iff m d).mp hd
    have hlen := hv0.attested_last m d hdm (by rw [hb]; simp)
    rw [hlen, Nat.add_sub_cancel, hdm, Option.some.injEq] at hlast
    subst hlast
    rw [hb, Option.some.injEq] at ha
    rw [← hbr, ha]

/- The first resolver evaluates to a rejection and comes to bind it with its lease current. -/
def rejectionBound : List (Nat × Answer Bool) :=
  [List.replicate 27 (0, .time 0), [(0, .verdict none)], List.replicate 6 (0, .time 0),
    [(0, .reply (.rejected false))], List.replicate 5 (0, .time 0),
    [(0, .verdict none), (0, .time 0), (0, .time 0), (0, .flag false), (0, .unit)]].flatten

/-- Non-vacuity: a fenced run that binds and reports a rejection. -/
theorem attestation_agrees_when_fenced_rejection :
    let s := ((claimMachine ()).run (startPool () twoResolvers) rejectionBound).state
    s.reported = [⟨(), .rejected, false⟩] ∧
    (claimMachine ()).Meets Fenced (startPool () twoResolvers) rejectionBound ∧
    (∀ r ∈ s.reported, s.bindings.get? .resolution = some (.resolution r)) ∧
    ((claimMachine ()).Meets Fenced (startPool () twoResolvers) rejectionBound →
      ∀ events c a r, Stream s.bindings events → events.getLast? = some c →
        c.resultAttestationRef = some a →
        s.bindings.get? .resolution = some (.resolution r) → r = a.resolution) :=
  ⟨by decide +kernel, by decide +kernel,
    attestation_agrees_when_fenced () twoResolvers (by decide) rejectionBound⟩

/- The first resolver is about to bind a rejection when its lease expires; the second takes
   the generation over, completes and attests. Payloads are told apart by a flag. -/
def rejectionRace : List (Nat × Answer Bool) :=
  [List.replicate 27 (0, .time 0), [(0, .verdict none)], List.replicate 6 (0, .time 0),
    [(0, .reply (.rejected false))], List.replicate 5 (0, .time 0),
    [(0, .verdict none), (0, .time 0)],
    List.replicate 60 (1, .time 100), [(1, .verdict none)], List.replicate 20 (1, .time 100),
    [(1, .reply (.completed true))], List.replicate 3 (1, .verdict none),
    List.replicate 15 (1, .time 100), [(0, .time 100)]].flatten

def racedStore : ClaimStore Unit Bool :=
  ((claimMachine ()).run (startPool () twoResolvers) rejectionRace).state

def attestedMeasured : EvalResultAttestation Unit Bool :=
  ⟨"g", ⟨(), .completed, true⟩, by decide⟩

/-- The unfenced rejection is bound although the stream ends in an attestation of the completed
result. -/
theorem attested_resolution_differs :
    racedStore.bindings.get? (.claim 4) =
        some (.claim ⟨(), "b", 4, 1, 2, 110, some attestedMeasured⟩) ∧
      racedStore.bindings.get? (.claim 5) = none ∧
      racedStore.bindings.get? .resolution =
        some (.resolution ⟨(), .rejected, false⟩) ∧
      (⟨(), .rejected, false⟩ : IntentResolution Unit Bool) ≠
        attestedMeasured.resolution := by
  decide +kernel

end Whetstone.Coordination
