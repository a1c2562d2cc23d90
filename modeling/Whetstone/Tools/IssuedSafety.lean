import Whetstone.Tools.IssuedSlots

/-! Safety of the issued Tool Call ledger under every interleaving: each function of a ledger
is safe under the contract, and a ledger opened on the store any run leaves reads its slots. -/
namespace Whetstone.Tools.Issued
open Whetstone.Lib

variable {Body Payload : Type} [DecidableEq Body] [DecidableEq Payload] [ToolIdentity]

section Safety

attribute [local simp] execute

variable (request : OptimStepRequest Body) (strict : Prop)

abbrev Safe {α : Type} (l : IssuedLabel) (Q : α → IssuedStore Body Payload → Prop)
    (p : IssuedProg Body Payload α) (s : IssuedStore Body Payload) : Prop :=
  (issuedContract request strict).Safe (issuedMachine request) l Q p s

variable {request strict} {l : IssuedLabel} {s : IssuedStore Body Payload}

theorem safe_return {α : Type} {Q : α → IssuedStore Body Payload → Prop} (a : α)
    (h : ∀ u, Grows s u → LedgerInv request strict u → Q a u) :
    Safe request strict l Q (pure a) s := h

theorem safe_raise {α : Type} (Q : α → IssuedStore Body Payload → Prop) (error : IssuedError) :
    Safe request strict l Q (raise error) s := trivial

theorem safe_refuse (bad : Prop) [Decidable bad] (error : IssuedError) :
    Safe request strict l (fun _ u => Grows s u ∧ ¬ bad) (refuse bad error) s := by
  refine Contract.safe_ofExcept _ s fun _ hok t hst _ => ⟨hst, ?_⟩
  exact (raiseIf_eq_ok bad error).mp hok

theorem safe_fromToolStore {α : Type} (x : Except String α) :
    Safe request strict l (fun _ u => Grows s u) (fromToolStore x) s := by
  cases x with
  | ok a => exact fun u hu _ => hu
  | error message => trivial

/-- An operation allowed in every state it is reached in. -/
theorem safe_op (o : IssuedOp Body Payload) (Post : o.Reply → IssuedStore Body Payload → Prop)
    (h : ∀ t tools r t', Grows s t → LedgerInv request strict t → (strict → Uncontested l o t) →
      execute l o tools t = some (r, t') →
      LedgerInv request strict t' ∧ Grows t t' ∧ Post r t')
    (hPost : ∀ r t u, Grows t u → Post r t → Post r u) :
    Safe request strict l (fun r u => Grows s u ∧ Post r u) (perform o) s := by
  intro t tools r t' hst ht hal he
  obtain ⟨hinv,hgrow,hp⟩ := h t tools r t' hst ht hal he
  refine ⟨hinv, fun _ _ => hgrow, fun _ _ => trivial, ?_⟩
  intro u hu _
  exact ⟨(hst.trans hgrow).trans hu, hPost r t' u hu hp⟩

theorem safe_resolve (key : IssuedKey Body) :
    Safe request strict l
      (fun r u => Grows s u ∧ ∀ v, r = some v → u.bindings.get? key = some v)
      (perform (.resolve key : IssuedOp Body Payload)) s := by
  refine safe_op (.resolve key) (fun r u => ∀ v, r = some v → u.bindings.get? key = some v) ?_
    fun r t u htu hp v hv => htu.bindings key v (hp v hv)
  intro t tools r t' _ ht _ he
  simp only [execute, Option.some.injEq, Prod.mk.injEq] at he
  obtain ⟨rfl,rfl⟩ := he
  exact ⟨ht, Grows.refl t, fun v hv => hv⟩

theorem safe_put (object : IssuedObject Body Payload) :
    Safe request strict l (fun _ u => Grows s u ∧ object ∈ u.objects)
      (perform (.put object : IssuedOp Body Payload)) s := by
  refine safe_op (.put object) (fun _ u => object ∈ u.objects) ?_
    fun _ t u htu hp => htu.objects object hp
  intro t tools r t' _ ht _ he
  simp only [execute, Option.some.injEq, Prod.mk.injEq] at he
  obtain ⟨_,rfl⟩ := he
  exact ⟨ht.put object, ⟨fun x hx => List.mem_cons_of_mem object hx, fun _ _ hv => hv⟩,
    List.mem_cons_self⟩

theorem safe_get (ref : IssuedObject Body Payload) :
    Safe request strict l
      (fun r u => Grows s u ∧ ∀ x, r = some x → x = ref ∧ ref ∈ u.objects)
      (perform (.get ref : IssuedOp Body Payload)) s := by
  refine safe_op (.get ref) (fun r u => ∀ x, r = some x → x = ref ∧ ref ∈ u.objects) ?_ ?_
  · intro t tools r t' _ ht _ he
    simp only [execute, Option.some.injEq, Prod.mk.injEq] at he
    obtain ⟨rfl,rfl⟩ := he
    refine ⟨ht, Grows.refl t, fun x hx => ?_⟩
    by_cases hm : ref ∈ t.objects
    · rw [if_pos hm, Option.some.injEq] at hx
      exact ⟨hx.symm, hm⟩
    · rw [if_neg hm] at hx
      cases hx
  · intro r t u htu hp x hx
    obtain ⟨h1,h2⟩ := hp x hx
    exact ⟨h1, htu.objects ref h2⟩

/- A binding that keeps the invariant wherever the key is free. -/
theorem safe_bindKey (key : IssuedKey Body) (ref : IssuedObject Body Payload)
    (h : ∀ t, Grows s t → LedgerInv request strict t →
      (strict → Uncontested l (.bind key ref) t) → t.bindings.get? key = none →
      LedgerInv request strict { t with bindings := t.bindings.set key ref }) :
    Safe request strict l
      (fun r u => Grows s u ∧ (r = true → u.bindings.get? key = some ref))
      (perform (.bind key ref : IssuedOp Body Payload)) s := by
  refine safe_op (.bind key ref) (fun r u => r = true → u.bindings.get? key = some ref) ?_
    fun r t u htu hp hr => htu.bindings key ref (hp hr)
  intro t tools r t' hst ht hal he
  simp only [execute, IssuedStore.bind, Option.some.injEq] at he
  cases hb : t.bindings.get? key with
  | some bound =>
    rw [hb] at he
    cases he
    refine ⟨ht, Grows.refl t, fun hr => ?_⟩
    rw [hb, of_decide_eq_true hr]
  | none =>
    rw [hb] at he
    cases he
    exact ⟨h t hst ht hal hb, Grows.set key ref hb, fun _ => Dict.get?_set_self _ _ _⟩

omit [DecidableEq Payload] [ToolIdentity] in
/- The operations on a ledger's own fields leave its replay prefix alone. -/
theorem onLedger_keeps {α : Type} {t t' : IssuedStore Body Payload} {ledger : Nat}
    {f : LedgerState Body → Option (α × LedgerState Body)} {a : α}
    (hf : ∀ st b st', f st = some (b, st') → st'.replayPrefix = st.replayPrefix)
    (ht : LedgerInv request strict t) (h : t.onLedger ledger f = some (a, t')) :
    LedgerInv request strict t' ∧ Grows t t' := by
  unfold IssuedStore.onLedger at h
  split at h
  · cases h
  · rename_i st hst
    split at h
    · cases h
    · rename_i b st' hb
      cases h
      refine ⟨ht.setLedger ledger st' ?_, ⟨fun _ hx => hx, fun _ _ hv => hv⟩⟩
      rw [hf st a st' hb]
      exact ht.replay ledger st hst

def IssuedOp.isLocal : IssuedOp Body Payload → Bool
  | .acquire _ | .release _ | .enter _ _ | .leave _ _ | .replaySlot _ | .advance _ => true
  | .toolStoreGet _ | .loadTerminalResult _ | .persistResult _ | .execute _ => true
  | _ => false

theorem execute_local (o : IssuedOp Body Payload) (ho : o.isLocal = true)
    (tools : ToolCallStore Payload) {t t' : IssuedStore Body Payload} (r : o.Reply)
    (ht : LedgerInv request strict t) (h : execute l o tools t = some (r, t')) :
    LedgerInv request strict t' ∧ Grows t t' := by
  have hsame : ∀ u : IssuedStore Body Payload, t = u →
      LedgerInv request strict u ∧ Grows t u := by
    intro u hu
    exact hu ▸ ⟨ht, Grows.refl t⟩
  cases o with
  | acquire ledger =>
    refine onLedger_keeps ?_ ht h
    intro st b st' hb
    unfold LedgerState.acquire at hb
    split at hb
    · cases hb
    · cases hb
      rfl
  | enter ledger callId =>
    refine onLedger_keeps ?_ ht h
    intro st b st' hb
    unfold LedgerState.enter at hb
    split at hb
    · cases hb
      rfl
    · cases hb
      rfl
  | release ledger =>
    refine onLedger_keeps (f := LedgerState.release) ?_ ht h
    intro st b st' hb
    cases hb
    rfl
  | leave ledger callId =>
    refine onLedger_keeps (f := LedgerState.leave callId) ?_ ht h
    intro st b st' hb
    cases hb
    rfl
  | replaySlot ledger =>
    refine onLedger_keeps (f := LedgerState.replaySlot) ?_ ht h
    intro st b st' hb
    cases hb
    rfl
  | advance ledger =>
    refine onLedger_keeps (f := LedgerState.advance) ?_ ht h
    intro st b st' hb
    cases hb
    rfl
  | toolStoreGet call | loadTerminalResult entry | persistResult result | execute call =>
    simp only [Issued.execute, Option.some.injEq, Prod.mk.injEq] at h
    exact hsame t' h.2
  | resolve | put | get | bind | openLedger => cases ho

theorem safe_local (o : IssuedOp Body Payload) (ho : o.isLocal = true) :
    Safe request strict l (fun _ u => Grows s u) (perform o) s := by
  refine Contract.safe_mono (safe_op o (fun _ _ => True) ?_ fun _ _ _ _ _ => trivial)
    fun _ _ _ hq => hq.1
  intro t tools r t' _ ht _ he
  obtain ⟨h1,h2⟩ := execute_local o ho tools r ht he
  exact ⟨h1, h2, trivial⟩

/-- A slot of a replay prefix holds a reserved claim. -/
theorem safe_replaySlot (ledger : Nat) :
    Safe request strict l (fun r u => Grows s u ∧ ∀ slot, r = some slot → Reserved slot.claim u)
      (perform (.replaySlot ledger : IssuedOp Body Payload)) s := by
  refine safe_op (.replaySlot ledger) (fun r u => ∀ slot, r = some slot → Reserved slot.claim u)
    ?_ fun r t u htu hp slot hslot => (hp slot hslot).grows htu
  intro t tools r t' _ ht _ he
  obtain ⟨h1,h2⟩ := execute_local (.replaySlot ledger) rfl tools r ht he
  refine ⟨h1, h2, fun slot hslot => ?_⟩
  simp only [execute, IssuedStore.onLedger] at he
  cases hst : t.ledgers.get? ledger with
  | none => simp [hst] at he
  | some st =>
    simp only [hst, LedgerState.replaySlot, Option.some.injEq, Prod.mk.injEq] at he
    have hmem : slot ∈ st.replayPrefix := List.mem_of_getElem? (he.1.trans hslot)
    exact (ht.replay ledger st hst slot hmem).grows h2

/-! ### Loading -/

theorem safe_loadClaim (ref : IssuedObject Body Payload) :
    Safe request strict l
      (fun c u => Grows s u ∧ ref = .claim c ∧ c.request = request ∧ ref ∈ u.objects)
      (loadClaim request ref) s := by
  cases ref with
  | claim c =>
    refine Contract.safe_bind (safe_get (.claim c)) ?_
    intro r t _ hr
    cases r with
    | none => exact safe_raise _ _
    | some x =>
      obtain ⟨rfl,hmem⟩ := hr.2 x rfl
      refine Contract.safe_bind (safe_refuse _ _) ?_
      intro _ t1 _ ht1
      exact safe_return _ fun u hu _ => ⟨(hr.1.trans ht1.1).trans hu, rfl,
        not_not.mp ht1.2, (ht1.1.trans hu).objects _ hmem⟩
  | slot | terminal => exact safe_raise _ _

theorem safe_loadSlot (ref : IssuedObject Body Payload) (ordinal : Nat) :
    Safe request strict l (fun slot u => Grows s u ∧ ref = .slot slot)
      (loadSlot request ref ordinal) s := by
  cases ref with
  | slot x =>
    refine Contract.safe_bind (safe_get (.slot x)) ?_
    intro r t _ hr
    cases r with
    | none => exact safe_raise _ _
    | some y =>
      obtain ⟨rfl,_⟩ := hr.2 y rfl
      refine Contract.safe_bind (safe_refuse _ _) ?_
      intro _ t1 _ ht1
      refine Contract.safe_bind (safe_loadClaim _) ?_
      intro c t2 _ ht2
      refine Contract.safe_bind (safe_refuse _ _) ?_
      intro _ t3 _ ht3
      have ht : Grows s t3 := ((hr.1.trans ht1.1).trans ht2.1).trans ht3.1
      exact safe_return _ fun u hu _ => ⟨ht.trans hu, rfl⟩
  | claim | terminal => exact safe_raise _ _

theorem safe_loadTerminal (ref : IssuedObject Body Payload) (claim : Claim Body) :
    Safe request strict l (fun _ u => Grows s u) (loadTerminal ref claim) s := by
  cases ref with
  | terminal x =>
    refine Contract.safe_bind (safe_get (.terminal x)) ?_
    intro r t _ hr
    cases r with
    | none => exact safe_raise _ _
    | some y =>
      obtain ⟨rfl,_⟩ := hr.2 y rfl
      refine Contract.safe_bind (safe_refuse _ _) ?_
      intro _ t1 _ ht1
      exact safe_return _ fun u hu _ => (hr.1.trans ht1.1).trans hu
  | claim | slot => exact safe_raise _ _

/-! ### Slots -/

/-- A reserved claim is reconciled: its call id ends up bound to it, or the call raises. -/
theorem safe_validateOrReconcile (claim : Claim Body) (hres : Reserved claim s) :
    Safe request strict l
      (fun _ u => Grows s u ∧
        u.bindings.get? (.call claim.call.callId) = some (.claim claim))
      (validateOrReconcileClaimBinding request claim) s := by
  have hresolve : Safe request strict l
      (fun r u => Grows s u ∧
        ∀ v, r = some v → u.bindings.get? (.call claim.call.callId) = some v)
      (resolveOrBind claim) s := by
    refine Contract.safe_bind (safe_resolve _) ?_
    intro r t _ hr
    cases r with
    | some bound =>
      exact safe_return _ fun u hu _ => ⟨hr.1.trans hu, fun v hv =>
        hu.bindings _ _ (hr.2 v hv)⟩
    | none =>
      refine Contract.safe_bind (safe_bindKey _ _ ?_) ?_
      · intro u hu hinv _ hfree
        exact hinv.bindCall claim hfree (hres.grows (hr.1.trans hu))
      · intro _ t1 _ ht1
        exact Contract.safe_mono (safe_resolve _) fun v u _ hq =>
          ⟨(hr.1.trans ht1.1).trans hq.1, hq.2⟩
  refine Contract.safe_bind hresolve ?_
  intro r t _ hr
  cases r with
  | none => exact safe_raise _ _
  | some bound =>
    refine Contract.safe_bind (safe_loadClaim bound) ?_
    intro c t1 _ ht1
    refine Contract.safe_mono (safe_refuse _ _) ?_
    intro _ u _ hu
    have hc : c = claim := not_not.mp hu.2
    refine ⟨(hr.1.trans ht1.1).trans hu.1, ?_⟩
    rw [← hc, ← ht1.2.1, hc]
    exact (ht1.1.trans hu.1).bindings _ _ (hr.2 bound rfl)

theorem safe_resolveSlots (count ordinal : Nat) :
    Safe request strict l
      (fun refs u => Grows s u ∧ ∀ (i : Nat) (v : IssuedObject Body Payload),
        refs[i]? = some (some v) → u.bindings.get? (.slot (ordinal + i)) = some v)
      (resolveSlots count ordinal) s := by
  induction count generalizing ordinal s with
  | zero => exact safe_return _ fun u hu _ => ⟨hu, fun i v hv => by simp at hv⟩
  | succ count ih =>
    refine Contract.safe_bind (safe_resolve _) ?_
    intro ref t _ hr
    refine Contract.safe_bind (ih (ordinal + 1)) ?_
    intro rest t1 _ ht1
    refine safe_return _ fun u hu _ => ⟨(hr.1.trans ht1.1).trans hu, fun i v hv => ?_⟩
    cases i with
    | zero =>
      rw [List.getElem?_cons_zero, Option.some.injEq] at hv
      exact (ht1.1.trans hu).bindings _ _ (hr.2 v hv)
    | succ i =>
      rw [List.getElem?_cons_succ] at hv
      have hb := hu.bindings _ _ (ht1.2 i v hv)
      rwa [show ordinal + (i + 1) = ordinal + 1 + i by omega]

omit [DecidableEq Body] [DecidableEq Payload] [ToolIdentity] in
theorem getElem?_beforeGap (refs : List (Option (IssuedObject Body Payload)))
    (bound : List (IssuedObject Body Payload)) (h : beforeGap refs = .ok bound) (i : Nat)
    (v : IssuedObject Body Payload) (hv : bound[i]? = some v) : refs[i]? = some (some v) := by
  induction refs generalizing bound i with
  | nil =>
    cases h
    simp at hv
  | cons ref rest ih =>
    cases ref with
    | none =>
      simp only [beforeGap, raiseIf_bind_eq_ok] at h
      cases h.2
      simp at hv
    | some ref =>
      simp only [beforeGap, bind_eq_ok] at h
      obtain ⟨refs,hrefs,hb⟩ := h
      cases hb
      cases i with
      | zero => simpa using hv
      | succ i => exact ih refs hrefs i (by simpa using hv)

theorem safe_loadSlots (refs : List (IssuedObject Body Payload)) (ordinal : Nat)
    (seenClaims : List (Claim Body))
    (hrefs : ∀ (i : Nat) (v : IssuedObject Body Payload), refs[i]? = some v →
      s.bindings.get? (.slot (ordinal + i)) = some v) :
    Safe request strict l
      (fun slots u => Grows s u ∧ ∀ (i : Nat) (slot : Slot Body), slots[i]? = some slot →
        u.bindings.get? (.slot (ordinal + i)) = some (.slot slot))
      (loadSlots request ordinal seenClaims refs) s := by
  induction refs generalizing ordinal seenClaims s with
  | nil => exact safe_return _ fun u hu _ => ⟨hu, fun i v hv => by simp at hv⟩
  | cons ref rest ih =>
    refine Contract.safe_bind (safe_loadSlot ref ordinal) ?_
    intro slot t _ ht
    refine Contract.safe_bind (safe_refuse _ _) ?_
    intro _ t1 _ ht1
    have hst : Grows s t1 := ht.1.trans ht1.1
    refine Contract.safe_bind (ih (ordinal + 1) (slot.claim :: seenClaims) ?_) ?_
    · intro i v hv
      have hb := hst.bindings _ _ (hrefs (i + 1) v (by simpa using hv))
      rwa [show ordinal + 1 + i = ordinal + (i + 1) by omega]
    · intro slots t2 _ ht2
      refine safe_return _ fun u hu _ => ⟨(hst.trans ht2.1).trans hu, fun i a ha => ?_⟩
      cases i with
      | zero =>
        rw [List.getElem?_cons_zero, Option.some.injEq] at ha
        have hb := hrefs 0 ref (by simp)
        rw [ht.2, ha] at hb
        exact ((hst.trans ht2.1).trans hu).bindings _ _ hb
      | succ i =>
        rw [List.getElem?_cons_succ] at ha
        have hb := hu.bindings _ _ (ht2.2 i a ha)
        rwa [show ordinal + (i + 1) = ordinal + 1 + i by omega]

theorem safe_reconcileSlots (slots : List (Slot Body))
    (hres : ∀ slot ∈ slots, Reserved slot.claim s) :
    Safe request strict l
      (fun _ u => Grows s u ∧ ∀ slot ∈ slots,
        u.bindings.get? (.call slot.claim.call.callId) = some (.claim slot.claim))
      (reconcileSlots request slots) s := by
  induction slots generalizing s with
  | nil => exact safe_return _ fun u hu _ => ⟨hu, by simp⟩
  | cons slot rest ih =>
    refine Contract.safe_bind (safe_validateOrReconcile slot.claim
      (hres slot List.mem_cons_self)) ?_
    intro _ t _ ht
    refine Contract.safe_mono (ih fun a ha =>
      (hres a (List.mem_cons_of_mem slot ha)).grows ht.1) ?_
    intro _ u _ hu
    refine ⟨ht.1.trans hu.1, fun a ha => ?_⟩
    cases List.mem_cons.mp ha with
    | inl he => exact he ▸ hu.1.bindings _ _ ht.2
    | inr hm => exact hu.2 a hm

theorem safe_readSlots :
    Safe request strict l (fun slots u => Grows s u ∧ Scanned slots u)
      (readSlots request) s := by
  refine Contract.safe_bind (safe_resolve _) ?_
  intro overflow t _ ht
  refine Contract.safe_bind (safe_refuse _ _) ?_
  intro _ t1 _ ht1
  refine Contract.safe_bind (safe_resolveSlots request.limit 0) ?_
  intro refs t2 _ ht2
  refine Contract.safe_bind (Contract.safe_ofExcept (beforeGap refs) t2
    (Q := fun bound u => Grows t2 u ∧ beforeGap refs = .ok bound)
    fun bound hb u hu _ => ⟨hu, hb⟩) ?_
  intro bound t3 _ ht3
  have hbound : ∀ (i : Nat) (v : IssuedObject Body Payload), bound[i]? = some v →
      t3.bindings.get? (.slot (0 + i)) = some v := by
    intro i v hv
    exact ht3.1.bindings _ _ (ht2.2 i v (getElem?_beforeGap refs bound ht3.2 i v hv))
  refine Contract.safe_bind (safe_loadSlots bound 0 [] hbound) ?_
  intro slots t4 _ ht4
  have hslots : ∀ (i : Nat) (slot : Slot Body), slots[i]? = some slot →
      t4.bindings.get? (.slot i) = some (.slot slot) := by
    intro i slot hslot
    have hb := ht4.2 i slot hslot
    rwa [Nat.zero_add] at hb
  refine Contract.safe_bind (safe_reconcileSlots slots ?_) ?_
  · intro slot hslot
    obtain ⟨i,hi⟩ := List.getElem?_of_mem hslot
    exact ⟨i, slot, hslots i slot hi, rfl⟩
  · intro _ t5 _ ht5
    have hst : Grows s t5 :=
      ((((ht.1.trans ht1.1).trans ht2.1).trans ht3.1).trans ht4.1).trans ht5.1
    refine safe_return _ fun u hu _ => ⟨hst.trans hu, ?_, ?_⟩
    · exact fun i slot hslot => (ht5.1.trans hu).bindings _ _ (hslots i slot hslot)
    · exact fun slot hslot => hu.bindings _ _ (ht5.2 slot hslot)

/-- A claim is reserved at the first ordinal a scan found free, or found reserved. -/
theorem safe_reserve (claim : Claim Body) (fuel : Nat) (hclaim : .claim claim ∈ s.objects) :
    Safe request strict l (fun _ u => Grows s u ∧ Reserved claim u)
      (reserve request claim fuel) s := by
  induction fuel generalizing s with
  | zero => exact safe_raise _ _
  | succ fuel ih =>
    refine Contract.safe_bind safe_readSlots ?_
    intro slots t _ ht
    split
    · rename_i slot hfilter
      have hmem : slot ∈ slots.filter fun slot => slot.claim = claim := by simp [hfilter]
      rw [List.mem_filter, decide_eq_true_eq] at hmem
      obtain ⟨i,hi⟩ := List.getElem?_of_mem hmem.1
      have hres : Reserved claim t := ⟨i, slot, ht.2.bound i slot hi, hmem.2⟩
      exact safe_return _ fun u hu _ => ⟨ht.1.trans hu, hres.grows hu⟩
    · exact safe_raise _ _
    · rename_i hfilter
      have hnew : ∀ a ∈ slots, a.claim ≠ claim := by
        intro a ha
        have hnot := List.filter_eq_nil_iff.mp hfilter a ha
        simpa using hnot
      refine Contract.safe_bind (safe_refuse _ _) ?_
      intro _ t1 _ ht1
      split
      · rename_i hvalid
        refine Contract.safe_bind (safe_put _) ?_
        intro _ t2 _ ht2
        have hst : Grows s t2 := (ht.1.trans ht1.1).trans ht2.1
        have hscan : Scanned slots t2 := ht.2.grows (ht1.1.trans ht2.1)
        refine Contract.safe_bind (safe_bindKey _ _ ?_) ?_
        · intro u hu hinv hal hfree
          exact hinv.bindSlot slots ⟨request, slots.length, claim, hvalid⟩ (hscan.grows hu) rfl
            rfl (Nat.lt_of_not_le ht1.2) hnew hfree (hu.objects _ ht2.2)
            ((hst.trans hu).objects _ hclaim) fun hs => (hal hs).claim_eq hfree
        · intro won t3 _ ht3
          have hst3 : Grows s t3 := hst.trans ht3.1
          cases won with
          | true =>
            refine Contract.safe_bind (safe_resolve _) ?_
            intro bound t4 _ ht4
            refine Contract.safe_bind (safe_refuse _ _) ?_
            intro _ t5 _ ht5
            refine safe_return _ fun u hu _ => ?_
            have htu : Grows t3 u := (ht4.1.trans ht5.1).trans hu
            exact ⟨hst3.trans htu, slots.length, _, htu.bindings _ _ (ht3.2 rfl), rfl⟩
          | false =>
            refine Contract.safe_mono (ih (hst3.objects _ hclaim)) ?_
            exact fun _ u _ hu => ⟨hst3.trans hu.1, hu.2⟩
      · exact safe_raise _ _

theorem safe_claimAndReserve (call : ToolCall) :
    Safe request strict l (fun _ u => Grows s u) (claimAndReserve request call) s := by
  have hclaim : Safe request strict l
      (fun c u => Grows s u ∧ .claim c ∈ u.objects) (claimReference request call) s := by
    refine Contract.safe_bind (safe_put _) ?_
    intro _ t _ ht
    exact safe_return _ fun u hu _ => ⟨ht.1.trans hu, hu.objects _ ht.2⟩
  refine Contract.safe_bind hclaim ?_
  intro requested t _ ht
  refine Contract.safe_bind (safe_resolve _) ?_
  intro existing t1 _ ht1
  have hst : Grows s t1 := ht.1.trans ht1.1
  cases existing with
  | some existingRef =>
    refine Contract.safe_bind (safe_loadClaim existingRef) ?_
    intro c t2 _ ht2
    refine Contract.safe_bind (safe_refuse _ _) ?_
    intro _ t3 _ ht3
    have hmem : .claim c ∈ t3.objects := ht3.1.objects _ (ht2.2.1 ▸ ht2.2.2.2)
    refine Contract.safe_bind (safe_reserve c (request.limit + 1) hmem) ?_
    intro _ t4 _ ht4
    exact safe_return _ fun u hu _ => (((hst.trans ht2.1).trans ht3.1).trans ht4.1).trans hu
  | none =>
    refine Contract.safe_bind (safe_reserve requested (request.limit + 1)
      (ht1.1.objects _ ht.2)) ?_
    intro _ t2 _ ht2
    refine Contract.safe_bind (safe_validateOrReconcile requested ht2.2) ?_
    intro _ t3 _ ht3
    exact safe_return _ fun u hu _ => ((hst.trans ht2.1).trans ht3.1).trans hu

/-! ### Terminals and calls -/

theorem safe_terminalForClaim (claim : Claim Body) :
    Safe request strict l (fun _ u => Grows s u) (terminalForClaim claim) s := by
  refine Contract.safe_bind (safe_resolve _) ?_
  intro r t _ ht
  cases r with
  | none => exact safe_return _ fun u hu _ => ht.1.trans hu
  | some ref =>
    refine Contract.safe_bind (safe_loadTerminal ref claim) ?_
    intro _ t1 _ ht1
    exact safe_return _ fun u hu _ => (ht.1.trans ht1).trans hu

theorem safe_authoritativeTerminal (terminal : IssuedToolCallTerminal Body Payload) :
    Safe request strict l (fun _ u => Grows s u) (authoritativeTerminal terminal) s := by
  refine Contract.safe_bind (safe_local (.toolStoreGet _) rfl) ?_
  intro found t _ ht
  refine Contract.safe_bind (safe_fromToolStore found) ?_
  intro r t0 _ ht0
  cases r with
  | none => exact safe_raise _ _
  | some entry =>
    refine Contract.safe_bind (safe_local (.loadTerminalResult entry) rfl) ?_
    intro loaded t1 _ ht1
    refine Contract.safe_bind (safe_fromToolStore loaded) ?_
    intro result t2 _ ht2
    refine Contract.safe_bind (safe_refuse _ _) ?_
    intro _ t3 _ ht3
    exact safe_return _ fun u hu _ =>
      ((((ht.trans ht0).trans ht1).trans ht2).trans ht3.1).trans hu

theorem safe_bindTerminal (claim : Claim Body) (terminal : IssuedToolCallTerminal Body Payload)
    (hterminal : terminal.claim = claim) :
    Safe request strict l (fun _ u => Grows s u) (bindTerminal claim terminal) s := by
  subst hterminal
  refine Contract.safe_bind (safe_put _) ?_
  intro _ t _ ht
  refine Contract.safe_bind (safe_bindKey _ _ ?_) ?_
  · intro u hu hinv _ hfree
    exact hinv.bindTerminal terminal hfree (hu.objects _ ht.2)
  · intro won t1 _ ht1
    cases won with
    | true => exact safe_return _ fun u hu _ => (ht.1.trans ht1.1).trans hu
    | false =>
      refine Contract.safe_bind (safe_resolve _) ?_
      intro r t2 _ ht2
      cases r with
      | none => exact safe_raise _ _
      | some ref =>
        refine Contract.safe_bind (safe_loadTerminal ref terminal.claim) ?_
        intro _ t3 _ ht3
        refine Contract.safe_mono (safe_refuse _ _) fun _ u _ hu => ?_
        exact (((ht.1.trans ht1.1).trans ht2.1).trans ht3).trans hu.1

theorem safe_recordTerminal (claim : Claim Body) (result : ToolResult Payload) :
    Safe request strict l (fun _ u => Grows s u) (recordTerminal claim result) s := by
  unfold recordTerminal
  split
  · refine Contract.safe_bind (safe_local (.persistResult result) rfl) ?_
    intro answer t _ ht
    refine Contract.safe_bind (safe_fromToolStore answer) ?_
    intro persisted t1 _ ht1
    refine Contract.safe_bind (safe_refuse _ _) ?_
    intro _ t2 _ ht2
    refine Contract.safe_bind (safe_local (.toolStoreGet claim.call) rfl) ?_
    intro found t3 _ ht3
    refine Contract.safe_bind (safe_fromToolStore found) ?_
    intro r t3' _ ht3'
    cases r with
    | none => exact safe_raise _ _
    | some entry =>
      refine Contract.safe_bind (safe_local (.loadTerminalResult entry) rfl) ?_
      intro loaded t4 _ ht4
      refine Contract.safe_bind (safe_fromToolStore loaded) ?_
      intro authoritative t5 _ ht5
      refine Contract.safe_bind (safe_refuse _ _) ?_
      intro _ t6 _ ht6
      refine Contract.safe_bind (safe_bindTerminal claim _ rfl) ?_
      intro _ t7 _ ht7
      have hst : Grows s t7 := (((((((ht.trans ht1).trans ht2.1).trans ht3).trans ht3').trans
        ht4).trans ht5).trans ht6.1).trans ht7
      refine Contract.safe_bind (safe_resolve _) ?_
      intro bound t8 _ ht8
      cases bound with
      | none => exact safe_raise _ _
      | some ref =>
        refine Contract.safe_bind (safe_loadTerminal ref claim) ?_
        intro _ t9 _ ht9
        refine Contract.safe_bind (safe_refuse _ _) ?_
        intro _ t10 _ ht10
        exact safe_return _ fun u hu _ => (((hst.trans ht8.1).trans ht9).trans ht10.1).trans hu
  · exact safe_raise _ _

theorem safe_issuedClaim (ledger : Nat) (call : ToolCall) :
    Safe request strict l (fun _ u => Grows s u) (issuedClaim request ledger call) s := by
  refine Contract.safe_bind (safe_replaySlot ledger) ?_
  intro r t _ ht
  cases r with
  | none =>
    exact Contract.safe_mono (safe_claimAndReserve call) fun _ u _ hu => ht.1.trans hu
  | some expected =>
    dsimp only
    split
    · split
      · exact safe_raise _ _
      · exact safe_raise _ _
    · refine Contract.safe_bind (safe_validateOrReconcile expected.claim (ht.2 expected rfl)) ?_
      intro _ t1 _ ht1
      refine Contract.safe_bind (safe_local (.advance ledger) rfl) ?_
      intro _ t2 _ ht2
      exact safe_return _ fun u hu _ => ((ht.1.trans ht1.1).trans ht2).trans hu

theorem safe_lookupCall (ledger : Nat) (call : ToolCall) :
    Safe request strict l (fun _ u => Grows s u) (lookupCall request ledger call) s := by
  refine Contract.safe_bind (safe_issuedClaim ledger call) ?_
  intro claim t _ ht
  refine Contract.safe_bind (safe_terminalForClaim claim) ?_
  intro _ t1 _ ht1
  exact safe_return _ fun u hu _ => (ht.trans ht1).trans hu

theorem safe_finishCall (claim : Claim Body) (call : ToolCall) :
    Safe request strict l (fun _ u => Grows s u) (finishCall claim call) s := by
  have hexecuted : ∀ t : IssuedStore Body Payload, Grows s t →
      Safe request strict l (fun _ u => Grows s u) (finishCall.executed claim call) t := by
    intro t ht
    refine Contract.safe_bind (safe_local (.execute call) rfl) ?_
    intro answer t1 _ ht1
    refine Contract.safe_bind (safe_fromToolStore answer) ?_
    intro result t2 _ ht2
    exact Contract.safe_mono (safe_recordTerminal claim result) fun _ u _ hu =>
      ((ht.trans ht1).trans ht2).trans hu
  refine Contract.safe_bind (safe_local (.toolStoreGet call) rfl) ?_
  intro found t _ ht
  refine Contract.safe_bind (safe_fromToolStore found) ?_
  intro r t0 _ ht0
  cases r with
  | none => exact hexecuted t0 (ht.trans ht0)
  | some entry =>
    cases hstate : terminalState entry with
    | false => simpa [hstate] using hexecuted t0 (ht.trans ht0)
    | true =>
      simp only [hstate, if_true]
      refine Contract.safe_bind (safe_local (.loadTerminalResult entry) rfl) ?_
      intro loaded t1 _ ht1
      refine Contract.safe_bind (safe_fromToolStore loaded) ?_
      intro result t2 _ ht2
      exact Contract.safe_mono (safe_recordTerminal claim result) fun _ u _ hu =>
        (((ht.trans ht0).trans ht1).trans ht2).trans hu

theorem safe_withCleanup {α : Type} (p : IssuedProg Body Payload α)
    (cleanup : IssuedProg Body Payload Unit)
    (hp : Safe request strict l (fun _ _ => True) p s)
    (hcleanup : ∀ t : IssuedStore Body Payload, Safe request strict l (fun _ _ => True) cleanup t) :
    Safe request strict l (fun _ _ => True) (withCleanup p cleanup) s := by
  refine Contract.safe_bind (Contract.safe_handle hp fun error t => ?_) ?_
  · exact Contract.safe_bind (hcleanup t) fun _ _ _ _ => safe_raise _ _
  · intro a t _ _
    exact Contract.safe_bind (hcleanup t) fun _ _ _ _ => safe_return _ fun _ _ _ => trivial

/- Only a ledger's own fields and the Tool Call Store are touched. -/
theorem safe_local_true (o : IssuedOp Body Payload) (ho : o.isLocal = true) :
    Safe request strict l (fun _ _ => True) (perform o) s :=
  Contract.safe_mono (safe_local o ho) fun _ _ _ _ => trivial

theorem safe_issue (ledger : Nat) (call : ToolCall) :
    Safe request strict l (fun _ _ => True) (issue request ledger call) s := by
  refine Contract.safe_bind (safe_local_true (.acquire ledger) rfl) ?_
  intro _ t _ _
  refine Contract.safe_bind (safe_local_true (.enter ledger call.callId) rfl) ?_
  intro entered t1 _ _
  cases entered with
  | false =>
    refine Contract.safe_bind (safe_local_true (.release ledger) rfl) ?_
    exact fun _ _ _ _ => safe_raise _ _
  | true =>
    have hlookup : Safe request strict l (fun _ _ => True) (lookupCall request ledger call) t1 :=
      Contract.safe_mono (safe_lookupCall ledger call) fun _ _ _ _ => trivial
    refine Contract.safe_bind (Contract.safe_handle hlookup fun error t2 => ?_) ?_
    · refine Contract.safe_bind (safe_local_true (.leave ledger call.callId) rfl) ?_
      intro _ t3 _ _
      refine Contract.safe_bind (safe_local_true (.release ledger) rfl) ?_
      exact fun _ _ _ _ => safe_raise _ _
    · intro found t2 _ _
      refine Contract.safe_bind (safe_local_true (.release ledger) rfl) ?_
      intro _ t3 _ _
      refine safe_withCleanup _ _ ?_ ?_
      · cases found.2 with
        | none => exact Contract.safe_mono (safe_finishCall found.1 call) fun _ _ _ _ => trivial
        | some terminal =>
          refine Contract.safe_bind (safe_authoritativeTerminal terminal) ?_
          exact fun _ _ _ _ => safe_return _ fun _ _ _ => trivial
      · intro t4
        refine Contract.safe_bind (safe_local_true (.acquire ledger) rfl) ?_
        intro _ t5 _ _
        refine Contract.safe_bind (safe_local_true (.leave ledger call.callId) rfl) ?_
        intro _ t6 _ _
        exact safe_local_true (.release ledger) rfl

theorem safe_evidenceFrom (seenClaims : List (Claim Body)) (slots : List (Slot Body)) :
    Safe request strict l (fun _ _ => True)
      (evidenceFrom seenClaims slots : IssuedProg Body Payload _) s := by
  induction slots generalizing seenClaims s with
  | nil => exact safe_return _ fun _ _ _ => trivial
  | cons slot rest ih =>
    refine Contract.safe_bind (safe_refuse _ _) ?_
    intro _ t _ _
    refine Contract.safe_bind (safe_terminalForClaim slot.claim) ?_
    intro r t1 _ _
    cases r with
    | none => exact safe_raise _ _
    | some terminal =>
      refine Contract.safe_bind (safe_authoritativeTerminal terminal) ?_
      intro _ t2 _ _
      refine Contract.safe_bind (ih (slot.claim :: seenClaims)) ?_
      exact fun _ _ _ _ => safe_return _ fun _ _ _ => trivial

theorem safe_caller (ledger : Nat) (calls : List LedgerCall) :
    Safe request strict l (fun _ _ => True) (caller request ledger calls) s := by
  induction calls generalizing s with
  | nil => exact safe_return _ fun _ _ _ => trivial
  | cons call rest ih =>
    have hcall : Safe request strict l (fun _ _ => True) (ledgerCall request ledger call) s := by
      cases call with
      | issue call =>
        refine Contract.safe_bind (safe_issue ledger call) ?_
        exact fun _ _ _ _ => safe_return _ fun _ _ _ => trivial
      | evidence =>
        refine Contract.safe_bind (Contract.safe_bind safe_readSlots fun slots t _ _ =>
          safe_evidenceFrom [] slots) ?_
        exact fun _ _ _ _ => safe_return _ fun _ _ _ => trivial
    refine Contract.safe_bind (Contract.safe_handle hcall fun error t => ?_) ?_
    · exact safe_return _ fun _ _ _ => trivial
    · exact fun _ _ _ _ => ih

theorem safe_newLedger (ledger : Nat) (threads : List (List LedgerCall)) :
    Safe request strict l (fun _ _ => True) (newLedger request ledger threads) s := by
  refine Contract.safe_bind safe_readSlots ?_
  intro replayPrefix t _ ht
  refine Contract.safe_mono (safe_op (.openLedger ledger threads replayPrefix)
    (fun _ _ => True) ?_ fun _ _ _ _ _ => trivial) fun _ _ _ _ => trivial
  intro u tools r u' hu hinv _ he
  simp only [execute, Option.some.injEq, Prod.mk.injEq] at he
  obtain ⟨_,rfl⟩ := he
  refine ⟨hinv.setLedger ledger _ ?_, ⟨fun _ hx => hx, fun _ _ hv => hv⟩, trivial⟩
  intro slot hslot
  obtain ⟨i,hi⟩ := List.getElem?_of_mem hslot
  exact ⟨i, slot, hu.bindings _ _ (ht.2.bound i slot hi), rfl⟩

/-! ### Pools -/

theorem issued_starts : Contract.Starts
    (issuedContract request strict : Contract IssuedLabel (IssuedStore Body Payload) _)
    (issuedMachine request) where
  compat := fun _ _ _ _ => ⟨trivial, trivial⟩
  safe := by
    intro l s _ _
    cases l with
    | ledger ledger threads => exact safe_newLedger ledger threads
    | caller ledger calls => exact safe_caller ledger calls

theorem sound_startPool (ledgers : List (List (List LedgerCall))) :
    Contract.Sound
      (issuedContract request strict : Contract IssuedLabel (IssuedStore Body Payload) _)
      (issuedMachine request) (startPool request ledgers) where
  inv := ledgerInv_empty request strict
  compat := List.pairwise_of_forall fun _ _ => ⟨trivial, trivial⟩
  safe := by
    intro th hth
    obtain ⟨ledger,_,rfl⟩ := List.mem_map.mp hth
    exact safe_newLedger ledger.2 ledger.1

/-- The store after any run of any number of ledgers. -/
theorem run_ledgerInv (ledgers : List (List (List LedgerCall)))
    (schedule : List (Nat × ToolCallStore Payload))
    (hal : strict → (issuedMachine request).Meets Uncontested (startPool request ledgers)
      schedule) :
    LedgerInv request strict
      ((issuedMachine request).run (startPool request ledgers) schedule).state := by
  refine ((sound_startPool ledgers).run issued_starts schedule ?_).inv
  by_cases hs : strict
  · exact Machine.meets_mono _ (fun l o s h _ => h) _ _ (hal hs)
  · exact Machine.meets_true _ _ (fun l o s h => absurd h hs) _ _

end Safety
end Whetstone.Tools.Issued
