import Whetstone.Tools.IssuedSafety

/-! Integrity of the issued Tool Call ledger: what a fresh ledger finds on the store that any
run of concurrent ledgers leaves, and exactly which runs leave it readable. -/
namespace Whetstone.Tools.Issued
open Whetstone.Lib

section Integrity

variable {Body Payload : Type} [DecidableEq Body] [ToolIdentity]

/- The Tool Call Store has no terminal for a call yet, or disagrees with the ledger about it. -/
def TerminalError (error : IssuedError) : Prop :=
  error = .value "Issued Tool Call has no durable terminal result; adapter recovery is required" ∨
  error = .value "Issued Tool Call terminal has no Tool Call Store entry" ∨
  error = .value "Issued Tool Call ledger and Tool Call Store terminal disagree" ∨
  ∃ message, error = .toolStore message

variable [DecidableEq Payload]

/- A ledger used by nobody else: one thread, one answer of the Tool Call Store. -/
def quietExec (tools : ToolCallStore Payload) (o : IssuedOp Body Payload)
    (s : IssuedStore Body Payload) : Option (o.Reply × IssuedStore Body Payload) :=
  execute (.caller 0 []) o tools s

/-- The durable slots are contiguous from ordinal zero and within the budget, no claim occupies
two of them, no call id names two exact calls, and a fresh ledger reads exactly them; its
evidence raises only for a terminal that is missing or that the Tool Call Store disputes. -/
def LedgerIntegrity (request : OptimStepRequest Body) (s : IssuedStore Body Payload) : Prop :=
  ∃ slots, Occupied s.bindings slots ∧ slots.length ≤ request.limit ∧
    (slots.map (·.claim)).Nodup ∧
    (∀ a ∈ slots, ∀ b ∈ slots, a.claim.call.callId = b.claim.call.callId →
      a.claim.call = b.claim.call) ∧
    ∀ tools : ToolCallStore Payload,
      (∃ u, (readSlots request).alone (quietExec tools) s = some (.ok slots, u)) ∧
      ∃ r u, (evidence request).alone (quietExec tools) s = some (r, u) ∧
        ∀ error, r = .error error → TerminalError error

section Quiet

variable {request : OptimStepRequest Body} {slots : List (Slot Body)}
variable {s : IssuedStore Body Payload} {tools : ToolCallStore Payload}

omit [DecidableEq Payload] [ToolIdentity] in
theorem Occupied.unique {b : Bindings Body Payload} {xs ys : List (Slot Body)}
    (h : Occupied b xs) (h' : Occupied b ys) : xs = ys := by
  apply List.ext_getElem?
  intro n
  have hn := (h n).symm.trans (h' n)
  cases hx : xs[n]? <;> cases hy : ys[n]? <;> simp_all

/-- A store that uncontested ledgers have left, with its slots. -/
structure Settled (request : OptimStepRequest Body) (slots : List (Slot Body))
    (s : IssuedStore Body Payload) : Prop where
  inv : LedgerInv request True s
  occupied : Occupied s.bindings slots

omit [DecidableEq Payload] [ToolIdentity] in
theorem Settled.facts (h : Settled request slots s) : ValidSlots request slots ∧
    (∀ slot ∈ slots, .slot slot ∈ s.objects ∧ .claim slot.claim ∈ s.objects) ∧
    OneCallPerId slots := by
  obtain ⟨xs,hocc,hvalid,hstored,hone⟩ := h.inv.slots
  have hxs : xs = slots := hocc.unique h.occupied
  subst hxs
  exact ⟨hvalid, hstored, hone trivial⟩

omit [DecidableEq Body] [ToolIdentity] [DecidableEq Payload] in
theorem ValidSlots.claim_request (h : ValidSlots request slots) (slot : Slot Body)
    (hslot : slot ∈ slots) : slot.claim.request = request := by
  obtain ⟨n,hn⟩ := List.getElem?_of_mem hslot
  rw [slot.valid]
  exact (h.identity n slot hn).1

theorem ends_perform {α : Type} {Q : α → IssuedStore Body Payload → Prop}
    {E : IssuedError → Prop} (o : IssuedOp Body Payload) (r : o.Reply)
    (t : IssuedStore Body Payload) (f : o.Reply → IssuedProg Body Payload α)
    (ho : quietExec tools o s = some (r, t)) (hf : (f r).Ends (quietExec tools) Q E t) :
    ((perform o).bind f).Ends (quietExec tools) Q E s := ⟨r, t, ho, hf⟩

theorem ends_get {α : Type} {Q : α → IssuedStore Body Payload → Prop} {E : IssuedError → Prop}
    (ref : IssuedObject Body Payload)
    (f : Option (IssuedObject Body Payload) → IssuedProg Body Payload α)
    (hmem : ref ∈ s.objects) (hf : (f (some ref)).Ends (quietExec tools) Q E s) :
    ((perform (.get ref)).bind f).Ends (quietExec tools) Q E s := by
  refine ends_perform (.get ref) (some ref) s f ?_ hf
  rw [quietExec, execute, if_pos hmem]

theorem ends_refuse {Q : Unit → IssuedStore Body Payload → Prop} {E : IssuedError → Prop}
    (bad : Prop) [Decidable bad] (error : IssuedError) (hbad : ¬ bad) (hQ : Q () s) :
    (refuse bad error).Ends (quietExec tools) Q E s := by
  rw [refuse, raiseIf_neg bad error hbad]
  exact hQ

theorem ends_loadClaim (claim : Claim Body) (hreq : claim.request = request)
    (hmem : .claim claim ∈ s.objects) (E : IssuedError → Prop) :
    (loadClaim request (.claim claim)).Ends (quietExec tools)
      (fun c u => c = claim ∧ u = s) E s := by
  refine ends_get _ _ hmem ?_
  refine Prog.ends_bind (Q := fun _ u => u = s) (ends_refuse _ _ (not_not.mpr hreq) rfl) ?_
  intro _ u hu
  exact ⟨rfl, hu⟩

/-- Reconciling a settled slot succeeds: its call id is bound to its claim, or is free. -/
theorem ends_validateOrReconcile (h : Settled request slots s) (slot : Slot Body)
    (hslot : slot ∈ slots) (E : IssuedError → Prop) :
    (validateOrReconcileClaimBinding request slot.claim).Ends (quietExec tools)
      (fun _ u => Settled request slots u ∧
        u.bindings.get? (.call slot.claim.call.callId) = some (.claim slot.claim)) E s := by
  obtain ⟨hvalid,hstored,hone⟩ := h.facts
  have hreq := hvalid.claim_request slot hslot
  obtain ⟨n,hn⟩ := List.getElem?_of_mem hslot
  have hres : Reserved slot.claim s := ⟨n, slot, (h.occupied.get_iff n slot).mpr hn, rfl⟩
  have hbound : (resolveOrBind slot.claim).Ends (quietExec tools)
      (fun r u => r = some (.claim slot.claim) ∧ r = u.bindings.get? (.call slot.claim.call.callId) ∧
        Settled request slots u ∧ .claim slot.claim ∈ u.objects) E s := by
    refine ends_perform (.resolve (.call slot.claim.call.callId)) _ s _ rfl ?_
    cases hcall : s.bindings.get? (.call slot.claim.call.callId) with
    | some v =>
      obtain ⟨c,rfl,hid,m,a,ha,rfl⟩ := h.inv.calls _ v hcall
      have ham := List.mem_of_getElem? ((h.occupied.get_iff m a).mp ha)
      refine ⟨?_, hcall.symm, h, (hstored slot hslot).2⟩
      rw [hone a ham slot hslot hid]
    | none =>
      have hset := h.inv.bindCall slot.claim hcall hres
      refine ends_perform (.bind (.call slot.claim.call.callId) (.claim slot.claim)) true
        { s with bindings := s.bindings.set (.call slot.claim.call.callId) (.claim slot.claim) }
        _ ?_ ?_
      · simp only [quietExec, execute, IssuedStore.bind, hcall]
      · refine ⟨some (.claim slot.claim), _, ?_, rfl, (Dict.get?_set_self _ _ _).symm,
          ⟨hset, h.occupied.set_other _ _ (by simp)⟩, (hstored slot hslot).2⟩
        simp only [quietExec, execute, Dict.get?_set_self]
  refine Prog.ends_bind hbound ?_
  intro r u hr
  obtain ⟨rfl,hid,hset,hmem⟩ := hr
  refine Prog.ends_bind (ends_loadClaim slot.claim hreq hmem E) ?_
  intro c t hc
  obtain ⟨rfl,rfl⟩ := hc
  exact ends_refuse _ _ (not_not.mpr rfl) ⟨hset, hid.symm⟩

theorem ends_reconcileSlots (rest : List (Slot Body)) (hrest : ∀ slot ∈ rest, slot ∈ slots)
    (h : Settled request slots s) (E : IssuedError → Prop) :
    (reconcileSlots request rest).Ends (quietExec tools) (fun _ u => Settled request slots u)
      E s := by
  induction rest generalizing s with
  | nil => exact h
  | cons slot rest ih =>
    refine Prog.ends_bind (ends_validateOrReconcile h slot (hrest slot List.mem_cons_self) E) ?_
    intro _ u hu
    exact ih (fun a ha => hrest a (List.mem_cons_of_mem slot ha)) hu.1

theorem ends_resolveSlots (h : Occupied s.bindings slots) (count ordinal : Nat)
    (E : IssuedError → Prop) :
    (resolveSlots count ordinal).Ends (quietExec tools)
      (fun refs u => refs = (List.range' ordinal count).map (fun n => (slots[n]?).map .slot) ∧
        u = s) E s := by
  induction count generalizing ordinal with
  | zero => exact ⟨rfl, rfl⟩
  | succ count ih =>
    refine ends_perform (.resolve (.slot ordinal)) _ s _ rfl ?_
    refine Prog.ends_bind (ih (ordinal + 1)) ?_
    intro rest u hrest
    obtain ⟨rfl,rfl⟩ := hrest
    refine ⟨?_, rfl⟩
    rw [List.range'_succ, List.map_cons, h ordinal]

omit [DecidableEq Body] [DecidableEq Payload] [ToolIdentity] in
theorem beforeGap_slots (count ordinal : Nat) (hlen : slots.length ≤ ordinal + count) :
    (beforeGap ((List.range' ordinal count).map fun n => (slots[n]?).map .slot) :
      Except IssuedError (List (IssuedObject Body Payload))) =
      .ok ((slots.drop ordinal).map .slot) := by
  induction count generalizing ordinal with
  | zero =>
    have hdrop : slots.drop ordinal = [] := List.drop_eq_nil_of_le (by omega)
    rw [hdrop]
    rfl
  | succ count ih =>
    rw [List.range'_succ, List.map_cons]
    by_cases hlt : ordinal < slots.length
    · rw [List.getElem?_eq_getElem hlt, List.drop_eq_getElem_cons hlt]
      simp only [Option.map_some, beforeGap, ih (ordinal + 1) (by omega)]
      rfl
    · rw [List.getElem?_eq_none (by omega), List.drop_eq_nil_of_le (by omega)]
      have hrest : ((List.range' (ordinal + 1) count).map fun n =>
          ((slots[n]?).map .slot : Option (IssuedObject Body Payload))).any Option.isSome
          = false := by
        rw [List.any_eq_false]
        intro x hx
        obtain ⟨n,hn,rfl⟩ := List.mem_map.mp hx
        have hle := (List.mem_range'_1.mp hn).1
        rw [List.getElem?_eq_none (by omega)]
        simp
      rw [Option.map_none, beforeGap, hrest]
      rfl

theorem ends_loadSlot (ordinal : Nat) (slot : Slot Body) (hreq : slot.request = request)
    (hord : slot.ordinal = ordinal) (hslot : .slot slot ∈ s.objects)
    (hclaim : .claim slot.claim ∈ s.objects) (E : IssuedError → Prop) :
    (loadSlot request (.slot slot) ordinal).Ends (quietExec tools)
      (fun a u => a = slot ∧ u = s) E s := by
  refine ends_get _ _ hslot ?_
  refine Prog.ends_bind (Q := fun _ u => u = s) (ends_refuse _ _ ?_ rfl) ?_
  · rw [not_or, not_not, not_not]
    exact ⟨hreq, hord⟩
  · intro _ u hu
    subst hu
    refine Prog.ends_bind (ends_loadClaim slot.claim (slot.valid.trans hreq) hclaim E) ?_
    intro c t hc
    obtain ⟨rfl,rfl⟩ := hc
    refine Prog.ends_bind (Q := fun _ u => u = t) (ends_refuse _ _ (not_not.mpr rfl) rfl) ?_
    intro _ u hu
    exact ⟨rfl, hu⟩

theorem ends_loadSlots (rest : List (Slot Body)) (ordinal : Nat) (seenClaims : List (Claim Body))
    (hid : ∀ (i : Nat) (slot : Slot Body), rest[i]? = some slot →
      slot.request = request ∧ slot.ordinal = ordinal + i)
    (hstored : ∀ slot ∈ rest, .slot slot ∈ s.objects ∧ .claim slot.claim ∈ s.objects)
    (hnodup : (rest.map (·.claim)).Nodup)
    (hseen : ∀ slot ∈ rest, slot.claim ∉ seenClaims) (E : IssuedError → Prop) :
    (loadSlots request ordinal seenClaims (rest.map .slot)).Ends (quietExec tools)
      (fun out u => out = rest ∧ u = s) E s := by
  induction rest generalizing ordinal seenClaims with
  | nil => exact ⟨rfl, rfl⟩
  | cons slot rest ih =>
    obtain ⟨hreq,hord⟩ := hid 0 slot rfl
    obtain ⟨hs,hc⟩ := hstored slot List.mem_cons_self
    rw [List.map_cons, List.nodup_cons] at hnodup
    refine Prog.ends_bind (ends_loadSlot ordinal slot hreq hord hs hc E) ?_
    intro a u ha
    obtain ⟨rfl,rfl⟩ := ha
    refine Prog.ends_bind (Q := fun _ t => t = u)
      (ends_refuse _ _ (hseen a List.mem_cons_self) rfl) ?_
    intro _ t ht
    subst ht
    refine Prog.ends_bind (ih (ordinal + 1) (a.claim :: seenClaims) ?_ ?_ hnodup.2 ?_) ?_
    · intro i b hb
      obtain ⟨h1,h2⟩ := hid (i + 1) b (by simpa using hb)
      exact ⟨h1, by omega⟩
    · exact fun b hb => hstored b (List.mem_cons_of_mem a hb)
    · intro b hb
      rw [List.mem_cons, not_or]
      refine ⟨fun he => hnodup.1 ?_, hseen b (List.mem_cons_of_mem a hb)⟩
      exact he ▸ List.mem_map_of_mem hb
    · intro out v hout
      obtain ⟨rfl,rfl⟩ := hout
      exact ⟨rfl, rfl⟩

/-- A fresh ledger reads exactly the settled slots. -/
theorem ends_readSlots (h : Settled request slots s) (E : IssuedError → Prop) :
    (readSlots request).Ends (quietExec tools)
      (fun out u => out = slots ∧ Settled request slots u) E s := by
  obtain ⟨hvalid,hstored,_⟩ := h.facts
  have hoverflow : s.bindings.get? (.slot request.limit) = none :=
    (h.occupied.none_iff _).mpr hvalid.bounded
  refine ends_perform (.resolve (.slot request.limit)) _ s _ rfl ?_
  rw [hoverflow]
  refine Prog.ends_bind (Q := fun _ u => u = s) (ends_refuse _ _ (by simp) rfl) ?_
  intro _ u hu
  subst hu
  refine Prog.ends_bind (ends_resolveSlots h.occupied request.limit 0 E) ?_
  intro refs t hrefs
  obtain ⟨rfl,rfl⟩ := hrefs
  have hlen : slots.length ≤ 0 + request.limit := by
    rw [Nat.zero_add]
    exact hvalid.bounded
  have hgap : (beforeGap ((List.range' 0 request.limit).map fun n => (slots[n]?).map .slot) :
      Except IssuedError (List (IssuedObject Body Payload))) =
      .ok ((slots.drop 0).map .slot) := beforeGap_slots request.limit 0 hlen
  rw [hgap, List.drop_zero]
  refine Prog.ends_bind (Q := fun bound v => bound = slots.map .slot ∧ v = t) ⟨rfl, rfl⟩ ?_
  intro bound v hv
  obtain ⟨rfl,rfl⟩ := hv
  refine Prog.ends_bind (ends_loadSlots slots 0 [] ?_ hstored hvalid.distinct ?_ E) ?_
  · intro i slot hslot
    rw [Nat.zero_add]
    exact hvalid.identity i slot hslot
  · exact fun _ _ => List.not_mem_nil
  · intro out w hout
    obtain ⟨rfl,rfl⟩ := hout
    refine Prog.ends_bind (ends_reconcileSlots out (fun _ ha => ha) h E) ?_
    intro _ x hx
    exact ⟨rfl, hx⟩

/-! ### Evidence -/

theorem ends_terminalForClaim (h : LedgerInv request True s) (claim : Claim Body)
    (E : IssuedError → Prop) :
    (terminalForClaim claim).Ends (quietExec tools) (fun _ u => u = s) E s := by
  refine ends_perform (.resolve (.terminal claim)) _ s _ rfl ?_
  cases hb : s.bindings.get? (.terminal claim) with
  | none => exact rfl
  | some v =>
    obtain ⟨hmem,terminal,rfl,hclaim⟩ := h.terminals claim v hb
    refine Prog.ends_bind (Q := fun _ u => u = s) (ends_get _ _ hmem ?_) fun _ u hu => hu
    exact Prog.ends_bind (Q := fun _ u => u = s) (ends_refuse _ _ (not_not.mpr hclaim) rfl)
      fun _ u hu => hu

theorem ends_authoritativeTerminal (terminal : IssuedToolCallTerminal Body Payload) :
    (authoritativeTerminal terminal).Ends (quietExec tools) (fun _ u => u = s) TerminalError
      s := by
  refine ends_perform (.toolStoreGet terminal.claim.call) _ s _ rfl ?_
  cases tools.get terminal.claim.call with
  | error message => exact .inr (.inr (.inr ⟨message, rfl⟩))
  | ok found =>
  cases found with
  | none => exact .inr (.inl rfl)
  | some entry =>
    refine ends_perform (.loadTerminalResult entry) _ s _ rfl ?_
    cases tools.loadTerminalResult entry with
    | error message => exact .inr (.inr (.inr ⟨message, rfl⟩))
    | ok result =>
      refine Prog.ends_bind (Q := fun r u => r = result ∧ u = s) ⟨rfl, rfl⟩ ?_
      intro r u hr
      obtain ⟨rfl,rfl⟩ := hr
      refine Prog.ends_bind (Q := fun _ t => t = u) ?_ fun _ t ht => ht
      by_cases hne : r ≠ terminal.result
      · rw [refuse, raiseIf_pos _ _ hne]
        exact .inr (.inr (.inl rfl))
      · exact ends_refuse _ _ hne rfl

theorem ends_evidenceFrom (h : LedgerInv request True s) (rest : List (Slot Body))
    (seenClaims : List (Claim Body)) (hnodup : (rest.map (·.claim)).Nodup)
    (hseen : ∀ slot ∈ rest, slot.claim ∉ seenClaims) :
    (evidenceFrom seenClaims rest).Ends (quietExec tools) (fun _ u => u = s) TerminalError
      s := by
  induction rest generalizing seenClaims with
  | nil => exact rfl
  | cons slot rest ih =>
    rw [List.map_cons, List.nodup_cons] at hnodup
    refine Prog.ends_bind (Q := fun _ u => u = s)
      (ends_refuse _ _ (hseen slot List.mem_cons_self) rfl) ?_
    intro _ u hu
    subst hu
    refine Prog.ends_bind (ends_terminalForClaim h slot.claim TerminalError) ?_
    intro r t ht
    subst ht
    cases r with
    | none => exact .inl rfl
    | some terminal =>
      refine Prog.ends_bind (ends_authoritativeTerminal terminal) ?_
      intro _ v hv
      subst hv
      refine Prog.ends_bind (ih (slot.claim :: seenClaims) hnodup.2 ?_) fun _ w hw => hw
      intro a ha
      rw [List.mem_cons, not_or]
      refine ⟨fun he => hnodup.1 ?_, hseen a (List.mem_cons_of_mem slot ha)⟩
      exact he ▸ List.mem_map_of_mem ha

/-- Uncontested ledgers leave a store a fresh ledger can read. -/
theorem LedgerInv.integrity (h : LedgerInv request True s) : LedgerIntegrity request s := by
  obtain ⟨slots,hocc,hvalid,hstored,hone⟩ := h.slots
  refine ⟨slots, hocc, hvalid.bounded, hvalid.distinct, ?_, ?_⟩
  · intro a ha b hb hab
    rw [hone trivial a ha b hb hab]
  · intro tools
    constructor
    · have hread : (readSlots request).Ends (quietExec tools)
          (fun out u => out = slots ∧ Settled request slots u) (fun _ => False) s :=
        ends_readSlots ⟨h, hocc⟩ _
      obtain ⟨r,u,halone,hok,herr⟩ := Prog.ends_alone hread
      cases r with
      | error error => exact (herr error rfl).elim
      | ok out =>
        obtain ⟨rfl,_⟩ := hok out rfl
        exact ⟨u, halone⟩
    · have hevidence : (evidence request).Ends (quietExec tools) (fun _ _ => True)
          TerminalError s := by
        refine Prog.ends_bind (ends_readSlots ⟨h, hocc⟩ TerminalError) ?_
        intro out t hout
        obtain ⟨rfl,hset⟩ := hout
        refine Prog.ends_mono (ends_evidenceFrom hset.inv out [] hvalid.distinct ?_)
          (fun _ _ _ => trivial) fun _ he => he
        exact fun _ _ => List.not_mem_nil
      obtain ⟨r,u,halone,_,herr⟩ := Prog.ends_alone hevidence
      exact ⟨r, u, halone, herr⟩

end Quiet

variable (request : OptimStepRequest Body) (ledgers : List (List (List LedgerCall)))
variable (schedule : List (Nat × ToolCallStore Payload))

/- The store after the first steps of a run. -/
def storeAfter (k : Nat) : IssuedStore Body Payload :=
  ((issuedMachine request).run (startPool request ledgers) (schedule.take k)).state

theorem storeAfter_inv (k : Nat) :
    LedgerInv request False (storeAfter request ledgers schedule k) :=
  run_ledgerInv ledgers (schedule.take k) fun h => h.elim

omit [DecidableEq Payload] in
theorem contested_some {o : IssuedOp Body Payload} {s : IssuedStore Body Payload}
    (h : contested o s = true) : ∃ (n : Nat) (slot : Slot Body) (claim : Claim Body),
      o = .bind (.slot n) (.slot slot) ∧ s.bindings.get? (.slot n) = none ∧
      s.bindings.get? (.call slot.claim.call.callId) = some (.claim claim) ∧
      claim ≠ slot.claim := by
  unfold contested at h
  split at h
  · rename_i n slot
    rw [Bool.and_eq_true, Option.isNone_iff_eq_none] at h
    obtain ⟨hfree,hbound⟩ := h
    split at hbound
    · rename_i claim hclaim
      exact ⟨n, slot, claim, rfl, hfree, hclaim, of_decide_eq_true hbound⟩
    · cases hbound
  · cases h

omit [DecidableEq Body] [ToolIdentity] [DecidableEq Payload] in
/- Slots of one request hold equal claims when they hold equal calls. -/
theorem oneCallPerId_of_calls {request : OptimStepRequest Body} {slots : List (Slot Body)}
    (hvalid : ValidSlots request slots)
    (h : ∀ a ∈ slots, ∀ b ∈ slots, a.claim.call.callId = b.claim.call.callId →
      a.claim.call = b.claim.call) : OneCallPerId slots := by
  intro a ha b hb hab
  have hcall := h a ha b hb hab
  have hreq := (hvalid.claim_request a ha).trans (hvalid.claim_request b hb).symm
  cases hca : a.claim with
  | mk ra ca =>
    cases hcb : b.claim with
    | mk rb cb =>
      rw [hca, hcb] at hcall hreq
      rw [show ra = rb from hreq, show ca = cb from hcall]

/-- A contested step leaves a store without integrity. -/
theorem not_integrity_of_contested (k i : Nat) (tools : ToolCallStore Payload)
    (hk : schedule[k]? = some (i, tools)) (x : IssuedLabel × IssuedOp Body Payload)
    (hnext : Machine.next ((issuedMachine request).run (startPool request ledgers)
      (schedule.take k)) i = some x)
    (hcontested : contested x.2 (storeAfter request ledgers schedule k) = true) :
    ¬ LedgerIntegrity request (storeAfter request ledgers schedule (k + 1)) := by
  obtain ⟨n,slot,claim,hop,hfree,hbound,hne⟩ := contested_some hcontested
  have hstore : storeAfter request ledgers schedule (k + 1) =
      { storeAfter request ledgers schedule k with
        bindings := (storeAfter request ledgers schedule k).bindings.set (.slot n)
          (.slot slot) } := by
    unfold storeAfter at hfree ⊢
    rw [List.take_add_one, hk, Option.toList_some, Machine.run_append]
    generalize (issuedMachine request).run (startPool request ledgers) (schedule.take k) = c
      at hnext hfree ⊢
    unfold Machine.next at hnext
    split at hnext
    · rename_i l o next hth
      cases hnext
      subst hop
      simp only [Machine.run, Machine.step, hth]
      simp only [issuedMachine, execute, IssuedStore.bind, hfree]
      rfl
    · cases hnext
  intro hintegrity
  obtain ⟨slots,hocc,_,_,hcalls,_⟩ := hintegrity
  obtain ⟨slots',hocc',hvalid,_⟩ := (storeAfter_inv request ledgers schedule (k + 1)).slots
  have hslots : slots' = slots := hocc'.unique hocc
  subst hslots
  rw [hstore] at hocc
  exact (storeAfter_inv request ledgers schedule k).not_one_of_bindSlot n slot hfree claim hbound
    hne slots' hocc (oneCallPerId_of_calls hvalid hcalls)

/-- Ledger integrity: for any number of ledgers over one request and any interleaving of their
calls, the ledger keeps its integrity in every state of the run exactly when no slot is bound to
a claim whose call id is, at that step, already bound to another claim. -/
theorem ledger_integrity_iff_uncontested :
    (∀ k, LedgerIntegrity request (storeAfter request ledgers schedule k)) ↔
      (issuedMachine request).Meets Uncontested (startPool request ledgers) schedule := by
  constructor
  · intro h
    refine Machine.meets_of_take _ _ _ _ fun k i tools hk x hx => ?_
    cases hc : contested x.2 (storeAfter request ledgers schedule k) with
    | false => exact hc
    | true =>
      exact absurd (h (k + 1))
        (not_integrity_of_contested request ledgers schedule k i tools hk x hx hc)
  · intro h k
    refine LedgerInv.integrity (run_ledgerInv ledgers (schedule.take k) fun _ => ?_)
    exact Machine.meets_take _ _ _ _ h k

/-- Whatever the run, the durable slots are contiguous, within the budget and hold distinct
claims. -/
theorem storeAfter_slots (k : Nat) :
    ∃ slots, Occupied (storeAfter request ledgers schedule k).bindings slots ∧
      slots.length ≤ request.limit ∧ (slots.map (·.claim)).Nodup := by
  obtain ⟨slots,hocc,hvalid,_⟩ := (storeAfter_inv request ledgers schedule k).slots
  exact ⟨slots, hocc, hvalid.bounded, hvalid.distinct⟩

end Integrity

/-! ### Two ledgers that issue one call id -/

@[reducible] def plainIdentity : ToolIdentity where
  toolConfigHash := fun _ => "config"
  toolCallRef := fun call => ⟨"whetstone.tool_call", call.callId⟩
  effectSemanticKey := fun storeNamespaceKey callId => storeNamespaceKey ++ "/" ++ callId
  effectRequestHash := fun call => call.callId

attribute [local instance] plainIdentity

def scoreTool : ToolConfig where
  definition := ⟨"score", 1, ["template"], ["score"], [.budget], none, rfl⟩
  endpointKey := "endpoint"
  evalConfig := default
  rewardPolicyHash := "reward"
  capacity := ⟨4, .global⟩
  timeoutPolicyRef := none
  operationalPolicyRefs := []
  storeNamespaceKey := "namespace"
  idempotentReplay := true
  candidateTemplateField := "template"
  valid := rfl

def scoreCall (callId template : String) : ToolCall where
  callId := callId
  toolConfig := scoreTool
  capacityBinding := ⟨.global, none, rfl⟩
  args := [("template", .str template)]
  valid := by
    simp [validateCall, scoreTool]

def twoCalls : OptimStepRequest Unit := ⟨some 2, ()⟩

/- Each ledger is used by one thread, which issues the call id "x" for its own call. -/
def rivalLedgers : List (List (List LedgerCall)) :=
  [[[.issue (scoreCall "x" "first")]], [[.issue (scoreCall "x" "second")]]]

def noTools : ToolCallStore Unit where
  get := fun _ => .ok none
  loadTerminalResult := fun _ => .error "absent"
  persistResult := fun _ => .ok true
  execute := fun _ => .error "absent"

/- Both ledgers find the call id free. The first then reserves slot zero; the second loses that
   slot, reads it back, binds the call id for the first and reserves slot one for itself. -/
def rivalRun : List (Nat × ToolCallStore Unit) :=
  [List.replicate 4 (0, noTools), List.replicate 4 (1, noTools), List.replicate 9 (3, noTools),
    List.replicate 10 (2, noTools), List.replicate 12 (3, noTools)].flatten

def rivalStore : IssuedStore Unit Unit := storeAfter twoCalls rivalLedgers rivalRun 39

def raised {α : Type} : Option (Except IssuedError α × IssuedStore Unit Unit) → Option IssuedError
  | some (.error error, _) => some error
  | _ => none

/-- Two slots hold different calls under one call id, and a fresh ledger cannot read them. -/
theorem rival_ledgers_break_slots :
    rivalStore.bindings.get? (.slot 0) =
        some (.slot ⟨twoCalls, 0, ⟨twoCalls, scoreCall "x" "first"⟩, rfl⟩) ∧
      rivalStore.bindings.get? (.slot 1) =
        some (.slot ⟨twoCalls, 1, ⟨twoCalls, scoreCall "x" "second"⟩, rfl⟩) ∧
      scoreCall "x" "first" ≠ scoreCall "x" "second" ∧
      raised ((readSlots twoCalls).alone (quietExec noTools) rivalStore) =
        some (.conflict "x") := by
  decide +kernel

end Whetstone.Tools.Issued
