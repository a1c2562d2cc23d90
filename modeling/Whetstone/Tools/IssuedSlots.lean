import Whetstone.Tools.Issued

/-! What the bindings of an issued Tool Call ledger amount to, and the contract its threads
keep. Slots, call ids, terminals and replay prefixes are covered in every run; that a call id
names one exact call is asked only of runs that bind a slot to a claim while the call id of the
claim is not already bound to another one. -/
namespace Whetstone.Tools.Issued
open Whetstone.Lib

variable {Body Payload : Type}

abbrev Slot (Body : Type) := IssuedToolCallSlot Body
abbrev Claim (Body : Type) := IssuedToolCallClaim Body
abbrev Bindings (Body Payload : Type) := Dict (IssuedKey Body) (IssuedObject Body Payload)

structure ValidSlots (request : OptimStepRequest Body) (slots : List (Slot Body)) : Prop where
  identity : ∀ (n : Nat) (slot : Slot Body), slots[n]? = some slot →
    slot.request = request ∧ slot.ordinal = n
  bounded : slots.length ≤ request.limit
  distinct : (slots.map (·.claim)).Nodup

/-- One call id names one exact call. -/
def OneCallPerId (slots : List (Slot Body)) : Prop :=
  ∀ a ∈ slots, ∀ b ∈ slots, a.claim.call.callId = b.claim.call.callId → a.claim = b.claim

theorem validSlots_nil (request : OptimStepRequest Body) : ValidSlots request [] where
  identity := by simp
  bounded := Nat.zero_le _
  distinct := List.nodup_nil

theorem ValidSlots.append {request : OptimStepRequest Body} {slots : List (Slot Body)}
    (h : ValidSlots request slots) (slot : Slot Body) (hreq : slot.request = request)
    (hord : slot.ordinal = slots.length) (hlt : slots.length < request.limit)
    (hnew : ∀ a ∈ slots, a.claim ≠ slot.claim) : ValidSlots request (slots ++ [slot]) where
  identity := by
    intro n a ha
    rw [List.getElem?_append] at ha
    by_cases hn : n < slots.length
    · rw [if_pos hn] at ha
      exact h.identity n a ha
    · rw [if_neg hn, List.getElem?_singleton] at ha
      by_cases h0 : n - slots.length = 0
      · rw [if_pos h0, Option.some.injEq] at ha
        subst ha
        exact ⟨hreq, by omega⟩
      · rw [if_neg h0] at ha
        cases ha
  bounded := by
    rw [List.length_append]
    exact hlt
  distinct := by
    rw [List.map_append, List.nodup_append]
    refine ⟨h.distinct, List.nodup_singleton _, ?_⟩
    intro a ha b hb hab
    obtain ⟨x,hx,rfl⟩ := List.mem_map.mp ha
    rw [List.map_singleton, List.mem_singleton] at hb
    exact hnew x hx (hab.trans hb)

variable [DecidableEq Body]

/-- The slot keys are bound to exactly these slots, from ordinal zero and without a gap. -/
def Occupied (b : Bindings Body Payload) (slots : List (Slot Body)) : Prop :=
  ∀ n, b.get? (.slot n) = (slots[n]?).map .slot

namespace Occupied

variable {b : Bindings Body Payload} {slots : List (Slot Body)}

theorem get_iff (h : Occupied b slots) (n : Nat) (slot : Slot Body) :
    b.get? (.slot n) = some (.slot slot) ↔ slots[n]? = some slot := by
  rw [h n]
  cases slots[n]? with
  | none => simp
  | some a => simp

theorem none_iff (h : Occupied b slots) (n : Nat) :
    b.get? (.slot n) = none ↔ slots.length ≤ n := by
  rw [h n, Option.map_eq_none_iff, List.getElem?_eq_none_iff]

/- Slots read at any time before, up to an ordinal that is still free, are all of them. -/
theorem eq_of_read (h : Occupied b slots) (read : List (Slot Body))
    (hread : ∀ (n : Nat) (slot : Slot Body), read[n]? = some slot →
      b.get? (.slot n) = some (.slot slot))
    (hfree : b.get? (.slot read.length) = none) : read = slots := by
  have hle := (h.none_iff read.length).mp hfree
  have hget : ∀ n (hn : n < read.length), slots[n]? = some read[n] := by
    intro n hn
    exact (h.get_iff n read[n]).mp (hread n read[n] (List.getElem?_eq_getElem hn))
  apply List.ext_getElem?
  intro n
  by_cases hn : n < read.length
  · rw [hget n hn, List.getElem?_eq_getElem hn]
  · rw [List.getElem?_eq_none (by omega), List.getElem?_eq_none (by omega)]

theorem set_slot (h : Occupied b slots) (slot : Slot Body) :
    Occupied (b.set (.slot slots.length) (.slot slot)) (slots ++ [slot]) := by
  intro n
  rw [Dict.get?_set, List.getElem?_append]
  by_cases hn : n = slots.length
  · subst hn
    simp
  · have hkey : (IssuedKey.slot n : IssuedKey Body) ≠ .slot slots.length := by simpa using hn
    rw [if_neg hkey, h n]
    by_cases hlt : n < slots.length
    · rw [if_pos hlt]
    · rw [if_neg hlt, List.getElem?_eq_none (by omega), List.getElem?_eq_none (by simp; omega)]

theorem set_other (h : Occupied b slots) (key : IssuedKey Body)
    (v : IssuedObject Body Payload) (hkey : ∀ n, key ≠ .slot n) :
    Occupied (b.set key v) slots := by
  intro n
  rw [Dict.get?_set_ne _ _ _ _ (hkey n).symm]
  exact h n

end Occupied

/-- The claim stands in some slot. -/
def Reserved (claim : Claim Body) (s : IssuedStore Body Payload) : Prop :=
  ∃ (n : Nat) (slot : Slot Body), s.bindings.get? (.slot n) = some (.slot slot) ∧
    slot.claim = claim

structure LedgerInv (request : OptimStepRequest Body) (strict : Prop)
    (s : IssuedStore Body Payload) : Prop where
  slots : ∃ slots, Occupied s.bindings slots ∧ ValidSlots request slots ∧
    (∀ slot ∈ slots, .slot slot ∈ s.objects ∧ .claim slot.claim ∈ s.objects) ∧
    (strict → OneCallPerId slots)
  calls : ∀ callId v, s.bindings.get? (.call callId) = some v →
    ∃ claim : Claim Body, v = .claim claim ∧ claim.call.callId = callId ∧ Reserved claim s
  terminals : ∀ claim v, s.bindings.get? (.terminal claim) = some v →
    v ∈ s.objects ∧ ∃ terminal, v = .terminal terminal ∧ terminal.claim = claim
  replay : ∀ ledger st, s.ledgers.get? ledger = some st → ∀ slot ∈ st.replayPrefix,
    Reserved slot.claim s

/-- Objects and bindings only grow. -/
structure Grows (s t : IssuedStore Body Payload) : Prop where
  objects : ∀ x ∈ s.objects, x ∈ t.objects
  bindings : ∀ k v, s.bindings.get? k = some v → t.bindings.get? k = some v

theorem Grows.refl (s : IssuedStore Body Payload) : Grows s s := ⟨fun _ h => h, fun _ _ h => h⟩

theorem Grows.trans {s t u : IssuedStore Body Payload} (h : Grows s t) (h' : Grows t u) :
    Grows s u :=
  ⟨fun x hx => h'.objects x (h.objects x hx), fun k v hv => h'.bindings k v (h.bindings k v hv)⟩

theorem Grows.set {s : IssuedStore Body Payload} (key : IssuedKey Body)
    (v : IssuedObject Body Payload) (hfree : s.bindings.get? key = none) :
    Grows s { s with bindings := s.bindings.set key v } := by
  refine ⟨fun _ h => h, fun k w hw => ?_⟩
  have hne : k ≠ key := by
    intro hk
    rw [hk, hfree] at hw
    cases hw
  exact (Dict.get?_set_ne _ _ _ _ hne).trans hw

theorem Reserved.grows {claim : Claim Body} {s t : IssuedStore Body Payload}
    (h : Reserved claim s) (hst : Grows s t) : Reserved claim t := by
  obtain ⟨n,slot,hslot,hclaim⟩ := h
  exact ⟨n, slot, hst.bindings _ _ hslot, hclaim⟩

/-- Every slot read is bound and its call id is bound to its claim. -/
structure Scanned (read : List (Slot Body)) (s : IssuedStore Body Payload) : Prop where
  bound : ∀ (n : Nat) (slot : Slot Body), read[n]? = some slot →
    s.bindings.get? (.slot n) = some (.slot slot)
  reconciled : ∀ slot ∈ read,
    s.bindings.get? (.call slot.claim.call.callId) = some (.claim slot.claim)

theorem Scanned.grows {read : List (Slot Body)} {s t : IssuedStore Body Payload}
    (h : Scanned read s) (hst : Grows s t) : Scanned read t where
  bound := fun n slot hslot => hst.bindings _ _ (h.bound n slot hslot)
  reconciled := fun slot hslot => hst.bindings _ _ (h.reconciled slot hslot)

theorem ledgerInv_empty (request : OptimStepRequest Body) (strict : Prop) :
    LedgerInv request strict (.empty : IssuedStore Body Payload) where
  slots := ⟨[], fun _ => rfl, validSlots_nil request, by simp, fun _ => by simp [OneCallPerId]⟩
  calls := fun _ _ h => by cases h
  terminals := fun _ _ h => by cases h
  replay := fun _ _ h => by cases h

namespace LedgerInv

variable {request : OptimStepRequest Body} {strict : Prop} {s : IssuedStore Body Payload}

theorem put (h : LedgerInv request strict s) (object : IssuedObject Body Payload) :
    LedgerInv request strict { s with objects := object :: s.objects } where
  slots := by
    obtain ⟨slots,hocc,hvalid,hstored,hone⟩ := h.slots
    refine ⟨slots, hocc, hvalid, fun slot hslot => ?_, hone⟩
    obtain ⟨h1,h2⟩ := hstored slot hslot
    exact ⟨List.mem_cons_of_mem _ h1, List.mem_cons_of_mem _ h2⟩
  calls := h.calls
  terminals := by
    intro claim v hv
    obtain ⟨hmem,hterminal⟩ := h.terminals claim v hv
    exact ⟨List.mem_cons_of_mem _ hmem, hterminal⟩
  replay := h.replay

theorem setLedger (h : LedgerInv request strict s) (ledger : Nat) (st : LedgerState Body)
    (hst : ∀ slot ∈ st.replayPrefix, Reserved slot.claim s) :
    LedgerInv request strict { s with ledgers := s.ledgers.set ledger st } where
  slots := h.slots
  calls := h.calls
  terminals := h.terminals
  replay := by
    intro k st' hk slot hslot
    rw [Dict.get?_set] at hk
    by_cases he : k = ledger
    · rw [if_pos he, Option.some.injEq] at hk
      exact hst slot (hk ▸ hslot)
    · rw [if_neg he] at hk
      exact h.replay k st' hk slot hslot

/-- A call id is bound to a claim that stands in a slot. -/
theorem bindCall (h : LedgerInv request strict s) (claim : Claim Body)
    (hfree : s.bindings.get? (.call claim.call.callId) = none) (hres : Reserved claim s) :
    LedgerInv request strict
      { s with bindings := s.bindings.set (.call claim.call.callId) (.claim claim) } := by
  have hgrow := Grows.set (s := s) (.call claim.call.callId) (.claim claim) hfree
  obtain ⟨slots,hocc,hvalid,hstored,hone⟩ := h.slots
  refine ⟨⟨slots, hocc.set_other _ _ (by simp), hvalid, hstored, hone⟩, ?_, ?_, ?_⟩
  · intro callId v hv
    rw [Dict.get?_set] at hv
    by_cases hid : callId = claim.call.callId
    · rw [if_pos (by rw [hid]), Option.some.injEq] at hv
      exact ⟨claim, hv.symm, hid.symm, hres.grows hgrow⟩
    · rw [if_neg (by simpa using hid)] at hv
      obtain ⟨c,hc,hcid,hcres⟩ := h.calls callId v hv
      exact ⟨c, hc, hcid, hcres.grows hgrow⟩
  · intro c v hv
    rw [Dict.get?_set_ne _ _ _ _ (by simp)] at hv
    exact h.terminals c v hv
  · intro ledger st hst slot hslot
    exact (h.replay ledger st hst slot hslot).grows hgrow

theorem bindTerminal (h : LedgerInv request strict s)
    (terminal : IssuedToolCallTerminal Body Payload)
    (hfree : s.bindings.get? (.terminal terminal.claim) = none)
    (hstored : .terminal terminal ∈ s.objects) :
    LedgerInv request strict
      { s with bindings := s.bindings.set (.terminal terminal.claim) (.terminal terminal) } := by
  have hgrow := Grows.set (s := s) (.terminal terminal.claim) (.terminal terminal) hfree
  obtain ⟨slots,hocc,hvalid,hslots,hone⟩ := h.slots
  refine ⟨⟨slots, hocc.set_other _ _ (by simp), hvalid, hslots, hone⟩, ?_, ?_, ?_⟩
  · intro callId v hv
    rw [Dict.get?_set_ne _ _ _ _ (by simp)] at hv
    obtain ⟨c,hc,hcid,hcres⟩ := h.calls callId v hv
    exact ⟨c, hc, hcid, hcres.grows hgrow⟩
  · intro claim v hv
    rw [Dict.get?_set] at hv
    by_cases hc : claim = terminal.claim
    · rw [if_pos (by rw [hc]), Option.some.injEq] at hv
      exact ⟨hv ▸ hstored, terminal, hv.symm, hc.symm⟩
    · rw [if_neg (by simpa using hc)] at hv
      exact h.terminals claim v hv
  · intro ledger st hst slot hslot
    exact (h.replay ledger st hst slot hslot).grows hgrow

/-- A slot bound at the first free ordinal after a scan that did not find its claim keeps the
invariant. The scan has bound the call ids of all slots before it, so a slot with the same call
id shows in the binding of that id. -/
theorem bindSlot (h : LedgerInv request strict s) (read : List (Slot Body)) (slot : Slot Body)
    (hread : Scanned read s) (hreq : slot.request = request)
    (hord : slot.ordinal = read.length) (hlt : read.length < request.limit)
    (hnew : ∀ a ∈ read, a.claim ≠ slot.claim)
    (hfree : s.bindings.get? (.slot read.length) = none)
    (hslot : .slot slot ∈ s.objects) (hclaim : .claim slot.claim ∈ s.objects)
    (hone : strict → ∀ claim : Claim Body,
      s.bindings.get? (.call slot.claim.call.callId) = some (.claim claim) →
      claim = slot.claim) :
    LedgerInv request strict
      { s with bindings := s.bindings.set (.slot read.length) (.slot slot) } := by
  have hgrow := Grows.set (s := s) (.slot read.length) (.slot slot) hfree
  obtain ⟨slots,hocc,hvalid,hstored,hper⟩ := h.slots
  have hread_eq : read = slots := hocc.eq_of_read read hread.bound hfree
  subst hread_eq
  refine ⟨⟨read ++ [slot], hocc.set_slot slot, hvalid.append slot hreq hord hlt hnew, ?_, ?_⟩,
    ?_, ?_, ?_⟩
  · intro a ha
    rw [List.mem_append, List.mem_singleton] at ha
    cases ha with
    | inl ha => exact hstored a ha
    | inr ha =>
      subst ha
      exact ⟨hslot, hclaim⟩
  · intro hstrict
    -- an earlier slot with the id of the new one would hold the bound claim, which is the new one
    have hfresh : ∀ a ∈ read, a.claim.call.callId ≠ slot.claim.call.callId := by
      intro a ha hid
      have hbound := hread.reconciled a ha
      rw [hid] at hbound
      exact hnew a ha (hone hstrict a.claim hbound)
    intro a ha b hb hab
    rw [List.mem_append, List.mem_singleton] at ha hb
    rcases ha with ha | ha <;> rcases hb with hb | hb
    · exact hper hstrict a ha b hb hab
    · exact absurd (hb ▸ hab) (hfresh a ha)
    · exact absurd (ha ▸ hab.symm) (hfresh b hb)
    · rw [ha, hb]
  · intro callId v hv
    rw [Dict.get?_set_ne _ _ _ _ (by simp)] at hv
    obtain ⟨c,hc,hcid,hcres⟩ := h.calls callId v hv
    exact ⟨c, hc, hcid, hcres.grows hgrow⟩
  · intro claim v hv
    rw [Dict.get?_set_ne _ _ _ _ (by simp)] at hv
    exact h.terminals claim v hv
  · intro ledger st hst a ha
    exact (h.replay ledger st hst a ha).grows hgrow

/-- A slot bound to a claim whose call id is already bound to another claim breaks the
agreement. -/
theorem not_one_of_bindSlot (h : LedgerInv request strict s) (n : Nat) (slot : Slot Body)
    (hfree : s.bindings.get? (.slot n) = none) (claim : Claim Body)
    (hbound : s.bindings.get? (.call slot.claim.call.callId) = some (.claim claim))
    (hne : claim ≠ slot.claim) (slots : List (Slot Body))
    (hocc : Occupied (s.bindings.set (.slot n) (.slot slot)) slots) : ¬ OneCallPerId slots := by
  intro hone
  obtain ⟨c,hc,hcid,m,a,ha,hac⟩ := h.calls _ _ hbound
  cases hc
  have hgrow := Grows.set (s := s) (.slot n) (.slot slot) hfree
  have ham := (hocc.get_iff m a).mp (hgrow.bindings _ _ ha)
  have hsm := (hocc.get_iff n slot).mp (Dict.get?_set_self _ _ _)
  refine hne (hac.symm.trans (hone a (List.mem_of_getElem? ham) slot
    (List.mem_of_getElem? hsm) ?_))
  rw [hac, hcid]

end LedgerInv

/-! ### The contract -/

section Contract

variable [ToolIdentity]

/- A slot that is still free is bound to a claim while the claim's call id is bound to
   another one. -/
def contested (o : IssuedOp Body Payload) (s : IssuedStore Body Payload) : Bool :=
  match o with
  | .bind (.slot ordinal) (.slot slot) =>
    (s.bindings.get? (.slot ordinal)).isNone &&
      match s.bindings.get? (.call slot.claim.call.callId) with
      | some (.claim claim) => decide (claim ≠ slot.claim)
      | _ => false
  | _ => false

/-- No slot is bound to a claim whose call id is bound to another claim. -/
def Uncontested (_ : IssuedLabel) (o : IssuedOp Body Payload) (s : IssuedStore Body Payload) :
    Prop :=
  contested o s = false

instance (l : IssuedLabel) (o : IssuedOp Body Payload) (s : IssuedStore Body Payload) :
    Decidable (Uncontested l o s) :=
  inferInstanceAs (Decidable (contested o s = false))

theorem Uncontested.claim_eq {l : IssuedLabel} {n : Nat} {slot : Slot Body}
    {s : IssuedStore Body Payload} (h : Uncontested l (.bind (.slot n) (.slot slot)) s)
    (hfree : s.bindings.get? (.slot n) = none) (claim : Claim Body)
    (hbound : s.bindings.get? (.call slot.claim.call.callId) = some (.claim claim)) :
    claim = slot.claim := by
  simpa [Uncontested, contested, hfree, hbound] using h

def issuedContract (request : OptimStepRequest Body) (strict : Prop) :
    Contract IssuedLabel (IssuedStore Body Payload) (IssuedOp Body Payload) where
  inv := LedgerInv request strict
  allowed := fun l o s => strict → Uncontested l o s
  rely := fun _ => Grows
  compat := fun _ _ => True
  pre := fun _ _ => True
  rely_refl := fun _ => Grows.refl
  rely_trans := fun _ _ _ _ => Grows.trans

end Contract
end Whetstone.Tools.Issued
