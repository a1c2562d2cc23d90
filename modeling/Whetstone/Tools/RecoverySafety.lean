import Whetstone.Tools.IssuedLedger
import Whetstone.Tools.IssuedRecovery

/-! What a session of a recovered ledger keeps. The durable slots are a beginning of the
adapter's calls, one for each call, and a bound terminal is the authoritative result of its
call; every operation of a session keeps this, so it holds wherever a session stops. -/
namespace Whetstone.Tools.Issued
open Whetstone.Lib

/- The list facts below are about slots and claims alone. -/
section Slots

variable {Body : Type} (request : OptimStepRequest Body)

def issuedSlots (calls : List ToolCall) : List (Slot Body) :=
  calls.mapIdx fun ordinal call => ⟨request, ordinal, ⟨request, call⟩, rfl⟩

@[simp] theorem issuedSlots_length (calls : List ToolCall) :
    (issuedSlots request calls).length = calls.length := by
  simp [issuedSlots]

theorem issuedSlots_get (calls : List ToolCall) (n : Nat) :
    (issuedSlots request calls)[n]? =
      (calls[n]?).map fun call => ⟨request, n, ⟨request, call⟩, rfl⟩ := by
  simp [issuedSlots]

theorem issuedSlots_append (calls : List ToolCall) (call : ToolCall) :
    issuedSlots request (calls ++ [call]) =
      issuedSlots request calls ++ [⟨request, calls.length, ⟨request, call⟩, rfl⟩] := by
  simp [issuedSlots, List.mapIdx_append]

theorem mem_issuedSlots {calls : List ToolCall} {slot : Slot Body}
    (h : slot ∈ issuedSlots request calls) :
    ∃ n, ∃ call ∈ calls, slot = ⟨request, n, ⟨request, call⟩, rfl⟩ := by
  obtain ⟨n,hn⟩ := List.getElem?_of_mem h
  rw [issuedSlots_get, Option.map_eq_some_iff] at hn
  obtain ⟨call,hcall,rfl⟩ := hn
  exact ⟨n, call, List.mem_of_getElem? hcall, rfl⟩

theorem exists_issuedSlot {calls : List ToolCall} {call : ToolCall} (h : call ∈ calls) :
    ∃ slot ∈ issuedSlots request calls, slot.claim = ⟨request, call⟩ := by
  obtain ⟨n,hn⟩ := List.getElem?_of_mem h
  have hslot : (issuedSlots request calls)[n]? = some ⟨request, n, ⟨request, call⟩, rfl⟩ := by
    rw [issuedSlots_get, hn]
    rfl
  exact ⟨_, List.mem_of_getElem? hslot, rfl⟩

end Slots

section Durable

variable [ToolIdentity] {Body Payload : Type} [DecidableEq Body]
variable {A : ToolAuthority Payload} {request : OptimStepRequest Body} {calls : List ToolCall}
variable {k : Nat} {s t u : RecoveryState Body A}

variable (request calls) in
/-- The first `k` calls have their slots, in order; bound terminals are authoritative. -/
structure Durable (k : Nat) (s : RecoveryState Body A) : Prop where
  inv : LedgerInv request True s.ledger
  slots : Occupied s.ledger.bindings (issuedSlots request (calls.take k))
  le : k ≤ calls.length
  ids : ((calls.take k).map ToolCall.callId).Nodup
  tools : A.inv s.tools
  terminals : ∀ claim terminal,
    s.ledger.bindings.get? (.terminal claim) = some (.terminal terminal) →
      ∃ entry, A.Authoritative s.tools claim.call entry terminal.result

/- What a part of a session does to the stores: they grow, the ledger's own fields stay. -/
structure Moves (s t : RecoveryState Body A) : Prop where
  grows : Grows s.ledger t.ledger
  ledgers : t.ledger.ledgers = s.ledger.ledgers
  tools : ∀ call entry result, A.Authoritative s.tools call entry result →
    A.Authoritative t.tools call entry result

theorem Moves.refl (s : RecoveryState Body A) : Moves s s := ⟨.refl _, rfl, fun _ _ _ h => h⟩

theorem Moves.trans (h : Moves s t) (h' : Moves t u) : Moves s u :=
  ⟨h.grows.trans h'.grows, h'.ledgers.trans h.ledgers,
    fun call entry result ha => h'.tools call entry result (h.tools call entry result ha)⟩

def RecoveryState.putObject (s : RecoveryState Body A) (object : IssuedObject Body Payload) :
    RecoveryState Body A :=
  { s with ledger := { s.ledger with objects := object :: s.ledger.objects } }

/- An object stored and bound to a key. -/
def RecoveryState.stored (s : RecoveryState Body A) (key : IssuedKey Body)
    (object : IssuedObject Body Payload) : RecoveryState Body A :=
  { s with ledger := { s.ledger with
      objects := object :: s.ledger.objects
      bindings := s.ledger.bindings.set key object } }

theorem moves_putObject (object : IssuedObject Body Payload) : Moves s (s.putObject object) :=
  ⟨⟨fun _ hx => List.mem_cons_of_mem _ hx, fun _ _ hv => hv⟩, rfl, fun _ _ _ h => h⟩

theorem moves_stored (key : IssuedKey Body) (object : IssuedObject Body Payload)
    (hfree : s.ledger.bindings.get? key = none) : Moves s (s.stored key object) where
  grows := ⟨fun _ hx => List.mem_cons_of_mem _ hx, (Grows.set key object hfree).bindings⟩
  ledgers := rfl
  tools := fun _ _ _ h => h

namespace Durable

theorem put (h : Durable request calls k s) (object : IssuedObject Body Payload) :
    Durable request calls k (s.putObject object) where
  inv := h.inv.put object
  slots := h.slots
  le := h.le
  ids := h.ids
  tools := h.tools
  terminals := h.terminals

/-- The tools may move on as long as authoritative results stay. -/
theorem setTools (h : Durable request calls k s) (tools : A.State) (hinv : A.inv tools)
    (hkeeps : ∀ call entry result, A.Authoritative s.tools call entry result →
      A.Authoritative tools call entry result) :
    Durable request calls k { s with tools := tools } where
  inv := h.inv
  slots := h.slots
  le := h.le
  ids := h.ids
  tools := hinv
  terminals := by
    intro claim terminal hbound
    obtain ⟨entry,hentry⟩ := h.terminals claim terminal hbound
    exact ⟨entry, hkeeps _ _ _ hentry⟩

theorem setLedger (h : Durable request calls k s) (ledger : Nat) (st : LedgerState Body)
    (hst : ∀ slot ∈ st.replayPrefix, Reserved slot.claim s.ledger) :
    Durable request calls k
      { s with ledger := { s.ledger with ledgers := s.ledger.ledgers.set ledger st } } where
  inv := h.inv.setLedger ledger st hst
  slots := h.slots
  le := h.le
  ids := h.ids
  tools := h.tools
  terminals := h.terminals

/-- A slot stands at its ordinal, with its claim, and both are stored. -/
theorem slot_bound (h : Durable request calls k s) (slot : Slot Body)
    (hslot : slot ∈ issuedSlots request (calls.take k)) :
    Reserved slot.claim s.ledger ∧ .slot slot ∈ s.ledger.objects ∧
      .claim slot.claim ∈ s.ledger.objects := by
  obtain ⟨slots,hocc,_,hstored,_⟩ := h.inv.slots
  obtain ⟨n,hn⟩ := List.getElem?_of_mem hslot
  have hbound := (h.slots.get_iff n slot).mpr hn
  have hmem := List.mem_of_getElem? ((hocc.get_iff n slot).mp hbound)
  exact ⟨⟨n, slot, hbound, rfl⟩, hstored slot hmem⟩

/-- A call id is bound to the one call of the slots that has it. -/
theorem call_bound (h : Durable request calls k s) (callId : String)
    (v : IssuedObject Body Payload) (hv : s.ledger.bindings.get? (.call callId) = some v) :
    ∃ call ∈ calls.take k, call.callId = callId ∧ v = .claim ⟨request, call⟩ := by
  obtain ⟨claim,rfl,hid,n,slot,hslot,rfl⟩ := h.inv.calls callId v hv
  have hmem := List.mem_of_getElem? ((h.slots.get_iff n slot).mp hslot)
  obtain ⟨_,call,hcall,rfl⟩ := mem_issuedSlots request hmem
  exact ⟨call, hcall, hid, rfl⟩

/-- Two of the issued calls with one id are the same. -/
theorem call_eq (h : Durable request calls k s) {call call' : ToolCall}
    (hcall : call ∈ calls.take k) (hcall' : call' ∈ calls.take k)
    (hid : call.callId = call'.callId) : call = call' :=
  List.inj_on_of_nodup_map h.ids hcall hcall' hid

theorem bindCall (h : Durable request calls k s) {call : ToolCall} (hcall : call ∈ calls.take k)
    (hfree : s.ledger.bindings.get? (.call call.callId) = none) :
    Durable request calls k { s with ledger := { s.ledger with
      bindings := s.ledger.bindings.set (.call call.callId) (.claim ⟨request, call⟩) } } where
  inv := by
    obtain ⟨slot,hslot,hclaim⟩ := exists_issuedSlot request hcall
    have hreserved := (h.slot_bound slot hslot).1
    rw [hclaim] at hreserved
    exact h.inv.bindCall ⟨request, call⟩ hfree hreserved
  slots := h.slots.set_other _ _ (by simp)
  le := h.le
  ids := h.ids
  tools := h.tools
  terminals := by
    intro claim terminal hbound
    rw [Dict.get?_set_ne _ _ _ _ (by simp)] at hbound
    exact h.terminals claim terminal hbound

theorem storeTerminal (h : Durable request calls k s)
    (terminal : IssuedToolCallTerminal Body Payload) (entry : ToolCallStoreEntry)
    (hfree : s.ledger.bindings.get? (.terminal terminal.claim) = none)
    (hresult : A.Authoritative s.tools terminal.claim.call entry terminal.result) :
    Durable request calls k (s.stored (.terminal terminal.claim) (.terminal terminal)) where
  inv := (h.inv.put (.terminal terminal)).bindTerminal terminal hfree List.mem_cons_self
  slots := h.slots.set_other _ _ (by simp)
  le := h.le
  ids := h.ids
  tools := h.tools
  terminals := by
    intro claim other hbound
    rw [RecoveryState.stored, Dict.get?_set] at hbound
    by_cases hclaim : claim = terminal.claim
    · rw [if_pos (by rw [hclaim]), Option.some.injEq, IssuedObject.terminal.injEq] at hbound
      rw [hclaim, ← hbound]
      exact ⟨entry, hresult⟩
    · rw [if_neg (by simpa using hclaim)] at hbound
      exact h.terminals claim other hbound

/-- The next call takes the next slot. -/
theorem storeSlot (h : Durable request calls k s) {call : ToolCall} (hcall : calls[k]? = some call)
    (hfresh : call.callId ∉ (calls.take k).map ToolCall.callId) (hlimit : k < request.limit)
    (hclaim : .claim ⟨request, call⟩ ∈ s.ledger.objects)
    (hscanned : Scanned (issuedSlots request (calls.take k)) s.ledger) :
    Durable request calls (k + 1)
      (s.stored (.slot k) (.slot ⟨request, k, ⟨request, call⟩, rfl⟩)) := by
  have hlt : k < calls.length := (List.getElem?_eq_some_iff.mp hcall).1
  have hlen : (calls.take k).length = k := List.length_take_of_le h.le
  have htake : calls.take (k + 1) = calls.take k ++ [call] := by
    rw [List.take_add_one, hcall]
    rfl
  have hfree : s.ledger.bindings.get? (.slot k) = none := by
    rw [h.slots.none_iff, issuedSlots_length, hlen]
  have hnew : ∀ a ∈ issuedSlots request (calls.take k), a.claim ≠ ⟨request, call⟩ := by
    intro a ha he
    obtain ⟨_,other,hother,rfl⟩ := mem_issuedSlots request ha
    cases he
    exact hfresh (List.mem_map_of_mem hother)
  have hslots := h.slots.set_slot ⟨request, k, ⟨request, call⟩, rfl⟩
  have hput := moves_putObject (s := s) (.slot ⟨request, k, ⟨request, call⟩, rfl⟩)
  have hinv := (h.put (.slot ⟨request, k, ⟨request, call⟩, rfl⟩)).inv.bindSlot
    (issuedSlots request (calls.take k)) ⟨request, k, ⟨request, call⟩, rfl⟩
    (hscanned.grows hput.grows) rfl (by rw [issuedSlots_length, hlen])
    (by rw [issuedSlots_length, hlen]; exact hlimit) hnew
    (by rw [issuedSlots_length, hlen]; exact hfree) List.mem_cons_self
    (List.mem_cons_of_mem _ hclaim) ?_
  · rw [issuedSlots_length, hlen] at hslots hinv
    refine ⟨hinv, ?_, hlt, ?_, h.tools, ?_⟩
    · rw [htake, issuedSlots_append, hlen]
      exact hslots
    · rw [htake, List.map_append]
      exact List.nodup_append.mpr ⟨h.ids, List.nodup_singleton _, fun a ha b hb hab =>
        hfresh (by rw [List.mem_singleton.mp hb] at hab; exact hab ▸ ha)⟩
    · intro claim terminal hbound
      rw [RecoveryState.stored, Dict.get?_set_ne _ _ _ _ (by simp)] at hbound
      exact h.terminals claim terminal hbound
  · -- the id of the next call is free, since no call of the slots has it
    intro _ claim hbound
    obtain ⟨other,hother,hid,_⟩ := h.call_bound _ _ hbound
    exact absurd (hid ▸ List.mem_map_of_mem hother) hfresh

end Durable

end Durable

section Rules

variable [ToolIdentity] {Body Payload : Type} [DecidableEq Body] [DecidableEq Payload]
variable (A : ToolAuthority Payload) (request : OptimStepRequest Body) (calls : List ToolCall)
variable (live : Prop) (errors : IssuedError → Prop)

/-- A session executes no call that has a terminal entry. -/
def Careful (o : IssuedOp Body Payload) (s : RecoveryState Body A) : Prop :=
  ∀ call, o = .execute call → ∀ entry, A.get call s.tools = .ok (some entry) →
    terminalState entry = false

def recoveryPromise : Promise (RecoveryState Body A) (IssuedOp Body Payload) IssuedError where
  live := live
  step := Careful A
  durable := fun s => ∃ k, Durable request calls k s
  error := errors

abbrev Keeps {α : Type} (Q : α → RecoveryState Body A → Prop) (p : IssuedProg Body Payload α)
    (s : RecoveryState Body A) : Prop :=
  p.Holds (recoveryExec A) (recoveryPromise A request calls live errors) Q s

variable {A request calls live errors} {k : Nat} {α : Type} {s t u : RecoveryState Body A}
variable {Q : α → RecoveryState Body A → Prop}

theorem keeps_return (a : α) (h : Durable request calls k s) (hQ : Q a s) :
    Keeps A request calls live errors Q (pure a) s := ⟨⟨k, h⟩, hQ⟩

theorem keeps_raise (error : IssuedError) (h : Durable request calls k s)
    (herror : errors error) : Keeps A request calls live errors Q (raise error) s :=
  ⟨⟨k, h⟩, herror⟩

/-- An operation other than an execution, with one reply and one effect. -/
theorem keeps_call (o : IssuedOp Body Payload) (f : o.Reply → IssuedProg Body Payload α)
    (r : o.Reply) (t : RecoveryState Body A)
    (hexec : ∀ script, recoveryExec A o script s = (some r, t))
    (ho : ∀ call, o ≠ .execute call) (h : Durable request calls k s)
    (hf : Keeps A request calls live errors Q (f r) t) :
    Keeps A request calls live errors Q ((perform o).bind f) s :=
  Prog.holds_call o f r t hexec ⟨k, h⟩ (fun call hcall => absurd hcall (ho call)) hf

theorem keeps_resolve (key : IssuedKey Body)
    (f : Option (IssuedObject Body Payload) → IssuedProg Body Payload α)
    (h : Durable request calls k s)
    (hf : Keeps A request calls live errors Q (f (s.ledger.bindings.get? key)) s) :
    Keeps A request calls live errors Q ((perform (.resolve key)).bind f) s :=
  keeps_call (.resolve key) f _ s (fun _ => rfl) (fun _ h => by cases h) h hf

theorem keeps_get (ref : IssuedObject Body Payload)
    (f : Option (IssuedObject Body Payload) → IssuedProg Body Payload α)
    (h : Durable request calls k s) (hmem : ref ∈ s.ledger.objects)
    (hf : Keeps A request calls live errors Q (f (some ref)) s) :
    Keeps A request calls live errors Q ((perform (.get ref)).bind f) s := by
  refine keeps_call (.get ref) f (some ref) s (fun _ => ?_) (fun _ h => by cases h) h hf
  simp only [recoveryExec, execute, if_pos hmem]

theorem keeps_put (object : IssuedObject Body Payload)
    (f : Unit → IssuedProg Body Payload α) (h : Durable request calls k s)
    (hf : Keeps A request calls live errors Q (f ()) (s.putObject object)) :
    Keeps A request calls live errors Q ((perform (.put object)).bind f) s :=
  keeps_call (.put object) f () _ (fun _ => rfl) (fun _ h => by cases h) h hf

theorem keeps_bind_free (key : IssuedKey Body) (ref : IssuedObject Body Payload)
    (f : Bool → IssuedProg Body Payload α) (h : Durable request calls k s)
    (hfree : s.ledger.bindings.get? key = none)
    (hf : Keeps A request calls live errors Q (f true) { s with
      ledger := { s.ledger with bindings := s.ledger.bindings.set key ref } }) :
    Keeps A request calls live errors Q ((perform (.bind key ref)).bind f) s := by
  refine keeps_call (.bind key ref) f true _ (fun _ => ?_) (fun _ h => by cases h) h hf
  simp only [recoveryExec, execute, IssuedStore.bind, hfree]

/- An object put and then bound to a free key. -/
theorem keeps_store (key : IssuedKey Body) (object : IssuedObject Body Payload)
    (f : Bool → IssuedProg Body Payload α) (h : Durable request calls k s)
    (hfree : s.ledger.bindings.get? key = none)
    (hf : Keeps A request calls live errors Q (f true) (s.stored key object)) :
    Keeps A request calls live errors Q
      ((perform (.put object)).bind fun _ => (perform (.bind key object)).bind f) s :=
  keeps_put object _ h (keeps_bind_free key object f (h.put object) hfree hf)

theorem keeps_refuse (bad : Prop) [Decidable bad] (error : IssuedError)
    (f : Unit → IssuedProg Body Payload α) (hbad : ¬ bad)
    (hf : Keeps A request calls live errors Q (f ()) s) :
    Keeps A request calls live errors Q ((refuse bad error).bind f) s := by
  rw [refuse, raiseIf_neg bad error hbad]
  exact hf

/- The fresh ledger of the session takes new fields. -/
def RecoveryState.setLedger (s : RecoveryState Body A) (st : LedgerState Body) :
    RecoveryState Body A :=
  { s with ledger := { s.ledger with ledgers := s.ledger.ledgers.set 0 st } }

omit [DecidableEq Body] [DecidableEq Payload] in
@[simp] theorem setLedger_get (s : RecoveryState Body A) (st : LedgerState Body) :
    (s.setLedger st).ledger.ledgers.get? 0 = some st := Dict.get?_set_self _ _ _

omit [DecidableEq Body] [DecidableEq Payload] in
@[simp] theorem setLedger_setLedger (s : RecoveryState Body A) (st st' : LedgerState Body) :
    (s.setLedger st).setLedger st' = s.setLedger st' := by
  simp [RecoveryState.setLedger]

/-- An operation on the ledger's own fields, which keeps the replay prefix. -/
theorem keeps_onLedger (o : IssuedOp Body Payload)
    (g : LedgerState Body → Option (o.Reply × LedgerState Body))
    (hexec : ∀ script, recoveryExec A o script s = match s.ledger.onLedger 0 g with
      | none => (none, s)
      | some (r, ledger) => (some r, { s with ledger := ledger }))
    (ho : ∀ call, o ≠ .execute call) (st st' : LedgerState Body) (r : o.Reply)
    (hst : s.ledger.ledgers.get? 0 = some st) (hg : g st = some (r, st'))
    (f : o.Reply → IssuedProg Body Payload α) (h : Durable request calls k s)
    (hf : Keeps A request calls live errors Q (f r) (s.setLedger st')) :
    Keeps A request calls live errors Q ((perform o).bind f) s := by
  refine keeps_call o f r (s.setLedger st') (fun script => ?_) ho h hf
  rw [hexec script, IssuedStore.onLedger, hst]
  simp only [hg]
  rfl

omit [DecidableEq Payload] in
theorem Durable.setFields (h : Durable request calls k s) {st : LedgerState Body}
    (hst : s.ledger.ledgers.get? 0 = some st) (st' : LedgerState Body)
    (hreplay : st'.replayPrefix = st.replayPrefix) :
    Durable request calls k (s.setLedger st') := by
  refine h.setLedger 0 st' fun slot hslot => ?_
  rw [hreplay] at hslot
  exact h.inv.replay 0 st hst slot hslot

/-! ### Reading the ledger -/

theorem keeps_loadClaim (claim : Claim Body) (hreq : claim.request = request)
    (hmem : .claim claim ∈ s.ledger.objects) (f : Claim Body → IssuedProg Body Payload α)
    (h : Durable request calls k s) (hf : Keeps A request calls live errors Q (f claim) s) :
    Keeps A request calls live errors Q ((loadClaim request (.claim claim)).bind f) s := by
  refine Prog.holds_bind (Q := fun c u => c = claim ∧ u = s) ?_ ?_
  · refine keeps_get _ _ h hmem ?_
    exact keeps_refuse _ _ _ (not_not.mpr hreq) (keeps_return _ h ⟨rfl, rfl⟩)
  · rintro _ _ _ ⟨rfl,rfl⟩
    exact hf

/-- The call id of a slot is bound to its claim, or is bound to it now. -/
theorem keeps_validateOrReconcile {call : ToolCall} (hcall : call ∈ calls.take k)
    (h : Durable request calls k s) :
    Keeps A request calls live errors (fun _ u => Durable request calls k u ∧ Moves s u ∧
        u.tools = s.tools ∧
        u.ledger.bindings.get? (.call call.callId) = some (.claim ⟨request, call⟩))
      (validateOrReconcileClaimBinding request ⟨request, call⟩) s := by
  obtain ⟨slot,hslot,hclaim⟩ := exists_issuedSlot request hcall
  have hstored := (h.slot_bound slot hslot).2.2
  rw [hclaim] at hstored
  -- what both branches do with the claim they find
  have hfinish : ∀ u : RecoveryState Body A, Durable request calls k u → Moves s u →
      u.tools = s.tools →
      u.ledger.bindings.get? (.call call.callId) = some (.claim ⟨request, call⟩) →
      Keeps A request calls live errors (fun _ u => Durable request calls k u ∧ Moves s u ∧
          u.tools = s.tools ∧
          u.ledger.bindings.get? (.call call.callId) = some (.claim ⟨request, call⟩))
        ((loadClaim request (.claim ⟨request, call⟩)).bind fun loaded =>
          refuse (loaded ≠ ⟨request, call⟩) (.conflict call.callId)) u := by
    intro u hu hsu htools hbound
    refine keeps_loadClaim _ rfl (hsu.grows.objects _ hstored) _ hu ?_
    rw [refuse, raiseIf_neg _ _ (not_not.mpr rfl)]
    exact ⟨⟨k, hu⟩, hu, hsu, htools, hbound⟩
  refine Prog.holds_bind (Q := fun found u => found = some (.claim ⟨request, call⟩) ∧
    Durable request calls k u ∧ Moves s u ∧ u.tools = s.tools ∧
    u.ledger.bindings.get? (.call call.callId) = some (.claim ⟨request, call⟩)) ?_ ?_
  · refine keeps_resolve _ _ h ?_
    cases hbound : s.ledger.bindings.get? (.call call.callId) with
    | some v =>
      obtain ⟨other,hother,hid,rfl⟩ := h.call_bound _ _ hbound
      have hsame : other = call := h.call_eq hother hcall hid
      rw [hsame] at hbound ⊢
      exact keeps_return _ h ⟨rfl, h, .refl s, rfl, hbound⟩
    | none =>
      have hu := h.bindCall hcall hbound
      have hgrows := Grows.set (s := s.ledger) (.call call.callId) (.claim ⟨request, call⟩) hbound
      refine keeps_bind_free _ _ _ h hbound ?_
      have hread : ((s.ledger.bindings.set (.call call.callId) (.claim ⟨request, call⟩)).get?
          (.call call.callId)) = some (.claim ⟨request, call⟩) := Dict.get?_set_self _ _ _
      refine ⟨⟨k, hu⟩, fun _ h => (by cases h), fun script => ⟨⟨k, hu⟩, fun _ => rfl, ?_⟩⟩
      rintro r hr
      cases hr
      exact ⟨⟨k, hu⟩, hread, hu, ⟨hgrows, rfl, fun _ _ _ h => h⟩, rfl, hread⟩
  · rintro _ u _ ⟨rfl,hu,hsu,htools,hbound⟩
    exact hfinish u hu hsu htools hbound

theorem keeps_resolveSlots (h : Durable request calls k s) (count ordinal : Nat) :
    Keeps A request calls live errors (fun refs u => u = s ∧
        refs = (List.range' ordinal count).map
          fun n => ((issuedSlots request (calls.take k))[n]?).map .slot)
      (resolveSlots count ordinal) s := by
  induction count generalizing ordinal with
  | zero => exact keeps_return _ h ⟨rfl, rfl⟩
  | succ count ih =>
    refine keeps_resolve _ _ h (Prog.holds_bind (ih (ordinal + 1)) ?_)
    rintro _ _ _ ⟨rfl,rfl⟩
    refine keeps_return _ h ⟨rfl, ?_⟩
    rw [List.range'_succ, List.map_cons, h.slots ordinal]

theorem keeps_loadSlot (ordinal : Nat) (slot : Slot Body) (hreq : slot.request = request)
    (hord : slot.ordinal = ordinal) (hslot : .slot slot ∈ s.ledger.objects)
    (hclaim : .claim slot.claim ∈ s.ledger.objects) (h : Durable request calls k s) :
    Keeps A request calls live errors (fun a u => u = s ∧ a = slot)
      (loadSlot request (.slot slot) ordinal) s := by
  refine keeps_get _ _ h hslot (keeps_refuse _ _ _ ?_ ?_)
  · rw [not_or, not_not, not_not]
    exact ⟨hreq, hord⟩
  · refine keeps_loadClaim slot.claim (slot.valid.trans hreq) hclaim _ h ?_
    exact keeps_refuse _ _ _ (not_not.mpr rfl) (keeps_return _ h ⟨rfl, rfl⟩)

theorem keeps_loadSlots (rest : List (Slot Body)) (ordinal : Nat) (seenClaims : List (Claim Body))
    (hid : ∀ (i : Nat) (slot : Slot Body), rest[i]? = some slot →
      slot.request = request ∧ slot.ordinal = ordinal + i)
    (hstored : ∀ slot ∈ rest, .slot slot ∈ s.ledger.objects ∧
      .claim slot.claim ∈ s.ledger.objects)
    (hnodup : (rest.map (·.claim)).Nodup)
    (hseen : ∀ slot ∈ rest, slot.claim ∉ seenClaims) (h : Durable request calls k s) :
    Keeps A request calls live errors (fun out u => u = s ∧ out = rest)
      (loadSlots request ordinal seenClaims (rest.map .slot)) s := by
  induction rest generalizing ordinal seenClaims with
  | nil => exact keeps_return _ h ⟨rfl, rfl⟩
  | cons slot rest ih =>
    obtain ⟨hreq,hord⟩ := hid 0 slot rfl
    obtain ⟨hs,hc⟩ := hstored slot List.mem_cons_self
    rw [List.map_cons, List.nodup_cons] at hnodup
    refine Prog.holds_bind (keeps_loadSlot ordinal slot hreq hord hs hc h) ?_
    rintro a _ _ ⟨rfl,rfl⟩
    refine keeps_refuse _ _ _ (hseen a List.mem_cons_self) ?_
    refine Prog.holds_bind (ih (ordinal + 1) (a.claim :: seenClaims) ?_ ?_ hnodup.2 ?_) ?_
    · intro i b hb
      obtain ⟨h1,h2⟩ := hid (i + 1) b (by simpa using hb)
      exact ⟨h1, by omega⟩
    · exact fun b hb => hstored b (List.mem_cons_of_mem a hb)
    · intro b hb
      rw [List.mem_cons, not_or]
      refine ⟨fun he => hnodup.1 ?_, hseen b (List.mem_cons_of_mem a hb)⟩
      exact he ▸ List.mem_map_of_mem hb
    · rintro out _ _ ⟨rfl,rfl⟩
      exact keeps_return _ h ⟨rfl, rfl⟩

theorem keeps_reconcileSlots (rest : List (Slot Body))
    (hrest : ∀ slot ∈ rest, slot ∈ issuedSlots request (calls.take k))
    (h : Durable request calls k s) :
    Keeps A request calls live errors (fun _ u => Durable request calls k u ∧ Moves s u ∧
        u.tools = s.tools ∧ ∀ slot ∈ rest,
          u.ledger.bindings.get? (.call slot.claim.call.callId) = some (.claim slot.claim))
      (reconcileSlots request rest) s := by
  induction rest generalizing s with
  | nil => exact keeps_return _ h ⟨h, .refl s, rfl, fun _ hmem => by cases hmem⟩
  | cons slot rest ih =>
    obtain ⟨n,call,hcall,rfl⟩ := mem_issuedSlots request (hrest slot List.mem_cons_self)
    refine Prog.holds_bind (keeps_validateOrReconcile hcall h) ?_
    rintro _ t _ ⟨ht,hst,htools,hbound⟩
    refine Prog.holds_mono (ih (fun a ha => hrest a (List.mem_cons_of_mem _ ha)) ht) ?_
    rintro _ u _ ⟨hu,htu,htools',hothers⟩
    refine ⟨hu, hst.trans htu, htools'.trans htools, fun a ha => ?_⟩
    rcases List.mem_cons.mp ha with rfl | ha
    · exact htu.grows.bindings _ _ hbound
    · exact hothers a ha

/-- A ledger reads the slots of the calls, and has the call ids of all of them bound. -/
theorem keeps_readSlots (h : Durable request calls k s) (hlimit : calls.length ≤ request.limit) :
    Keeps A request calls live errors (fun out u => out = issuedSlots request (calls.take k) ∧
        Durable request calls k u ∧ Moves s u ∧ u.tools = s.tools ∧
        Scanned (issuedSlots request (calls.take k)) u.ledger)
      (readSlots request) s := by
  have hlen : (issuedSlots request (calls.take k)).length = k := by
    rw [issuedSlots_length, List.length_take_of_le h.le]
  have hbound : k ≤ request.limit := h.le.trans hlimit
  have hoverflow : s.ledger.bindings.get? (.slot request.limit) = none := by
    rw [h.slots.none_iff, hlen]
    exact hbound
  obtain ⟨slots,hocc,hvalid,_,_⟩ := h.inv.slots
  have hsame : slots = issuedSlots request (calls.take k) := hocc.unique h.slots
  rw [hsame] at hvalid
  refine keeps_resolve _ _ h ?_
  rw [hoverflow]
  refine keeps_refuse _ _ _ (by simp) (Prog.holds_bind (keeps_resolveSlots h request.limit 0) ?_)
  rintro _ s _ ⟨rfl,rfl⟩
  rw [beforeGap_slots request.limit 0 (by omega), List.drop_zero]
  refine Prog.holds_bind (Q := fun bound u => u = s ∧
    bound = (issuedSlots request (calls.take k)).map .slot) ⟨⟨k, h⟩, rfl, rfl⟩ ?_
  rintro _ s _ ⟨rfl,rfl⟩
  refine Prog.holds_bind (keeps_loadSlots _ 0 [] ?_ ?_ hvalid.distinct ?_ h) ?_
  · intro i slot hslot
    rw [Nat.zero_add]
    exact hvalid.identity i slot hslot
  · exact fun slot hslot => (h.slot_bound slot hslot).2
  · exact fun _ _ => List.not_mem_nil
  · rintro _ s _ ⟨rfl,rfl⟩
    refine Prog.holds_bind (keeps_reconcileSlots _ (fun _ ha => ha) h) ?_
    rintro _ u _ ⟨hu,hsu,htools,hreconciled⟩
    refine keeps_return _ hu ⟨rfl, hu, hsu, htools, ⟨fun n slot hslot => ?_, hreconciled⟩⟩
    exact (hu.slots.get_iff n slot).mpr hslot

/-! ### Claims and terminals -/

/-- The next call reserves the next slot. -/
theorem keeps_reserve {call : ToolCall} (h : Durable request calls k s)
    (hcall : calls[k]? = some call)
    (hfresh : call.callId ∉ (calls.take k).map ToolCall.callId)
    (hlimit : calls.length ≤ request.limit)
    (hclaim : .claim ⟨request, call⟩ ∈ s.ledger.objects) (fuel : Nat) :
    Keeps A request calls live errors (fun _ u => Durable request calls (k + 1) u ∧ Moves s u ∧
        u.tools = s.tools) (reserve request ⟨request, call⟩ (fuel + 1)) s := by
  have hlt : k < calls.length := (List.getElem?_eq_some_iff.mp hcall).1
  have hlen : (issuedSlots request (calls.take k)).length = k := by
    rw [issuedSlots_length, List.length_take_of_le h.le]
  refine Prog.holds_bind (keeps_readSlots h hlimit) ?_
  rintro slots t _ ⟨hslots,ht,hst,htools,hscanned⟩
  have hnone : slots.filter (fun slot => slot.claim = (⟨request, call⟩ : Claim Body)) = [] := by
    rw [hslots, List.filter_eq_nil_iff]
    intro a ha he
    obtain ⟨_,other,hother,rfl⟩ := mem_issuedSlots request ha
    cases of_decide_eq_true he
    exact hfresh (List.mem_map_of_mem hother)
  rw [hnone]
  rw [← hslots] at hlen
  dsimp only
  generalize slots.length = ordinal at hlen
  subst hlen
  refine keeps_refuse _ _ _ (by omega) ?_
  rw [dif_pos rfl]
  have hfree : t.ledger.bindings.get? (.slot ordinal) = none := by
    rw [ht.slots.none_iff, issuedSlots_length, List.length_take_of_le h.le]
  have hbound := ht.storeSlot hcall hfresh (by omega) (hst.grows.objects _ hclaim) hscanned
  refine keeps_store _ _ _ ht hfree ?_
  rw [if_pos rfl]
  refine keeps_resolve _ _ hbound (keeps_refuse _ _ _ ?_ ?_)
  · rw [RecoveryState.stored, Dict.get?_set_self, not_not]
  · exact keeps_return _ hbound ⟨hbound, hst.trans (moves_stored _ _ hfree), htools⟩

theorem keeps_claimAndReserve {call : ToolCall} (h : Durable request calls k s)
    (hcall : calls[k]? = some call)
    (hfresh : call.callId ∉ (calls.take k).map ToolCall.callId)
    (hlimit : calls.length ≤ request.limit) :
    Keeps A request calls live errors (fun claim u => claim = ⟨request, call⟩ ∧
        Durable request calls (k + 1) u ∧ Moves s u ∧ u.tools = s.tools)
      (claimAndReserve request call) s := by
  refine keeps_put _ _ h ?_
  have hput := h.put (.claim ⟨request, call⟩)
  have hmoves := moves_putObject (s := s) (.claim ⟨request, call⟩)
  refine keeps_resolve _ _ hput ?_
  cases hbound : (s.putObject (.claim ⟨request, call⟩)).ledger.bindings.get?
      (.call call.callId) with
  | some v =>
    obtain ⟨other,hother,hid,_⟩ := h.call_bound _ _ hbound
    exact absurd (hid ▸ List.mem_map_of_mem hother) hfresh
  | none =>
    refine Prog.holds_bind (keeps_reserve hput hcall hfresh hlimit List.mem_cons_self _) ?_
    rintro _ t _ ⟨ht,hst,htools⟩
    have hmem : call ∈ calls.take (k + 1) := by
      rw [List.take_add_one, hcall]
      simp
    refine Prog.holds_bind (keeps_validateOrReconcile hmem ht) ?_
    rintro _ u _ ⟨hu,htu,htools',_⟩
    exact keeps_return _ hu ⟨rfl, hu, (hmoves.trans hst).trans htu, htools'.trans htools⟩

theorem keeps_terminalForClaim (claim : Claim Body) (h : Durable request calls k s) :
    Keeps A request calls live errors (fun found u => u = s ∧
        (found.map .terminal = s.ledger.bindings.get? (.terminal claim)) ∧
        ∀ terminal, found = some terminal → terminal.claim = claim)
      (terminalForClaim claim) s := by
  refine keeps_resolve _ _ h ?_
  cases hbound : s.ledger.bindings.get? (.terminal claim) with
  | none => exact keeps_return _ h ⟨rfl, rfl, fun _ he => by cases he⟩
  | some v =>
    obtain ⟨hmem,terminal,rfl,hclaim⟩ := h.inv.terminals claim v hbound
    refine Prog.holds_bind (Q := fun found u => u = s ∧ found = terminal) ?_ ?_
    · refine keeps_get _ _ h hmem ?_
      exact keeps_refuse _ _ _ (not_not.mpr hclaim) (keeps_return _ h ⟨rfl, rfl⟩)
    · rintro _ s _ ⟨rfl,rfl⟩
      refine keeps_return _ h ⟨rfl, rfl, fun _ he => ?_⟩
      cases he
      exact hclaim

/- The reads of the Tool Call Store. -/
theorem keeps_toolStoreGet (call : ToolCall)
    (f : Except String (Option ToolCallStoreEntry) → IssuedProg Body Payload α)
    (h : Durable request calls k s)
    (hf : Keeps A request calls live errors Q (f (A.get call s.tools)) s) :
    Keeps A request calls live errors Q ((perform (.toolStoreGet call)).bind f) s :=
  keeps_call (.toolStoreGet call) f _ s (fun _ => rfl) (fun _ h => by cases h) h hf

theorem keeps_loadTerminalResult (entry : ToolCallStoreEntry)
    (f : Except String (ToolResult Payload) → IssuedProg Body Payload α)
    (h : Durable request calls k s)
    (hf : Keeps A request calls live errors Q (f (A.loadTerminalResult entry s.tools)) s) :
    Keeps A request calls live errors Q ((perform (.loadTerminalResult entry)).bind f) s :=
  keeps_call (.loadTerminalResult entry) f _ s (fun _ => rfl) (fun _ h => by cases h) h hf

/-- An answer of the Tool Call Store or of the executor, whose exceptions pass through. -/
theorem keeps_fromToolStore {β : Type} (x : Except String β)
    (f : β → IssuedProg Body Payload α) (h : Durable request calls k s)
    (herrors : ∀ message, x = .error message → errors (.toolStore message))
    (hf : ∀ b, x = .ok b → Keeps A request calls live errors Q (f b) s) :
    Keeps A request calls live errors Q ((fromToolStore x).bind f) s := by
  cases x with
  | error message => exact keeps_raise _ h (herrors message rfl)
  | ok b => exact hf b rfl

/-- A bound terminal is what the Tool Call Store has. -/
theorem keeps_authoritativeTerminal (terminal : IssuedToolCallTerminal Body Payload)
    (h : Durable request calls k s)
    (hbound : s.ledger.bindings.get? (.terminal terminal.claim) = some (.terminal terminal)) :
    Keeps A request calls live errors (fun found u => u = s ∧ found.1 = terminal.result ∧
        A.Authoritative s.tools terminal.claim.call found.2 terminal.result)
      (authoritativeTerminal terminal) s := by
  obtain ⟨entry,hentry⟩ := h.terminals _ _ hbound
  refine keeps_toolStoreGet _ _ h ?_
  rw [hentry.get]
  refine keeps_loadTerminalResult _ _ h ?_
  rw [hentry.load]
  refine keeps_refuse _ _ _ (not_not.mpr rfl) ?_
  exact keeps_return _ h ⟨rfl, rfl, hentry⟩

variable (hA : A.Steady)
include hA

/-- An authoritative result is bound as the terminal of its claim. -/
theorem keeps_recordTerminal (claim : Claim Body) (result : ToolResult Payload)
    (entry : ToolCallStoreEntry) (h : Durable request calls k s)
    (hfree : s.ledger.bindings.get? (.terminal claim) = none)
    (hresult : A.Authoritative s.tools claim.call entry result)
    (herrors : ∀ message, errors (.toolStore message)) :
    Keeps A request calls live errors (fun _ u => Durable request calls k u ∧ Moves s u ∧
        (u.ledger.bindings.get? (.terminal claim)).isSome = true)
      (recordTerminal claim result) s := by
  have htools := hA.persist_keeps result s.tools h.tools
  have ht := h.setTools _ (hA.persist_inv result s.tools h.tools) htools
  unfold recordTerminal
  rw [dif_pos hresult.call]
  refine keeps_call (.persistResult result) _ _ _ (fun _ => rfl) (fun _ h => by cases h) h ?_
  cases hpersisted : (A.persistResult result s.tools).1 with
  | error message => exact keeps_raise _ ht (herrors message)
  | ok exact' =>
    rw [hA.persist_exact _ _ _ hpersisted]
    refine keeps_refuse _ _ _ (by simp) (keeps_toolStoreGet _ _ ht ?_)
    have hkept := htools _ _ _ hresult
    rw [hkept.get]
    refine keeps_loadTerminalResult _ _ ht ?_
    rw [hkept.load]
    refine keeps_refuse _ _ _ (not_not.mpr rfl) ?_
    have hmoved : Moves s ⟨s.ledger, (A.persistResult result s.tools).2⟩ :=
      ⟨.refl _, rfl, htools⟩
    have hbound := ht.storeTerminal ⟨claim, result, hresult.call⟩ entry hfree hkept
    have hmoves := hmoved.trans (moves_stored _
      (.terminal ⟨claim, result, hresult.call⟩) hfree)
    have hread := Dict.get?_set_self s.ledger.bindings (.terminal claim)
      (.terminal ⟨claim, result, hresult.call⟩)
    refine Prog.holds_bind (Q := fun _ u => u = RecoveryState.stored
      ⟨s.ledger, (A.persistResult result s.tools).2⟩ (.terminal claim)
      (.terminal ⟨claim, result, hresult.call⟩)) ?_ ?_
    · exact keeps_store _ _ _ ht hfree (keeps_return _ hbound rfl)
    · rintro _ _ _ rfl
      refine keeps_resolve _ _ hbound ?_
      rw [RecoveryState.stored, hread]
      refine Prog.holds_bind (Q := fun found u => u = RecoveryState.stored
        ⟨s.ledger, (A.persistResult result s.tools).2⟩ (.terminal claim)
        (.terminal ⟨claim, result, hresult.call⟩) ∧ found = ⟨claim, result, hresult.call⟩)
        (keeps_get _ _ hbound List.mem_cons_self (keeps_refuse _ _ _ (not_not.mpr rfl)
          (keeps_return _ hbound ⟨rfl, rfl⟩))) ?_
      rintro _ _ _ ⟨rfl,rfl⟩
      refine keeps_refuse _ _ _ (not_not.mpr rfl) (keeps_return _ hbound ⟨hbound, hmoves, ?_⟩)
      rw [RecoveryState.stored, hread]
      rfl

/-- A call without a terminal adopts the result the Tool Call Store has, or is executed while
its entry is not terminal. -/
theorem keeps_finishCall (claim : Claim Body) (h : Durable request calls k s)
    (hfree : s.ledger.bindings.get? (.terminal claim) = none) (hlive : ¬ live)
    (herrors : ∀ message, errors (.toolStore message)) :
    Keeps A request calls live errors (fun _ u => Durable request calls k u ∧ Moves s u ∧
        (u.ledger.bindings.get? (.terminal claim)).isSome = true)
      (finishCall claim claim.call) s := by
  have hexecuted : (∀ entry, A.get claim.call s.tools = .ok (some entry) →
      terminalState entry = false) →
      Keeps A request calls live errors (fun _ u => Durable request calls k u ∧ Moves s u ∧
          (u.ledger.bindings.get? (.terminal claim)).isSome = true)
        (finishCall.executed claim claim.call) s := by
    intro hopen
    refine ⟨⟨k, h⟩, fun call hcall entry hentry => ?_, fun script => ?_⟩
    · cases hcall
      exact hopen entry hentry
    · cases script with
      | none => exact ⟨⟨k, h⟩, fun hl => absurd hl hlive, fun _ hr => by cases hr⟩
      | some script =>
        have htools := hA.execute_keeps claim.call script s.tools h.tools
        have ht := h.setTools _ (hA.execute_inv claim.call script s.tools h.tools) htools
        have hmoved : Moves s ⟨s.ledger, (A.execute claim.call script s.tools).2⟩ :=
          ⟨.refl _, rfl, htools⟩
        refine ⟨⟨k, ht⟩, fun hl => absurd hl hlive, fun r hr => ?_⟩
        cases r with
        | error message => exact keeps_raise _ ht (herrors message)
        | ok result =>
          obtain ⟨entry,hentry⟩ := hA.execute_settles claim.call script s.tools result h.tools hr
          refine Prog.holds_mono (keeps_recordTerminal hA claim result entry ht hfree hentry
            herrors) ?_
          rintro _ u _ ⟨hu,htu,hbound⟩
          exact ⟨hu, hmoved.trans htu, hbound⟩
  refine keeps_toolStoreGet _ _ h (keeps_fromToolStore _ _ h (fun m _ => herrors m) ?_)
  intro found hget
  cases found with
  | none => exact hexecuted fun entry hentry => by rw [hget] at hentry; cases hentry
  | some entry =>
    by_cases hstate : terminalState entry = true
    · simp only [hstate, if_true]
      refine keeps_loadTerminalResult entry _ h
        (keeps_fromToolStore _ _ h (fun m _ => herrors m) ?_)
      intro result hload
      exact keeps_recordTerminal hA claim result entry h hfree
        ⟨hget, hstate, hload, hA.load_cites _ _ _ _ h.tools hget hload⟩ herrors
    · simp only [hstate]
      refine hexecuted fun other hother => ?_
      rw [hget] at hother
      cases hother
      simpa using hstate

omit hA

/-! ### Sessions -/

variable (request calls) in
/-- A session whose ledger has read `m` slots and has issued the first `j` calls. -/
structure InSession (m j : Nat) (s : RecoveryState Body A) : Prop where
  durable : Durable request calls (max m j) s
  fields : ∃ seen, s.ledger.ledgers.get? 0 =
      some ⟨false, [], seen, issuedSlots request (calls.take m), min j m⟩ ∧
    ∀ callId, callId ∈ seen ↔ callId ∈ (calls.take j).map ToolCall.callId
  finished : ∀ call ∈ calls.take j,
    (s.ledger.bindings.get? (.terminal ⟨request, call⟩)).isSome = true

/-- The claim of the next call: its slot of the replay prefix, or a new one behind it. -/
theorem keeps_issuedClaim {m j : Nat} {call : ToolCall} {locked : Bool} {active seen : List String}
    (h : Durable request calls (max m j) s)
    (hst : s.ledger.ledgers.get? 0 =
      some ⟨locked, active, seen, issuedSlots request (calls.take m), min j m⟩)
    (hcall : calls[j]? = some call)
    (hfresh : call.callId ∉ (calls.take j).map ToolCall.callId)
    (hlimit : calls.length ≤ request.limit) :
    Keeps A request calls live errors (fun claim u => claim = ⟨request, call⟩ ∧
        Durable request calls (max m (j + 1)) u ∧ Grows s.ledger u.ledger ∧
        u.tools = s.tools ∧ u.ledger.ledgers.get? 0 =
          some ⟨locked, active, seen, issuedSlots request (calls.take m), min (j + 1) m⟩)
      (issuedClaim request 0 call) s := by
  have hread := h.setFields hst
    ⟨locked, active, seen, issuedSlots request (calls.take m), min j m⟩ rfl
  refine keeps_onLedger (.replaySlot 0) LedgerState.replaySlot (fun _ => rfl)
    (fun _ h => by cases h) _ _ _ hst rfl _ h ?_
  by_cases hjm : j < m
  · have hmin : min j m = j := Nat.min_eq_left (Nat.le_of_lt hjm)
    have hslot : (issuedSlots request (calls.take m))[min j m]? =
        some ⟨request, j, ⟨request, call⟩, rfl⟩ := by
      rw [hmin, issuedSlots_get, List.getElem?_take_of_lt hjm, hcall]
      rfl
    simp only [hslot, ne_eq, not_true_eq_false, if_false]
    have hmem : call ∈ calls.take (max m j) := by
      have htake : (calls.take (max m j))[j]? = some call := by
        rw [List.getElem?_take_of_lt (by omega), hcall]
      exact List.mem_of_getElem? htake
    refine Prog.holds_bind (keeps_validateOrReconcile hmem hread) ?_
    rintro _ t _ ⟨ht,hst',htools,_⟩
    have hfields : t.ledger.ledgers.get? 0 =
        some ⟨locked, active, seen, issuedSlots request (calls.take m), min j m⟩ := by
      rw [hst'.ledgers]
      exact setLedger_get s _
    have hadvanced : min j m + 1 = min (j + 1) m := by omega
    have hu := ht.setFields hfields
      ⟨locked, active, seen, issuedSlots request (calls.take m), min (j + 1) m⟩ rfl
    refine keeps_onLedger (.advance 0) LedgerState.advance (fun _ => rfl)
      (fun _ h => by cases h) _
      ⟨locked, active, seen, issuedSlots request (calls.take m), min (j + 1) m⟩ () hfields
      (by rw [LedgerState.advance, ← hadvanced]) _ ht ?_
    have hmax : max m (j + 1) = max m j := by omega
    rw [hmax]
    exact keeps_return _ hu ⟨rfl, hu, ⟨hst'.grows.objects, hst'.grows.bindings⟩, htools,
      setLedger_get t _⟩
  · have hmin : min j m = m := Nat.min_eq_right (by omega)
    have hmax : max m j = j := by omega
    have hnone : (issuedSlots request (calls.take m))[min j m]? = none := by
      rw [hmin, List.getElem?_eq_none]
      rw [issuedSlots_length, List.length_take]
      omega
    simp only [hnone]
    rw [hmax] at hread
    refine Prog.holds_mono (keeps_claimAndReserve hread hcall hfresh hlimit) ?_
    rintro claim u _ ⟨hclaim,hu,hsu,htools⟩
    have hmax' : max m (j + 1) = j + 1 := by omega
    have hmin' : min (j + 1) m = min j m := by omega
    rw [hmax', hmin', hsu.ledgers]
    exact ⟨hclaim, hu, ⟨hsu.grows.objects, hsu.grows.bindings⟩, htools, setLedger_get s _⟩

/- A ledger operation of which only the durable part matters: it may also not be enabled. -/
theorem keeps_local (hlive : ¬ live) (o : IssuedOp Body Payload)
    (g : LedgerState Body → Option (o.Reply × LedgerState Body))
    (hexec : ∀ (s : RecoveryState Body A) script, recoveryExec A o script s =
      match s.ledger.onLedger 0 g with
      | none => (none, s)
      | some (r, ledger) => (some r, { s with ledger := ledger }))
    (ho : ∀ call, o ≠ .execute call)
    (hg : ∀ st r st', g st = some (r, st') → st'.replayPrefix = st.replayPrefix)
    (f : o.Reply → IssuedProg Body Payload α) (h : Durable request calls k s)
    (hf : ∀ r t, Durable request calls k t → Keeps A request calls live errors Q (f r) t) :
    Keeps A request calls live errors Q ((perform o).bind f) s := by
  refine ⟨⟨k, h⟩, fun call hcall => absurd hcall (ho call), fun script => ?_⟩
  rw [hexec s script, IssuedStore.onLedger]
  cases hst : s.ledger.ledgers.get? 0 with
  | none => exact ⟨⟨k, h⟩, fun hl => absurd hl hlive, fun _ hr => by cases hr⟩
  | some st =>
    cases hstep : g st with
    | none =>
      simp only [hstep]
      exact ⟨⟨k, h⟩, fun hl => absurd hl hlive, fun _ hr => by cases hr⟩
    | some out =>
      obtain ⟨r,st'⟩ := out
      simp only [hstep]
      have ht := h.setFields hst st' (hg st r st' hstep)
      refine ⟨⟨k, ht⟩, fun hl => absurd hl hlive, fun r' hr => ?_⟩
      cases hr
      exact hf r _ ht

/-- The cleanup after an exception keeps the stores, and the exception passes. -/
theorem keeps_cleanup (hlive : ¬ live) (callId : String) (error : IssuedError)
    (h : Durable request calls k s) (herror : errors error) :
    Keeps A request calls live errors Q
      ((issue.leaveLocked 0 callId).bind fun _ => raise error) s := by
  refine keeps_local hlive (.acquire 0) LedgerState.acquire (fun _ _ => rfl)
    (fun _ h => by cases h) ?_ _ h ?_
  · intro st r st' hstep
    unfold LedgerState.acquire at hstep
    split at hstep <;> cases hstep
    rfl
  · intro _ t ht
    refine keeps_local hlive (.leave 0 callId) (LedgerState.leave callId) (fun _ _ => rfl)
      (fun _ h => by cases h) (fun st r st' hstep => by cases hstep; rfl) _ ht ?_
    intro _ u hu
    refine keeps_local hlive (.release 0) LedgerState.release (fun _ _ => rfl)
      (fun _ h => by cases h) (fun st r st' hstep => by cases hstep; rfl) _ hu ?_
    intro _ v hv
    exact keeps_raise error hv herror

/-- The cleanup after a return leaves the call id. -/
theorem keeps_left {callId : String} {seen : List String} {slots : List (Slot Body)} {n : Nat}
    (h : Durable request calls k s)
    (hst : s.ledger.ledgers.get? 0 = some ⟨false, [callId], seen, slots, n⟩) (a : α)
    (hQ : Q a (s.setLedger ⟨false, [], seen, slots, n⟩)) :
    Keeps A request calls live errors Q
      ((issue.leaveLocked 0 callId).bind fun _ => pure a) s := by
  have hlocked := h.setFields hst ⟨true, [callId], seen, slots, n⟩ rfl
  refine keeps_onLedger (.acquire 0) LedgerState.acquire (fun _ => rfl)
    (fun _ h => by cases h) _ _ () hst rfl _ h ?_
  have hleft := hlocked.setFields (setLedger_get s _) ⟨true, [], seen, slots, n⟩ rfl
  refine keeps_onLedger (.leave 0 callId) (LedgerState.leave callId) (fun _ => rfl)
    (fun _ h => by cases h) _ ⟨true, [], seen, slots, n⟩ () (setLedger_get s _)
    (by simp [LedgerState.leave]) _ hlocked ?_
  refine keeps_onLedger (.release 0) LedgerState.release (fun _ => rfl)
    (fun _ h => by cases h) _ _ () (setLedger_get _ _) rfl _ hleft ?_
  refine keeps_return a (hleft.setFields (setLedger_get _ _) _ rfl) ?_
  simpa using hQ

theorem keeps_lookupCall {m j : Nat} {call : ToolCall} {locked : Bool} {active seen : List String}
    (h : Durable request calls (max m j) s)
    (hst : s.ledger.ledgers.get? 0 =
      some ⟨locked, active, seen, issuedSlots request (calls.take m), min j m⟩)
    (hcall : calls[j]? = some call)
    (hfresh : call.callId ∉ (calls.take j).map ToolCall.callId)
    (hlimit : calls.length ≤ request.limit) :
    Keeps A request calls live errors (fun found u => found.1 = ⟨request, call⟩ ∧
        Durable request calls (max m (j + 1)) u ∧ Grows s.ledger u.ledger ∧
        u.ledger.ledgers.get? 0 =
          some ⟨locked, active, seen, issuedSlots request (calls.take m), min (j + 1) m⟩ ∧
        found.2.map .terminal = u.ledger.bindings.get? (.terminal ⟨request, call⟩) ∧
        ∀ terminal, found.2 = some terminal → terminal.claim = ⟨request, call⟩)
      (lookupCall request 0 call) s := by
  refine Prog.holds_bind (keeps_issuedClaim h hst hcall hfresh hlimit) ?_
  rintro _ t _ ⟨rfl,ht,hgrows,_,hfields⟩
  refine Prog.holds_bind (keeps_terminalForClaim _ ht) ?_
  rintro found t _ ⟨rfl,hfound,hclaim⟩
  exact keeps_return _ ht ⟨rfl, ht, hgrows, hfields, hfound, hclaim⟩

omit [ToolIdentity] [DecidableEq Payload] in
theorem isSome_grows {l l' : IssuedStore Body Payload} (h : Grows l l') (key : IssuedKey Body)
    (hkey : (l.bindings.get? key).isSome = true) : (l'.bindings.get? key).isSome = true := by
  obtain ⟨v,hv⟩ := Option.isSome_iff_exists.mp hkey
  rw [h.bindings _ _ hv]
  rfl

include hA in
/-- What a claimed call does: replay its terminal, or finish without one. -/
theorem keeps_claimed {call : ToolCall} (existing : Option (IssuedToolCallTerminal Body Payload))
    (h : Durable request calls k s)
    (hfound : existing.map .terminal = s.ledger.bindings.get? (.terminal ⟨request, call⟩))
    (hclaim : ∀ terminal, existing = some terminal → terminal.claim = ⟨request, call⟩)
    (hlive : ¬ live) (herrors : ∀ message, errors (.toolStore message)) :
    Keeps A request calls live errors (fun _ u => Durable request calls k u ∧ Moves s u ∧
        (u.ledger.bindings.get? (.terminal ⟨request, call⟩)).isSome = true)
      (match existing with
        | some terminal => do
          let (result, _entry) ← authoritativeTerminal terminal
          return result
        | none => finishCall ⟨request, call⟩ call) s := by
  cases existing with
  | none => exact keeps_finishCall hA ⟨request, call⟩ h hfound.symm hlive herrors
  | some terminal =>
    have hbound : s.ledger.bindings.get? (.terminal terminal.claim) = some (.terminal terminal) := by
      rw [hclaim terminal rfl]
      exact hfound.symm
    refine Prog.holds_bind (keeps_authoritativeTerminal terminal h hbound) ?_
    rintro _ s _ ⟨rfl,_,_⟩
    refine keeps_return _ h ⟨h, .refl s, ?_⟩
    rw [← hfound]
    rfl

def uniqueMessage : String := "Tool Call IDs must be unique within a Step attempt"

include hA in
/-- One issued call of a session. -/
theorem keeps_issue {m j : Nat} {call : ToolCall} (h : InSession request calls m j s)
    (hcall : calls[j]? = some call) (hlimit : calls.length ≤ request.limit) (hlive : ¬ live)
    (herrors : ∀ message, errors (.toolStore message))
    (hunique : call.callId ∈ (calls.take j).map ToolCall.callId →
      errors (.value uniqueMessage)) :
    Keeps A request calls live errors (fun _ u => InSession request calls m (j + 1) u)
      (issue request 0 call) s := by
  obtain ⟨hdurable,⟨seen,hfields,hseen⟩,hfinished⟩ := h
  have htake : calls.take (j + 1) = calls.take j ++ [call] := by
    rw [List.take_add_one, hcall]
    rfl
  have hlocked := hdurable.setFields hfields
    ⟨true, [], seen, issuedSlots request (calls.take m), min j m⟩ rfl
  refine keeps_onLedger (.acquire 0) LedgerState.acquire (fun _ => rfl)
    (fun _ h => by cases h) _ _ () hfields rfl _ hdurable ?_
  by_cases hid : call.callId ∈ (calls.take j).map ToolCall.callId
  · refine keeps_onLedger (.enter 0 call.callId) (LedgerState.enter call.callId) (fun _ => rfl)
      (fun _ h => by cases h) _ _ false (setLedger_get s _)
      (by rw [LedgerState.enter, if_pos (.inr ((hseen _).mpr hid))]) _ hlocked ?_
    have hback := hlocked.setFields (setLedger_get s _)
      ⟨true, [], seen, issuedSlots request (calls.take m), min j m⟩ rfl
    rw [if_neg (by simp)]
    refine keeps_onLedger (.release 0) LedgerState.release (fun _ => rfl)
      (fun _ h => by cases h) _ _ () (setLedger_get _ _) rfl _ hback ?_
    exact keeps_raise _ (hback.setFields (setLedger_get _ _) _ rfl) (hunique hid)
  · have hopen : ¬ (call.callId ∈ ([] : List String) ∨ call.callId ∈ seen) := by
      rw [hseen]
      simpa using hid
    refine keeps_onLedger (.enter 0 call.callId) (LedgerState.enter call.callId) (fun _ => rfl)
      (fun _ h => by cases h) _ _ true (setLedger_get s _)
      (by rw [LedgerState.enter, if_neg hopen]) _ hlocked ?_
    have hentered := hlocked.setFields (setLedger_get s _) ⟨true, [call.callId],
      call.callId :: seen, issuedSlots request (calls.take m), min j m⟩ rfl
    rw [if_pos rfl]
    refine Prog.holds_bind (Prog.holds_handle (E := fun _ => False)
      (keeps_lookupCall hentered (setLedger_get _ _) hcall hid hlimit)
      fun _ _ _ hfalse => hfalse.elim) ?_
    rintro ⟨claim,existing⟩ t _ ⟨hclaim,ht,hgrows,hst,hfound,hclaims⟩
    have hclaim' : claim = ⟨request, call⟩ := hclaim
    subst hclaim'
    refine keeps_onLedger (.release 0) LedgerState.release (fun _ => rfl)
      (fun _ h => by cases h) _ _ () hst rfl _ ht ?_
    have hreleased := ht.setFields hst ⟨false, [call.callId], call.callId :: seen,
      issuedSlots request (calls.take m), min (j + 1) m⟩ rfl
    refine Prog.holds_bind (Prog.holds_handle (E := errors)
      (keeps_claimed hA existing hreleased hfound hclaims hlive herrors) ?_) ?_
    · intro error u hu herror
      obtain ⟨_,hu⟩ := hu
      exact keeps_cleanup hlive call.callId error hu herror
    · intro result u _ ⟨hu,hmoves,hterminal⟩
      have hfields' : u.ledger.ledgers.get? 0 = some ⟨false, [call.callId], call.callId :: seen,
          issuedSlots request (calls.take m), min (j + 1) m⟩ := by
        rw [hmoves.ledgers]
        exact setLedger_get t _
      refine keeps_left hu hfields' _ ?_
      refine ⟨hu.setFields hfields' _ rfl, ⟨call.callId :: seen, setLedger_get _ _, ?_⟩, ?_⟩
      · intro callId
        rw [List.mem_cons, hseen, htake, List.map_append, List.mem_append, List.map_singleton,
          List.mem_singleton, or_comm]
      · intro other hother
        rw [htake, List.mem_append, List.mem_singleton] at hother
        rcases hother with hother | rfl
        · exact isSome_grows hmoves.grows _ (isSome_grows hgrows _ (hfinished other hother))
        · exact hterminal

/-- A fresh ledger reads the slots that are there. -/
theorem keeps_newLedger (h : Durable request calls k s) (hlimit : calls.length ≤ request.limit) :
    Keeps A request calls live errors (fun _ u => InSession request calls k 0 u)
      (newLedger request 0 []) s := by
  refine Prog.holds_bind (keeps_readSlots h hlimit) ?_
  rintro _ t _ ⟨rfl,ht,_,_,_⟩
  have hopened := ht.setLedger 0 (.opened (issuedSlots request (calls.take k)))
    fun slot hslot => (ht.slot_bound slot hslot).1
  have hmax : max k 0 = k := Nat.max_zero k
  have hsession : InSession request calls k 0 (t.setLedger
      (.opened (issuedSlots request (calls.take k)))) := by
    refine ⟨?_, ⟨[], ?_, by simp⟩, by simp⟩
    · rw [hmax]
      exact hopened
    · rw [setLedger_get, Nat.zero_min]
      rfl
  refine ⟨⟨k, ht⟩, fun _ hcall => (by cases hcall), fun script => ⟨⟨k, hopened⟩, fun _ => rfl, ?_⟩⟩
  rintro r hr
  cases hr
  exact ⟨⟨k, hopened⟩, hsession⟩

include hA in
theorem keeps_issueAll {m j : Nat} (rest : List ToolCall) (hrest : calls.drop j = rest)
    (h : InSession request calls m j s) (hlimit : calls.length ≤ request.limit) (hlive : ¬ live)
    (herrors : ∀ message, errors (.toolStore message))
    (hunique : ¬ (calls.map ToolCall.callId).Nodup → errors (.value uniqueMessage)) :
    Keeps A request calls live errors (fun _ u => InSession request calls m (j + rest.length) u)
      (issueAll request 0 rest) s := by
  induction rest generalizing j s with
  | nil => exact keeps_return _ h.durable h
  | cons call rest ih =>
    have hcall : calls[j]? = some call := by
      have hget : (calls.drop j)[0]? = some call := by rw [hrest]; rfl
      simpa using hget
    have hdrop : calls.drop (j + 1) = rest := by
      have htail : (calls.drop j).drop 1 = rest := by rw [hrest]; rfl
      simpa [List.drop_drop] using htail
    -- a call id that was issued before makes the ids of the calls repeat
    have hrepeat : call.callId ∈ (calls.take j).map ToolCall.callId →
        ¬ (calls.map ToolCall.callId).Nodup := by
      intro hmem hnodup
      rw [← List.take_append_drop j calls, hrest, List.map_append, List.map_cons,
        List.nodup_append] at hnodup
      exact hnodup.2.2 _ hmem _ List.mem_cons_self rfl
    refine Prog.holds_bind (keeps_issue hA h hcall hlimit hlive herrors
      fun hmem => hunique (hrepeat hmem)) ?_
    intro result t _ ht
    refine Prog.holds_bind (ih hdrop ht) ?_
    intro results u _ hu
    refine keeps_return _ hu.durable ?_
    rwa [List.length_cons, Nat.add_comm rest.length 1, ← Nat.add_assoc]

include hA in
/-- The adapter's part of a session ends with a terminal for every call. -/
theorem keeps_adapter (h : Durable request calls k s) (hlimit : calls.length ≤ request.limit)
    (hlive : ¬ live) (herrors : ∀ message, errors (.toolStore message))
    (hunique : ¬ (calls.map ToolCall.callId).Nodup → errors (.value uniqueMessage)) :
    Keeps A request calls live errors (fun _ u => InSession request calls k calls.length u)
      (adapter request calls) s := by
  refine Prog.holds_bind (keeps_newLedger h hlimit) ?_
  intro _ t _ ht
  refine Prog.holds_mono (keeps_issueAll hA calls rfl ht hlimit hlive herrors hunique) ?_
  intro _ u _ hu
  rwa [Nat.zero_add] at hu

theorem keeps_evidenceFrom (rest : List (Slot Body)) (seenClaims : List (Claim Body))
    (h : Durable request calls k s) (hnodup : (rest.map (·.claim)).Nodup)
    (hseen : ∀ slot ∈ rest, slot.claim ∉ seenClaims)
    (hterminals : ∀ slot ∈ rest,
      (s.ledger.bindings.get? (.terminal slot.claim)).isSome = true) :
    Keeps A request calls live errors (fun found u => u = s ∧ List.Forall₂
        (fun slot out => A.Authoritative s.tools slot.claim.call out.2 out.1) rest found)
      (evidenceFrom seenClaims rest) s := by
  induction rest generalizing seenClaims with
  | nil => exact keeps_return _ h ⟨rfl, .nil⟩
  | cons slot rest ih =>
    rw [List.map_cons, List.nodup_cons] at hnodup
    refine keeps_refuse _ _ _ (hseen slot List.mem_cons_self) ?_
    refine Prog.holds_bind (keeps_terminalForClaim slot.claim h) ?_
    rintro found s _ ⟨rfl,hfound,hclaim⟩
    have hsome := hterminals slot List.mem_cons_self
    rw [← hfound] at hsome
    cases found with
    | none => cases hsome
    | some terminal =>
      have hbound : s.ledger.bindings.get? (.terminal terminal.claim) =
          some (.terminal terminal) := by
        rw [hclaim terminal rfl]
        exact hfound.symm
      refine Prog.holds_bind (keeps_authoritativeTerminal terminal h hbound) ?_
      rintro ⟨result,entry⟩ s _ ⟨rfl,_,hentry⟩
      refine Prog.holds_bind (ih (slot.claim :: seenClaims) hnodup.2 ?_ ?_) ?_
      · intro a ha
        rw [List.mem_cons, not_or]
        refine ⟨fun he => hnodup.1 ?_, hseen a (List.mem_cons_of_mem slot ha)⟩
        exact he ▸ List.mem_map_of_mem ha
      · exact fun a ha => hterminals a (List.mem_cons_of_mem slot ha)
      · rintro found s _ ⟨rfl,hrest⟩
        rw [hclaim terminal rfl] at hentry
        exact keeps_return _ h ⟨rfl, .cons hentry hrest⟩

/-- The checkpoint of a session that has issued all calls succeeds, with one authoritative
result for each call, in order. -/
theorem keeps_checkpoint {m : Nat} (h : InSession request calls m calls.length s)
    (hlimit : calls.length ≤ request.limit) :
    Keeps A request calls live errors (fun found u => List.Forall₂
        (fun call out => A.Authoritative u.tools call out.2 out.1) calls found)
      (checkpoint request) s := by
  obtain ⟨hdurable,⟨seen,hfields,_⟩,hfinished⟩ := h
  have hm : m ≤ calls.length := le_trans (Nat.le_max_left _ _) hdurable.le
  have hmin : min calls.length m = m := Nat.min_eq_right hm
  have hmax : max m calls.length = calls.length := Nat.max_eq_right hm
  rw [hmin] at hfields
  rw [hmax] at hdurable
  rw [List.take_length] at hfinished
  have hnone : (issuedSlots request (calls.take m))[m]? = none := by
    rw [List.getElem?_eq_none]
    rw [issuedSlots_length, List.length_take_of_le hm]
  have hlocked := hdurable.setFields hfields
    ⟨true, [], seen, issuedSlots request (calls.take m), m⟩ rfl
  have hcomplete : Keeps A request calls live errors (fun _ u =>
      u = s.setLedger ⟨false, [], seen, issuedSlots request (calls.take m), m⟩)
      (validateReplayComplete 0) s := by
    refine keeps_onLedger (.acquire 0) LedgerState.acquire (fun _ => rfl)
      (fun _ h => by cases h) _ _ () hfields rfl _ hdurable ?_
    refine keeps_onLedger (.replaySlot 0) LedgerState.replaySlot (fun _ => rfl)
      (fun _ h => by cases h) _ _ none (setLedger_get s _)
      (by rw [LedgerState.replaySlot, hnone]) _ hlocked ?_
    refine keeps_onLedger (.release 0) LedgerState.release (fun _ => rfl)
      (fun _ h => by cases h) _ _ () (setLedger_get _ _) rfl _
      (hlocked.setFields (setLedger_get s _) _ rfl) ?_
    refine keeps_return _ ((hlocked.setFields (setLedger_get s _) _ rfl).setFields
      (setLedger_get _ _) _ rfl) ?_
    simp
  refine Prog.holds_bind hcomplete ?_
  rintro _ _ _ rfl
  have hreleased := hdurable.setFields hfields
    ⟨false, [], seen, issuedSlots request (calls.take m), m⟩ rfl
  refine Prog.holds_bind (keeps_readSlots hreleased hlimit) ?_
  rintro _ t _ ⟨rfl,ht,hst,_,_⟩
  obtain ⟨slots,hocc,hvalid,_,_⟩ := ht.inv.slots
  have hsame : slots = issuedSlots request (calls.take calls.length) := hocc.unique ht.slots
  rw [hsame] at hvalid
  refine Prog.holds_mono (keeps_evidenceFrom _ [] ht hvalid.distinct
    (fun _ _ => List.not_mem_nil) ?_) ?_
  · intro slot hslot
    obtain ⟨_,call,hcall,rfl⟩ := mem_issuedSlots request hslot
    rw [List.take_length] at hcall
    exact isSome_grows hst.grows _ (hfinished call hcall)
  · rintro found t _ ⟨rfl,hfound⟩
    rw [List.take_length] at hfound
    rw [List.forall₂_iff_get] at hfound ⊢
    obtain ⟨hlength,hfound⟩ := hfound
    rw [issuedSlots_length] at hlength
    refine ⟨hlength, fun i h1 h2 => ?_⟩
    have hat := hfound i (by rw [issuedSlots_length]; exact h1) h2
    simpa [issuedSlots] using hat

end Rules

section Recovery

variable [ToolIdentity] {Body Payload : Type} [DecidableEq Body] [DecidableEq Payload]
variable {A : ToolAuthority Payload} (hA : A.Steady) {request : OptimStepRequest Body}
variable {calls : List ToolCall} (hlimit : calls.length ≤ request.limit)
include hA hlimit

/- The exceptions of a session: those of the Tool Call Store and the executor, and the one
   for call ids that repeat. -/
def sessionErrors (calls : List ToolCall) (error : IssuedError) : Prop :=
  (∃ message, error = .toolStore message) ∨
    error = .value uniqueMessage ∧ ¬ (calls.map ToolCall.callId).Nodup

theorem keeps_session {k : Nat} {s : RecoveryState Body A} (h : Durable request calls k s) :
    Keeps A request calls False (sessionErrors calls) (fun _ _ => True)
      (session request calls) s := by
  refine Prog.holds_bind (keeps_adapter hA h hlimit not_false (fun m => .inl ⟨m, rfl⟩)
    fun hrepeat => .inr ⟨rfl, hrepeat⟩) ?_
  intro _ t _ ht
  exact Prog.holds_mono (keeps_checkpoint ht hlimit) fun _ _ _ _ => trivial

/-- The stores after any number of sessions. -/
theorem recovered_durable (tools : A.State) (htools : A.inv tools)
    (sessions : List (List (Option A.Script))) :
    ∃ k, Durable request calls k (recovered A request calls tools sessions) := by
  have hstart : ∃ k, Durable request calls k (⟨.empty, tools⟩ : RecoveryState Body A) := by
    refine ⟨0, ledgerInv_empty request True, fun _ => rfl, Nat.zero_le _, ?_, htools, ?_⟩
    · simp
    · intro claim terminal hbound
      cases hbound
  unfold recovered
  generalize (⟨.empty, tools⟩ : RecoveryState Body A) = s at hstart
  induction sessions generalizing s with
  | nil => exact hstart
  | cons scripts rest ih =>
    obtain ⟨k,hs⟩ := hstart
    exact ih _ ((keeps_session hA hlimit hs).attempt scripts).1

/-- A session on the stores that any number of sessions left. -/
theorem recovery_holds (tools : A.State) (htools : A.inv tools)
    (sessions : List (List (Option A.Script))) (scripts : List (Option A.Script)) :
    let s := recovered A request calls tools sessions
    let run := (session request calls).attempt (recoveryExec A) scripts s
    let issued := (adapter request calls).attempt (recoveryExec A) scripts s
    (∀ error, run.outcome = .raised error → sessionErrors calls error) ∧
    (∀ event ∈ run.events, Careful A event.1 event.2) ∧
    ∀ results, issued.outcome = .returned results →
      ∀ later : Nat → Option A.Script, ∃ n found u,
        (checkpoint request).attempt (recoveryExec A) ((List.range n).map later) issued.state = u ∧
        u.outcome = .returned found ∧ List.Forall₂
          (fun call out => A.Authoritative u.state.tools call out.2 out.1) calls found := by
  intro s run issued
  obtain ⟨k,hs⟩ := recovered_durable hA hlimit tools htools sessions
  obtain ⟨_,hsteps,herrors,_⟩ := (keeps_session hA hlimit hs).attempt scripts
  refine ⟨herrors, hsteps, fun results hresults later => ?_⟩
  have hadapter : Keeps A request calls False (sessionErrors calls) _ (adapter request calls) s :=
    keeps_adapter hA hs hlimit not_false (fun m => .inl ⟨m, rfl⟩)
      fun hrepeat => .inr ⟨rfl, hrepeat⟩
  have hissued := (hadapter.attempt scripts).2.2.2 results hresults
  have hcheckpoint : Keeps A request calls True (fun _ => False) _ (checkpoint request)
    issued.state := keeps_checkpoint hissued hlimit
  obtain ⟨n,found,hfound⟩ := hcheckpoint.returns trivial (fun _ h => h) later
  exact ⟨n, found, _, rfl, hfound, (hcheckpoint.attempt _).2.2.2 found hfound⟩

end Recovery
end Whetstone.Tools.Issued
