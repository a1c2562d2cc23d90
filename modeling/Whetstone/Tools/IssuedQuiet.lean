import Whetstone.Lib.Noted
import Whetstone.Tools.IssuedLedger

/-! What `issue` does on a ledger that one thread uses: a call whose terminal result the Tool
Call Store has is noted and answered, and executes nothing. -/
namespace Whetstone.Tools.Issued
open Whetstone.Lib

section Plain

variable {Body Payload : Type} [DecidableEq Body] [DecidableEq Payload] [ToolIdentity]
variable {request : OptimStepRequest Body}

/- The operations that touch no ledger and execute nothing. -/
def IssuedOp.isPlain : IssuedOp Body Payload → Prop
  | .resolve _ | .put _ | .get _ | .bind _ _ | .toolStoreGet _ | .loadTerminalResult _
  | .persistResult _ => True
  | _ => False

/- Those of them that claim a call: no terminal is bound. -/
def IssuedOp.isClaiming : IssuedOp Body Payload → Prop
  | .resolve _ | .put _ | .get _ | .bind (.call _) _ | .bind (.slot _) _ => True
  | _ => False

omit [DecidableEq Body] [DecidableEq Payload] in
theorem IssuedOp.isClaiming.isPlain {o : IssuedOp Body Payload} (h : o.isClaiming) : o.isPlain := by
  cases o <;> trivial

abbrev Plain {α : Type} (p : IssuedProg Body Payload α) : Prop := p.All IssuedOp.isPlain

abbrev Claiming {α : Type} (p : IssuedProg Body Payload α) : Prop := p.All IssuedOp.isClaiming

omit [DecidableEq Body] [DecidableEq Payload] in
theorem claiming_refuse (bad : Prop) [Decidable bad] (error : IssuedError) :
    Claiming (refuse bad error : IssuedProg Body Payload Unit) := Prog.all_ofExcept _

omit [DecidableEq Payload] in
theorem claiming_loadClaim (ref : IssuedObject Body Payload) : Claiming (loadClaim request ref) := by
  cases ref with
  | claim claim =>
    refine Prog.all_bind (Prog.all_perform trivial) fun found => ?_
    cases found with
    | none => trivial
    | some object =>
      cases object with
      | claim record => exact Prog.all_bind (claiming_refuse _ _) fun _ => trivial
      | slot slot => trivial
      | terminal terminal => trivial
  | slot slot => trivial
  | terminal terminal => trivial

omit [DecidableEq Payload] in
theorem claiming_loadSlot (ref : IssuedObject Body Payload) (ordinal : Nat) :
    Claiming (loadSlot request ref ordinal) := by
  cases ref with
  | claim claim => trivial
  | slot slot =>
    refine Prog.all_bind (Prog.all_perform trivial) fun found => ?_
    cases found with
    | none => trivial
    | some object =>
      cases object with
      | claim record => trivial
      | slot slot =>
        refine Prog.all_bind (claiming_refuse _ _) fun _ => ?_
        refine Prog.all_bind (claiming_loadClaim _) fun claim => ?_
        exact Prog.all_bind (claiming_refuse _ _) fun _ => trivial
      | terminal terminal => trivial
  | terminal terminal => trivial

omit [DecidableEq Payload] in
theorem claiming_validateOrReconcile (claim : Claim Body) :
    Claiming (validateOrReconcileClaimBinding request claim : IssuedProg Body Payload Unit) := by
  refine Prog.all_bind (p := resolveOrBind claim) ?_ fun found => ?_
  · refine Prog.all_bind (Prog.all_perform trivial) fun bound => ?_
    cases bound with
    | none =>
      refine Prog.all_bind (Prog.all_perform trivial) fun _ => ?_
      exact Prog.all_perform trivial
    | some bound => trivial
  · cases found with
    | none => trivial
    | some bound =>
      exact Prog.all_bind (claiming_loadClaim bound) fun loaded => claiming_refuse _ _

omit [DecidableEq Body] [DecidableEq Payload] in
theorem claiming_resolveSlots (count ordinal : Nat) :
    Claiming (resolveSlots count ordinal : IssuedProg Body Payload _) := by
  induction count generalizing ordinal with
  | zero => trivial
  | succ count ih =>
    refine Prog.all_bind (Prog.all_perform trivial) fun ref => ?_
    exact Prog.all_bind (ih _) fun rest => trivial

omit [DecidableEq Payload] in
theorem claiming_loadSlots (refs : List (IssuedObject Body Payload)) (ordinal : Nat)
    (seenClaims : List (Claim Body)) : Claiming (loadSlots request ordinal seenClaims refs) := by
  induction refs generalizing ordinal seenClaims with
  | nil => trivial
  | cons ref rest ih =>
    refine Prog.all_bind (claiming_loadSlot ref ordinal) fun slot => ?_
    refine Prog.all_bind (claiming_refuse _ _) fun _ => ?_
    exact Prog.all_bind (ih _ _) fun slots => trivial

omit [DecidableEq Payload] in
theorem claiming_reconcileSlots (slots : List (Slot Body)) :
    Claiming (reconcileSlots request slots : IssuedProg Body Payload Unit) := by
  induction slots with
  | nil => trivial
  | cons slot rest ih => exact Prog.all_bind (claiming_validateOrReconcile _) fun _ => ih

omit [DecidableEq Payload] in
theorem claiming_readSlots : Claiming (readSlots request : IssuedProg Body Payload _) := by
  refine Prog.all_bind (Prog.all_perform trivial) fun overflow => ?_
  refine Prog.all_bind (claiming_refuse _ _) fun _ => ?_
  refine Prog.all_bind (claiming_resolveSlots _ _) fun refs => ?_
  refine Prog.all_bind (Prog.all_ofExcept _) fun bound => ?_
  refine Prog.all_bind (claiming_loadSlots _ _ _) fun slots => ?_
  exact Prog.all_bind (claiming_reconcileSlots slots) fun _ => trivial

theorem claiming_reserve (claim : Claim Body) (fuel : Nat) :
    Claiming (reserve request claim fuel : IssuedProg Body Payload _) := by
  induction fuel with
  | zero => trivial
  | succ fuel ih =>
    refine Prog.all_bind claiming_readSlots fun slots => ?_
    split
    · trivial
    · trivial
    · refine Prog.all_bind (claiming_refuse _ _) fun _ => ?_
      split
      · refine Prog.all_bind (Prog.all_perform trivial) fun _ => ?_
        refine Prog.all_bind (Prog.all_perform trivial) fun won => ?_
        split
        · refine Prog.all_bind (Prog.all_perform trivial) fun bound => ?_
          exact Prog.all_bind (claiming_refuse _ _) fun _ => trivial
        · exact ih
      · trivial

theorem claiming_claimAndReserve (call : ToolCall) :
    Claiming (claimAndReserve request call : IssuedProg Body Payload _) := by
  refine Prog.all_bind (Prog.all_bind (Prog.all_perform trivial) fun _ => trivial)
    fun requested => ?_
  refine Prog.all_bind (Prog.all_perform trivial) fun found => ?_
  cases found with
  | none =>
    refine Prog.all_bind (claiming_reserve _ _) fun _ => ?_
    exact Prog.all_bind (claiming_validateOrReconcile _) fun _ => trivial
  | some existingRef =>
    refine Prog.all_bind (claiming_loadClaim _) fun existing => ?_
    refine Prog.all_bind (claiming_refuse _ _) fun _ => ?_
    exact Prog.all_bind (claiming_reserve _ _) fun _ => trivial

omit [DecidableEq Payload] in
theorem claiming_loadTerminal (ref : IssuedObject Body Payload) (claim : Claim Body) :
    Claiming (loadTerminal ref claim) := by
  cases ref with
  | claim claim => trivial
  | slot slot => trivial
  | terminal terminal =>
    refine Prog.all_bind (Prog.all_perform trivial) fun found => ?_
    cases found with
    | none => trivial
    | some object =>
      cases object with
      | claim record => trivial
      | slot slot => trivial
      | terminal record => exact Prog.all_bind (claiming_refuse _ _) fun _ => trivial

omit [DecidableEq Payload] in
theorem claiming_terminalForClaim (claim : Claim Body) :
    Claiming (terminalForClaim claim : IssuedProg Body Payload _) := by
  refine Prog.all_bind (Prog.all_perform trivial) fun found => ?_
  cases found with
  | none => trivial
  | some ref => exact Prog.all_bind (claiming_loadTerminal ref claim) fun _ => trivial

omit [DecidableEq Body] [DecidableEq Payload] in
theorem plain_refuse (bad : Prop) [Decidable bad] (error : IssuedError) :
    Plain (refuse bad error : IssuedProg Body Payload Unit) := Prog.all_ofExcept _

omit [DecidableEq Body] [DecidableEq Payload] in
theorem plain_fromToolStore {α : Type} (x : Except String α) :
    Plain (fromToolStore x : IssuedProg Body Payload α) := by
  cases x <;> trivial

omit [DecidableEq Payload] in
theorem plain_loadTerminal (ref : IssuedObject Body Payload) (claim : Claim Body) :
    Plain (loadTerminal ref claim) :=
  Prog.all_mono (claiming_loadTerminal ref claim) fun _ h => h.isPlain

theorem plain_bindTerminal (claim : Claim Body) (terminal : IssuedToolCallTerminal Body Payload) :
    Plain (bindTerminal claim terminal) := by
  refine Prog.all_bind (Prog.all_perform trivial) fun _ => ?_
  refine Prog.all_bind (Prog.all_perform trivial) fun won => ?_
  split
  · trivial
  · refine Prog.all_bind (Prog.all_perform trivial) fun found => ?_
    cases found with
    | none => trivial
    | some ref => exact Prog.all_bind (plain_loadTerminal ref claim) fun _ => plain_refuse _ _

theorem plain_recordTerminal (claim : Claim Body) (result : ToolResult Payload) :
    Plain (recordTerminal claim result) := by
  unfold recordTerminal
  split
  · refine Prog.all_bind (Prog.all_perform trivial) fun reply => ?_
    refine Prog.all_bind (plain_fromToolStore reply) fun persisted => ?_
    refine Prog.all_bind (plain_refuse _ _) fun _ => ?_
    refine Prog.all_bind (Prog.all_perform trivial) fun reply => ?_
    refine Prog.all_bind (plain_fromToolStore reply) fun found => ?_
    cases found with
    | none => trivial
    | some entry =>
      refine Prog.all_bind (Prog.all_perform trivial) fun reply => ?_
      refine Prog.all_bind (plain_fromToolStore reply) fun authoritative => ?_
      refine Prog.all_bind (plain_refuse _ _) fun _ => ?_
      refine Prog.all_bind (plain_bindTerminal _ _) fun _ => ?_
      refine Prog.all_bind (Prog.all_perform trivial) fun bound => ?_
      cases bound with
      | none => trivial
      | some ref =>
        refine Prog.all_bind (plain_loadTerminal ref claim) fun terminal => ?_
        exact Prog.all_bind (plain_refuse _ _) fun _ => trivial
  · trivial

end Plain

/-! ### A ledger that is used by one thread -/

section Quiet

variable {Body Payload : Type} [DecidableEq Body] [DecidableEq Payload] [ToolIdentity]
variable {request : OptimStepRequest Body} {tools : ToolCallStore Payload} {ledger : Nat}
variable {s t : IssuedStore Body Payload} {slots : List (Slot Body)} {call : ToolCall}

/- What every plain operation keeps. -/
structure Extends (s t : IssuedStore Body Payload) : Prop where
  grows : Grows s t
  ledgers : t.ledgers = s.ledgers

omit [DecidableEq Payload] [ToolIdentity] in
theorem Extends.refl (s : IssuedStore Body Payload) : Extends s s := ⟨.refl s, rfl⟩

omit [DecidableEq Payload] [ToolIdentity] in
theorem Extends.trans {u : IssuedStore Body Payload} (h : Extends s t) (h' : Extends t u) :
    Extends s u := ⟨h.grows.trans h'.grows, h'.ledgers.trans h.ledgers⟩

theorem extends_of_plain {o : IssuedOp Body Payload} {r : o.Reply} (ho : o.isPlain)
    (h : quietExec tools o s = some (r, t)) : Extends s t := by
  cases o with
  | resolve key =>
    cases h
    exact .refl s
  | put object =>
    cases h
    exact ⟨⟨fun _ hx => List.mem_cons_of_mem _ hx, fun _ _ hv => hv⟩, rfl⟩
  | get ref =>
    cases h
    exact .refl s
  | bind key ref =>
    simp only [quietExec, execute, IssuedStore.bind, Option.some.injEq] at h
    split at h
    · cases h
      exact .refl s
    · rename_i hfree
      cases h
      exact ⟨Grows.set key ref hfree, rfl⟩
  | toolStoreGet call =>
    cases h
    exact .refl s
  | loadTerminalResult entry =>
    cases h
    exact .refl s
  | persistResult result =>
    cases h
    exact .refl s
  | openLedger _ _ _ => exact absurd ho id
  | acquire _ => exact absurd ho id
  | release _ => exact absurd ho id
  | enter _ _ => exact absurd ho id
  | leave _ _ => exact absurd ho id
  | replaySlot _ => exact absurd ho id
  | advance _ => exact absurd ho id
  | execute _ => exact absurd ho id

/-- Where a plain program ends, it has extended the store it began with. -/
theorem ends_plain {α : Type} {Q : α → IssuedStore Body Payload → Prop} {E : IssuedError → Prop}
    {p : IssuedProg Body Payload α} (hp : p.Ends (quietExec tools) Q E s) (hplain : Plain p) :
    p.Ends (quietExec tools) (fun a u => Q a u ∧ Extends s u) E s :=
  Prog.ends_keeps hp hplain (fun _ _ _ _ ho he h => h.trans (extends_of_plain ho he)) (.refl s)

/- What every claiming operation keeps. -/
structure Claims (s t : IssuedStore Body Payload) : Prop where
  extend : Extends s t
  terminals : ∀ claim, t.bindings.get? (.terminal claim) = s.bindings.get? (.terminal claim)

theorem claims_of_claiming {o : IssuedOp Body Payload} {r : o.Reply} (ho : o.isClaiming)
    (h : quietExec tools o s = some (r, t)) : Claims s t := by
  refine ⟨extends_of_plain ho.isPlain h, fun claim => ?_⟩
  cases o with
  | bind key ref =>
    simp only [quietExec, execute, IssuedStore.bind, Option.some.injEq] at h
    split at h
    · cases h
      rfl
    · cases h
      refine Dict.get?_set_ne _ _ _ _ ?_
      rintro rfl
      exact ho
  | resolve key =>
    cases h
    rfl
  | put object =>
    cases h
    rfl
  | get ref =>
    cases h
    rfl
  | _ => exact absurd ho id

theorem ends_claiming {α : Type} {Q : α → IssuedStore Body Payload → Prop}
    {E : IssuedError → Prop} {p : IssuedProg Body Payload α}
    (hp : p.Ends (quietExec tools) Q E s) (hclaiming : Claiming p) :
    p.Ends (quietExec tools) (fun a u => Q a u ∧ Claims s u) E s :=
  Prog.ends_keeps hp hclaiming (fun _ _ _ _ ho he h =>
    have hstep := claims_of_claiming ho he
    ⟨h.extend.trans hstep.extend, fun claim => (hstep.terminals claim).trans (h.terminals claim)⟩)
    ⟨.refl s, fun _ => rfl⟩

/-- The slots of the ledger are the calls issued so far, in order; the ids of all of them are
bound, no other call has a terminal, and there is nothing to replay. -/
structure Quiet (request : OptimStepRequest Body) (ledger : Nat) (issued : List ToolCall)
    (s : IssuedStore Body Payload) : Prop where
  slots : ∃ slots, Settled request slots s ∧ slots.map (fun slot => slot.claim.call) = issued ∧
    ∀ slot ∈ slots, s.bindings.get? (.call slot.claim.call.callId) = some (.claim slot.claim)
  terminals : ∀ claim v, s.bindings.get? (.terminal claim) = some v → claim.call ∈ issued
  idle : ∃ st, s.ledgers.get? ledger = some st ∧ st.locked = false ∧ st.replayPrefix = [] ∧
    st.activeCallIds = [] ∧ ∀ callId ∈ st.seenCallIds, callId ∈ issued.map ToolCall.callId

theorem ends_resolve {α : Type} {Q : α → IssuedStore Body Payload → Prop}
    {E : IssuedError → Prop} {key : IssuedKey Body} {found : Option (IssuedObject Body Payload)}
    {f : Option (IssuedObject Body Payload) → IssuedProg Body Payload α}
    (hfound : s.bindings.get? key = found) (hf : (f found).Ends (quietExec tools) Q E s) :
    ((perform (.resolve key)).bind f).Ends (quietExec tools) Q E s := by
  refine ends_perform (.resolve key) found s f ?_ hf
  rw [quietExec, execute, hfound]

/-- A claim that no slot has, with an id that no slot has, takes the next ordinal, unless the
budget is exhausted. -/
theorem ends_reserve (h : Settled request slots s) (claim : Claim Body) (fuel : Nat)
    (hids : ∀ slot ∈ slots, s.bindings.get? (.call slot.claim.call.callId) = some (.claim slot.claim))
    (hreq : claim.request = request) (hclaim : .claim claim ∈ s.objects)
    (hnew : ∀ slot ∈ slots, slot.claim.call.callId ≠ claim.call.callId) :
    (reserve request claim (fuel + 1)).Ends (quietExec tools)
      (fun slot u => slots.length < request.limit ∧ slot.claim = claim ∧
        Settled request (slots ++ [slot]) u) (fun _ => request.limit ≤ slots.length) s := by
  refine Prog.ends_bind (ends_claiming (ends_readSlots h _) claiming_readSlots) ?_
  rintro out u ⟨⟨rfl,hset⟩,hext⟩
  have hfilter : out.filter (fun slot => slot.claim = claim) = [] := by
    rw [List.filter_eq_nil_iff]
    intro slot hslot
    rw [decide_eq_true_eq]
    rintro rfl
    exact hnew slot hslot rfl
  rw [hfilter]
  dsimp only
  by_cases hlimit : request.limit ≤ out.length
  · rw [refuse, raiseIf_pos _ _ hlimit]
    exact hlimit
  rw [refuse, raiseIf_neg _ _ hlimit]
  change (if valid : claim.request = request then _ else _ : IssuedProg Body Payload _).Ends _ _ _ _
  rw [dif_pos hreq]
  have hlt : out.length < request.limit := Nat.lt_of_not_le hlimit
  have hfree : u.bindings.get? (.slot out.length) = none :=
    (hset.occupied.none_iff _).mpr (Nat.le_refl _)
  have hunbound : ∀ c : Claim Body,
      u.bindings.get? (.call claim.call.callId) = some (.claim c) → c = claim := by
    intro c hc
    obtain ⟨_,hsame,hid,m,a,ha,rfl⟩ := hset.inv.calls _ _ hc
    cases hsame
    exact absurd hid (hnew a (List.mem_of_getElem? ((hset.occupied.get_iff m a).mp ha)))
  let slot : Slot Body := ⟨request, out.length, claim, hreq⟩
  have hput := hset.inv.put (.slot slot)
  have hscanned : Scanned out { u with objects := .slot slot :: u.objects } :=
    ⟨fun n a ha => (hset.occupied.get_iff n a).mpr ha,
      fun a ha => hext.extend.grows.bindings _ _ (hids a ha)⟩
  have hbound := hput.bindSlot out slot hscanned rfl rfl hlt
    (fun a ha hsame => hnew a ha (congrArg (fun c => c.call.callId) hsame)) hfree
    List.mem_cons_self (List.mem_cons_of_mem _ (hext.extend.grows.objects _ hclaim))
    fun _ => hunbound
  refine ends_perform (.put (.slot slot)) () { u with objects := .slot slot :: u.objects } _ rfl ?_
  refine ends_perform (.bind (.slot out.length) (.slot slot)) true
    { u with objects := .slot slot :: u.objects
             bindings := u.bindings.set (.slot out.length) (.slot slot) } _ ?_ ?_
  · simp only [quietExec, execute, IssuedStore.bind, hfree]
  refine ends_resolve (Dict.get?_set_self _ _ _) ?_
  refine Prog.ends_bind (Q := fun _ v => Settled request (out ++ [slot]) v)
    (ends_refuse _ _ (not_not.mpr rfl) ⟨hbound, hset.occupied.set_slot slot⟩) ?_
  exact fun _ v hv => ⟨hlt, rfl, hv⟩

/-- A new call is claimed, with a slot and its id bound, unless the budget is exhausted. -/
theorem ends_claimAndReserve (h : Settled request slots s)
    (hids : ∀ slot ∈ slots, s.bindings.get? (.call slot.claim.call.callId) = some (.claim slot.claim))
    (hnew : ∀ slot ∈ slots, slot.claim.call.callId ≠ call.callId) :
    (claimAndReserve request call).Ends (quietExec tools)
      (fun claim u => slots.length < request.limit ∧ claim = ⟨request, call⟩ ∧
        ∃ slot, slot.claim = claim ∧ Settled request (slots ++ [slot]) u ∧
          ∀ a ∈ slots ++ [slot], u.bindings.get? (.call a.claim.call.callId) = some (.claim a.claim))
      (fun _ => request.limit ≤ slots.length) s := by
  have hunbound : s.bindings.get? (.call call.callId) = none := by
    cases hbound : s.bindings.get? (.call call.callId) with
    | none => rfl
    | some v =>
      obtain ⟨c,_,hid,m,a,ha,rfl⟩ := h.inv.calls _ _ hbound
      exact absurd hid (hnew a (List.mem_of_getElem? ((h.occupied.get_iff m a).mp ha)))
  let claim : Claim Body := ⟨request, call⟩
  refine ends_perform (.put (.claim claim)) () { s with objects := .claim claim :: s.objects } _
    rfl ?_
  refine ends_resolve hunbound ?_
  have hput : Settled request slots { s with objects := .claim claim :: s.objects } :=
    ⟨h.inv.put _, h.occupied⟩
  refine Prog.ends_bind (ends_claiming (ends_reserve hput claim request.limit hids rfl
    List.mem_cons_self hnew) (claiming_reserve _ _)) ?_
  rintro slot u ⟨⟨hlt,hclaim,hset⟩,hgrown⟩
  have hmem : slot ∈ slots ++ [slot] := List.mem_append_right _ List.mem_cons_self
  have hreconcile : (validateOrReconcileClaimBinding request slot.claim).Ends (quietExec tools) _
    (fun _ => request.limit ≤ slots.length) u := ends_validateOrReconcile hset slot hmem _
  rw [hclaim] at hreconcile
  refine Prog.ends_bind (ends_claiming hreconcile (claiming_validateOrReconcile _)) ?_
  rintro _ v ⟨⟨hset',hid⟩,hgrown'⟩
  refine ⟨hlt, rfl, slot, hclaim, hset', fun a ha => ?_⟩
  rw [List.mem_append, List.mem_singleton] at ha
  cases ha with
  | inl ha =>
    exact hgrown'.extend.grows.bindings _ _ (hgrown.extend.grows.bindings _ _ (hids a ha))
  | inr ha =>
    rw [ha, hclaim]
    exact hid

theorem ends_terminalForClaim_none (claim : Claim Body)
    (h : s.bindings.get? (.terminal claim) = none) (E : IssuedError → Prop) :
    (terminalForClaim claim).Ends (quietExec tools) (fun found u => found = none ∧ u = s) E s :=
  ends_resolve h ⟨rfl, rfl⟩

/-- The terminal that the Tool Call Store has of a claimed call is bound. -/
theorem ends_recordTerminal (claim : Claim Body) (result : ToolResult Payload)
    {entry : ToolCallStoreEntry} (hcall : result.call = claim.call)
    (hget : tools.get claim.call = .ok (some entry))
    (hload : tools.loadTerminalResult entry = .ok result)
    (hpersist : tools.persistResult result = .ok true)
    (hfree : s.bindings.get? (.terminal claim) = none) (E : IssuedError → Prop) :
    (recordTerminal claim result).Ends (quietExec tools)
      (fun out u => out = result ∧ ∃ terminal : IssuedToolCallTerminal Body Payload,
        terminal.claim = claim ∧ u = { s with
          objects := .terminal terminal :: s.objects
          bindings := s.bindings.set (.terminal claim) (.terminal terminal) }) E s := by
  let terminal : IssuedToolCallTerminal Body Payload := ⟨claim, result, hcall⟩
  let bound : IssuedStore Body Payload := { s with
    objects := .terminal terminal :: s.objects
    bindings := s.bindings.set (.terminal claim) (.terminal terminal) }
  rw [recordTerminal, dif_pos hcall]
  refine ends_perform (.persistResult result) (.ok true) s _ ?_ ?_
  · simp only [quietExec, execute, hpersist]
  refine Prog.ends_bind (Q := fun persisted u => persisted = true ∧ s = u) ⟨rfl, rfl⟩ ?_
  rintro _ _ ⟨rfl,rfl⟩
  refine Prog.ends_bind (Q := fun _ u => s = u) (ends_refuse _ _ (by simp) rfl) ?_
  rintro _ _ rfl
  refine ends_perform (.toolStoreGet claim.call) (.ok (some entry)) s _ ?_ ?_
  · simp only [quietExec, execute, hget]
  refine ends_perform (.loadTerminalResult entry) (.ok result) s _ ?_ ?_
  · simp only [quietExec, execute, hload]
  refine Prog.ends_bind (Q := fun out u => out = result ∧ s = u) ⟨rfl, rfl⟩ ?_
  rintro _ _ ⟨rfl,rfl⟩
  refine Prog.ends_bind (Q := fun _ u => s = u) (ends_refuse _ _ (not_not.mpr rfl) rfl) ?_
  rintro _ _ rfl
  refine Prog.ends_bind (Q := fun _ u => u = bound) ?_ ?_
  · refine ends_perform (.put (.terminal terminal)) ()
      { s with objects := .terminal terminal :: s.objects } _ rfl ?_
    refine ends_perform (.bind (.terminal claim) (.terminal terminal)) true bound _ ?_ rfl
    simp only [quietExec, execute, IssuedStore.bind, hfree]
    rfl
  rintro _ _ rfl
  refine ends_resolve (Dict.get?_set_self _ _ _) ?_
  refine Prog.ends_bind (Q := fun found u => found = terminal ∧ u = bound) ?_ ?_
  · refine ends_get _ _ List.mem_cons_self ?_
    refine Prog.ends_bind (Q := fun _ u => u = bound) (ends_refuse _ _ (not_not.mpr rfl) rfl) ?_
    rintro _ _ rfl
    exact ⟨rfl, rfl⟩
  rintro _ _ ⟨rfl,rfl⟩
  refine Prog.ends_bind (Q := fun _ u => u = bound) (ends_refuse _ _ (not_not.mpr rfl) rfl) ?_
  rintro _ _ rfl
  exact ⟨rfl, terminal, rfl, rfl⟩

/-! ### A call through the ledger -/

/- The calls an operation executes. -/
def IssuedOp.executions : IssuedOp Body Payload → List ToolCall
  | .execute call => [call]
  | _ => []

/- A ledger alone, with the calls it has executed noted. -/
def notedExec (tools : ToolCallStore Payload) (o : IssuedOp Body Payload)
    (s : IssuedStore Body Payload × List ToolCall) :
    Option (o.Reply × IssuedStore Body Payload × List ToolCall) :=
  Prog.noting (quietExec tools) IssuedOp.executions o s

omit [DecidableEq Body] [DecidableEq Payload] in
theorem executions_of_plain {o : IssuedOp Body Payload} (ho : o.isPlain) : o.executions = [] := by
  cases o with
  | execute call => exact absurd ho id
  | _ => rfl

theorem ends_noted_call {α : Type} {Q : α → IssuedStore Body Payload × List ToolCall → Prop}
    {E : IssuedError → Prop} {noted : List ToolCall} (o : IssuedOp Body Payload) (r : o.Reply)
    (t : IssuedStore Body Payload) (f : o.Reply → IssuedProg Body Payload α)
    (ho : quietExec tools o s = some (r, t)) (hquiet : o.executions = [])
    (hf : (f r).Ends (notedExec tools) Q E (t, noted)) :
    ((perform o).bind f).Ends (notedExec tools) Q E (s, noted) := by
  refine ⟨r, (t, noted), ?_, hf⟩
  rw [notedExec, Prog.noting_eq ho, hquiet, List.append_nil]

/- The store with one ledger in another state. -/
def IssuedStore.withLedger (s : IssuedStore Body Payload) (ledger : Nat) (st : LedgerState Body) :
    IssuedStore Body Payload :=
  { s with ledgers := s.ledgers.set ledger st }

omit [ToolIdentity] [DecidableEq Payload] in
theorem Settled.withLedger (h : Settled request slots s) (ledger : Nat) (st : LedgerState Body)
    (hst : st.replayPrefix = []) : Settled request slots (s.withLedger ledger st) := by
  refine ⟨h.inv.setLedger ledger st fun slot hslot => ?_, h.occupied⟩
  rw [hst] at hslot
  cases hslot

omit [ToolIdentity] [DecidableEq Payload] in
theorem Settled.bindTerminal (h : Settled request slots s)
    (terminal : IssuedToolCallTerminal Body Payload)
    (hfree : s.bindings.get? (.terminal terminal.claim) = none) :
    Settled request slots { s with
      objects := .terminal terminal :: s.objects
      bindings := s.bindings.set (.terminal terminal.claim) (.terminal terminal) } :=
  ⟨(h.inv.put (.terminal terminal)).bindTerminal terminal hfree List.mem_cons_self,
    h.occupied.set_other _ _ (by simp)⟩

omit [DecidableEq Body] [DecidableEq Payload] [ToolIdentity] in
theorem onLedger_eq {α : Type} {f : LedgerState Body → Option (α × LedgerState Body)}
    {st st' : LedgerState Body} {a : α} (hst : s.ledgers.get? ledger = some st)
    (hf : f st = some (a, st')) : s.onLedger ledger f = some (a, s.withLedger ledger st') := by
  rw [IssuedStore.onLedger, hst]
  dsimp only
  rw [hf]
  rfl

theorem quiet_acquire {st : LedgerState Body} (hst : s.ledgers.get? ledger = some st)
    (hfree : st.locked = false) : quietExec tools (.acquire ledger) s =
      some ((), s.withLedger ledger { st with locked := true }) := by
  change s.onLedger ledger LedgerState.acquire = _
  refine onLedger_eq hst ?_
  rw [LedgerState.acquire, hfree]
  rfl

theorem quiet_release {st : LedgerState Body} (hst : s.ledgers.get? ledger = some st) :
    quietExec tools (.release ledger) s =
      some ((), s.withLedger ledger { st with locked := false }) := by
  change s.onLedger ledger LedgerState.release = _
  exact onLedger_eq hst rfl

theorem quiet_leave {st : LedgerState Body} (hst : s.ledgers.get? ledger = some st)
    (callId : String) : quietExec tools (.leave ledger callId) s =
      some ((), s.withLedger ledger { st with activeCallIds := st.activeCallIds.erase callId }) := by
  change s.onLedger ledger (LedgerState.leave callId) = _
  exact onLedger_eq hst rfl

theorem quiet_enter {st : LedgerState Body} (hst : s.ledgers.get? ledger = some st)
    {callId : String} (hactive : callId ∉ st.activeCallIds) (hseen : callId ∉ st.seenCallIds) :
    quietExec tools (.enter ledger callId) s = some (true, s.withLedger ledger { st with
      seenCallIds := callId :: st.seenCallIds
      activeCallIds := callId :: st.activeCallIds }) := by
  change s.onLedger ledger (LedgerState.enter callId) = _
  refine onLedger_eq hst ?_
  rw [LedgerState.enter, if_neg (not_or.mpr ⟨hactive, hseen⟩)]

theorem quiet_replaySlot {st : LedgerState Body} (hst : s.ledgers.get? ledger = some st)
    (hreplay : st.replayPrefix = []) :
    quietExec tools (.replaySlot ledger) s = some (none, s.withLedger ledger st) := by
  change s.onLedger ledger LedgerState.replaySlot = _
  refine onLedger_eq hst ?_
  rw [LedgerState.replaySlot, hreplay]
  rfl

/-- A call that is not in the ledger is claimed and has no terminal, unless the budget is
exhausted; an exception leaves the ledger's own state as it is. -/
structure Claimed (request : OptimStepRequest Body) (slots : List (Slot Body))
    (claim : Claim Body) (s t : IssuedStore Body Payload) : Prop where
  slots : ∃ slot, slot.claim = claim ∧ Settled request (slots ++ [slot]) t ∧
    ∀ a ∈ slots ++ [slot], t.bindings.get? (.call a.claim.call.callId) = some (.claim a.claim)
  claims : Claims s t

theorem ends_claimed (h : Settled request slots s)
    (hids : ∀ slot ∈ slots, s.bindings.get? (.call slot.claim.call.callId) = some (.claim slot.claim))
    (hnew : ∀ slot ∈ slots, slot.claim.call.callId ≠ call.callId)
    (hfree : s.bindings.get? (.terminal ⟨request, call⟩) = none) :
    ((claimAndReserve request call).bind fun claim =>
      (terminalForClaim claim).bind fun existing => .done (claim, existing)).Ends (quietExec tools)
      (fun found u => slots.length < request.limit ∧ found = (⟨request, call⟩, none) ∧
        Claimed request slots ⟨request, call⟩ s u) (fun _ => request.limit ≤ slots.length) s := by
  refine Prog.ends_bind (ends_claiming (ends_claimAndReserve h hids hnew)
    (claiming_claimAndReserve call)) ?_
  rintro claim u ⟨⟨hlt,rfl,hslots⟩,hclaims⟩
  refine Prog.ends_bind (ends_terminalForClaim_none _ ?_ _) ?_
  · rw [hclaims.terminals]
    exact hfree
  rintro found v ⟨rfl,rfl⟩
  exact ⟨hlt, rfl, hslots, hclaims⟩

theorem claiming_claimed : Claiming ((claimAndReserve request call).bind fun claim =>
    (terminalForClaim claim).bind fun existing =>
      (.done (claim, existing) : IssuedProg Body Payload _)) := by
  refine Prog.all_bind (claiming_claimAndReserve call) fun claim => ?_
  exact Prog.all_bind (claiming_terminalForClaim claim) fun existing => trivial

/-- A claimed call that the Tool Call Store has a terminal of adopts it. -/
theorem ends_finishCall (claim : Claim Body) {result : ToolResult Payload}
    {entry : ToolCallStoreEntry} (hcall : result.call = claim.call)
    (hget : tools.get claim.call = .ok (some entry)) (hterminal : terminalState entry = true)
    (hload : tools.loadTerminalResult entry = .ok result)
    (hpersist : tools.persistResult result = .ok true)
    (hfree : s.bindings.get? (.terminal claim) = none) (E : IssuedError → Prop)
    (noted : List ToolCall) :
    (finishCall claim claim.call).Ends (notedExec tools)
      (fun out u => (out = result ∧ ∃ terminal : IssuedToolCallTerminal Body Payload,
        terminal.claim = claim ∧ u.1 = { s with
          objects := .terminal terminal :: s.objects
          bindings := s.bindings.set (.terminal claim) (.terminal terminal) }) ∧ u.2 = noted)
      E (s, noted) := by
  refine ends_noted_call (.toolStoreGet claim.call) (.ok (some entry)) s _ ?_ rfl ?_
  · simp only [quietExec, execute, hget]
  change Prog.Ends _ _ _ (ite _ _ _) _
  rw [if_pos hterminal]
  refine ends_noted_call (.loadTerminalResult entry) (.ok result) s _ ?_ rfl ?_
  · simp only [quietExec, execute, hload]
  exact Prog.ends_noting (ends_recordTerminal claim result hcall hget hload hpersist hfree E)
    (plain_recordTerminal claim result) fun _ ho => executions_of_plain ho

/-- A lookup under the lock claims the call; where it raises, the lock is given back. -/
theorem ends_lookupCall {st : LedgerState Body} (h : Settled request slots s)
    (hids : ∀ slot ∈ slots, s.bindings.get? (.call slot.claim.call.callId) = some (.claim slot.claim))
    (hnew : ∀ slot ∈ slots, slot.claim.call.callId ≠ call.callId)
    (hfree : s.bindings.get? (.terminal ⟨request, call⟩) = none)
    (hst : s.ledgers.get? ledger = some st) (hreplay : st.replayPrefix = [])
    (noted : List ToolCall) :
    ((lookupCall request ledger call).handle fun error => (perform (.leave ledger call.callId)).bind
      fun _ => (perform (.release ledger)).bind fun _ => raise error).Ends (notedExec tools)
      (fun found u => (slots.length < request.limit ∧ found = (⟨request, call⟩, none) ∧
        Claimed request slots ⟨request, call⟩ (s.withLedger ledger st) u.1) ∧ u.2 = noted)
      (fun _ => request.limit ≤ slots.length) (s, noted) := by
  refine ⟨none, (s.withLedger ledger st, noted), ?_, ?_⟩
  · rw [notedExec, Prog.noting_eq (quiet_replaySlot hst hreplay)]
    simp [IssuedOp.executions]
  have hclaimed : (Prog.bind _ _ : IssuedProg Body Payload _).Ends (quietExec tools) _ _ _ :=
    ends_claimed (h.withLedger ledger st hreplay) hids hnew hfree
  refine Prog.ends_handle (P := IssuedOp.isClaiming)
    (I := fun u => u.1.ledgers = (s.withLedger ledger st).ledgers)
    (Prog.ends_noting hclaimed claiming_claimed fun _ ho => executions_of_plain ho.isPlain)
    claiming_claimed ?_ rfl ?_
  · intro o r t u ho he hkept
    obtain ⟨ended,hended,hout⟩ := Option.map_eq_some_iff.mp he
    cases hout
    exact (extends_of_plain ho.isPlain hended).ledgers.trans hkept
  · intro error t hexhausted hkept
    have hheld : t.1.ledgers.get? ledger = some st := by
      rw [hkept]
      exact Dict.get?_set_self _ _ _
    refine ends_noted_call (.leave ledger call.callId) () _ _ (quiet_leave hheld _) rfl ?_
    refine ends_noted_call (.release ledger) () _ _ (quiet_release (Dict.get?_set_self _ _ _)) rfl ?_
    exact hexhausted

omit [DecidableEq Payload] [ToolIdentity] in
/-- A ledger that was just opened on an empty store. -/
theorem quiet_opened (request : OptimStepRequest Body) (ledger : Nat) :
    Quiet request ledger []
      ((IssuedStore.empty : IssuedStore Body Payload).withLedger ledger (.opened [])) := by
  have hempty : Settled request [] (IssuedStore.empty : IssuedStore Body Payload) :=
    ⟨ledgerInv_empty request True, fun _ => rfl⟩
  refine ⟨⟨[], hempty.withLedger ledger _ rfl, rfl, fun _ hmem => (by cases hmem)⟩, ?_, ?_⟩
  · intro claim v hbound
    cases hbound
  · exact ⟨.opened [], Dict.get?_set_self _ _ _, rfl, rfl, rfl, fun _ hmem => (by cases hmem)⟩

/-- A call that has not been issued, and whose terminal result the Tool Call Store has, is
issued and answered by that result, unless the budget is exhausted. Nothing is executed. -/
theorem ends_issue {issued : List ToolCall} (h : Quiet request ledger issued s)
    (hnew : call.callId ∉ issued.map ToolCall.callId) {entry : ToolCallStoreEntry}
    {result : ToolResult Payload} (hcall : result.call = call)
    (hget : tools.get call = .ok (some entry)) (hterminal : terminalState entry = true)
    (hload : tools.loadTerminalResult entry = .ok result)
    (hpersist : tools.persistResult result = .ok true) (noted : List ToolCall) :
    (issue request ledger call).Ends (notedExec tools)
      (fun out u => out = result ∧ issued.length < request.limit ∧
        Quiet request ledger (issued ++ [call]) u.1 ∧ u.2 = noted)
      (fun _ => request.limit ≤ issued.length) (s, noted) := by
  obtain ⟨slots,hset,hcalls,hids⟩ := h.slots
  obtain ⟨st,hst,hunlocked,hreplay,hactive,hseen⟩ := h.idle
  have hlength : issued.length = slots.length := by
    rw [← hcalls, List.length_map]
  have hfresh : ∀ slot ∈ slots, slot.claim.call.callId ≠ call.callId := by
    intro slot hslot hsame
    refine hnew (hsame ▸ List.mem_map_of_mem ?_)
    rw [← hcalls]
    exact List.mem_map_of_mem hslot
  have hfree : s.bindings.get? (.terminal ⟨request, call⟩) = none := by
    cases hbound : s.bindings.get? (.terminal ⟨request, call⟩) with
    | none => rfl
    | some v => exact absurd (List.mem_map_of_mem (h.terminals _ v hbound)) hnew
  let held : LedgerState Body := { st with locked := true }
  let entered : LedgerState Body := { held with
    seenCallIds := call.callId :: st.seenCallIds
    activeCallIds := call.callId :: st.activeCallIds }
  let s1 := s.withLedger ledger held
  let s2 := s1.withLedger ledger entered
  refine ends_noted_call (.acquire ledger) () s1 _ (quiet_acquire hst hunlocked) rfl ?_
  have hentered : quietExec tools (.enter ledger call.callId) s1 = some (true, s2) := by
    have hheld : s1.ledgers.get? ledger = some held := Dict.get?_set_self _ _ _
    refine quiet_enter hheld ?_ fun hmem => hnew (hseen _ hmem)
    change call.callId ∉ st.activeCallIds
    rw [hactive]
    exact List.not_mem_nil
  refine ends_noted_call (.enter ledger call.callId) true s2 _ hentered rfl ?_
  change Prog.Ends _ _ _ (ite _ _ _) _
  rw [if_pos rfl]
  have hset2 : Settled request slots s2 :=
    (hset.withLedger ledger held hreplay).withLedger ledger entered hreplay
  refine Prog.ends_bind (Prog.ends_mono (ends_lookupCall hset2 hids hfresh hfree
    (Dict.get?_set_self _ _ _) hreplay noted) (fun _ _ hu => hu) ?_) ?_
  · intro _ hexhausted
    rw [hlength]
    exact hexhausted
  rintro _ ⟨u,_⟩ ⟨⟨hlt,rfl,hclaimed⟩,rfl⟩
  obtain ⟨slot,hslot,hset3,hids3⟩ := hclaimed.slots
  have hheld : u.ledgers.get? ledger = some entered := by
    rw [hclaimed.claims.extend.ledgers]
    exact Dict.get?_set_self _ _ _
  let u1 := u.withLedger ledger { entered with locked := false }
  have hfree1 : u1.bindings.get? (.terminal ⟨request, call⟩) = none := by
    change u.bindings.get? (.terminal ⟨request, call⟩) = none
    rw [hclaimed.claims.terminals]
    exact hfree
  refine ends_noted_call (.release ledger) () u1 _ (quiet_release hheld) rfl ?_
  refine Prog.ends_bind (Prog.ends_handle_ok (ends_finishCall ⟨request, call⟩ hcall hget hterminal
    hload hpersist hfree1 _ _)) ?_
  rintro out ⟨v,_⟩ ⟨⟨rfl,terminal,hclaim,rfl⟩,rfl⟩
  refine ends_noted_call (.acquire ledger) () _ _
    (quiet_acquire (Dict.get?_set_self _ _ _) rfl) rfl ?_
  refine ends_noted_call (.leave ledger call.callId) () _ _
    (quiet_leave (Dict.get?_set_self _ _ _) _) rfl ?_
  refine ends_noted_call (.release ledger) () _ _ (quiet_release (Dict.get?_set_self _ _ _)) rfl ?_
  refine ⟨rfl, hlength ▸ hlt, ⟨⟨slots ++ [slot], ?_, ?_, ?_⟩, ?_, ?_⟩, rfl⟩
  · have hbound : Settled request (slots ++ [slot]) { u1 with
        objects := .terminal terminal :: u1.objects
        bindings := u1.bindings.set (.terminal terminal.claim) (.terminal terminal) } := by
      have hset4 : Settled request (slots ++ [slot]) u1 := hset3.withLedger ledger _ hreplay
      refine hset4.bindTerminal terminal ?_
      rw [hclaim]
      exact hfree1
    rw [hclaim] at hbound
    refine Settled.withLedger (Settled.withLedger (Settled.withLedger hbound ledger _ ?_) ledger _ ?_)
      ledger _ ?_
    · exact hreplay
    · exact hreplay
    · exact hreplay
  · rw [List.map_append, hcalls, List.map_singleton, hslot]
  · intro a ha
    exact (Dict.get?_set_ne _ _ _ _ (by simp)).trans (hids3 a ha)
  · intro claim v hv
    by_cases hsame : claim = ⟨request, call⟩
    · rw [hsame]
      exact List.mem_append_right _ List.mem_cons_self
    · have hold : u.bindings.get? (.terminal claim) = some v := by
        rw [← hv]
        exact (Dict.get?_set_ne _ _ _ _ (by simpa using hsame)).symm
      rw [hclaimed.claims.terminals] at hold
      exact List.mem_append_left _ (h.terminals claim v hold)
  · refine ⟨_, Dict.get?_set_self _ _ _, rfl, hreplay, ?_, ?_⟩
    · change (call.callId :: st.activeCallIds).erase call.callId = []
      rw [List.erase_cons_head, hactive]
    · intro callId hmem
      rw [List.map_append, List.mem_append]
      cases List.mem_cons.mp hmem with
      | inl hid => exact .inr (by simp [hid])
      | inr hold => exact .inl (hseen callId hold)

end Quiet

end Whetstone.Tools.Issued
