import Whetstone.Optim.Gepa.StepEngine

/-! The effects of a search have increasing ordinals, and a search to a larger budget begins
with the search to a smaller one. -/
namespace Whetstone.Optim.Gepa
open Whetstone.Core Whetstone.Lib Whetstone.Experiment Whetstone.Optim.Step

variable {F : Type} [FiniteFloats F] [RewardIdentity F]

/-! ### Increasing ordinals -/

/- Every effect stands in the context, at an ordinal not below `lo` and above those of the
   effects before it. A result satisfies `Q` at an ordinal above all of them. -/
def Increasing {α : Type} (context : GepaEffectContext) (Q : Nat → α → Prop) :
    Nat → Prog (GepaEffect F) GepaEffect.Result SearchError α → Prop
  | lo, .done a => Q lo a
  | _, .raise _ => True
  | lo, .call e next => e.slot.context = context ∧ lo ≤ e.slot.invocationOrdinal ∧
      ∀ r, Increasing context Q (e.slot.invocationOrdinal + 1) (next r)

section Increasing

variable {α β : Type} {context : GepaEffectContext} {Q : Nat → α → Prop} {lo n m : Nat}
variable {p : Prog (GepaEffect F) GepaEffect.Result SearchError α}
variable {record : (e : GepaEffect F) → Option e.Result}

theorem Increasing.bind {Q' : Nat → β → Prop} (h : Increasing context Q lo p)
    {f : α → Prog (GepaEffect F) GepaEffect.Result SearchError β}
    (hf : ∀ hi a, Q hi a → Increasing context Q' hi (f a)) :
    Increasing context Q' lo (p.bind f) := by
  induction p generalizing lo with
  | done a => exact hf lo a h
  | raise error => trivial
  | call e next ih => exact ⟨h.1, h.2.1, fun r => ih r (h.2.2 r)⟩

theorem Increasing.requested (h : Increasing context Q lo p) {e : GepaEffect F}
    (he : p.requested record n = some e) :
    e.slot.context = context ∧ lo ≤ e.slot.invocationOrdinal := by
  induction n generalizing p lo with
  | zero =>
    cases p with
    | done a => simp [Prog.requested, Prog.after] at he
    | raise error => simp [Prog.requested, Prog.after] at he
    | call e' next =>
      simp only [Prog.requested, Prog.after, Option.some.injEq] at he
      subst he
      exact ⟨h.1, h.2.1⟩
  | succ n ih =>
    cases p with
    | done a => simp [Prog.requested, Prog.after] at he
    | raise error => simp [Prog.requested, Prog.after] at he
    | call e' next =>
      unfold Prog.requested at he
      simp only [Prog.after] at he
      cases hr : record e' with
      | none => simp [hr] at he
      | some r =>
        simp only [hr] at he
        obtain ⟨hcontext,hle⟩ := ih (h.2.2 r) he
        have := h.2.1
        exact ⟨hcontext, by omega⟩

/-- An effect that is requested later has a larger ordinal. -/
theorem Increasing.lt (h : Increasing context Q lo p) {e e' : GepaEffect F} (hnm : n < m)
    (he : p.requested record n = some e) (he' : p.requested record m = some e') :
    e.slot.invocationOrdinal < e'.slot.invocationOrdinal := by
  induction n generalizing p lo m with
  | zero =>
    cases p with
    | done a => simp [Prog.requested, Prog.after] at he
    | raise error => simp [Prog.requested, Prog.after] at he
    | call e₀ next =>
      simp only [Prog.requested, Prog.after, Option.some.injEq] at he
      subst he
      obtain ⟨k,rfl⟩ : ∃ k, m = k + 1 := ⟨m - 1, by omega⟩
      unfold Prog.requested at he'
      simp only [Prog.after] at he'
      cases hr : record e₀ with
      | none => simp [hr] at he'
      | some r =>
        simp only [hr] at he'
        have := (Increasing.requested (h.2.2 r) he').2
        omega
  | succ n ih =>
    cases p with
    | done a => simp [Prog.requested, Prog.after] at he
    | raise error => simp [Prog.requested, Prog.after] at he
    | call e₀ next =>
      obtain ⟨k,rfl⟩ : ∃ k, m = k + 1 := ⟨m - 1, by omega⟩
      unfold Prog.requested at he he'
      simp only [Prog.after] at he he'
      cases hr : record e₀ with
      | none => simp [hr] at he
      | some r =>
        simp only [hr] at he he'
        exact ih (h.2.2 r) (by omega : n < k) he he'

/-- One ordinal is one place of the program. -/
theorem Increasing.place_unique (h : Increasing context Q lo p) {e e' : GepaEffect F}
    (he : p.requested record n = some e) (he' : p.requested record m = some e')
    (hordinal : e.slot.invocationOrdinal = e'.slot.invocationOrdinal) : n = m := by
  rcases Nat.lt_trichotomy n m with hlt | heq | hlt
  · have := h.lt hlt he he'
    omega
  · exact heq
  · have := h.lt hlt he' he
    omega

end Increasing

/-! ### The adapter's methods -/

section Adapter

variable [PythonRandom] {α β : Type} (adapter : WhetstoneGepaAdapter F)

/- A method takes ordinals from its state's next one on and leaves a larger one. -/
def Orderly (context : GepaEffectContext) (m : AdapterM F α) : Prop :=
  ∀ st lo, lo ≤ st.nextInvocationOrdinal →
    Increasing context (fun hi out => hi ≤ out.2.nextInvocationOrdinal) lo (m st)

variable {context : GepaEffectContext}

theorem orderly_pure (a : α) : Orderly context (pure a : AdapterM F α) := fun _ _ h => h

theorem orderly_raise (error : SearchError) : Orderly context (AdapterM.raise error : AdapterM F α) :=
  fun _ _ h => h

theorem orderly_ofExcept (x : Except String α) :
    Orderly context (AdapterM.ofExcept x : AdapterM F α) := fun _ _ h => h

theorem orderly_get : Orderly context (AdapterM.get : AdapterM F (AdapterState F)) :=
  fun _ _ h => h

theorem orderly_modify (f : AdapterState F → AdapterState F)
    (hf : ∀ st, st.nextInvocationOrdinal ≤ (f st).nextInvocationOrdinal) :
    Orderly context (AdapterM.modify f : AdapterM F Unit) :=
  fun st _ h => h.trans (hf st)

theorem orderly_refuseIf (bad : Prop) [Decidable bad] (message : String) :
    Orderly context (AdapterM.refuseIf bad message : AdapterM F Unit) := orderly_ofExcept _

theorem orderly_bind {m : AdapterM F α} {k : α → AdapterM F β} (hm : Orderly context m)
    (hk : ∀ a, Orderly context (k a)) : Orderly context (m >>= k) := by
  intro st lo h
  refine (hm st lo h).bind fun hi out hout => ?_
  obtain ⟨result,st'⟩ := out
  cases result with
  | error error => exact hout
  | ok a => exact hk a st' hi hout

/-- An effect stands in the slot that was taken for it. -/
theorem orderly_slot_effect {ρ : Type} (make : GepaEffectSlot → Except String ρ)
    (e : ρ → GepaEffect F) (hslot : ∀ slot r, make slot = .ok r → (e r).slot = slot)
    (k : (r : ρ) → (e r).Result → AdapterM F β)
    (hk : ∀ r x, Orderly adapter.context (k r x)) :
    Orderly adapter.context (adapter.slot >>= fun slot =>
      AdapterM.ofExcept (make slot) >>= fun r => AdapterM.effect (e r) >>= k r) := by
  intro st lo h
  let st' : AdapterState F := { st with nextInvocationOrdinal := st.nextInvocationOrdinal + 1 }
  have hnext : st'.nextInvocationOrdinal = st.nextInvocationOrdinal + 1 := rfl
  change Increasing _ _ _ ((AdapterM.ofExcept (make ⟨adapter.context, st.nextInvocationOrdinal⟩) >>=
    fun r => AdapterM.effect (e r) >>= k r : AdapterM F β) st')
  cases hmake : make ⟨adapter.context, st.nextInvocationOrdinal⟩ with
  | error message => exact Nat.le_succ_of_le h
  | ok r =>
    have hplace := hslot _ r hmake
    have hordinal : (e r).slot.invocationOrdinal = st.nextInvocationOrdinal := by rw [hplace]
    refine ⟨by rw [hplace], by omega, fun x => ?_⟩
    exact hk r x st' _ (by omega)

omit [RewardIdentity F] [PythonRandom] in
theorem evaluationRequest_slot {fields : EvaluationRequestFields F}
    {request : GepaEvaluationEffectRequest F} (h : fields.create = .ok request) :
    request.slot = fields.slot := by
  unfold EvaluationRequestFields.create at h
  split at h
  · cases h
    rfl
  · cases h

omit [PythonRandom] in
theorem proposalRequest_slot {fields : ProposalRequestFields} {request : GepaProposalEffectRequest}
    (h : fields.create = .ok request) : request.slot = fields.slot := by
  unfold ProposalRequestFields.create at h
  split at h
  · cases h
    rfl
  · cases h

namespace WhetstoneGepaAdapter

theorem orderly_noteMismatch (name : String) (trajectory : GepaTrajectoryProjection F)
    (selected : GepaComponentTraceProjection F) :
    Orderly context (adapter.noteMismatch name trajectory selected) := by
  unfold noteMismatch
  refine orderly_bind orderly_get fun state => ?_
  split
  · split
    · exact orderly_bind (orderly_refuseIf _ _) fun _ => orderly_modify _ fun _ => Nat.le_refl _
    · exact orderly_pure _
  · exact orderly_pure _

theorem orderly_reflectiveItem (name : String) (trajectory : GepaTrajectoryProjection F) :
    Orderly context (adapter.reflectiveItem name trajectory) := by
  unfold reflectiveItem
  dsimp only
  split
  · exact orderly_pure _
  · split
    · exact orderly_bind (adapter.orderly_noteMismatch _ _ _) fun _ => orderly_pure _
    · split
      · exact orderly_pure _
      · refine orderly_bind ?_ fun _ =>
          orderly_bind (adapter.orderly_noteMismatch _ _ _) fun _ => orderly_pure _
        exact orderly_bind orderly_get fun _ =>
          orderly_bind (orderly_modify _ fun _ => Nat.le_refl _) fun _ => orderly_pure _

theorem orderly_reflectiveItems (name : String)
    (trajectories : List (GepaTrajectoryProjection F)) :
    Orderly context (adapter.reflectiveItems name trajectories) := by
  induction trajectories with
  | nil => exact orderly_pure _
  | cons trajectory rest ih =>
    exact orderly_bind (adapter.orderly_reflectiveItem _ _) fun _ =>
      orderly_bind ih fun _ => orderly_pure _

theorem orderly_reflectiveComponents (trajectories : List (GepaTrajectoryProjection F))
    (names : List String) (reflective : Dict String (List ReflectiveRecord)) :
    Orderly context (adapter.reflectiveComponents trajectories names reflective) := by
  induction names generalizing reflective with
  | nil => exact orderly_pure _
  | cons name rest ih =>
    unfold reflectiveComponents
    split
    · exact orderly_raise _
    · exact orderly_bind (adapter.orderly_reflectiveItems _ _) fun _ => ih _

theorem orderly_makeReflectiveDataset (candidate : Dict String String)
    (evalBatch : EvaluationBatch F) (names : List String) :
    Orderly context (adapter.makeReflectiveDataset candidate evalBatch names) := by
  unfold makeReflectiveDataset
  refine orderly_bind (orderly_ofExcept _) fun _ => orderly_bind (orderly_refuseIf _ _) fun _ => ?_
  split
  · exact orderly_raise _
  · exact orderly_bind (adapter.orderly_reflectiveComponents _ _ _) fun _ =>
      orderly_bind (orderly_refuseIf _ _) fun _ => orderly_pure _

variable [GepaIdentity F]

theorem orderly_evaluate (batch : List GepaDataInstance) (candidate : Dict String String)
    (captureTraces : Bool) :
    Orderly adapter.context (adapter.evaluate batch candidate captureTraces) := by
  unfold evaluate
  refine orderly_bind (orderly_ofExcept _) fun _ => orderly_bind (orderly_ofExcept _) fun _ => ?_
  refine orderly_slot_effect adapter (fun slot => EvaluationRequestFields.create ⟨slot, _, _, _, _, _⟩)
    GepaEffect.evaluate (fun slot r h => evaluationRequest_slot h) _ fun request result => ?_
  exact orderly_bind (orderly_refuseIf _ _) fun _ => orderly_bind (orderly_refuseIf _ _) fun _ =>
    orderly_bind (orderly_refuseIf _ _) fun _ => orderly_ofExcept _

theorem orderly_proposeOneComponent (candidate : Dict String String)
    (dataset : Dict String (List ReflectiveRecord)) (selected : List String) (name : String)
    (left attempt : Nat) (prior : Option GepaRejectedAttempt) :
    Orderly adapter.context
      (adapter.proposeOneComponent candidate dataset selected name left attempt prior) := by
  induction left generalizing attempt prior with
  | zero => exact orderly_pure _
  | succ left ih =>
    unfold proposeOneComponent
    refine orderly_bind (orderly_ofExcept _) fun _ => orderly_bind (orderly_ofExcept _) fun _ => ?_
    refine orderly_slot_effect adapter (fun slot => ProposalRequestFields.create ⟨slot, _, _, _, _, _, _⟩)
      GepaEffect.propose (fun slot r h => proposalRequest_slot h) _ fun request result => ?_
    refine orderly_bind (orderly_refuseIf _ _) fun _ => ?_
    split
    · split
      · exact orderly_bind (orderly_modify _ fun _ => Nat.le_refl _) fun _ => ih _ _
      · exact orderly_raise _
    · exact orderly_bind (orderly_ofExcept _) fun _ => orderly_pure _

theorem orderly_proposeComponents (candidate : Dict String String)
    (dataset : Dict String (List ReflectiveRecord)) (selected names : List String)
    (replacements : Dict String String) : Orderly adapter.context
      (adapter.proposeComponents candidate dataset selected names replacements) := by
  induction names generalizing replacements with
  | nil => exact orderly_pure _
  | cons name rest ih =>
    unfold proposeComponents
    split
    · exact ih _
    · exact orderly_bind (adapter.orderly_proposeOneComponent _ _ _ _ _ _ _) fun _ => ih _

theorem orderly_serve (call : AdapterCall F) : Orderly adapter.context (adapter.serve call) := by
  cases call with
  | evaluate batch candidate captureTraces => exact adapter.orderly_evaluate _ _ _
  | makeReflectiveDataset candidate evalBatch names =>
    exact adapter.orderly_makeReflectiveDataset _ _ _
  | proposeNewTexts candidate dataset names =>
    exact orderly_bind (orderly_ofExcept _) fun _ => adapter.orderly_proposeComponents _ _ _ _ _

/-- Whatever the upstream search calls, its effects have increasing ordinals. -/
theorem increasing_drive (p : Prog (AdapterCall F) AdapterCall.Reply SearchError α)
    (st : AdapterState F) (lo : Nat) (h : lo ≤ st.nextInvocationOrdinal) :
    Increasing adapter.context (fun _ _ => True) lo (adapter.drive p st) := by
  induction p generalizing st lo with
  | done a => trivial
  | raise error => trivial
  | call call next ih =>
    exact (adapter.orderly_serve call st lo h).bind fun hi out hout => ih out.1 out.2 hi hout

/-! ### Searches to two budgets -/

theorem drive_bind (p : Prog (AdapterCall F) AdapterCall.Reply SearchError α)
    (f : α → Prog (AdapterCall F) AdapterCall.Reply SearchError β) (st : AdapterState F) :
    adapter.drive (p.bind f) st =
      (adapter.drive p st).bind fun out => adapter.drive (f out.1) out.2 := by
  induction p generalizing st with
  | done a => rfl
  | raise error => rfl
  | call call next ih =>
    simp only [Prog.bind, drive, Prog.bind_assoc]
    exact congrArg _ (funext fun out => ih out.1 out.2)

theorem ensures_drive {Q : α → Prop} {p : Prog (AdapterCall F) AdapterCall.Reply SearchError α}
    (h : p.Ensures Q) (st : AdapterState F) :
    (adapter.drive p st).Ensures fun out => Q out.1 := by
  induction p generalizing st with
  | done a => exact h
  | raise error => trivial
  | call call next ih => exact Prog.ensures_bind (Prog.ensures_trivial _) fun out _ => ih out.1 (h out.1) out.2

end WhetstoneGepaAdapter
end Adapter

namespace Upstream

variable {u : Upstream F}

omit [RewardIdentity F] in
/-- A budget left that bounds the iterations is as good as another. -/
theorem searchUntil_fuel (h : u.Advances) (budget left left' : Nat) (s : u.State)
    (hleft : budget ≤ u.total s + left) (hleft' : budget ≤ u.total s + left') :
    u.searchUntil budget left s = u.searchUntil budget left' s := by
  induction left generalizing left' s with
  | zero =>
    have hreached : budget ≤ u.total s := hleft
    cases left' with
    | zero => rfl
    | succ left' => simp [searchUntil, hreached]
  | succ left ih =>
    cases left' with
    | zero =>
      have hreached : budget ≤ u.total s := hleft'
      simp [searchUntil, hreached]
    | succ left' =>
      unfold searchUntil
      by_cases hreached : budget ≤ u.total s
      · rw [if_pos hreached, if_pos hreached]
      · rw [if_neg hreached, if_neg hreached]
        exact (h s).bind_congr fun t ht => ih left' t (by omega) (by omega)

omit [RewardIdentity F] in
/-- A search to a larger budget goes on where one to a smaller budget ends. -/
theorem searchUntil_split (h : u.Advances) (small large left left' rest : Nat) (s : u.State)
    (hle : small ≤ large) (hleft : small ≤ u.total s + left)
    (hleft' : large ≤ u.total s + left') (hrest : large ≤ rest) :
    u.searchUntil large left' s =
      (u.searchUntil small left s).bind (u.searchUntil large rest) := by
  induction left generalizing left' s with
  | zero => exact searchUntil_fuel h _ _ _ _ hleft' (by omega)
  | succ left ih =>
    by_cases hreached : small ≤ u.total s
    · simp only [searchUntil, hreached, if_true, Prog.bind]
      exact searchUntil_fuel h _ _ _ _ hleft' (by omega)
    · obtain ⟨k,rfl⟩ : ∃ k, left' = k + 1 := ⟨left' - 1, by omega⟩
      have hlarge : ¬ large ≤ u.total s := by omega
      simp only [searchUntil, hreached, hlarge, if_false, Prog.bind_assoc]
      exact (h s).bind_congr fun t ht => ih k t (by omega) (by omega)

omit [RewardIdentity F] in
theorem searchUntil_reaches (h : u.Advances) (budget left : Nat) (s : u.State)
    (hleft : budget ≤ u.total s + left) :
    (u.searchUntil budget left s).Ensures fun t => budget ≤ u.total t := by
  induction left generalizing s with
  | zero => exact hleft
  | succ left ih =>
    unfold searchUntil
    by_cases hreached : budget ≤ u.total s
    · rw [if_pos hreached]
      exact hreached
    · rw [if_neg hreached]
      exact Prog.ensures_bind (h s) fun t ht => ih t (by omega)

end Upstream
end Whetstone.Optim.Gepa
