import Whetstone.Eval.Aggregate
import Whetstone.Lib.StepDown
import Mathlib.Algebra.Order.Field.Rat
import Mathlib.Data.List.FinRange

/-! Holm-Bonferroni adjusted p-values, in exact arithmetic. -/
namespace Whetstone.Eval
open Whetstone.Core Whetstone.Lib

/- An entry of a tuple; the indices that are asked for are those of the tuple. -/
def entry (values : List Rat) (index : Nat) : Rat := values.getD index 0

def holmScaled (m rank : Nat) (value : Rat) : Rat := min 1 (((m - rank : Nat) : Rat) * value)

/- The loop over the sorted indices, from a rank on. -/
def holmLoop (pvalues : List Rat) (m rank : Nat) (running : Rat) (adjusted : List Rat) :
    List Nat → List Rat
  | [] => adjusted
  | index :: rest =>
    let scaled := holmScaled m rank (entry pvalues index)
    let running := max running scaled
    holmLoop pvalues m (rank + 1) running (adjusted.set index running) rest

def ascendingOrder (pvalues : List Rat) : List Nat :=
  (List.range pvalues.length).mergeSort fun i j => decide (entry pvalues i ≤ entry pvalues j)

section Adjust
variable [FractionText]

def checkPvalue (value : Rat) : Except String Unit :=
  raiseIf (¬ (0 ≤ value ∧ value ≤ 1))
    ("p-values must be in [0, 1]; got " ++ FractionText.repr value)

def holmAdjust (pvalues : List Rat) : Except String (List Rat) := do
  pvalues.forM checkPvalue
  if pvalues.length = 0 then return []
  else
    let m := pvalues.length
    return holmLoop pvalues m 0 0 (List.replicate m 0) (ascendingOrder pvalues)

end Adjust

/-! ### The loop is a running maximum -/

variable (pvalues : List Rat)

theorem holmLoop_length (m rank : Nat) (running : Rat) (adjusted : List Rat) (order : List Nat) :
    (holmLoop pvalues m rank running adjusted order).length = adjusted.length := by
  induction order generalizing rank running adjusted with
  | nil => rfl
  | cons index rest ih => rw [holmLoop, ih, List.length_set]

theorem holmLoop_unvisited (m rank : Nat) (running : Rat) (adjusted : List Rat)
    {order : List Nat} {i : Nat} (hi : i ∉ order) :
    (holmLoop pvalues m rank running adjusted order)[i]? = adjusted[i]? := by
  induction order generalizing rank running adjusted with
  | nil => rfl
  | cons index rest ih =>
    rw [List.mem_cons, not_or] at hi
    rw [holmLoop, ih _ _ _ hi.2, List.getElem?_set_ne (Ne.symm hi.1)]

/-- The loop leaves at an index the running maximum of the rank at which it was visited. -/
theorem holmLoop_visited (m rank : Nat) (running : Rat) (adjusted : List Rat) {order : List Nat}
    (hnodup : order.Nodup) (hrange : ∀ i ∈ order, i < adjusted.length) {k i : Nat}
    (hi : order[k]? = some i) :
    (holmLoop pvalues m rank running adjusted order)[i]? =
      (runningMax (holmScaled m) rank running (order.map (entry pvalues)))[k]? := by
  induction order generalizing rank running adjusted k with
  | nil => cases hi
  | cons index rest ih =>
    obtain ⟨hfresh,hrest⟩ := List.nodup_cons.mp hnodup
    rw [holmLoop, List.map_cons, runningMax]
    cases k with
    | zero =>
      cases hi
      rw [holmLoop_unvisited _ _ _ _ _ hfresh, List.getElem?_set_self (hrange i List.mem_cons_self)]
      rfl
    | succ k =>
      apply ih
      · exact hrest
      · intro j hj
        rw [List.length_set]
        exact hrange j (List.mem_cons_of_mem _ hj)
      · exact hi

/-! ### The sorted values -/

/- An arrangement of the indices in ascending order of their values. -/
structure Ascending (order : List Nat) : Prop where
  perm : order.Perm (List.range pvalues.length)
  sorted : (order.map (entry pvalues)).Pairwise (· ≤ ·)

theorem ascendingOrder_ascending : Ascending pvalues (ascendingOrder pvalues) where
  perm := List.mergeSort_perm _ _
  sorted := by
    rw [List.pairwise_map]
    have hsorted := @List.pairwise_mergeSort Nat
      (fun i j => decide (entry pvalues i ≤ entry pvalues j))
      (fun a b c hab hbc => decide_eq_true ((of_decide_eq_true hab).trans (of_decide_eq_true hbc)))
      (fun a b => by simpa using le_total (entry pvalues a) (entry pvalues b))
      (List.range pvalues.length)
    exact hsorted.imp of_decide_eq_true

theorem map_entry_range : (List.range pvalues.length).map (entry pvalues) = pvalues := by
  apply List.ext_getElem
  · rw [List.length_map, List.length_range]
  · intro i h1 h2
    rw [List.getElem_map, List.getElem_range, entry, List.getD_eq_getElem?_getD,
      List.getElem?_eq_getElem h2, Option.getD_some]

namespace Ascending
variable {pvalues} {order : List Nat}

theorem map_perm (h : Ascending pvalues order) : (order.map (entry pvalues)).Perm pvalues := by
  have hperm := h.perm.map (entry pvalues)
  rwa [map_entry_range] at hperm

theorem length_eq (h : Ascending pvalues order) : order.length = pvalues.length := by
  rw [h.perm.length_eq, List.length_range]

theorem nodup (h : Ascending pvalues order) : order.Nodup :=
  h.perm.nodup_iff.mpr List.nodup_range

theorem exists_rank (h : Ascending pvalues order) {i : Nat} (hi : i < pvalues.length) :
    ∃ k : Nat, order[k]? = some i ∧ (order.map (entry pvalues))[k]? = some (entry pvalues i) := by
  obtain ⟨k,hk⟩ := List.mem_iff_getElem?.mp (h.perm.mem_iff.mpr (List.mem_range.mpr hi))
  refine ⟨k, hk, ?_⟩
  rw [List.getElem?_map, hk]
  rfl

/-- The weighted values up to a rank, read off the p-values without an order. -/
theorem weighted (h : Ascending pvalues order) (hnonneg : ∀ q ∈ pvalues, 0 ≤ q) {g : Rat → Rat}
    (hg : Monotone g) {k : Nat} {p : Rat} (hp : (order.map (entry pvalues))[k]? = some p)
    (c : Rat) :
    (∀ j ≤ k, ∀ q, (order.map (entry pvalues))[j]? = some q →
        g (((pvalues.length - j : Nat) : Rat) * q) ≤ c) ↔
      ∀ q ∈ pvalues, q ≤ p → g (((pvalues.countP fun v => q ≤ v : Nat) : Rat) * q) ≤ c := by
  have hmem : ∀ q, q ∈ order.map (entry pvalues) ↔ q ∈ pvalues := fun q => h.map_perm.mem_iff
  have hweighted := weighted_iff h.sorted (fun q hq => hnonneg q ((hmem q).mp hq)) hg hp c
  simp only [List.length_map, h.length_eq, hmem, h.map_perm.countP_eq] at hweighted
  exact hweighted

end Ascending

/-! ### The adjusted values -/

def holmAdjusted : List Rat :=
  holmLoop pvalues pvalues.length 0 0 (List.replicate pvalues.length 0) (ascendingOrder pvalues)

theorem holmAdjusted_length : (holmAdjusted pvalues).length = pvalues.length := by
  rw [holmAdjusted, holmLoop_length, List.length_replicate]

/- P-values, as the check of the source has them. -/
def InUnit : Prop := ∀ p ∈ pvalues, 0 ≤ p ∧ p ≤ 1

theorem holmAdjust_eq_ok [FractionText] (adjusted : List Rat) :
    holmAdjust pvalues = .ok adjusted ↔ InUnit pvalues ∧ adjusted = holmAdjusted pvalues := by
  have hcheck : pvalues.forM checkPvalue = .ok () ↔ InUnit pvalues := by
    simp only [forM_eq_ok, checkPvalue, raiseIf_eq_ok, not_not, InUnit]
  rw [holmAdjust, check_bind_eq_ok, hcheck]
  refine and_congr_right fun _ => ?_
  by_cases hm : pvalues.length = 0
  · obtain rfl := List.length_eq_zero_iff.mp hm
    have hnone : holmAdjusted [] = [] := List.length_eq_zero_iff.mp (holmAdjusted_length [])
    rw [if_pos hm, hnone]
    exact ⟨fun h => (Except.ok.inj h).symm, fun h => congrArg Except.ok h.symm⟩
  · rw [if_neg hm]
    exact ⟨fun h => (Except.ok.inj h).symm, fun h => congrArg Except.ok h.symm⟩

variable {pvalues}

theorem entry_eq {values : List Rat} {i : Nat} {v : Rat} (h : values[i]? = some v) :
    entry values i = v := by
  rw [entry, List.getD_eq_getElem?_getD, h, Option.getD_some]

theorem entry_mem {i : Nat} (hi : i < pvalues.length) : entry pvalues i ∈ pvalues := by
  rw [entry_eq (List.getElem?_eq_getElem hi)]
  exact List.getElem_mem hi

theorem InUnit.weighted_nonneg (h : InUnit pvalues) {q : Rat} (hq : q ∈ pvalues) :
    0 ≤ min 1 (((pvalues.countP fun v => q ≤ v : Nat) : Rat) * q) :=
  le_min zero_le_one (mul_nonneg (Nat.cast_nonneg _) (h q hq).1)

/-- An adjusted value is the largest of the weighted values at or below its own. -/
theorem adjusted_le_iff (h : InUnit pvalues) {i : Nat} (hi : i < pvalues.length) (c : Rat) :
    entry (holmAdjusted pvalues) i ≤ c ↔ ∀ q ∈ pvalues, q ≤ entry pvalues i →
      min 1 (((pvalues.countP fun v => q ≤ v : Nat) : Rat) * q) ≤ c := by
  have horder := ascendingOrder_ascending pvalues
  obtain ⟨k,hk,hvalue⟩ := horder.exists_rank hi
  have hrange : ∀ j ∈ ascendingOrder pvalues,
      j < (List.replicate pvalues.length (0 : Rat)).length := by
    intro j hj
    rw [List.length_replicate]
    exact List.mem_range.mp (horder.perm.mem_iff.mp hj)
  have hvisited := holmLoop_visited pvalues pvalues.length 0 0 (List.replicate pvalues.length 0)
    horder.nodup hrange hk
  have hlt : k < (runningMax (holmScaled pvalues.length) 0 0
      ((ascendingOrder pvalues).map (entry pvalues))).length := by
    rw [length_runningMax]
    exact (List.getElem?_eq_some_iff.mp hvalue).1
  have hget := List.getElem?_eq_getElem hlt
  have hentry := entry_eq (hvisited.trans hget)
  have hweighted := horder.weighted (fun q hq => (h q hq).1) (g := fun x => min 1 x)
    (fun a b hab => min_le_min_left 1 hab) hvalue c
  rw [holmAdjusted, hentry, runningMax_le_iff _ _ _ _ hget]
  simp only [holmScaled, Nat.zero_add]
  rw [hweighted]
  constructor
  · exact fun hboth => hboth.2
  · intro hall
    have hown := hall _ (entry_mem hi) le_rfl
    exact ⟨(h.weighted_nonneg (entry_mem hi)).trans hown, hall⟩

theorem adjusted_mono (h : InUnit pvalues) {i j : Nat} (hi : i < pvalues.length)
    (hj : j < pvalues.length) (hij : entry pvalues i ≤ entry pvalues j) :
    entry (holmAdjusted pvalues) i ≤ entry (holmAdjusted pvalues) j := by
  rw [adjusted_le_iff h hi]
  intro q hq hqi
  exact (adjusted_le_iff h hj _).mp le_rfl q hq (hqi.trans hij)

theorem adjusted_bounds (h : InUnit pvalues) {i : Nat} (hi : i < pvalues.length) :
    entry pvalues i ≤ entry (holmAdjusted pvalues) i ∧ entry (holmAdjusted pvalues) i ≤ 1 := by
  have hmem := entry_mem hi
  obtain ⟨h0,h1⟩ := h _ hmem
  constructor
  · have hcount : 1 ≤ pvalues.countP fun v => entry pvalues i ≤ v :=
      List.countP_pos_iff.mpr ⟨_, hmem, decide_eq_true le_rfl⟩
    have hscale : (1 : Rat) * entry pvalues i ≤
        ((pvalues.countP fun v => entry pvalues i ≤ v : Nat) : Rat) * entry pvalues i :=
      mul_le_mul_of_nonneg_right (by exact_mod_cast hcount) h0
    rw [one_mul] at hscale
    exact (le_min h1 hscale).trans ((adjusted_le_iff h hi _).mp le_rfl _ hmem le_rfl)
  · rw [adjusted_le_iff h hi]
    exact fun q _ _ => min_le_left _ _

/-- Below level one an adjusted value is within the level exactly when the step-down procedure,
in any ascending order, selects its index. -/
theorem adjusted_le_iff_rejected (h : InUnit pvalues) {i : Nat} (hi : i < pvalues.length)
    {alpha : Rat} (halpha : alpha < 1) {order : List Nat} (horder : Ascending pvalues order) :
    entry (holmAdjusted pvalues) i ≤ alpha ↔ i ∈ stepDown alpha (entry pvalues) order := by
  obtain ⟨k,hk,hvalue⟩ := horder.exists_rank hi
  have hmin : ∀ x : Rat, min 1 x ≤ alpha ↔ x ≤ alpha := by
    intro x
    rw [min_le_iff]
    exact ⟨fun hx => hx.resolve_left (not_le.mpr halpha), .inr⟩
  have hweighted := horder.weighted (fun q hq => (h q hq).1) (g := id) monotone_id hvalue alpha
  simp only [id] at hweighted
  rw [mem_stepDown alpha (entry pvalues) horder.nodup hk, adjusted_le_iff h hi, horder.length_eq,
    hweighted]
  simp only [hmin]

/- Equal values at the same places of two tuples with the same members. -/
theorem adjusted_perm (h : InUnit pvalues) {others : List Rat} (hperm : others.Perm pvalues)
    {i j : Nat} (hi : i < others.length) (hj : j < pvalues.length)
    (hsame : entry others i = entry pvalues j) :
    entry (holmAdjusted others) i = entry (holmAdjusted pvalues) j := by
  have hothers : InUnit others := fun p hp => h p (hperm.mem_iff.mp hp)
  apply eq_of_forall_ge_iff
  intro c
  rw [adjusted_le_iff hothers hi, adjusted_le_iff h hj, hsame]
  simp only [hperm.mem_iff, hperm.countP_eq]

/- A tuple with its entries moved by a permutation of the positions. -/
def rearranged (values : List Rat) (σ : Equiv.Perm (Fin values.length)) : List Rat :=
  List.ofFn fun i => entry values (σ i)

theorem rearranged_perm (values : List Rat) (σ : Equiv.Perm (Fin values.length)) :
    (rearranged values σ).Perm values := by
  have hself : List.ofFn (fun i : Fin values.length => entry values i) = values := by
    apply List.ext_getElem
    · rw [List.length_ofFn]
    · intro i h1 h2
      rw [List.getElem_ofFn]
      exact entry_eq (List.getElem?_eq_getElem h2)
  have hperm := Equiv.Perm.ofFn_comp_perm σ fun i : Fin values.length => entry values i
  rw [hself] at hperm
  exact hperm

/-- The adjusted p-values of p-values: between the raw value and one, in the order of the raw
values, permuted as they are, and within a level exactly when the step-down procedure rejects. -/
theorem holmAdjust_stepDown [FractionText] (h : InUnit pvalues) :
    ∃ adjusted, holmAdjust pvalues = .ok adjusted ∧ adjusted.length = pvalues.length ∧
      (∀ i < pvalues.length, entry pvalues i ≤ entry adjusted i ∧ entry adjusted i ≤ 1) ∧
      (∀ i < pvalues.length, ∀ j < pvalues.length, entry pvalues i ≤ entry pvalues j →
        entry adjusted i ≤ entry adjusted j) ∧
      (∀ i < pvalues.length, ∀ j < pvalues.length, entry pvalues i = entry pvalues j →
        entry adjusted i = entry adjusted j) ∧
      (∀ σ : Equiv.Perm (Fin pvalues.length), holmAdjust (rearranged pvalues σ) =
        .ok (List.ofFn fun i => entry adjusted (σ i))) ∧
      ∀ alpha, 0 ≤ alpha → alpha < 1 → ∀ order, Ascending pvalues order →
        ∀ i < pvalues.length, entry adjusted i ≤ alpha ↔
          i ∈ stepDown alpha (entry pvalues) order := by
  refine ⟨holmAdjusted pvalues, (holmAdjust_eq_ok pvalues _).mpr ⟨h, rfl⟩,
    holmAdjusted_length pvalues, fun i hi => adjusted_bounds h hi,
    fun i hi j hj => adjusted_mono h hi hj, ?_, ?_, ?_⟩
  · intro i hi j hj hij
    exact le_antisymm (adjusted_mono h hi hj hij.le) (adjusted_mono h hj hi hij.ge)
  · intro σ
    have hperm := rearranged_perm pvalues σ
    rw [holmAdjust_eq_ok]
    refine ⟨fun p hp => h p (hperm.mem_iff.mp hp), ?_⟩
    apply List.ext_getElem
    · rw [List.length_ofFn, holmAdjusted_length, hperm.length_eq]
    · intro i hofn hlist
      have hi : i < pvalues.length := by rwa [List.length_ofFn] at hofn
      have hi' : i < (rearranged pvalues σ).length := by rwa [hperm.length_eq]
      have hmoved : entry (rearranged pvalues σ) i = entry pvalues (σ ⟨i, hi⟩) := by
        rw [entry_eq (List.getElem?_eq_getElem hi')]
        exact List.getElem_ofFn _
      rw [List.getElem_ofFn, ← entry_eq (List.getElem?_eq_getElem hlist)]
      exact (adjusted_perm h hperm hi' (σ ⟨i, hi⟩).isLt hmoved).symm
  · intro alpha _ halpha order horder i hi
    exact adjusted_le_iff_rejected h hi halpha horder

section Example

@[reducible] def plainFractions : FractionText := ⟨fun _ => none, fun _ => "1"⟩

attribute [local instance] plainFractions

theorem holmAdjust_stepDown_ties :
    ∃ adjusted, holmAdjust [1 / 4, 1 / 100, 1 / 4] = .ok adjusted ∧ adjusted.length = 3 := by
  have hunit : InUnit [1 / 4, 1 / 100, 1 / 4] := by
    unfold InUnit
    decide +kernel
  obtain ⟨adjusted,hok,hlength,_⟩ := holmAdjust_stepDown hunit
  exact ⟨adjusted, hok, hlength⟩

end Example

end Whetstone.Eval
