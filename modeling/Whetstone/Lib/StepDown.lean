import Whetstone.Lib.OrderStatistics
import Mathlib.Algebra.Order.Field.Basic
import Mathlib.Data.List.Perm.Basic

/-! Step-down selection. Values in ascending order are weighted by how many are left; a running
maximum of the weighted values stays within a level exactly as long as each of them does. -/
namespace Whetstone.Lib

variable {K : Type*} [LinearOrder K]

/-! ### Running maxima -/

def runningMax (f : Nat → K → K) : Nat → K → List K → List K
  | _, _, [] => []
  | rank, running, value :: rest =>
    max running (f rank value) :: runningMax f (rank + 1) (max running (f rank value)) rest

@[simp] theorem length_runningMax (f : Nat → K → K) (rank : Nat) (running : K) (l : List K) :
    (runningMax f rank running l).length = l.length := by
  induction l generalizing rank running with
  | nil => rfl
  | cons value rest ih => rw [runningMax, List.length_cons, ih, List.length_cons]

/-- A running maximum is bounded by what bounds all that it has met. -/
theorem runningMax_le_iff (f : Nat → K → K) (rank : Nat) (running : K) (l : List K) {k : Nat}
    {r : K} (hr : (runningMax f rank running l)[k]? = some r) (c : K) :
    r ≤ c ↔ running ≤ c ∧ ∀ j ≤ k, ∀ value, l[j]? = some value → f (rank + j) value ≤ c := by
  induction l generalizing rank running k with
  | nil => cases hr
  | cons value rest ih =>
    have hsplit : (∀ j ≤ k, ∀ v, (value :: rest)[j]? = some v → f (rank + j) v ≤ c) ↔
        f rank value ≤ c ∧ ∀ j, j + 1 ≤ k → ∀ v, rest[j]? = some v → f (rank + 1 + j) v ≤ c := by
      constructor
      · intro h
        refine ⟨h 0 (by omega) value rfl, ?_⟩
        intro j hj v hv
        have := h (j + 1) hj v hv
        rwa [show rank + (j + 1) = rank + 1 + j by omega] at this
      · intro h j hj v hv
        cases j with
        | zero =>
          cases hv
          exact h.1
        | succ j =>
          have := h.2 j hj v hv
          rwa [show rank + 1 + j = rank + (j + 1) by omega] at this
    rw [hsplit]
    cases k with
    | zero =>
      cases hr
      rw [max_le_iff]
      exact ⟨fun h => ⟨h.1, h.2, fun j hj => absurd hj (by omega)⟩, fun h => ⟨h.1, h.2.1⟩⟩
    | succ k =>
      rw [ih (rank + 1) (max running (f rank value)) hr, max_le_iff, and_assoc]
      simp only [Nat.add_le_add_iff_right]

/-! ### Weighted values -/

variable [Field K] [IsStrictOrderedRing K]

/-- What a running maximum of weighted values has met, said without positions: equal values count
once, with the weight of the first of them. -/
theorem weighted_iff {s : List K} (hs : s.Pairwise (· ≤ ·)) (hnonneg : ∀ q ∈ s, 0 ≤ q) {g : K → K}
    (hg : Monotone g) {k : Nat} {p : K} (hp : s[k]? = some p) (c : K) :
    (∀ j ≤ k, ∀ q, s[j]? = some q → g (((s.length - j : Nat) : K) * q) ≤ c) ↔
      ∀ q ∈ s, q ≤ p → g (((s.countP fun v => q ≤ v : Nat) : K) * q) ≤ c := by
  constructor
  · intro h q hq hqp
    obtain ⟨j,hj,hcount,hfirst⟩ := exists_first hs hq
    have := h j (hfirst k p hp hqp) q hj
    rwa [hcount] at this
  · intro h j hj q hq
    have hmem := List.mem_of_getElem? hq
    have hcount : ((s.length - j : Nat) : K) ≤ ((s.countP fun v => q ≤ v : Nat) : K) :=
      Nat.cast_le.mpr (left_le_count hs hq)
    calc g (((s.length - j : Nat) : K) * q)
        ≤ g (((s.countP fun v => q ≤ v : Nat) : K) * q) :=
          hg (mul_le_mul_of_nonneg_right hcount (hnonneg q hmem))
      _ ≤ c := h q hmem (sorted_get hs hq hp hj)

/-- Step-down selection: in the order given, the positions whose value is at most the level
divided by how many are left, up to the first that is not. -/
def stepDown (level : K) (value : Nat → K) : List Nat → List Nat
  | [] => []
  | i :: rest =>
    if value i ≤ level / ((rest.length + 1 : Nat) : K) then i :: stepDown level value rest else []

theorem mem_stepDown (level : K) (value : Nat → K) {order : List Nat} (hnodup : order.Nodup)
    {k i : Nat} (hi : order[k]? = some i) :
    i ∈ stepDown level value order ↔ ∀ j ≤ k, ∀ q, (order.map value)[j]? = some q →
      ((order.length - j : Nat) : K) * q ≤ level := by
  induction order generalizing k with
  | nil => cases hi
  | cons first rest ih =>
    obtain ⟨hfresh,hrest⟩ := List.nodup_cons.mp hnodup
    have hpos : (0 : K) < ((rest.length + 1 : Nat) : K) := Nat.cast_pos.mpr (Nat.succ_pos _)
    have hweight : value first ≤ level / ((rest.length + 1 : Nat) : K) ↔
        ((rest.length + 1 : Nat) : K) * value first ≤ level := le_div_iff₀' hpos
    rw [stepDown]
    by_cases hpass : value first ≤ level / ((rest.length + 1 : Nat) : K)
    · have hpass' := hweight.mp hpass
      rw [if_pos hpass, List.mem_cons]
      cases k with
      | zero =>
        cases hi
        refine ⟨fun _ => ?_, fun _ => .inl rfl⟩
        intro j hj q hq
        obtain rfl : j = 0 := by omega
        cases hq
        exact hpass'
      | succ k =>
        have hmem : i ∈ rest := List.mem_of_getElem? hi
        have hne : i ≠ first := fun he => hfresh (he ▸ hmem)
        rw [ih hrest hi]
        constructor
        · intro h j hj q hq
          cases j with
          | zero =>
            cases hq
            exact hpass'
          | succ j =>
            have := (h.resolve_left hne) j (by omega) q hq
            rwa [List.length_cons, Nat.add_sub_add_right]
        · intro h
          refine .inr fun j hj q hq => ?_
          have := h (j + 1) (by omega) q hq
          rwa [List.length_cons, Nat.add_sub_add_right] at this
    · rw [if_neg hpass]
      refine ⟨fun h => absurd h List.not_mem_nil, fun h => ?_⟩
      exact absurd (hweight.mpr (h 0 (by omega) _ rfl)) hpass

end Whetstone.Lib
