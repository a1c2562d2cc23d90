import Mathlib.Data.List.Basic
import Mathlib.Order.Defs.LinearOrder
import Mathlib.Order.Lattice

/-! Order statistics. In a sorted list the values on one side of a threshold stand on one side of
a position, so a value is compared with a threshold by counting. -/
namespace Whetstone.Lib

variable {K : Type*} [LinearOrder K]

theorem sorted_get {s : List K} (hs : s.Pairwise (· ≤ ·)) {j k : Nat} {a b : K}
    (ha : s[j]? = some a) (hb : s[k]? = some b) (hjk : j ≤ k) : a ≤ b := by
  obtain ⟨hj,rfl⟩ := List.getElem?_eq_some_iff.mp ha
  obtain ⟨hk,rfl⟩ := List.getElem?_eq_some_iff.mp hb
  rcases Nat.lt_or_eq_of_le hjk with hlt | rfl
  · exact List.pairwise_iff_getElem.mp hs j k hj hk hlt
  · exact le_rfl

/- From a position on, every value is at least the one there. -/
theorem left_le_count {s : List K} (hs : s.Pairwise (· ≤ ·)) {j : Nat} {q : K}
    (hq : s[j]? = some q) : s.length - j ≤ s.countP fun v => q ≤ v := by
  have hdrop : (s.drop j).countP (fun v => decide (q ≤ v)) = (s.drop j).length := by
    rw [List.countP_eq_length]
    intro v hv
    obtain ⟨i,hi⟩ := List.mem_iff_getElem?.mp hv
    rw [List.getElem?_drop] at hi
    exact decide_eq_true (sorted_get hs hq hi (by omega))
  have hsub := (List.drop_sublist j s).countP_le (p := fun v => decide (q ≤ v))
  rw [hdrop, List.length_drop] at hsub
  exact hsub

/- The first position of a value has exactly the values from it on at its right. -/
theorem exists_first {s : List K} (hs : s.Pairwise (· ≤ ·)) {q : K} (hq : q ∈ s) :
    ∃ j, s[j]? = some q ∧ (s.length - j = s.countP fun v => q ≤ v) ∧
      ∀ k v, s[k]? = some v → q ≤ v → j ≤ k := by
  have hex : ∃ v ∈ s, decide (q ≤ v) = true := ⟨q, hq, decide_eq_true le_rfl⟩
  have hlt := List.findIdx_lt_length_of_exists hex
  have hfirst : ∀ k v, s[k]? = some v → q ≤ v → s.findIdx (fun v => decide (q ≤ v)) ≤ k := by
    intro k v hv hqv
    by_contra hk
    obtain ⟨hk',rfl⟩ := List.getElem?_eq_some_iff.mp hv
    have := List.not_of_lt_findIdx (Nat.lt_of_not_le hk)
    rw [decide_eq_false_iff_not] at this
    exact this hqv
  have hget := List.getElem?_eq_getElem hlt
  have hle : q ≤ s[s.findIdx fun v => decide (q ≤ v)] :=
    of_decide_eq_true (List.findIdx_getElem (w := hlt))
  obtain ⟨i,hi⟩ := List.mem_iff_getElem?.mp hq
  have hsame : s[s.findIdx fun v => decide (q ≤ v)] = q :=
    le_antisymm (sorted_get hs hget hi (hfirst i q hi le_rfl)) hle
  rw [hsame] at hget
  refine ⟨_, hget, ?_, hfirst⟩
  have htake : (s.take (s.findIdx fun v => decide (q ≤ v))).countP (fun v => decide (q ≤ v)) = 0 := by
    rw [List.countP_eq_zero]
    intro v hv
    obtain ⟨k,hk⟩ := List.mem_iff_getElem?.mp hv
    obtain ⟨hkt,_⟩ := List.getElem?_eq_some_iff.mp hk
    rw [List.length_take] at hkt
    rw [List.getElem?_take_of_lt (by omega)] at hk
    rw [decide_eq_true_eq]
    intro hqv
    have := hfirst k v hk hqv
    omega
  have hsplit : s.countP (fun v => decide (q ≤ v)) =
      (s.take (s.findIdx fun v => decide (q ≤ v))).countP (fun v => decide (q ≤ v)) +
        (s.drop (s.findIdx fun v => decide (q ≤ v))).countP (fun v => decide (q ≤ v)) := by
    rw [← List.countP_append, List.take_append_drop]
  rw [htake, Nat.zero_add] at hsplit
  have hupper := List.countP_le_length (p := fun v => decide (q ≤ v))
    (l := s.drop (s.findIdx fun v => decide (q ≤ v)))
  rw [List.length_drop] at hupper
  have hlower := left_le_count hs hget
  omega

/- The values up to a position are at most the one there. -/
theorem count_le_left {s : List K} (hs : s.Pairwise (· ≤ ·)) {i : Nat} {v : K}
    (hv : s[i]? = some v) : i + 1 ≤ s.countP fun w => w ≤ v := by
  have hlt := (List.getElem?_eq_some_iff.mp hv).1
  have htake : (s.take (i + 1)).countP (fun w => decide (w ≤ v)) = (s.take (i + 1)).length := by
    rw [List.countP_eq_length]
    intro w hw
    obtain ⟨j,hj⟩ := List.mem_iff_getElem?.mp hw
    have hji : j < i + 1 := by
      have := (List.getElem?_eq_some_iff.mp hj).1
      rw [List.length_take] at this
      omega
    rw [List.getElem?_take_of_lt hji] at hj
    exact decide_eq_true (sorted_get hs hj hv (by omega))
  have hsub := (List.take_sublist (i + 1) s).countP_le (p := fun w => decide (w ≤ v))
  rw [htake, List.length_take] at hsub
  omega

theorem countP_add_not {α : Type*} (s : List α) (p : α → Bool) :
    s.countP p + s.countP (fun v => !p v) = s.length := by
  induction s with
  | nil => rfl
  | cons v rest ih =>
    rw [List.countP_cons, List.countP_cons, List.length_cons, ← ih]
    cases p v <;> simp <;> omega

/-- The value at a position is above a threshold when at most that many values are not. -/
theorem lt_get_iff {s : List K} (hs : s.Pairwise (· ≤ ·)) {i : Nat} {v : K} (hv : s[i]? = some v)
    (x : K) : x < v ↔ (s.countP fun w => w ≤ x) ≤ i := by
  constructor
  · intro hxv
    have hright := left_le_count hs hv
    have hsplit := countP_add_not s fun w => decide (v ≤ w)
    have hsub : (s.countP fun w => w ≤ x) ≤ s.countP fun w => !decide (v ≤ w) := by
      apply List.countP_mono_left
      intro w _ hw
      rw [Bool.not_eq_true', decide_eq_false_iff_not, not_le]
      exact lt_of_le_of_lt (of_decide_eq_true hw) hxv
    omega
  · intro hcount
    by_contra hxv
    have hleft := count_le_left hs hv
    have hsub : (s.countP fun w => w ≤ v) ≤ s.countP fun w => w ≤ x := by
      apply List.countP_mono_left
      intro w _ hw
      exact decide_eq_true ((of_decide_eq_true hw).trans (not_lt.mp hxv))
    omega

/-- The value at a position is below a threshold when the values that are not fit behind it. -/
theorem get_lt_iff {s : List K} (hs : s.Pairwise (· ≤ ·)) {i : Nat} {v : K} (hv : s[i]? = some v)
    (x : K) : v < x ↔ i + (s.countP fun w => x ≤ w) < s.length := by
  constructor
  · intro hvx
    have hleft := count_le_left hs hv
    have hsplit := countP_add_not s fun w => decide (w ≤ v)
    have hsub : (s.countP fun w => x ≤ w) ≤ s.countP fun w => !decide (w ≤ v) := by
      apply List.countP_mono_left
      intro w _ hw
      rw [Bool.not_eq_true', decide_eq_false_iff_not, not_le]
      exact lt_of_lt_of_le hvx (of_decide_eq_true hw)
    omega
  · intro hcount
    by_contra hvx
    have hright := left_le_count hs hv
    have hsub : (s.countP fun w => v ≤ w) ≤ s.countP fun w => x ≤ w := by
      apply List.countP_mono_left
      intro w _ hw
      exact decide_eq_true ((not_lt.mp hvx).trans (of_decide_eq_true hw))
    omega

end Whetstone.Lib
