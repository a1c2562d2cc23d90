import Mathlib.Data.List.Basic
import Mathlib.Data.List.Perm.Basic

/-! The undominated members of a list. Under a strict order every other member is below one of
them, and which members they are does not depend on the order of the list. -/
namespace Whetstone.Lib

variable {α : Type*}

/-- A strict order on the members of a list. -/
structure StrictOn (above : α → α → Bool) (l : List α) : Prop where
  irrefl : ∀ a ∈ l, above a a = false
  trans : ∀ a ∈ l, ∀ b ∈ l, ∀ c ∈ l, above a b = true → above b c = true → above a c = true

def undominatedIn (above : α → α → Bool) (l : List α) (a : α) : Bool := !l.any fun b => above b a

/- The members that none at another position is above, with their positions. -/
def frontier (above : α → α → Bool) (l : List α) : List (α × Nat) :=
  l.zipIdx.filter fun p => !(l.zipIdx.filter fun q => q.2 ≠ p.2).any fun q => above q.1 p.1

variable {above : α → α → Bool} {l : List α}

theorem undominatedIn_iff (a : α) :
    undominatedIn above l a = true ↔ ∀ b ∈ l, above b a = false := by
  simp [undominatedIn]

/- A member is not above itself, so its own position need not be left out. -/
theorem StrictOn.frontier_eq (h : StrictOn above l) :
    frontier above l = l.zipIdx.filter fun p => undominatedIn above l p.1 := by
  apply List.filter_congr
  intro p hp
  have hself : above p.1 p.1 = false := h.irrefl p.1 (List.fst_mem_of_mem_zipIdx hp)
  rw [Bool.eq_iff_iff, undominatedIn_iff, Bool.not_eq_true', List.any_eq_false]
  constructor
  · intro hothers b hb
    obtain ⟨i,hi,rfl⟩ := List.mem_iff_getElem.mp hb
    have hmem : (l[i], i) ∈ l.zipIdx := List.mk_mem_zipIdx_iff_getElem?.mpr (by simp [hi])
    by_cases hsame : i = p.2
    · have hget := List.mk_mem_zipIdx_iff_getElem?.mp hp
      have hown : l[i] = p.1 := by
        rw [← hsame, List.getElem?_eq_getElem hi] at hget
        exact Option.some.inj hget
      rw [hown]
      exact hself
    · have hother : (l[i], i) ∈ l.zipIdx.filter fun q => q.2 ≠ p.2 :=
        List.mem_filter.mpr ⟨hmem, by simpa using hsame⟩
      exact Bool.eq_false_iff.mpr (hothers (l[i], i) hother)
  · intro hall q hq
    exact Bool.eq_false_iff.mp
      (hall q.1 (List.fst_mem_of_mem_zipIdx (List.mem_filter.mp hq).1))

theorem StrictOn.map_frontier (h : StrictOn above l) :
    (frontier above l).map Prod.fst = l.filter (undominatedIn above l) := by
  have hfilter := List.filter_map (f := Prod.fst) (p := undominatedIn above l) (l := l.zipIdx)
  rw [List.zipIdx_map_fst] at hfilter
  rw [h.frontier_eq, hfilter]
  rfl

theorem undominatedIn_perm {l' : List α} (hperm : l.Perm l') :
    undominatedIn above l = undominatedIn above l' := by
  funext a
  rw [Bool.eq_iff_iff, undominatedIn_iff, undominatedIn_iff]
  exact ⟨fun h b hb => h b (hperm.mem_iff.mpr hb), fun h b hb => h b (hperm.mem_iff.mp hb)⟩

/- What is above a dominator is above all it dominates, and the dominator is not. -/
theorem StrictOn.fewer_above (h : StrictOn above l) {a b : α} (ha : a ∈ l) (hb : b ∈ l)
    (hab : above b a = true) :
    (l.filter fun c => above c b).length < (l.filter fun c => above c a).length := by
  have hsub : (l.filter fun c => above c b) =
      (l.filter fun c => above c a).filter fun c => above c b := by
    rw [List.filter_filter]
    apply List.filter_congr
    intro c hc
    cases hcb : above c b with
    | false => rfl
    | true => rw [h.trans c hc b hb a ha hcb hab, Bool.true_and]
  rw [hsub]
  apply List.length_filter_lt_length_iff_exists.mpr
  refine ⟨b, List.mem_filter.mpr ⟨hb, hab⟩, ?_⟩
  rw [h.irrefl b hb]
  exact Bool.false_ne_true

/-- Every member is undominated or below an undominated one. The descent goes to a dominator,
which fewer members are above. -/
theorem StrictOn.covered (h : StrictOn above l) (a : α) (ha : a ∈ l) :
    undominatedIn above l a = true ∨
      ∃ b ∈ l, undominatedIn above l b = true ∧ above b a = true := by
  induction hn : (l.filter fun c => above c a).length using Nat.strongRecOn generalizing a with
  | ind n ih =>
    by_cases hfree : undominatedIn above l a = true
    · exact .inl hfree
    · rw [undominatedIn_iff] at hfree
      push Not at hfree
      obtain ⟨b,hb,hab⟩ := hfree
      have hab : above b a = true := eq_true_of_ne_false hab
      have hfewer := h.fewer_above ha hb hab
      cases ih _ (hn ▸ hfewer) b hb rfl with
      | inl hbfree => exact .inr ⟨b, hb, hbfree, hab⟩
      | inr hcover =>
        obtain ⟨c,hc,hcfree,hcb⟩ := hcover
        exact .inr ⟨c, hc, hcfree, h.trans c hc b hb a ha hcb hab⟩

/-- The frontier of a list that is not empty is not empty. -/
theorem StrictOn.exists_undominated (h : StrictOn above l) (hne : l ≠ []) :
    ∃ a ∈ l, undominatedIn above l a = true := by
  obtain ⟨a,ha⟩ := List.exists_mem_of_ne_nil l hne
  cases h.covered a ha with
  | inl hfree => exact ⟨a, ha, hfree⟩
  | inr hcover =>
    obtain ⟨b,hb,hfree,_⟩ := hcover
    exact ⟨b, hb, hfree⟩

end Whetstone.Lib
