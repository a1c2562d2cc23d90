import Mathlib.Data.List.Basic
import Mathlib.Data.List.Induction
import Mathlib.Data.List.Nodup

/-! Stable ranking. The first element of a sorted list that passes a test is, among the elements
of the list that pass it, the first one that is ranked no lower than any other. -/
namespace Whetstone.Lib

variable {α : Type}

/-- A stable sort under an order that is total and transitive on the members of the list. -/
structure RankedOn (le : α → α → Bool) (l : List α) : Prop where
  trans : ∀ a ∈ l, ∀ b ∈ l, ∀ c ∈ l, le a b = true → le b c = true → le a c = true
  total : ∀ a ∈ l, ∀ b ∈ l, le a b = true ∨ le b a = true

namespace RankedOn

variable {le : α → α → Bool} {l : List α}

/- The order of a list as an order on its members. -/
theorem attached (h : RankedOn le l) :
    (∀ a b c : { x // x ∈ l }, le a.1 b.1 = true → le b.1 c.1 = true → le a.1 c.1 = true) ∧
      ∀ a b : { x // x ∈ l }, (le a.1 b.1 || le b.1 a.1) = true := by
  refine ⟨fun a b c => h.trans a.1 a.2 b.1 b.2 c.1 c.2, fun a b => ?_⟩
  rw [Bool.or_eq_true]
  exact h.total a.1 a.2 b.1 b.2

theorem mergeSort_attach (le : α → α → Bool) (l : List α) :
    l.mergeSort le = (l.attach.mergeSort fun a b => le a.1 b.1).map Subtype.val := by
  rw [List.map_mergeSort (s := le) fun _ _ _ _ => rfl, List.attach_map_subtype_val]

theorem pairwise (h : RankedOn le l) : (l.mergeSort le).Pairwise fun a b => le a b = true := by
  rw [mergeSort_attach, List.pairwise_map]
  exact List.pairwise_mergeSort h.attached.1 h.attached.2 l.attach

/-- Elements in order stay in order. -/
theorem pair_sublist (h : RankedOn le l) {a b : α} (hab : le a b = true)
    (hsub : [a, b].Sublist l) : [a, b].Sublist (l.mergeSort le) := by
  have ha : a ∈ l := hsub.subset (by simp)
  have hb : b ∈ l := hsub.subset (by simp)
  have hattach : [(⟨a, ha⟩ : { x // x ∈ l }), ⟨b, hb⟩].Sublist l.attach := by
    have hmap := hsub
    rw [← List.attach_map_subtype_val l, List.sublist_map_iff] at hmap
    obtain ⟨pair,hpair,he⟩ := hmap
    have hvals : pair = [⟨a, ha⟩, ⟨b, hb⟩] := by
      match pair, he with
      | [x, y], he =>
        simp only [List.map_cons, List.map_nil, List.cons.injEq, and_true] at he
        obtain ⟨rfl,rfl⟩ := he
        rfl
    rwa [hvals] at hpair
  rw [mergeSort_attach]
  exact (List.pair_sublist_mergeSort h.attached.1 h.attached.2 hab hattach).map Subtype.val

end RankedOn

/-- What a stable ranking finds first is the first maximum of what passes the test. -/
theorem find_mergeSort {le : α → α → Bool} {l : List α} (h : RankedOn le l) (hnodup : l.Nodup)
    {p : α → Bool} {x : α} (hfind : (l.mergeSort le).find? p = some x) :
    ∃ before after, l.filter p = before ++ x :: after ∧ (∀ y ∈ before, le y x = false) ∧
      ∀ y ∈ before ++ after, le x y = true := by
  obtain ⟨hpx,front,back,hsplit,hfront⟩ := List.find?_eq_some_iff_append.mp hfind
  have hsorted := h.pairwise
  have hnd : (l.mergeSort le).Nodup := (List.mergeSort_perm l le).nodup_iff.mpr hnodup
  rw [hsplit] at hsorted hnd
  have hback : ∀ y ∈ l, p y = true → y ≠ x → y ∈ back := by
    intro y hy hpy hne
    have hmem : y ∈ front ++ x :: back := by
      rw [← hsplit]
      exact List.mem_mergeSort.mpr hy
    rcases List.mem_append.mp hmem with hy | hy
    · exact absurd hpy (by simpa using hfront y hy)
    · rcases List.mem_cons.mp hy with hy | hy
      · exact absurd hy hne
      · exact hy
  have hle : ∀ y ∈ l, p y = true → y ≠ x → le x y = true := fun y hy hpy hne =>
    (List.pairwise_cons.mp (List.pairwise_append.mp hsorted).2.1).1 y (hback y hy hpy hne)
  have hx : x ∈ l := by
    have hmem : x ∈ l.mergeSort le := by
      rw [hsplit]
      simp
    exact List.mem_mergeSort.mp hmem
  obtain ⟨before,after,hfilter⟩ := List.append_of_mem (List.mem_filter.mpr ⟨hx, hpx⟩)
  have hfnodup : (before ++ x :: after).Nodup := hfilter ▸ hnodup.filter p
  have hmember : ∀ y ∈ before ++ after, y ∈ l ∧ p y = true ∧ y ≠ x := by
    intro y hy
    have hmem : y ∈ l.filter p := by
      rw [hfilter]
      simp only [List.mem_append, List.mem_cons] at hy ⊢
      exact hy.elim .inl fun hy => .inr (.inr hy)
    obtain ⟨hyl,hpy⟩ := List.mem_filter.mp hmem
    refine ⟨hyl, hpy, ?_⟩
    rintro rfl
    have hmiddle := (List.nodup_middle.mp hfnodup)
    exact (List.nodup_cons.mp hmiddle).1 hy
  refine ⟨before, after, hfilter, fun y hy => ?_, fun y hy => ?_⟩
  · obtain ⟨hyl,hpy,hne⟩ := hmember y (List.mem_append_left _ hy)
    by_contra hyx
    have hpair : [y, x].Sublist (l.filter p) := by
      rw [hfilter]
      exact (List.singleton_sublist.mpr hy).append
        (List.singleton_sublist.mpr List.mem_cons_self)
    have hranked := h.pair_sublist (by simpa using hyx) (hpair.trans List.filter_sublist)
    -- `y` stands before `x` in the ranking, where it can only stand behind it
    rw [hsplit] at hranked
    have hnot : ¬ [y, x].Sublist (x :: back) := by
      intro hsub
      have hcons : x ∈ back := by
        rcases List.cons_sublist_cons'.mp hsub with hsub | ⟨hyx,_⟩
        · exact hsub.subset (by simp)
        · exact absurd hyx hne
      exact (List.nodup_cons.mp (List.nodup_append.mp hnd).2.1).1 hcons
    obtain ⟨left,right,hlr,hleft,hright⟩ := List.sublist_append_iff.mp hranked
    cases left with
    | nil =>
      rw [List.nil_append] at hlr
      exact hnot (hlr ▸ hright)
    | cons z left =>
      have hz : z = y := by simpa using (congrArg List.head? hlr).symm
      have hyfront : y ∈ front := hz ▸ hleft.subset (by simp)
      exact absurd hpy (by simpa using hfront y hyfront)
  · obtain ⟨hyl,hpy,hne⟩ := hmember y hy
    exact hle y hyl hpy hne

end Whetstone.Lib
