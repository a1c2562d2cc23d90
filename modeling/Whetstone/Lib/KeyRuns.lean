import Mathlib.Data.List.Basic
import Mathlib.Data.List.Induction
import Mathlib.Order.Lattice

/-! A list that is one run of elements after the other, where the elements of a run have one key
and the keys ascend from run to run. There is at most one way to cut a list so. -/
namespace Whetstone.Lib

variable {α κ : Type} [LinearOrder κ] (key : α → κ)

structure Runs (l : List α) (runs : List (List α)) : Prop where
  joined : runs.flatten = l
  filled : ∀ r ∈ runs, r ≠ []
  constant : ∀ r ∈ runs, ∀ a ∈ r, ∀ b ∈ r, key a = key b
  ascending : runs.Pairwise fun r s => ∀ a ∈ r, ∀ b ∈ s, key a < key b

variable {key} {l : List α} {runs : List (List α)}

theorem Runs.nil : Runs key ([] : List α) [] :=
  ⟨rfl, fun _ h => absurd h List.not_mem_nil, fun _ h => absurd h List.not_mem_nil, .nil⟩

theorem Runs.append (h : Runs key l runs) {r : List α} (hne : r ≠ [])
    (hconst : ∀ a ∈ r, ∀ b ∈ r, key a = key b) (hlt : ∀ a ∈ l, ∀ b ∈ r, key a < key b) :
    Runs key (l ++ r) (runs ++ [r]) where
  joined := by simp [h.joined]
  filled s hs := by
    rcases List.mem_append.mp hs with hs | hs
    · exact h.filled s hs
    · rw [List.mem_singleton.mp hs]
      exact hne
  constant s hs := by
    rcases List.mem_append.mp hs with hs | hs
    · exact h.constant s hs
    · rw [List.mem_singleton.mp hs]
      exact hconst
  ascending := by
    refine List.pairwise_append.mpr ⟨h.ascending, List.pairwise_singleton _ _, ?_⟩
    intro s hs t ht a ha b hb
    rw [List.mem_singleton.mp ht] at hb
    exact hlt a (h.joined ▸ List.mem_flatten_of_mem hs ha) b hb

/- The last run takes one more element. -/
theorem Runs.extend {last : List α} (h : Runs key l (runs ++ [last])) {a : α}
    (hkey : ∀ b ∈ last, key b = key a) : Runs key (l ++ [a]) (runs ++ [last ++ [a]]) := by
  obtain ⟨b,hb⟩ := List.exists_mem_of_ne_nil last (h.filled last (by simp))
  have hfront : Runs key runs.flatten runs :=
    ⟨rfl, fun r hr => h.filled r (List.mem_append_left _ hr),
      fun r hr => h.constant r (List.mem_append_left _ hr),
      (List.pairwise_append.mp h.ascending).1⟩
  have hsame : ∀ c ∈ last ++ [a], key c = key a := by
    intro c hc
    rcases List.mem_append.mp hc with hc | hc
    · exact hkey c hc
    · rw [List.mem_singleton.mp hc]
  have hl : l ++ [a] = runs.flatten ++ (last ++ [a]) := by
    rw [← h.joined]
    simp
  rw [hl]
  refine hfront.append (by simp) (fun c hc d hd => (hsame c hc).trans (hsame d hd).symm) ?_
  intro c hc d hd
  obtain ⟨r,hr,hcr⟩ := List.mem_flatten.mp hc
  have hlt := (List.pairwise_append.mp h.ascending).2.2 r hr last (by simp) c hcr b hb
  rwa [hsame d hd, ← hkey b hb]

theorem Runs.eq_nil (h : Runs key ([] : List α) runs) : runs = [] := by
  cases runs with
  | nil => rfl
  | cons r runs =>
    have hr := List.flatten_eq_nil_iff.mp h.joined r List.mem_cons_self
    exact absurd hr (h.filled r List.mem_cons_self)

/-- The last element of a list in runs extends the last run or begins one. -/
theorem Runs.snoc {a : α} (h : Runs key (l ++ [a]) runs) :
    (∃ front last, runs = front ++ [last ++ [a]] ∧ last ≠ [] ∧ Runs key l (front ++ [last]) ∧
        ∀ b ∈ last, key b = key a) ∨
      ∃ front, runs = front ++ [[a]] ∧ Runs key l front ∧ ∀ b ∈ l, key b < key a := by
  induction runs using List.reverseRecOn with
  | nil => exact absurd h.joined.symm (by simp)
  | append_singleton front r _ =>
    have hr : r ≠ [] := h.filled r (by simp)
    have hsplit := r.dropLast_concat_getLast hr
    have hjoined := h.joined
    rw [List.flatten_concat, ← hsplit, ← List.append_assoc] at hjoined
    obtain ⟨hl,hlast⟩ := List.append_inj' hjoined rfl
    rw [List.cons.injEq] at hlast
    rw [hlast.1] at hsplit
    have hfront : Runs key front.flatten front :=
      ⟨rfl, fun s hs => h.filled s (List.mem_append_left _ hs),
        fun s hs => h.constant s (List.mem_append_left _ hs),
        (List.pairwise_append.mp h.ascending).1⟩
    have hlt : ∀ b ∈ front.flatten, ∀ c ∈ r, key b < key c := by
      intro b hb c hc
      obtain ⟨s,hs,hbs⟩ := List.mem_flatten.mp hb
      exact (List.pairwise_append.mp h.ascending).2.2 s hs r (by simp) b hbs c hc
    have hconst := h.constant r (by simp)
    have ha : a ∈ r := by rw [← hsplit]; simp
    by_cases hinit : r.dropLast = []
    · refine .inr ⟨front, by rw [← hsplit, hinit]; rfl, ?_, ?_⟩
      · rw [← hl, hinit, List.append_nil]
        exact hfront
      · intro b hb
        rw [← hl, hinit, List.append_nil] at hb
        exact hlt b hb a ha
    · refine .inl ⟨front, r.dropLast, by rw [hsplit], hinit, ?_, ?_⟩
      · rw [← hl]
        refine hfront.append hinit (fun b hb c hc => ?_) fun b hb c hc => ?_
        · exact hconst b (List.dropLast_subset r hb) c (List.dropLast_subset r hc)
        · exact hlt b hb c (List.dropLast_subset r hc)
      · exact fun b hb => hconst b (List.dropLast_subset r hb) a ha

/-- A list is cut into runs in one way only. -/
theorem Runs.unique {runs' : List (List α)} (h : Runs key l runs) (h' : Runs key l runs') :
    runs = runs' := by
  induction l using List.reverseRecOn generalizing runs runs' with
  | nil => rw [h.eq_nil, h'.eq_nil]
  | append_singleton l a ih =>
    rcases h.snoc with ⟨front,last,rfl,hlast,hruns,hkey⟩ | ⟨front,rfl,hruns,hlt⟩
    · rcases h'.snoc with ⟨front',last',rfl,_,hruns',_⟩ | ⟨front',rfl,_,hlt'⟩
      · obtain ⟨rfl,hsame⟩ := List.append_inj' (ih hruns hruns') rfl
        rw [List.cons.injEq] at hsame
        rw [hsame.1]
      · obtain ⟨b,hb⟩ := List.exists_mem_of_ne_nil last hlast
        have hmem : b ∈ l := hruns.joined ▸ List.mem_flatten_of_mem (by simp) hb
        exact absurd (hkey b hb) (ne_of_lt (hlt' b hmem))
    · rcases h'.snoc with ⟨front',last',rfl,hlast',hruns',hkey'⟩ | ⟨front',rfl,hruns',_⟩
      · obtain ⟨b,hb⟩ := List.exists_mem_of_ne_nil last' hlast'
        have hmem : b ∈ l := hruns'.joined ▸ List.mem_flatten_of_mem (by simp) hb
        exact absurd (hkey' b hb) (ne_of_lt (hlt b hmem))
      · rw [ih hruns hruns']

end Whetstone.Lib
