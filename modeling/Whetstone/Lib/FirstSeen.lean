import Mathlib.Algebra.BigOperators.Group.Finset.Basic

/-! The distinct members of a list, each where it first occurs. A list made of one run of
copies for each key gives back its keys. -/
namespace Whetstone.Lib

variable {α : Type} [DecidableEq α]

/- `seen` are the members met so far. -/
def seenFrom (seen l : List α) : List α :=
  l.foldl (fun seen a => if a ∈ seen then seen else seen ++ [a]) seen

theorem seenFrom_cons (seen : List α) (a : α) (l : List α) :
    seenFrom seen (a :: l) = seenFrom (if a ∈ seen then seen else seen ++ [a]) l := rfl

theorem seenFrom_append (seen l r : List α) :
    seenFrom seen (l ++ r) = seenFrom (seenFrom seen l) r := List.foldl_append

theorem mem_seenFrom (seen l : List α) (a : α) : a ∈ seenFrom seen l ↔ a ∈ seen ∨ a ∈ l := by
  induction l generalizing seen with
  | nil => simp [seenFrom]
  | cons b rest ih =>
    rw [seenFrom_cons, ih]
    by_cases hb : b ∈ seen
    · rw [if_pos hb, List.mem_cons]
      constructor
      · exact Or.imp_right .inr
      · rintro (ha | rfl | ha)
        · exact .inl ha
        · exact .inl hb
        · exact .inr ha
    · rw [if_neg hb, List.mem_append, List.mem_singleton, List.mem_cons, or_assoc]

theorem seenFrom_nodup (seen l : List α) (h : seen.Nodup) : (seenFrom seen l).Nodup := by
  induction l generalizing seen with
  | nil => exact h
  | cons a rest ih =>
    rw [seenFrom_cons]
    apply ih
    by_cases ha : a ∈ seen
    · rwa [if_pos ha]
    · rw [if_neg ha, List.nodup_append]
      refine ⟨h, List.nodup_singleton a, ?_⟩
      rintro b hb c hc rfl
      exact ha (List.mem_singleton.mp hc ▸ hb)

theorem seenFrom_copies (seen l : List α) (a : α) (ha : a ∈ seen) (h : ∀ b ∈ l, b = a) :
    seenFrom seen l = seen := by
  induction l with
  | nil => rfl
  | cons b rest ih =>
    obtain ⟨hb,hrest⟩ := List.forall_mem_cons.mp h
    rw [seenFrom_cons, hb, if_pos ha]
    exact ih hrest

/-- Runs of copies of distinct new keys append those keys. -/
theorem seenFrom_flatMap {κ : Type} (seen : List α) (keys : List κ) (key : κ → α)
    (block : κ → List α) (hblock : ∀ k ∈ keys, block k ≠ [] ∧ ∀ b ∈ block k, b = key k)
    (hnodup : (seen ++ keys.map key).Nodup) :
    seenFrom seen (keys.flatMap block) = seen ++ keys.map key := by
  induction keys generalizing seen with
  | nil => simp [seenFrom]
  | cons k rest ih =>
    obtain ⟨⟨hne,hcopies⟩,hrest⟩ := List.forall_mem_cons.mp hblock
    have hnew : key k ∉ seen := by
      intro hk
      exact (List.nodup_append.mp hnodup).2.2 _ hk _ List.mem_cons_self rfl
    have hrun : seenFrom seen (block k) = seen ++ [key k] := by
      cases hb : block k with
      | nil => exact absurd hb hne
      | cons b bs =>
        rw [hb] at hcopies
        obtain ⟨rfl,hbs⟩ := List.forall_mem_cons.mp hcopies
        rw [seenFrom_cons, if_neg hnew]
        exact seenFrom_copies _ _ _ (List.mem_append_right _ List.mem_cons_self) hbs
    rw [List.flatMap_cons, seenFrom_append, hrun, ih _ hrest]
    · simp
    · simpa using hnodup

/- The values of a list in the order in which they first occur. -/
def firstSeen (l : List α) : List α :=
  l.foldl (fun seen a => if a ∈ seen then seen else seen ++ [a]) []

theorem firstSeen_append (l : List α) (a : α) :
    firstSeen (l ++ [a]) = if a ∈ firstSeen l then firstSeen l else firstSeen l ++ [a] := by
  rw [firstSeen, List.foldl_append]
  rfl

theorem mem_firstSeen (l : List α) (a : α) : a ∈ firstSeen l ↔ a ∈ l := by
  change a ∈ seenFrom [] l ↔ a ∈ l
  rw [mem_seenFrom]
  simp

theorem firstSeen_nodup (l : List α) : (firstSeen l).Nodup := seenFrom_nodup [] l List.nodup_nil

/-- A sum over a list weighs each of its values by the number of its occurrences. -/
theorem firstSeen_weighted {M : Type} [AddCommMonoid M] (l : List α) (f : α → M) :
    (l.map f).sum = ((firstSeen l).map fun a => l.count a • f a).sum := by
  rw [Finset.sum_list_map_count, ← List.sum_toFinset _ (firstSeen_nodup l)]
  refine Finset.sum_congr (Finset.ext fun a => ?_) fun a _ => rfl
  rw [List.mem_toFinset, List.mem_toFinset, mem_firstSeen]

/-- A list that is one run of copies for each of its keys. -/
theorem firstSeen_flatMap (keys : List α) (block : α → List α)
    (hblock : ∀ k ∈ keys, block k ≠ [] ∧ ∀ b ∈ block k, b = k) (hnodup : keys.Nodup) :
    firstSeen (keys.flatMap block) = keys := by
  have hseen := seenFrom_flatMap [] keys id block hblock (by rwa [List.nil_append, List.map_id])
  rwa [List.nil_append, List.map_id] at hseen

end Whetstone.Lib
