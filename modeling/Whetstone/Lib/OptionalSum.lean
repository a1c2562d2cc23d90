import Mathlib.Algebra.BigOperators.Group.List.Basic
import Mathlib.Algebra.Group.Basic
import Mathlib.Data.List.ReduceOption

/-! Two ways to total values of which some are unknown: what is known of them, and all or
nothing. -/
namespace Whetstone.Lib

variable {α β : Type} [AddCommMonoid α]

/- An unknown value contributes nothing. -/
def addKnown : Option α → Option α → Option α
  | none, right => right
  | some left, none => some left
  | some left, some right => some (left + right)

def knownSum (values : List (Option α)) : Option α := values.foldl addKnown none

theorem foldl_addKnown (values : List (Option α)) (start : Option α) :
    values.foldl addKnown start =
      if start = none ∧ values.reduceOption = [] then none
      else some (start.getD 0 + values.reduceOption.sum) := by
  induction values generalizing start with
  | nil => cases start <;> simp
  | cons value rest ih =>
    rw [List.foldl_cons, ih]
    cases value with
    | none => cases start <;> simp [addKnown, List.reduceOption_cons_of_none]
    | some a => cases start <;> simp [addKnown, List.reduceOption_cons_of_some, add_assoc]

theorem knownSum_eq (values : List (Option α)) :
    knownSum values = if values.reduceOption = [] then none
      else some values.reduceOption.sum := by
  rw [knownSum, foldl_addKnown]
  simp

theorem knownSum_append (values : List (Option α)) (value : Option α) :
    knownSum (values ++ [value]) = addKnown (knownSum values) value := by
  rw [knownSum, List.foldl_append]
  rfl

theorem knownSum_eq_some {values : List (Option α)} {total : α}
    (h : knownSum values = some total) : total = values.reduceOption.sum := by
  rw [knownSum_eq] at h
  split at h
  · cases h
  · exact (Option.some.inj h).symm

theorem sum_reduceOption (values : List (Option α)) :
    values.reduceOption.sum = (values.map fun value => value.getD 0).sum := by
  induction values with
  | nil => rfl
  | cons value rest ih =>
    cases value with
    | none => simp [List.reduceOption_cons_of_none, ih]
    | some a => simp [List.reduceOption_cons_of_some, ih]

theorem knownSum_isSome (values : List (Option α)) :
    (knownSum values).isSome = true ↔ ∃ a, some a ∈ values := by
  rw [knownSum_eq]
  constructor
  · intro h
    split at h
    · cases h
    · rename_i hne
      obtain ⟨a,rest,hcons⟩ := List.exists_cons_of_ne_nil hne
      exact ⟨a, List.reduceOption_mem_iff.mp (by rw [hcons]; exact List.mem_cons_self)⟩
  · rintro ⟨a,ha⟩
    rw [if_neg]
    · rfl
    · intro hnil
      have hmem := List.reduceOption_mem_iff.mpr ha
      rw [hnil] at hmem
      cases hmem

/- All or nothing, and nothing of no values. -/
def completeSum (values : List (Option α)) : Option α :=
  if values ≠ [] ∧ ∀ value ∈ values, value.isSome = true then some values.reduceOption.sum
  else none

theorem completeSum_eq_some {values : List (Option α)} {total : α} :
    completeSum values = some total ↔
      (values ≠ [] ∧ ∀ value ∈ values, value.isSome = true) ∧
        values.reduceOption.sum = total := by
  rw [completeSum, Option.ite_none_right_eq_some, Option.some.injEq]

end Whetstone.Lib
