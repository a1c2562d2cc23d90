import Mathlib.Data.Rat.Defs
import Mathlib.Data.List.Basic

/-! Strict JSON values as the records carry them. Finite floats are rationals;
objects keep the order in which their fields were written. -/
namespace Whetstone.Core

inductive Json where
  | null
  | bool (value : Bool)
  | int (value : Int)
  | float (value : Rat)
  | str (value : String)
  | arr (items : List Json)
  | obj (fields : List (String × Json))

namespace Json

mutual
def beq : Json → Json → Bool
  | .null, .null => true
  | .bool a, .bool b => a == b
  | .int a, .int b => a == b
  | .float a, .float b => a == b
  | .str a, .str b => a == b
  | .arr a, .arr b => beqItems a b
  | .obj a, .obj b => beqFields a b
  | _, _ => false
def beqItems : List Json → List Json → Bool
  | [], [] => true
  | a :: as, b :: bs => beq a b && beqItems as bs
  | _, _ => false
def beqFields : List (String × Json) → List (String × Json) → Bool
  | [], [] => true
  | (k, a) :: as, (l, b) :: bs => k == l && beq a b && beqFields as bs
  | _, _ => false
end

mutual
theorem eq_of_beq : ∀ a b : Json, beq a b = true → a = b
  | .null, b, h => by cases b <;> simp_all [beq]
  | .bool _, b, h => by cases b <;> simp_all [beq]
  | .int _, b, h => by cases b <;> simp_all [beq]
  | .float _, b, h => by cases b <;> simp_all [beq]
  | .str _, b, h => by cases b <;> simp_all [beq]
  | .arr as, b, h => by
    cases b with
    | arr bs => rw [eq_of_beqItems as bs h]
    | _ => simp [beq] at h
  | .obj as, b, h => by
    cases b with
    | obj bs => rw [eq_of_beqFields as bs h]
    | _ => simp [beq] at h
theorem eq_of_beqItems : ∀ as bs : List Json, beqItems as bs = true → as = bs
  | [], bs, h => by cases bs <;> simp_all [beqItems]
  | a :: as, [], h => by simp [beqItems] at h
  | a :: as, b :: bs, h => by
    simp only [beqItems, Bool.and_eq_true] at h
    rw [eq_of_beq a b h.1, eq_of_beqItems as bs h.2]
theorem eq_of_beqFields : ∀ as bs : List (String × Json), beqFields as bs = true → as = bs
  | [], bs, h => by cases bs <;> simp_all [beqFields]
  | (k, a) :: as, [], h => by simp [beqFields] at h
  | (k, a) :: as, (l, b) :: bs, h => by
    simp only [beqFields, Bool.and_eq_true, beq_iff_eq] at h
    rw [h.1.1, eq_of_beq a b h.1.2, eq_of_beqFields as bs h.2]
end

mutual
theorem beq_refl : ∀ a : Json, beq a a = true
  | .null => rfl
  | .bool _ | .int _ | .float _ | .str _ => by simp [beq]
  | .arr as => beqItems_refl as
  | .obj as => beqFields_refl as
theorem beqItems_refl : ∀ as : List Json, beqItems as as = true
  | [] => rfl
  | a :: as => by simp [beqItems, beq_refl a, beqItems_refl as]
theorem beqFields_refl : ∀ as : List (String × Json), beqFields as as = true
  | [] => rfl
  | (k, a) :: as => by simp [beqFields, beq_refl a, beqFields_refl as]
end

instance : DecidableEq Json := fun a b =>
  decidable_of_iff (beq a b = true) ⟨eq_of_beq a b, fun h => h ▸ beq_refl a⟩

instance : Inhabited Json := ⟨.null⟩

end Json
end Whetstone.Core
