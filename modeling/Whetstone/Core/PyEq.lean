import Whetstone.Core.Floats
import Whetstone.Core.SortKeys
import Whetstone.Lib.Dict

/-! `==` of Python on the values that records carry. It takes some values for equal that differ:
`True` and `1.0`, the two zeros of a float, objects whose fields stand in another order. -/
namespace Whetstone.Core
open Whetstone.Lib

class PyEq (α : Type) where
  pyEq : α → α → Bool

export PyEq (pyEq)

/-- An `==` by which every value is equal to itself. -/
class ReflPyEq (α : Type) [PyEq α] : Prop where
  pyEq_refl : ∀ a : α, pyEq a a = true

export ReflPyEq (pyEq_refl)

section Containers

variable {α κ : Type}

def listEq (eq : α → α → Bool) : List α → List α → Bool
  | [], [] => true
  | a :: as, b :: bs => eq a b && listEq eq as bs
  | _, _ => false

def optionEq (eq : α → α → Bool) : Option α → Option α → Bool
  | none, none => true
  | some a, some b => eq a b
  | _, _ => false

/- Dictionaries are equal when they hold equal values under the same keys, in any order. -/
def dictEq [DecidableEq κ] (eq : α → α → Bool) (a b : Dict κ α) : Bool :=
  decide (a.pairs.length = b.pairs.length) &&
    a.pairs.all fun pair => (b.get? pair.1).any (eq pair.2)

theorem listEq_refl {eq : α → α → Bool} (l : List α) (h : ∀ a ∈ l, eq a a = true) :
    listEq eq l l = true := by
  induction l with
  | nil => rfl
  | cons a rest ih =>
    rw [listEq, h a List.mem_cons_self, ih fun b hb => h b (List.mem_cons_of_mem a hb)]
    rfl

theorem optionEq_refl {eq : α → α → Bool} (o : Option α) (h : ∀ a, eq a a = true) :
    optionEq eq o o = true := by
  cases o with
  | none => rfl
  | some a => exact h a

theorem dictEq_refl [DecidableEq κ] {eq : α → α → Bool} (d : Dict κ α)
    (h : ∀ a, eq a a = true) : dictEq eq d d = true := by
  rw [dictEq, decide_eq_true rfl, Bool.true_and, List.all_eq_true]
  intro pair hmem
  rw [(d.get?_eq_some_iff pair.1 pair.2).mpr hmem]
  exact h pair.2

end Containers

section Instances

instance : PyEq String := ⟨fun a b => decide (a = b)⟩
instance : PyEq Int := ⟨fun a b => decide (a = b)⟩
instance : PyEq Nat := ⟨fun a b => decide (a = b)⟩
instance : PyEq Bool := ⟨fun a b => decide (a = b)⟩

variable {α : Type} [PyEq α]

instance : PyEq (List α) := ⟨listEq pyEq⟩
instance : PyEq (Option α) := ⟨optionEq pyEq⟩

instance : ReflPyEq String := ⟨fun _ => decide_eq_true rfl⟩
instance : ReflPyEq Int := ⟨fun _ => decide_eq_true rfl⟩
instance : ReflPyEq Nat := ⟨fun _ => decide_eq_true rfl⟩
instance : ReflPyEq Bool := ⟨fun _ => decide_eq_true rfl⟩

instance [ReflPyEq α] : ReflPyEq (List α) := ⟨fun l => listEq_refl l fun a _ => pyEq_refl a⟩
instance [ReflPyEq α] : ReflPyEq (Option α) := ⟨fun o => optionEq_refl o pyEq_refl⟩

end Instances

/-! ### JSON values -/

/- Immutable objects are equal when their canonical texts are, which sort the fields. -/
def canonicalEq (a b : List (String × Json)) : Bool :=
  decide (Json.sortKeys (.obj a) = Json.sortKeys (.obj b))

theorem canonicalEq_refl (a : List (String × Json)) : canonicalEq a a = true :=
  decide_eq_true rfl

namespace Json

/- A value with its numbers as floats, so that `True`, `1` and `1.0` are one value. -/
mutual
def plain : Json → Json
  | .null => .null
  | .bool b => .float (if b then 1 else 0)
  | .int n => .float n
  | .float q => .float q
  | .str text => .str text
  | .arr items => .arr (plainItems items)
  | .obj fields => .obj (plainFields fields)
def plainItems : List Json → List Json
  | [] => []
  | item :: rest => plain item :: plainItems rest
def plainFields : List (String × Json) → List (String × Json)
  | [] => []
  | (key, value) :: rest => (key, plain value) :: plainFields rest
end

end Json

/- Plain dictionaries, as the dump of a record holds them. -/
def dumpEq (a b : List (String × Json)) : Bool :=
  decide ((Json.sortKeys (.obj a)).plain = (Json.sortKeys (.obj b)).plain)

theorem dumpEq_refl (a : List (String × Json)) : dumpEq a a = true := decide_eq_true rfl

end Whetstone.Core
