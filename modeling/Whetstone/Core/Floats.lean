import Whetstone.Core.Json

/-! Python floats and the built-in conversions. A float is a value of an arbitrary type `F`
with the operations the source applies to it. Nothing is assumed of them: they may round,
overflow to an infinity or yield a nan. -/
namespace Whetstone.Core

class FloatOps (F : Type) where
  zero : F
  add : F → F → F
  mul : F → F → F
  neg : F → F
  /-- `sum(values)`, which is not a left fold of `add` on floats. -/
  sum : List F → F
  divNat : F → Nat → F
  /-- The true division of two integers. -/
  ratio : Nat → Nat → F
  le : F → F → Bool
  lt : F → F → Bool
  isFinite : F → Bool

/-- Floats with `==`. A finite float whose zero has a sign loses it on construction. -/
class FiniteFloats (F : Type) extends FloatOps F where
  eq : F → F → Bool
  zero_finite : isFinite zero = true

structure FiniteFloat (F : Type) [FiniteFloats F] where
  value : F
  finite : FloatOps.isFinite value = true

instance {F : Type} [FiniteFloats F] [DecidableEq F] : DecidableEq (FiniteFloat F) := fun a b =>
  decidable_of_iff (a.value = b.value)
    ⟨fun h => by cases a; cases b; cases h; rfl, fun h => congrArg FiniteFloat.value h⟩

def FiniteFloat.create {F : Type} [FiniteFloats F] (x : F) : Except String (FiniteFloat F) :=
  if h : FloatOps.isFinite x = true then
    if FiniteFloats.eq x (FloatOps.zero : F) then .ok ⟨FloatOps.zero, FiniteFloats.zero_finite⟩
    else .ok ⟨x, h⟩
  else .error "finite float must be finite"

/- A value of a node output or of a worker payload: a JSON value, or a float of the row. -/
inductive PyValue (F : Type) where
  | json (value : Json)
  | float (value : F)
deriving DecidableEq

instance {F : Type} : Inhabited (PyValue F) := ⟨.json .null⟩

/- `none` is the exception that the conversion raises. -/
class Conversions (F : Type) where
  strOf : PyValue F → String
  intOfText : String → Option Int
  intOfFloat : F → Option Int
  floatOfInt : Int → Option F
  floatOfText : String → Option F
  floatOfRat : Rat → F
  dictOfItems : List Json → Option (List (String × Json))
  floatTruthy : F → Bool

variable {F : Type} [Conversions F]

def raised {α : Type} (message : String) : Option α → Except String α
  | some value => .ok value
  | none => .error message

def pyStr : PyValue F → String
  | .json (.str text) => text
  | value => Conversions.strOf value

def pyInt : PyValue F → Except String Int
  | .json (.int n) => .ok n
  | .json (.bool b) => .ok (if b then 1 else 0)
  | .json (.str text) => raised "invalid literal for int()" (Conversions.intOfText (F := F) text)
  | .json (.float q) =>
    raised "cannot convert float to integer" (Conversions.intOfFloat (Conversions.floatOfRat q : F))
  | .float x => raised "cannot convert float to integer" (Conversions.intOfFloat x)
  | .json _ => .error "int() argument must be a string or a number"

def pyFloat : PyValue F → Except String F
  | .json (.int n) => raised "int too large to convert to float" (Conversions.floatOfInt n)
  | .json (.bool b) =>
    raised "int too large to convert to float" (Conversions.floatOfInt (if b then 1 else 0))
  | .json (.str text) => raised "could not convert string to float" (Conversions.floatOfText text)
  | .json (.float q) => .ok (Conversions.floatOfRat q)
  | .float x => .ok x
  | .json _ => .error "float() argument must be a string or a number"

def pyDict : PyValue F → Except String (List (String × Json))
  | .json (.obj fields) => .ok fields
  | .json (.arr items) =>
    raised "dictionary update sequence element is not a pair" (Conversions.dictOfItems F items)
  | _ => .error "object is not iterable as a mapping"

def truthy : PyValue F → Bool
  | .json .null => false
  | .json (.bool b) => b
  | .json (.int n) => n ≠ 0
  | .json (.float q) => Conversions.floatTruthy (Conversions.floatOfRat q : F)
  | .json (.str text) => text ≠ ""
  | .json (.arr items) => !items.isEmpty
  | .json (.obj fields) => !fields.isEmpty
  | .float x => Conversions.floatTruthy x

/- Exact arithmetic, which floats follow on small dyadic values. -/
@[reducible] def exactFloats : FloatOps Rat where
  zero := 0
  add := (· + ·)
  mul := (· * ·)
  neg := fun x => -x
  sum := fun values => values.foldl (· + ·) 0
  divNat := fun x n => x / n
  ratio := fun m n => (m : Rat) / n
  le := fun x y => decide (x ≤ y)
  lt := fun x y => decide (x < y)
  isFinite := fun _ => true

@[reducible] def exactFiniteFloats : FiniteFloats Rat where
  toFloatOps := exactFloats
  eq := fun x y => decide (x = y)
  zero_finite := rfl

theorem rational_finite (x : Rat) : exactFloats.isFinite x = true := rfl

def exactFinite (x : Rat) : @FiniteFloat Rat exactFiniteFloats :=
  @FiniteFloat.mk Rat exactFiniteFloats x (rational_finite x)

@[reducible] def exactConversions : Conversions Rat where
  strOf := fun _ => ""
  intOfText := String.toInt?
  intOfFloat := fun q => some (q.num.tdiv q.den)
  floatOfInt := fun n => some n
  floatOfText := fun text =>
    if text = "0.0" then some 0 else if text = "0.5" then some (1 / 2)
    else if text = "1.0" then some 1 else none
  floatOfRat := fun q => q
  dictOfItems := fun _ => none
  floatTruthy := fun q => decide (q ≠ 0)

end Whetstone.Core
