import Whetstone.Core.Json
import Mathlib.Data.List.Basic

/-! Encodings into JSON that lose nothing of what they encode. -/
namespace Whetstone.Core.Json

variable {α : Type} {f : α → Json}

/-- Distinct values have distinct encodings, none of which is `null`. -/
structure Encodes (f : α → Json) : Prop where
  injective : Function.Injective f
  notNull : ∀ a, f a ≠ .null

def list (f : α → Json) (values : List α) : Json := .arr (values.map f)

def nullable (f : α → Json) : Option α → Json
  | none => .null
  | some a => f a

theorem encodes_str : Encodes Json.str := ⟨fun _ _ h => by simpa using h, fun _ => by simp⟩

theorem encodes_int : Encodes Json.int := ⟨fun _ _ h => by simpa using h, fun _ => by simp⟩

theorem encodes_bool : Encodes Json.bool := ⟨fun _ _ h => by simpa using h, fun _ => by simp⟩

/-- An object is an encoding when its fields determine the value. -/
theorem encodes_obj {fields : α → List (String × Json)} (h : Function.Injective fields) :
    Encodes (fun a => .obj (fields a)) := by
  constructor
  · intro a b hab
    simp only [Json.obj.injEq] at hab
    exact h hab
  · intro a
    simp

theorem Encodes.comp {β : Type} {g : β → α} (h : Encodes f) (hg : Function.Injective g) :
    Encodes (fun b => f (g b)) :=
  ⟨fun _ _ hab => hg (h.injective hab), fun b => h.notNull (g b)⟩

theorem Encodes.list (h : Encodes f) : Encodes (Json.list f) := by
  constructor
  · intro a b hab
    simp only [Json.list, Json.arr.injEq] at hab
    exact List.map_injective_iff.mpr h.injective hab
  · intro a
    simp [Json.list]

/-- An encoding that is injective on some values only, on optional values that are of these. -/
theorem nullable_inj {p : α → Prop} (hinj : ∀ x y, p x → p y → f x = f y → x = y)
    (hnull : ∀ x, f x ≠ .null) {a b : Option α} (ha : ∀ x, a = some x → p x)
    (hb : ∀ x, b = some x → p x) (h : Json.nullable f a = Json.nullable f b) : a = b := by
  cases a with
  | none =>
    cases b with
    | none => rfl
    | some y => exact absurd h.symm (hnull y)
  | some x =>
    cases b with
    | none => exact absurd h (hnull x)
    | some y => rw [hinj x y (ha x rfl) (hb y rfl) h]

theorem Encodes.nullable (h : Encodes f) : Function.Injective (Json.nullable f) := by
  intro a b hab
  exact nullable_inj (fun x y (_ : True) _ hxy => h.injective hxy) h.notNull (fun _ _ => trivial)
    (fun _ _ => trivial) hab

end Whetstone.Core.Json
