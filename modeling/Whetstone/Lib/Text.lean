import Mathlib.Data.List.Basic

/-! Text that carries structure: a name with a numbered suffix, and a name split at its last
separator, as `str.rpartition` splits it. -/
namespace Whetstone.Lib

theorem append_cons_inj {α : Type} (c : α) (a a' b b' : List α) (hb : c ∉ b) (hb' : c ∉ b')
    (h : a ++ c :: b = a' ++ c :: b') : a = a' ∧ b = b' := by
  induction a generalizing a' with
  | nil =>
    cases a' with
    | nil => exact ⟨rfl, by simpa using h⟩
    | cons x a' =>
      simp only [List.nil_append, List.cons_append, List.cons.injEq] at h
      exact absurd (by rw [h.2]; simp) hb
  | cons x a ih =>
    cases a' with
    | nil =>
      simp only [List.nil_append, List.cons_append, List.cons.injEq] at h
      exact absurd (by rw [← h.2]; simp) hb'
    | cons y a' =>
      simp only [List.cons_append, List.cons.injEq] at h
      obtain ⟨h1,h2⟩ := ih a' h.2
      exact ⟨by rw [h.1, h1], h2⟩

def keyed (name : String) (index : Nat) : String := name ++ "#" ++ toString index

theorem toList_keyed (name : String) (index : Nat) :
    (keyed name index).toList = name.toList ++ '#' :: Nat.toDigits 10 index := by
  simp [keyed]

theorem hash_not_mem_toDigits (n : Nat) : '#' ∉ Nat.toDigits 10 n := by
  intro h
  have hdigit := Nat.isDigit_of_mem_toDigits (by decide) (by decide) h
  exact absurd hdigit (by decide)

@[simp] theorem keyed_inj (a b : String) (i j : Nat) : keyed a i = keyed b j ↔ a = b ∧ i = j := by
  constructor
  · intro h
    have hlist := congrArg String.toList h
    rw [toList_keyed, toList_keyed] at hlist
    obtain ⟨hname,hdigits⟩ := append_cons_inj '#' _ _ _ _ (hash_not_mem_toDigits i)
      (hash_not_mem_toDigits j) hlist
    refine ⟨String.toList_inj.mp hname, ?_⟩
    rw [← Nat.ofDigitChars_ten_toDigits (n := i), hdigits, Nat.ofDigitChars_ten_toDigits]
  · rintro ⟨rfl,rfl⟩
    rfl

/- The text before the last separator, whether there is one, and the text after it. -/
def rpartition (c : Char) (s : String) : String × Bool × String :=
  let tail := s.toList.reverse.takeWhile (· ≠ c)
  let rest := s.toList.reverse.dropWhile (· ≠ c)
  match rest with
  | [] => ("", false, s)
  | _ :: name => (String.ofList name.reverse, true, String.ofList tail.reverse)

theorem rpartition_append (c : Char) (name role : String) (hrole : c ∉ role.toList) :
    rpartition c (name ++ String.singleton c ++ role) = (name, true, role) := by
  have hrev : (name ++ String.singleton c ++ role).toList.reverse =
      role.toList.reverse ++ c :: name.toList.reverse := by simp
  have hall : ∀ x ∈ role.toList.reverse, decide (x ≠ c) = true := by
    intro x hx
    rw [decide_eq_true_eq]
    rintro rfl
    exact hrole (List.mem_reverse.mp hx)
  have hdrop : (role.toList.reverse ++ c :: name.toList.reverse).dropWhile (· ≠ c) =
      c :: name.toList.reverse := by
    rw [List.dropWhile_append_of_pos hall]
    simp
  have htake : (role.toList.reverse ++ c :: name.toList.reverse).takeWhile (· ≠ c) =
      role.toList.reverse := by
    rw [List.takeWhile_append_of_pos hall]
    simp
  simp only [rpartition, hrev, hdrop, htake]
  simp

/- The characters that `str.strip` removes. -/
def isSpace (c : Char) : Bool :=
  let n := c.toNat
  (9 ≤ n && n ≤ 13) || (28 ≤ n && n ≤ 32) || (0x2000 ≤ n && n ≤ 0x200a) ||
    n ∈ [0x85, 0xa0, 0x1680, 0x2028, 0x2029, 0x202f, 0x205f, 0x3000]

def strip (s : String) : String :=
  String.ofList ((s.toList.dropWhile isSpace).reverse.dropWhile isSpace).reverse

end Whetstone.Lib
