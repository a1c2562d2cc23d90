import Whetstone.Lib.JsonText

/-! Strings as compact JSON texts. A character is escaped where the grammar wants it and is
otherwise its UTF-8 bytes. -/
namespace Whetstone.Lib.JsonText

/- The letter of a short escape. -/
def shortEscape (c : Char) : Option UInt8 :=
  if c.toNat = 0x22 then some 0x22
  else if c.toNat = 0x5C then some 0x5C
  else if c.toNat = 0x08 then some 0x62
  else if c.toNat = 0x0C then some 0x66
  else if c.toNat = 0x0A then some 0x6E
  else if c.toNat = 0x0D then some 0x72
  else if c.toNat = 0x09 then some 0x74
  else none

def hexByte (n : Nat) : UInt8 := if n < 10 then UInt8.ofNat (0x30 + n) else UInt8.ofNat (0x57 + n)

def encodeChar (c : Char) : Bytes :=
  match shortEscape c with
  | some letter => [0x5C, letter]
  | none =>
    if c.toNat < 0x20 then [0x5C, 0x75, 0x30, 0x30, hexByte (c.toNat / 16), hexByte (c.toNat % 16)]
    else String.utf8EncodeChar c

def encodeChars (chars : List Char) : Bytes := chars.flatMap encodeChar

def encodeString (text : String) : Bytes := 0x22 :: encodeChars text.toList ++ [0x22]

@[simp] theorem encodeChars_nil : encodeChars [] = [] := rfl

@[simp] theorem encodeChars_cons (c : Char) (rest : List Char) :
    encodeChars (c :: rest) = encodeChar c ++ encodeChars rest := rfl

theorem length_encodeString (text : String) :
    (encodeString text).length = 2 + (encodeChars text.toList).length := by
  rw [encodeString, List.length_append, List.length_cons, List.length_singleton]
  omega

theorem shortEscape_isSome (c : Char) : (shortEscape c).isSome = true ↔
    c.toNat ∈ [0x22, 0x5C, 0x08, 0x0C, 0x0A, 0x0D, 0x09] := by
  unfold shortEscape
  simp only [List.mem_cons, List.not_mem_nil, or_false]
  split_ifs <;> simp_all

theorem length_utf8 (c : Char) : (String.utf8EncodeChar c).length =
    if c.toNat < 0x80 then 1 else if c.toNat < 0x800 then 2
    else if c.toNat < 0x10000 then 3 else 4 := by
  have hval : c.val.toNat = c.toNat := rfl
  unfold String.utf8EncodeChar
  simp only [hval]
  split_ifs <;> first | rfl | omega

theorem length_encodeChar (c : Char) : (encodeChar c).length =
    if c.toNat ∈ [0x22, 0x5C, 0x08, 0x0C, 0x0A, 0x0D, 0x09] then 2
    else if c.toNat < 0x20 then 6 else (String.utf8EncodeChar c).length := by
  unfold encodeChar
  cases hshort : shortEscape c with
  | some letter =>
    have hmem := (shortEscape_isSome c).mp (by rw [hshort]; rfl)
    rw [if_pos hmem]
    rfl
  | none =>
    have hmem : ¬ c.toNat ∈ [0x22, 0x5C, 0x08, 0x0C, 0x0A, 0x0D, 0x09] := by
      rw [← shortEscape_isSome, hshort]
      exact Bool.false_ne_true
    rw [if_neg hmem]
    by_cases hlow : c.toNat < 0x20
    · rw [if_pos hlow, if_pos hlow]
      rfl
    · rw [if_neg hlow, if_neg hlow]

/-! ### Integers -/

def asciiBytes (text : String) : Bytes := text.toList.map fun c => UInt8.ofNat c.toNat

theorem length_asciiBytes (text : String) : (asciiBytes text).length = text.length := by
  rw [asciiBytes, List.length_map, String.length_toList]

def encodeInt (n : Int) : Bytes := asciiBytes (toString n)

end Whetstone.Lib.JsonText
