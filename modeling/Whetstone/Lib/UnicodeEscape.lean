import Mathlib.Data.List.Basic
import Mathlib.Data.Nat.Digits.Defs

/-! Texts as sequences of code points, surrogates included, and the `unicode-escape` codec.
The decoder reads one character at a time; what it has not finished is its mode. -/
namespace Whetstone.Lib

abbrev CodePoint := Fin 0x110000

instance neZero_codePoints : NeZero 0x110000 := ⟨by decide⟩

abbrev CodeText := List CodePoint

/-- The character database behind `\N\x7b…\x7d`. -/
class CharacterNames where
  lookup : List Char → Option CodePoint

namespace UnicodeEscape

def point (n : Nat) : CodePoint := Fin.ofNat 0x110000 n

theorem point_val (c : CodePoint) : point c.val = c := by
  simp [point]

/- The last `width` hexadecimal digits of a number. -/
def hex : (width : Nat) → Nat → List Char
  | 0, _ => []
  | width + 1, n => Nat.digitChar (n / 16 ^ width % 16) :: hex width n

def escapeOne (c : CodePoint) : List Char :=
  if c.val = 92 then ['\\', '\\']
  else if c.val = 9 then ['\\', 't']
  else if c.val = 10 then ['\\', 'n']
  else if c.val = 13 then ['\\', 'r']
  else if 32 ≤ c.val ∧ c.val < 127 then [Char.ofNat c.val]
  else if c.val < 256 then '\\' :: 'x' :: hex 2 c.val
  else if c.val < 65536 then '\\' :: 'u' :: hex 4 c.val
  else '\\' :: 'U' :: hex 8 c.val

def escapeChars (text : CodeText) : List Char := text.flatMap escapeOne

/-- `value.encode("unicode-escape").decode("ascii")` -/
def escape (text : CodeText) : String := String.ofList (escapeChars text)

def hexValue (c : Char) : Option Nat :=
  let n := c.toNat
  if 48 ≤ n ∧ n ≤ 57 then some (n - 48)
  else if 97 ≤ n ∧ n ≤ 102 then some (n - 87)
  else if 65 ≤ n ∧ n ≤ 70 then some (n - 55)
  else none

def octalValue (c : Char) : Option Nat :=
  if 48 ≤ c.toNat ∧ c.toNat ≤ 55 then some (c.toNat - 48) else none

/- `more` counts the digits that may follow the next one. -/
inductive Mode where
  | plain
  | opened
  | digits (message : String) (more value : Nat)
  | octal (more value : Nat)
  | name
  | named (letters : List Char)

/- The escapes of one character after the backslash. -/
def short (c : Char) : Option CodeText :=
  if c = '\n' then some []
  else if c = '\\' ∨ c = '\'' ∨ c = '"' then some [point c.toNat]
  else if c = 'a' then some [7]
  else if c = 'b' then some [8]
  else if c = 't' then some [9]
  else if c = 'n' then some [10]
  else if c = 'v' then some [11]
  else if c = 'f' then some [12]
  else if c = 'r' then some [13]
  else none

def afterBackslash (c : Char) : CodeText × Mode :=
  match short c with
  | some text => (text, .plain)
  | none =>
    match octalValue c with
    | some value => ([], .octal 2 value)
    | none =>
      if c = 'x' then ([], .digits "truncated \\xXX escape" 1 0)
      else if c = 'u' then ([], .digits "truncated \\uXXXX escape" 3 0)
      else if c = 'U' then ([], .digits "truncated \\UXXXXXXXX escape" 7 0)
      else if c = 'N' then ([], .name)
      else ([92, point c.toNat], .plain)

def readPlain (c : Char) : CodeText × Mode :=
  if c = '\\' then ([], .opened) else ([point c.toNat], .plain)

def readDigit (message : String) (more value digit : Nat) : Except String (CodeText × Mode) :=
  match more with
  | more + 1 => .ok ([], .digits message more (16 * value + digit))
  | 0 =>
    if 16 * value + digit < 0x110000 then .ok ([point (16 * value + digit)], .plain)
    else .error "illegal Unicode character"

def readNamed [CharacterNames] (letters : List Char) (c : Char) :
    Except String (CodeText × Mode) :=
  if c ≠ '\x7d' then .ok ([], .named (letters ++ [c]))
  else if letters = [] then .error "malformed \\N character escape"
  else
    match CharacterNames.lookup letters with
    | some found => .ok ([found], .plain)
    | none => .error "unknown Unicode character name"

def read [CharacterNames] : Mode → Char → Except String (CodeText × Mode)
  | .plain, c => .ok (readPlain c)
  | .opened, c => .ok (afterBackslash c)
  | .digits message more value, c =>
    match hexValue c with
    | some digit => readDigit message more value digit
    | none => .error message
  | .octal more value, c =>
    match more, octalValue c with
    | more + 1, some digit => .ok ([], .octal more (8 * value + digit))
    | _, _ => .ok (point value :: (readPlain c).1, (readPlain c).2)
  | .name, c =>
    if c = '\x7b' then .ok ([], .named []) else .error "malformed \\N character escape"
  | .named letters, c => readNamed letters c

/- What the end of the text leaves of a mode. -/
def finish : Mode → Except String CodeText
  | .plain => .ok []
  | .opened => .error "\\ at end of string"
  | .digits message _ _ => .error message
  | .octal _ value => .ok [point value]
  | .name => .error "malformed \\N character escape"
  | .named _ => .error "malformed \\N character escape"

def decode [CharacterNames] : Mode → List Char → Except String CodeText
  | mode, [] => finish mode
  | mode, c :: rest =>
    match read mode c with
    | .error error => .error error
    | .ok (text, mode') =>
      match decode mode' rest with
      | .error error => .error error
      | .ok later => .ok (text ++ later)

def ascii (c : Char) : Bool := c.toNat < 128

/-- `value.encode("ascii").decode("unicode-escape")` -/
def unescape [CharacterNames] (value : String) : Except String CodeText :=
  if value.toList.all ascii = true then decode .plain value.toList
  else .error "ordinal not in range(128)"

theorem hexValue_digitChar : ∀ d, d < 16 → hexValue (Nat.digitChar d) = some d := by decide

theorem ascii_digitChar : ∀ d, d < 16 → ascii (Nat.digitChar d) = true := by decide

theorem toNat_ofNat (n : Nat) (h : n < 128) : (Char.ofNat n).toNat = n := by
  have hvalid : n.isValidChar := .inl (by omega)
  rw [Char.ofNat, dif_pos hvalid]
  rfl

theorem ascii_hex (width n : Nat) : (hex width n).all ascii = true := by
  induction width with
  | zero => rfl
  | succ width ih =>
    rw [hex, List.all_cons, ih, ascii_digitChar _ (Nat.mod_lt _ (by omega))]
    rfl

theorem ascii_escapeOne (c : CodePoint) : (escapeOne c).all ascii = true := by
  unfold escapeOne
  split
  · decide
  split
  · decide
  split
  · decide
  split
  · decide
  split
  case isTrue h =>
    have hval := toNat_ofNat c.val (by omega)
    simp only [List.all_cons, List.all_nil, Bool.and_true, ascii, hval, decide_eq_true_eq]
    omega
  split
  · simp [ascii_hex, ascii]
  split
  · simp [ascii_hex, ascii]
  · simp [ascii_hex, ascii]

section RoundTrip

attribute [local simp] decode read hex

variable [CharacterNames]

theorem decode_plain (c : Char) (rest : List Char) (h : c ≠ '\\') :
    decode .plain (c :: rest) = (decode .plain rest).map (point c.toNat :: ·) := by
  simp only [decode, read, readPlain, if_neg h]
  cases decode .plain rest <;> rfl

theorem decode_short (c : Char) (text : CodeText) (rest : List Char) (h : short c = some text) :
    decode .plain ('\\' :: c :: rest) = (decode .plain rest).map (text ++ ·) := by
  simp only [decode, read, readPlain, if_pos, afterBackslash, h]
  cases decode .plain rest <;> rfl

/-- The digits of a number, read from the front, are the number. -/
theorem decode_hex (message : String) (more value n : Nat) (rest : List Char)
    (hbound : 16 ^ (more + 1) * value + n % 16 ^ (more + 1) < 0x110000) :
    decode (.digits message more value) (hex (more + 1) n ++ rest) =
      (decode .plain rest).map
        (point (16 ^ (more + 1) * value + n % 16 ^ (more + 1)) :: ·) := by
  induction more generalizing value with
  | zero =>
    have hdigit := hexValue_digitChar (n % 16) (Nat.mod_lt n (by omega))
    have hlt : 16 * value + n % 16 < 1114112 := by simpa using hbound
    simp only [hex, Nat.pow_zero, Nat.div_one, List.cons_append, List.nil_append, decode, read,
      hdigit, readDigit, if_pos hlt, Nat.zero_add, Nat.pow_one]
    cases decode .plain rest <;> rfl
  | succ more ih =>
    have hdigit := hexValue_digitChar (n / 16 ^ (more + 1) % 16) (Nat.mod_lt _ (by omega))
    have hsplit : 16 ^ (more + 2) * value + n % 16 ^ (more + 2) =
        16 ^ (more + 1) * (16 * value + n / 16 ^ (more + 1) % 16) + n % 16 ^ (more + 1) := by
      have hmod : n % 16 ^ (more + 2) =
          n % 16 ^ (more + 1) + 16 ^ (more + 1) * (n / 16 ^ (more + 1) % 16) := by
        rw [Nat.pow_succ 16 (more + 1), Nat.mod_mul]
      rw [hmod, Nat.pow_succ 16 (more + 1)]
      ring
    rw [hsplit] at hbound ⊢
    rw [← ih (16 * value + n / 16 ^ (more + 1) % 16) hbound]
    rw [hex, List.cons_append, decode]
    simp only [read, hdigit, readDigit]
    cases decode (.digits message more (16 * value + n / 16 ^ (more + 1) % 16))
      (hex (more + 1) n ++ rest) <;> rfl

theorem decode_hexEscape (c : Char) (message : String) (more : Nat) (p : CodePoint)
    (rest : List Char) (hc : afterBackslash c = ([], .digits message more 0))
    (hp : p.val < 16 ^ (more + 1)) :
    decode .plain ('\\' :: c :: (hex (more + 1) p.val ++ rest)) =
      (decode .plain rest).map (p :: ·) := by
  have hvalue : 16 ^ (more + 1) * 0 + p.val % 16 ^ (more + 1) = p.val := by
    rw [Nat.mul_zero, Nat.zero_add, Nat.mod_eq_of_lt hp]
  have hhex := decode_hex message more 0 p.val rest (by rw [hvalue]; exact p.isLt)
  rw [hvalue, point_val] at hhex
  simp only [decode, read, readPlain, if_pos, hc, hhex]
  cases decode .plain rest <;> rfl

theorem decode_escapeOne (c : CodePoint) (rest : List Char) :
    decode .plain (escapeOne c ++ rest) = (decode .plain rest).map (c :: ·) := by
  have hpoint : ∀ n, c.val = n → point n = c := fun n h => by rw [← h, point_val]
  unfold escapeOne
  split
  case isTrue h =>
    exact (decode_short '\\' [point 92] rest rfl).trans (by rw [hpoint 92 h]; rfl)
  split
  case isTrue h =>
    exact (decode_short 't' [point 9] rest rfl).trans (by rw [hpoint 9 h]; rfl)
  split
  case isTrue h =>
    exact (decode_short 'n' [point 10] rest rfl).trans (by rw [hpoint 10 h]; rfl)
  split
  case isTrue h =>
    exact (decode_short 'r' [point 13] rest rfl).trans (by rw [hpoint 13 h]; rfl)
  split
  case isTrue hslash _ _ _ h =>
    have hval := toNat_ofNat c.val (by omega)
    have hne : Char.ofNat c.val ≠ '\\' := by
      intro he
      rw [he] at hval
      exact hslash hval.symm
    rw [List.cons_append, List.nil_append, decode_plain _ _ hne, hval, point_val]
  split
  case isTrue h => exact decode_hexEscape 'x' _ 1 c rest rfl h
  split
  case isTrue h => exact decode_hexEscape 'u' _ 3 c rest rfl h
  case isFalse =>
    exact decode_hexEscape 'U' _ 7 c rest rfl (Nat.lt_trans c.isLt (by decide))

theorem decode_escapeChars (text : CodeText) : decode .plain (escapeChars text) = .ok text := by
  induction text with
  | nil => rfl
  | cons c text ih =>
    rw [escapeChars, List.flatMap_cons, decode_escapeOne]
    change (decode .plain (escapeChars text)).map (c :: ·) = _
    rw [ih]
    rfl

/-- What the encoder writes, the decoder reads. -/
theorem unescape_escape (text : CodeText) : unescape (escape text) = .ok text := by
  have hascii : (escape text).toList.all ascii = true := by
    simp only [escape, String.toList_ofList, escapeChars, List.all_flatMap, List.all_eq_true]
    intro c _
    exact List.all_eq_true.mp (ascii_escapeOne c)
  rw [unescape, if_pos hascii, escape, String.toList_ofList, decode_escapeChars]

end RoundTrip

end UnicodeEscape
end Whetstone.Lib
