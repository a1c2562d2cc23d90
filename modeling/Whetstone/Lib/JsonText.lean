import Mathlib.Data.List.Basic

/-! JSON texts as bytes, and what a scan for the braces outside strings sees of them. Such a scan
is back where it started at the end of a text, and inside an object all the way through it, so no
proper front or rear part of an object is a text. -/
namespace Whetstone.Lib

abbrev Bytes := List UInt8

namespace JsonText

/-! ### The grammar -/

def Spaces (bytes : Bytes) : Prop :=
  ∀ byte ∈ bytes, byte = 0x20 ∨ byte = 0x09 ∨ byte = 0x0A ∨ byte = 0x0D

def isDigit (byte : UInt8) : Bool := 0x30 ≤ byte ∧ byte ≤ 0x39

def isHex (byte : UInt8) : Bool :=
  isDigit byte ∨ (0x41 ≤ byte ∧ byte ≤ 0x46) ∨ (0x61 ≤ byte ∧ byte ≤ 0x66)

def Digits (bytes : Bytes) : Prop := bytes ≠ [] ∧ ∀ byte ∈ bytes, isDigit byte = true

/- An optional sign, an integer without a leading zero, a fraction and an exponent. -/
structure Number (bytes : Bytes) : Prop where
  parts : ∃ sign whole fraction exponent : Bytes, bytes = sign ++ whole ++ fraction ++ exponent ∧
    (sign = [] ∨ sign = [0x2D]) ∧
    (whole = [0x30] ∨ Digits whole ∧ whole.head? ≠ some 0x30) ∧
    (fraction = [] ∨ ∃ digits, Digits digits ∧ fraction = 0x2E :: digits) ∧
    (exponent = [] ∨ ∃ mark sign digits, (mark = 0x65 ∨ mark = 0x45) ∧
      (sign = [] ∨ sign = [0x2B] ∨ sign = [0x2D]) ∧ Digits digits ∧
        exponent = mark :: sign ++ digits)

/- What stands between the quotes of a string. -/
inductive Chars : Bytes → Prop where
  | nil : Chars []
  | plain {byte : UInt8} {rest : Bytes} : 0x20 ≤ byte → byte ≠ 0x22 → byte ≠ 0x5C → Chars rest →
      Chars (byte :: rest)
  | escape {byte : UInt8} {rest : Bytes} :
      byte ∈ [0x22, 0x5C, 0x2F, 0x62, 0x66, 0x6E, 0x72, 0x74] → Chars rest →
      Chars (0x5C :: byte :: rest)
  | unicode {a b c d : UInt8} {rest : Bytes} : isHex a → isHex b → isHex c → isHex d →
      Chars rest → Chars (0x5C :: 0x75 :: a :: b :: c :: d :: rest)

inductive Part where
  | value
  | element
  | items
  | members

inductive Parses : Part → Bytes → Prop where
  | null : Parses .value [0x6E, 0x75, 0x6C, 0x6C]
  | true : Parses .value [0x74, 0x72, 0x75, 0x65]
  | false : Parses .value [0x66, 0x61, 0x6C, 0x73, 0x65]
  | number {bytes : Bytes} : Number bytes → Parses .value bytes
  | string {chars : Bytes} : Chars chars → Parses .value (0x22 :: chars ++ [0x22])
  | emptyArray {spaces : Bytes} : Spaces spaces → Parses .value (0x5B :: spaces ++ [0x5D])
  | array {items : Bytes} : Parses .items items → Parses .value (0x5B :: items ++ [0x5D])
  | emptyObject {spaces : Bytes} : Spaces spaces → Parses .value (0x7B :: spaces ++ [0x7D])
  | object {members : Bytes} : Parses .members members →
      Parses .value (0x7B :: members ++ [0x7D])
  | element {front value rear : Bytes} : Spaces front → Parses .value value → Spaces rear →
      Parses .element (front ++ value ++ rear)
  | item {first : Bytes} : Parses .element first → Parses .items first
  | items {first rest : Bytes} : Parses .element first → Parses .items rest →
      Parses .items (first ++ 0x2C :: rest)
  | member {front chars middle value : Bytes} : Spaces front → Chars chars → Spaces middle →
      Parses .element value →
      Parses .members (front ++ (0x22 :: chars ++ [0x22]) ++ middle ++ 0x3A :: value)
  | members {first rest : Bytes} : Parses .members first → Parses .members rest →
      Parses .members (first ++ 0x2C :: rest)

def validUtf8 (raw : Bytes) : Prop := ByteArray.IsValidUTF8 ⟨raw.toArray⟩

/-- A JSON text in UTF-8. -/
structure Text (raw : Bytes) : Prop where
  parses : Parses .element raw
  encoded : validUtf8 raw

/-- An object in UTF-8, without anything around it. -/
structure Object (raw : Bytes) : Prop where
  braces : ∃ inner, raw = 0x7B :: inner ++ [0x7D] ∧ (Spaces inner ∨ Parses .members inner)
  encoded : validUtf8 raw

theorem Object.text {raw : Bytes} (h : Object raw) : Text raw := by
  obtain ⟨⟨inner,hraw,hinner⟩,hencoded⟩ := h
  have hvalue : Parses .value raw := by
    rw [hraw]
    cases hinner with
    | inl hspaces => exact .emptyObject hspaces
    | inr hmembers => exact .object hmembers
  have hnone : Spaces [] := fun _ hmem => (by cases hmem)
  have helement := Parses.element hnone hvalue hnone
  rw [List.nil_append, List.append_nil] at helement
  exact ⟨helement, hencoded⟩

/-! ### The scan for braces -/

structure BraceScan where
  depth : Int
  inString : Bool
  escaped : Bool

namespace BraceScan

abbrev outside (depth : Int) : BraceScan := ⟨depth, false, false⟩

def next (s : BraceScan) (byte : UInt8) : BraceScan :=
  if s.inString then
    if s.escaped then { s with escaped := false }
    else if byte = 0x5C then { s with escaped := true }
    else if byte = 0x22 then { s with inString := false }
    else s
  else if byte = 0x22 then { s with inString := true }
  else if byte = 0x7B then { s with depth := s.depth + 1 }
  else if byte = 0x7D then { s with depth := s.depth - 1 }
  else s

def scan (s : BraceScan) (bytes : Bytes) : BraceScan := bytes.foldl next s

@[simp] theorem scan_nil (s : BraceScan) : s.scan [] = s := rfl

@[simp] theorem scan_cons (s : BraceScan) (byte : UInt8) (rest : Bytes) :
    s.scan (byte :: rest) = (s.next byte).scan rest := rfl

theorem scan_append (s : BraceScan) (xs ys : Bytes) : s.scan (xs ++ ys) = (s.scan xs).scan ys :=
  List.foldl_append

/-- A scan that never falls below a depth and meets no backslash outside strings. -/
def Stays (depth : Int) (s : BraceScan) : Bytes → Prop
  | [] => depth ≤ s.depth
  | byte :: rest => depth ≤ s.depth ∧ (s.inString = false → byte ≠ 0x5C) ∧
      Stays depth (s.next byte) rest

theorem stays_append {depth : Int} {s : BraceScan} {xs ys : Bytes} :
    Stays depth s (xs ++ ys) ↔ Stays depth s xs ∧ Stays depth (s.scan xs) ys := by
  induction xs generalizing s with
  | nil =>
    refine ⟨fun h => ⟨?_, h⟩, fun h => h.2⟩
    cases ys with
    | nil => exact h
    | cons byte rest => exact h.1
  | cons byte rest ih =>
    rw [List.cons_append, Stays, Stays, ih, scan_cons]
    simp only [and_assoc]

theorem Stays.depth_le {depth : Int} {s : BraceScan} {bytes : Bytes} (h : Stays depth s bytes) :
    depth ≤ (s.scan bytes).depth := by
  rw [← List.append_nil bytes, stays_append] at h
  exact h.2

theorem Stays.mono {depth lower : Int} {s : BraceScan} {bytes : Bytes} (h : Stays depth s bytes)
    (hle : lower ≤ depth) : Stays lower s bytes := by
  induction bytes generalizing s with
  | nil => exact Int.le_trans hle h
  | cons byte rest ih => exact ⟨Int.le_trans hle h.1, h.2.1, ih h.2.2⟩

end BraceScan

open BraceScan

/-! ### Texts are balanced -/

/-- A part of a text: the scan is back where it began, and never fell below. -/
structure Balanced (bytes : Bytes) : Prop where
  back : ∀ depth, (outside depth).scan bytes = outside depth
  stays : ∀ depth, Stays depth (outside depth) bytes

theorem Balanced.append {xs ys : Bytes} (hx : Balanced xs) (hy : Balanced ys) :
    Balanced (xs ++ ys) := by
  refine ⟨fun depth => ?_, fun depth => ?_⟩
  · rw [scan_append, hx.back, hy.back]
  · rw [stays_append, hx.back]
    exact ⟨hx.stays depth, hy.stays depth⟩

/- A byte that means nothing to the scan outside a string. -/
def Inert (byte : UInt8) : Prop := byte ≠ 0x22 ∧ byte ≠ 0x5C ∧ byte ≠ 0x7B ∧ byte ≠ 0x7D

instance (byte : UInt8) : Decidable (Inert byte) :=
  inferInstanceAs (Decidable (byte ≠ 0x22 ∧ byte ≠ 0x5C ∧ byte ≠ 0x7B ∧ byte ≠ 0x7D))

theorem balanced_inert {bytes : Bytes} (h : ∀ byte ∈ bytes, Inert byte) : Balanced bytes := by
  induction bytes with
  | nil => exact ⟨fun _ => rfl, fun depth => Int.le_refl depth⟩
  | cons byte rest ih =>
    obtain ⟨hquote,hslash,hopen,hclose⟩ := h byte List.mem_cons_self
    have hrest := ih fun own hown => h own (List.mem_cons_of_mem _ hown)
    have hnext : ∀ depth, (outside depth).next byte = outside depth := by
      intro depth
      simp [BraceScan.next, hquote, hopen, hclose]
    refine ⟨fun depth => ?_, fun depth => ⟨Int.le_refl _, fun _ => hslash, ?_⟩⟩
    · rw [scan_cons, hnext, hrest.back]
    · rw [hnext]
      exact hrest.stays depth

theorem Balanced.cons {byte : UInt8} {bytes : Bytes} (hbyte : Inert byte) (h : Balanced bytes) :
    Balanced (byte :: bytes) :=
  (balanced_inert fun _ hown => List.mem_singleton.mp hown ▸ hbyte).append h

theorem isHex_inert {byte : UInt8} (h : isHex byte = true) : Inert byte := by
  refine ⟨?_, ?_, ?_, ?_⟩ <;> rintro rfl <;> exact absurd h (by decide)

/-- Inside a string nothing is counted. -/
theorem chars_scan {chars : Bytes} (h : Chars chars) (depth : Int) :
    (⟨depth, true, false⟩ : BraceScan).scan chars = ⟨depth, true, false⟩ ∧
      Stays depth ⟨depth, true, false⟩ chars := by
  induction h with
  | nil => exact ⟨rfl, Int.le_refl depth⟩
  | plain hlow hquote hslash _ ih =>
    simp only [scan_cons, Stays, BraceScan.next, hquote, hslash]
    exact ⟨ih.1, Int.le_refl _, by simp, ih.2⟩
  | escape hmem _ ih =>
    simp only [scan_cons, Stays, BraceScan.next]
    exact ⟨ih.1, Int.le_refl _, by simp, Int.le_refl _, by simp, ih.2⟩
  | unicode ha hb hc hd _ ih =>
    have ha := isHex_inert ha
    have hb := isHex_inert hb
    have hc := isHex_inert hc
    have hd := isHex_inert hd
    simp only [scan_cons, Stays, BraceScan.next]
    simp [ha.1, ha.2.1, hb.1, hb.2.1, hc.1, hc.2.1, hd.1, hd.2.1, ih.1, ih.2]

theorem balanced_string {chars : Bytes} (h : Chars chars) :
    Balanced (0x22 :: chars ++ [0x22]) := by
  refine ⟨fun depth => ?_, fun depth => ?_⟩
  · rw [List.cons_append, scan_cons, scan_append]
    change (BraceScan.scan ⟨depth, true, false⟩ chars).scan [0x22] = _
    rw [(chars_scan h depth).1]
    rfl
  · refine ⟨Int.le_refl _, by simp, ?_⟩
    change Stays depth ⟨depth, true, false⟩ (chars ++ [0x22])
    rw [stays_append, (chars_scan h depth).1]
    exact ⟨(chars_scan h depth).2, Int.le_refl _, by simp, Int.le_refl _⟩

/-- Between the braces of an object the scan is one deeper. -/
theorem braces_scan {inner : Bytes} (h : Balanced inner) (depth : Int) :
    (outside depth).scan (0x7B :: inner) = outside (depth + 1) ∧
      Stays (depth + 1) ((outside depth).next 0x7B) inner := by
  have hopen : (outside depth).next 0x7B = outside (depth + 1) := rfl
  rw [scan_cons, hopen]
  exact ⟨h.back _, h.stays _⟩

theorem balanced_braces {inner : Bytes} (h : Balanced inner) :
    Balanced (0x7B :: inner ++ [0x7D]) := by
  refine ⟨fun depth => ?_, fun depth => ?_⟩
  · rw [scan_append, (braces_scan h depth).1]
    simp [BraceScan.next]
  · refine ⟨Int.le_refl _, by simp, ?_⟩
    change Stays depth (outside (depth + 1)) (inner ++ [0x7D])
    rw [stays_append, h.back]
    refine ⟨(h.stays (depth + 1)).mono (by omega), ?_, by simp, ?_⟩
    · change depth ≤ depth + 1
      omega
    · change depth ≤ depth + 1 - 1
      omega

theorem isDigit_inert {byte : UInt8} (h : isDigit byte = true) : Inert byte := by
  refine ⟨?_, ?_, ?_, ?_⟩ <;> rintro rfl <;> exact absurd h (by decide)

theorem balanced_spaces {bytes : Bytes} (h : Spaces bytes) : Balanced bytes := by
  refine balanced_inert fun byte hmem => ?_
  rcases h byte hmem with rfl | rfl | rfl | rfl <;> decide

theorem balanced_digits {bytes : Bytes} (h : Digits bytes) : Balanced bytes :=
  balanced_inert fun byte hmem => isDigit_inert (h.2 byte hmem)

theorem balanced_nil : Balanced [] := balanced_inert fun _ hmem => (by cases hmem)

theorem balanced_number {bytes : Bytes} (h : Number bytes) : Balanced bytes := by
  obtain ⟨sign,whole,fraction,exponent,rfl,hsign,hwhole,hfraction,hexponent⟩ := h.parts
  have hnil := balanced_nil
  refine ((Balanced.append ?_ ?_).append ?_).append ?_
  · rcases hsign with rfl | rfl
    · exact hnil
    · exact hnil.cons (by decide)
  · rcases hwhole with rfl | ⟨hdigits,_⟩
    · exact hnil.cons (by decide)
    · exact balanced_digits hdigits
  · rcases hfraction with rfl | ⟨digits,hdigits,rfl⟩
    · exact hnil
    · exact (balanced_digits hdigits).cons (by decide)
  · rcases hexponent with rfl | ⟨mark,sign,digits,hmark,hsign,hdigits,rfl⟩
    · exact hnil
    · refine Balanced.append (Balanced.cons ?_ ?_) (balanced_digits hdigits)
      · rcases hmark with rfl | rfl <;> decide
      · rcases hsign with rfl | rfl | rfl
        · exact hnil
        · exact hnil.cons (by decide)
        · exact hnil.cons (by decide)

theorem balanced_brackets {inner : Bytes} (h : Balanced inner) :
    Balanced (0x5B :: inner ++ [0x5D]) :=
  (h.cons (by decide)).append (balanced_nil.cons (by decide))

/-- Every part of a text is balanced. -/
theorem Parses.balanced {part : Part} {bytes : Bytes} (h : Parses part bytes) :
    Balanced bytes := by
  induction h with
  | null =>
    exact (((balanced_nil.cons (by decide)).cons (by decide)).cons (by decide)).cons (by decide)
  | true =>
    exact (((balanced_nil.cons (by decide)).cons (by decide)).cons (by decide)).cons (by decide)
  | false =>
    exact ((((balanced_nil.cons (by decide)).cons (by decide)).cons (by decide)).cons
      (by decide)).cons (by decide)
  | number hnumber => exact balanced_number hnumber
  | string hchars => exact balanced_string hchars
  | emptyArray hspaces => exact balanced_brackets (balanced_spaces hspaces)
  | array _ ih => exact balanced_brackets ih
  | emptyObject hspaces => exact balanced_braces (balanced_spaces hspaces)
  | object _ ih => exact balanced_braces ih
  | element hfront _ hrear ih =>
    exact ((balanced_spaces hfront).append ih).append (balanced_spaces hrear)
  | item _ ih => exact ih
  | items _ _ ihfirst ihrest => exact ihfirst.append (ihrest.cons (by decide))
  | member hfront hchars hmiddle _ ih =>
    exact (((balanced_spaces hfront).append (balanced_string hchars)).append
      (balanced_spaces hmiddle)).append (ih.cons (by decide))
  | members _ _ ihfirst ihrest => exact ihfirst.append (ihrest.cons (by decide))

/-! ### Parts of an object -/

theorem Object.inner {raw : Bytes} (h : Object raw) :
    ∃ inner, raw = 0x7B :: inner ++ [0x7D] ∧ Balanced inner := by
  obtain ⟨inner,hraw,hinner⟩ := h.braces
  refine ⟨inner, hraw, ?_⟩
  cases hinner with
  | inl hspaces => exact balanced_spaces hspaces
  | inr hmembers => exact hmembers.balanced

/-- A proper front part of an object has opened a brace that it does not close. -/
theorem Object.front_depth {front rear : Bytes} (h : Object (front ++ rear)) (hfront : front ≠ [])
    (hrear : rear ≠ []) : 1 ≤ ((outside 0).scan front).depth := by
  obtain ⟨inner,hraw,hinner⟩ := h.inner
  cases front with
  | nil => exact absurd rfl hfront
  | cons byte front =>
    obtain ⟨rfl,hsplit⟩ := List.cons_eq_cons.mp hraw
    have hwithin : ∃ behind, inner = front ++ behind := by
      rcases List.append_eq_append_iff.mp hsplit with ⟨behind,hinner,_⟩ | ⟨behind,hover,hclose⟩
      · exact ⟨behind, hinner⟩
      · have hlength := congrArg List.length hclose
        have hpos := List.length_pos_iff.mpr hrear
        rw [List.length_append, List.length_singleton] at hlength
        have hnone : behind = [] := List.length_eq_zero_iff.mp (by omega)
        rw [hnone, List.append_nil] at hover
        exact ⟨[], by rw [hover, List.append_nil]⟩
    obtain ⟨behind,rfl⟩ := hwithin
    exact (stays_append.mp (hinner.stays 1)).1.depth_le

theorem Object.scan_eq {raw : Bytes} (h : Object raw) :
    (outside 0).scan raw = outside 0 ∧ Stays 0 (outside 0) raw := by
  obtain ⟨inner,rfl,hinner⟩ := h.inner
  exact ⟨(balanced_braces hinner).back 0, (balanced_braces hinner).stays 0⟩

/-- No proper front part of an object is a text. -/
theorem Object.front_not_text {front rear : Bytes} (h : Object (front ++ rear))
    (hfront : front ≠ []) (hrear : rear ≠ []) : ¬ Text front := by
  intro htext
  have hdepth := h.front_depth hfront hrear
  rw [htext.parses.balanced.back] at hdepth
  exact absurd hdepth (by decide)

/- Two scans of the same bytes, of which one is in a string exactly where the other is not. -/
def Inverted (s t : BraceScan) : Prop :=
  s.inString ≠ t.inString ∧ s.escaped = false ∧ t.escaped = false

theorem Inverted.next {s t : BraceScan} {byte : UInt8} (h : Inverted s t)
    (hs : s.inString = false → byte ≠ 0x5C) (ht : t.inString = false → byte ≠ 0x5C) :
    Inverted (s.next byte) (t.next byte) := by
  obtain ⟨depth,inString,escaped⟩ := s
  obtain ⟨depth',inString',escaped'⟩ := t
  obtain ⟨hne,rfl,rfl⟩ := h
  have hslash : byte ≠ 0x5C := by
    cases inString with
    | false => exact hs rfl
    | true =>
      cases inString' with
      | false => exact ht rfl
      | true => exact absurd rfl hne
  by_cases hquote : byte = 0x22
  · subst hquote
    cases inString <;> cases inString' <;> simp_all [Inverted, BraceScan.next]
  · by_cases hopen : byte = 0x7B <;> by_cases hclose : byte = 0x7D <;>
      cases inString <;> cases inString' <;> simp_all [Inverted, BraceScan.next]

/-- Inverted scans that meet no backslash outside strings never agree again. -/
theorem Inverted.scan {s t : BraceScan} {depth depth' : Int} {bytes : Bytes} (h : Inverted s t)
    (hs : Stays depth s bytes) (ht : Stays depth' t bytes) :
    Inverted (s.scan bytes) (t.scan bytes) := by
  induction bytes generalizing s t with
  | nil => exact h
  | cons byte rest ih => exact ih (h.next hs.2.1 ht.2.1) hs.2.2 ht.2.2

/- A scan that starts deeper stays deeper by as much. -/
theorem scan_deeper (s : BraceScan) (more : Int) (bytes : Bytes) :
    ({ s with depth := s.depth + more } : BraceScan).scan bytes =
      { s.scan bytes with depth := (s.scan bytes).depth + more } := by
  induction bytes generalizing s with
  | nil => rfl
  | cons byte rest ih =>
    have hnext : ({ s with depth := s.depth + more } : BraceScan).next byte =
        { s.next byte with depth := (s.next byte).depth + more } := by
      unfold BraceScan.next
      split
      · split
        · rfl
        split
        · rfl
        split <;> rfl
      · split
        · rfl
        split
        · simp only [BraceScan.mk.injEq, and_self, and_true]
          omega
        split
        · simp only [BraceScan.mk.injEq, and_self, and_true]
          omega
        · rfl
    rw [scan_cons, scan_cons, hnext, ih]

/- Only what stands in a string is escaped. -/
theorem scan_escaped {s : BraceScan} (h : s.inString = false → s.escaped = false) (bytes : Bytes) :
    (s.scan bytes).inString = false → (s.scan bytes).escaped = false := by
  induction bytes generalizing s with
  | nil => exact h
  | cons byte rest ih =>
    refine ih ?_
    unfold BraceScan.next
    split
    · split
      · exact fun _ => rfl
      split
      · rename_i hstring _ _
        simp [hstring]
      split
      · rename_i hescaped _ _
        simpa using hescaped
      · rename_i hstring _ _ _
        simp [hstring]
    · rename_i hstring
      have hnone := h (by simpa using hstring)
      split
      · simp
      split
      · exact fun _ => hnone
      split
      · exact fun _ => hnone
      · exact fun _ => hnone

/-- No proper rear part of an object is a text: behind a brace that is still open the depths
differ, and behind a quote that is still open the strings are inverted. -/
theorem Object.rear_not_text {front rear : Bytes} (h : Object (front ++ rear))
    (hfront : front ≠ []) (hrear : rear ≠ []) : ¬ Text rear := by
  intro htext
  have hdepth := h.front_depth hfront hrear
  obtain ⟨hback,hstays⟩ := h.scan_eq
  rw [scan_append] at hback
  have hrest := (stays_append.mp hstays).2
  have hown := htext.parses.balanced.stays 0
  have hend := htext.parses.balanced.back 0
  -- a scan of the whole that differs only in depth where the rear part begins
  have hdeeper : ∀ {s : BraceScan} {bytes : Bytes} (depth : Int), 1 ≤ depth →
      s.scan bytes = outside 0 →
      ({ s with depth := s.depth + depth } : BraceScan).scan bytes ≠ outside 0 := by
    intro s bytes depth hpos hscan hsame
    rw [scan_deeper, hscan] at hsame
    have hzero : (0 : Int) + depth = 0 := congrArg BraceScan.depth hsame
    omega
  have hescaped := scan_escaped (s := outside 0) (fun _ => rfl) front
  generalize (outside 0).scan front = reached at hdepth hback hrest hescaped
  obtain ⟨depth,inString,escaped⟩ := reached
  cases inString with
  | false =>
    have hnone : escaped = false := hescaped rfl
    subst hnone
    refine hdeeper depth hdepth hend (Eq.trans ?_ hback)
    rw [Int.zero_add]
  | true =>
    cases escaped with
    | false =>
      have hinverted : Inverted ⟨depth, true, false⟩ (outside 0) := ⟨by simp, rfl, rfl⟩
      have hover := hinverted.scan hrest hown
      rw [hback, hend] at hover
      exact hover.1 rfl
    | true =>
      -- the rear part begins with the byte that a backslash escapes
      cases rear with
      | nil => exact absurd rfl hrear
      | cons byte rest =>
        by_cases hquote : byte = 0x22
        · subst hquote
          refine hdeeper (s := ⟨0, true, false⟩) depth hdepth hend (Eq.trans ?_ hback)
          rw [Int.zero_add]
          rfl
        · have hinverted : Inverted ⟨depth, true, false⟩ ((outside 0).next byte) := by
            by_cases hopen : byte = 0x7B <;> by_cases hclose : byte = 0x7D <;>
              simp [Inverted, BraceScan.next, hquote, hopen, hclose]
          have hover := hinverted.scan hrest.2.2 hown.2.2
          have hback : (⟨depth, true, false⟩ : BraceScan).scan rest = outside 0 := hback
          have hend : ((outside 0).next byte).scan rest = outside 0 := hend
          rw [hback, hend] at hover
          exact hover.1 rfl

end JsonText
end Whetstone.Lib
