import Whetstone.Eval.Traces
import Whetstone.Lib.JsonEncode
import Whetstone.Lib.UnicodeEscape

/-! The size counter of executed components, over the values that a node can really hand it: a
Python text may contain surrogates. What it counts is the length of the compact encoding. -/
namespace Whetstone.Eval
open Whetstone.Core Whetstone.Lib

/-- A strict JSON value over Python texts. -/
inductive RawJson where
  | null
  | bool (value : Bool)
  | int (value : Int)
  | float (value : Rat)
  | str (text : CodeText)
  | arr (items : List RawJson)
  | obj (fields : List (CodeText × RawJson))

/- `json.dumps` of a finite float. -/
class FloatText where
  bytes : Rat → Bytes

instance [FloatText] : JsonText := ⟨fun q => (FloatText.bytes q).length⟩

/-! ### The counter of the source -/

def countBytes (limit : Int) (total count : Nat) : Except String Nat :=
  if ((total + count : Nat) : Int) > limit then
    .error "executed-component JSON exceeds its byte bound"
  else .ok (total + count)

def isSurrogate (c : CodePoint) : Bool := 0xD800 ≤ c.val ∧ c.val ≤ 0xDFFF

def countCodePoint (limit : Int) (total : Nat) (c : CodePoint) : Except String Nat :=
  if c.val ∈ [34, 92] ∨ c.val ∈ [8, 12, 10, 13, 9] then countBytes limit total 2
  else if c.val < 0x20 then countBytes limit total 6
  else if c.val < 0x80 then countBytes limit total 1
  else if c.val < 0x800 then countBytes limit total 2
  else if c.val < 0x10000 then
    if isSurrogate c then .error "executed-component JSON contains an invalid surrogate"
    else countBytes limit total 3
  else countBytes limit total 4

def countText (limit : Int) (total : Nat) (text : CodeText) : Except String Nat := do
  let total ← countBytes limit total 2
  text.foldlM (countCodePoint limit) total

section Count
variable [FloatText]

mutual
def countValue (limit : Int) (total depth : Nat) : RawJson → Except String Nat
  | .null => do checkDepth depth; countBytes limit total 4
  | .bool b => do checkDepth depth; countBytes limit total (if b then 4 else 5)
  | .int n => do checkDepth depth; countBytes limit total (toString n).length
  | .float q => do checkDepth depth; countBytes limit total (FloatText.bytes q).length
  | .str text => do checkDepth depth; countText limit total text
  | .obj fields => do
    checkDepth depth
    let total ← countBytes limit total 1
    let total ← countFields limit total depth true fields
    countBytes limit total 1
  | .arr items => do
    checkDepth depth
    let total ← countBytes limit total 1
    let total ← countItems limit total depth true items
    countBytes limit total 1
def countItems (limit : Int) (total depth : Nat) (isFirst : Bool) :
    List RawJson → Except String Nat
  | [] => .ok total
  | item :: rest => do
    let total ← if isFirst then pure total else countBytes limit total 1
    let total ← countValue limit total (depth + 1) item
    countItems limit total depth false rest
def countFields (limit : Int) (total depth : Nat) (isFirst : Bool) :
    List (CodeText × RawJson) → Except String Nat
  | [] => .ok total
  | (key, nested) :: rest => do
    let total ← if isFirst then pure total else countBytes limit total 1
    let total ← countText limit total key
    let total ← countBytes limit total 1
    let total ← countValue limit total (depth + 1) nested
    countFields limit total depth false rest
end

def canonicalJsonSize (value : RawJson) (maxBytes : Int) : Except String Nat :=
  countValue maxBytes 0 0 value

/-! ### The compact encoding -/

mutual
def encode : Json → Bytes
  | .null => Lib.JsonText.asciiBytes "null"
  | .bool b => Lib.JsonText.asciiBytes (if b then "true" else "false")
  | .int n => Lib.JsonText.encodeInt n
  | .float q => FloatText.bytes q
  | .str text => Lib.JsonText.encodeString text
  | .arr items => 0x5B :: encodeItems true items ++ [0x5D]
  | .obj fields => 0x7B :: encodeFields true fields ++ [0x7D]
def encodeItems (isFirst : Bool) : List Json → Bytes
  | [] => []
  | item :: rest =>
    (if isFirst then [] else [0x2C]) ++ encode item ++ encodeItems false rest
def encodeFields (isFirst : Bool) : List (String × Json) → Bytes
  | [] => []
  | (key, nested) :: rest =>
    (if isFirst then [] else [0x2C]) ++ Lib.JsonText.encodeString key ++ 0x3A :: encode nested ++
      encodeFields false rest
end

end Count

/-! ### Values without surrogates -/

theorem char_lt (c : Char) : c.toNat < 0x110000 := by
  have h : c.toNat.isValidChar := c.valid
  rcases h with h | h
  · omega
  · exact h.2

def charPoint (c : Char) : CodePoint := ⟨c.toNat, char_lt c⟩

def rawText (text : String) : CodeText := text.toList.map charPoint

mutual
def rawOf : Json → RawJson
  | .null => .null
  | .bool b => .bool b
  | .int n => .int n
  | .float q => .float q
  | .str text => .str (rawText text)
  | .arr items => .arr (rawItems items)
  | .obj fields => .obj (rawFields fields)
def rawItems : List Json → List RawJson
  | [] => []
  | item :: rest => rawOf item :: rawItems rest
def rawFields : List (String × Json) → List (CodeText × RawJson)
  | [] => []
  | (key, nested) :: rest => (rawText key, rawOf nested) :: rawFields rest
end

def textSurrogate (text : CodeText) : Bool := text.any isSurrogate

mutual
def hasSurrogate : RawJson → Bool
  | .str text => textSurrogate text
  | .arr items => itemsSurrogate items
  | .obj fields => fieldsSurrogate fields
  | _ => false
def itemsSurrogate : List RawJson → Bool
  | [] => false
  | item :: rest => hasSurrogate item || itemsSurrogate rest
def fieldsSurrogate : List (CodeText × RawJson) → Bool
  | [] => false
  | (key, nested) :: rest => textSurrogate key || hasSurrogate nested || fieldsSurrogate rest
end

/- How deep a value nests: a value inside another is one level below it. -/
mutual
def levels : RawJson → Nat
  | .arr items => itemsLevels items
  | .obj fields => fieldsLevels fields
  | _ => 0
def itemsLevels : List RawJson → Nat
  | [] => 0
  | item :: rest => max (levels item + 1) (itemsLevels rest)
def fieldsLevels : List (CodeText × RawJson) → Nat
  | [] => 0
  | (_, nested) :: rest => max (levels nested + 1) (fieldsLevels rest)
end

theorem charPoint_surrogate (c : Char) : isSurrogate (charPoint c) = false := by
  have h : c.toNat.isValidChar := c.valid
  have hval : (charPoint c).val = c.toNat := rfl
  rw [isSurrogate, decide_eq_false_iff_not, hval]
  rcases h with h | h <;> omega

theorem exists_char {c : CodePoint} (h : isSurrogate c = false) : ∃ ch, charPoint ch = c := by
  have hvalid : c.val.isValidChar := by
    rw [isSurrogate, decide_eq_false_iff_not] at h
    have hlt := c.isLt
    by_cases hlow : c.val < 0xD800
    · exact .inl hlow
    · exact .inr ⟨by omega, hlt⟩
  refine ⟨Char.ofNat c.val, Fin.ext ?_⟩
  change (Char.ofNat c.val).toNat = c.val
  rw [Char.ofNat, dif_pos hvalid]
  rfl

theorem textSurrogate_iff (text : CodeText) :
    textSurrogate text = false ↔ ∃ s, rawText s = text := by
  constructor
  · intro h
    induction text with
    | nil => exact ⟨"", rfl⟩
    | cons c rest ih =>
      rw [textSurrogate, List.any_cons, Bool.or_eq_false_iff] at h
      obtain ⟨ch,rfl⟩ := exists_char h.1
      obtain ⟨s,hs⟩ := ih h.2
      refine ⟨String.ofList (ch :: s.toList), ?_⟩
      rw [rawText, String.toList_ofList, List.map_cons, ← rawText, hs]
  · intro h
    obtain ⟨s,rfl⟩ := h
    rw [textSurrogate, rawText, List.any_map, List.any_eq_false]
    intro c _
    rw [Function.comp, charPoint_surrogate]
    exact Bool.false_ne_true

mutual
/-- A value has no surrogate exactly when it is a value over characters. -/
theorem hasSurrogate_iff : ∀ v : RawJson, hasSurrogate v = false ↔ ∃ j, rawOf j = v
  | .null => ⟨fun _ => ⟨.null, rfl⟩, fun _ => rfl⟩
  | .bool b => ⟨fun _ => ⟨.bool b, rfl⟩, fun _ => rfl⟩
  | .int n => ⟨fun _ => ⟨.int n, rfl⟩, fun _ => rfl⟩
  | .float q => ⟨fun _ => ⟨.float q, rfl⟩, fun _ => rfl⟩
  | .str text => by
    rw [hasSurrogate, textSurrogate_iff]
    constructor
    · rintro ⟨s,rfl⟩
      exact ⟨.str s, rfl⟩
    · rintro ⟨j,hj⟩
      cases j with
      | str s => exact ⟨s, RawJson.str.inj hj⟩
      | _ => cases hj
  | .arr items => by
    rw [hasSurrogate, itemsSurrogate_iff items]
    constructor
    · rintro ⟨js,rfl⟩
      exact ⟨.arr js, rfl⟩
    · rintro ⟨j,hj⟩
      cases j with
      | arr js => exact ⟨js, RawJson.arr.inj hj⟩
      | _ => cases hj
  | .obj fields => by
    rw [hasSurrogate, fieldsSurrogate_iff fields]
    constructor
    · rintro ⟨js,rfl⟩
      exact ⟨.obj js, rfl⟩
    · rintro ⟨j,hj⟩
      cases j with
      | obj js => exact ⟨js, RawJson.obj.inj hj⟩
      | _ => cases hj
theorem itemsSurrogate_iff : ∀ items : List RawJson,
    itemsSurrogate items = false ↔ ∃ js, rawItems js = items
  | [] => ⟨fun _ => ⟨[], rfl⟩, fun _ => rfl⟩
  | item :: rest => by
    rw [itemsSurrogate, Bool.or_eq_false_iff, hasSurrogate_iff item, itemsSurrogate_iff rest]
    constructor
    · rintro ⟨⟨j,rfl⟩,⟨js,rfl⟩⟩
      exact ⟨j :: js, rfl⟩
    · rintro ⟨js,hjs⟩
      cases js with
      | nil => cases hjs
      | cons j js =>
        obtain ⟨rfl,rfl⟩ := List.cons_eq_cons.mp hjs
        exact ⟨⟨j, rfl⟩, ⟨js, rfl⟩⟩
theorem fieldsSurrogate_iff : ∀ fields : List (CodeText × RawJson),
    fieldsSurrogate fields = false ↔ ∃ js, rawFields js = fields
  | [] => ⟨fun _ => ⟨[], rfl⟩, fun _ => rfl⟩
  | (key, nested) :: rest => by
    rw [fieldsSurrogate, Bool.or_eq_false_iff, Bool.or_eq_false_iff, textSurrogate_iff,
      hasSurrogate_iff nested, fieldsSurrogate_iff rest]
    constructor
    · rintro ⟨⟨⟨s,rfl⟩,⟨j,rfl⟩⟩,⟨js,rfl⟩⟩
      exact ⟨(s, j) :: js, rfl⟩
    · rintro ⟨js,hjs⟩
      cases js with
      | nil => cases hjs
      | cons field js =>
        obtain ⟨hfield,rfl⟩ := List.cons_eq_cons.mp hjs
        obtain ⟨rfl,rfl⟩ := Prod.mk.inj hfield
        exact ⟨⟨⟨field.1, rfl⟩, ⟨field.2, rfl⟩⟩, ⟨js, rfl⟩⟩
end

/-! ### What the counter counts -/

/-- A computation that goes on from `total`, succeeds when `P` holds and the limit is kept, and
then has counted `size`. -/
def Counts (limit : Int) (total : Nat) (P : Prop) (size : Nat) (x : Except String Nat) : Prop :=
  ∀ t, x = .ok t ↔ P ∧ t = total + size ∧ (t : Int) ≤ limit

namespace Counts
variable {limit : Int} {total size : Nat} {P Q : Prop} {x : Except String Nat}

theorem done (h : (total : Int) ≤ limit) : Counts limit total True 0 (.ok total) := by
  intro t
  constructor
  · intro ht
    cases ht
    exact ⟨trivial, rfl, h⟩
  · rintro ⟨_,rfl,_⟩
    rfl

theorem bytes (limit : Int) (total count : Nat) :
    Counts limit total True count (countBytes limit total count) := by
  intro t
  unfold countBytes
  split
  · rename_i h
    constructor
    · intro herror
      cases herror
    · rintro ⟨_,rfl,hle⟩
      omega
  · rename_i h
    constructor
    · intro hok
      cases hok
      exact ⟨trivial, rfl, by omega⟩
    · rintro ⟨_,rfl,_⟩
      rfl

/-- Two counts in a row count their sum. -/
theorem bind {more : Nat} {f : Nat → Except String Nat} (hx : Counts limit total P size x)
    (hf : ∀ mid : Nat, (mid : Int) ≤ limit → Counts limit mid Q more (f mid)) :
    Counts limit total (P ∧ Q) (size + more) (x >>= f) := by
  intro t
  rw [bind_eq_ok]
  constructor
  · intro h
    obtain ⟨mid,hmid,ht⟩ := h
    obtain ⟨hP,rfl,hle⟩ := (hx mid).mp hmid
    obtain ⟨hQ,rfl,hle'⟩ := (hf _ hle t).mp ht
    exact ⟨⟨hP, hQ⟩, by omega, hle'⟩
  · intro h
    obtain ⟨⟨hP,hQ⟩,rfl,hle⟩ := h
    have hmid : ((total + size : Nat) : Int) ≤ limit := by omega
    exact ⟨_, (hx _).mpr ⟨hP, rfl, hmid⟩, (hf _ hmid _).mpr ⟨hQ, by omega, hle⟩⟩

theorem check {depth : Nat} (hx : depth ≤ 32 → Counts limit total P size x) :
    Counts limit total (depth ≤ 32 ∧ P) size (checkDepth depth >>= fun _ => x) := by
  intro t
  rw [check_bind_eq_ok, checkDepth, raiseIf_eq_ok, maxExecutedComponentJsonDepth, not_lt, and_assoc]
  exact and_congr_right fun hdepth => hx hdepth t

theorem congr {size' : Nat} (h : Counts limit total P size x) (hPQ : P ↔ Q) (hsize : size = size') :
    Counts limit total Q size' x := by
  intro t
  rw [← hPQ, ← hsize]
  exact h t

/- A separator stands before every item but the first. -/
theorem separated (isFirst : Bool) (h : (total : Int) ≤ limit) :
    Counts limit total True (if isFirst then 0 else 1)
      (if isFirst then pure total else countBytes limit total 1) := by
  cases isFirst with
  | true => exact done h
  | false => exact bytes limit total 1

end Counts

theorem countCodePoint_char (limit : Int) (total : Nat) (c : Char) :
    countCodePoint limit total (charPoint c) =
      countBytes limit total (Lib.JsonText.encodeChar c).length := by
  have hval : (charPoint c).val = c.toNat := rfl
  rw [Lib.JsonText.length_encodeChar, Lib.JsonText.length_utf8, countCodePoint, hval,
    charPoint_surrogate]
  simp only [List.mem_cons, List.not_mem_nil, or_false, Bool.false_eq_true, if_false]
  split_ifs <;> first | rfl | omega

theorem countCodePoint_surrogate {limit : Int} {total t : Nat} {c : CodePoint}
    (h : countCodePoint limit total c = .ok t) : isSurrogate c = false := by
  unfold countCodePoint at h
  by_cases hc : isSurrogate c = true
  · have hrange : 0xD800 ≤ c.val ∧ c.val ≤ 0xDFFF := of_decide_eq_true hc
    exfalso
    simp only [List.mem_cons, List.not_mem_nil, or_false, hc, if_true] at h
    split_ifs at h <;> omega
  · exact Bool.eq_false_iff.mpr hc

theorem foldlM_clean {limit : Int} {t : Nat} (text : CodeText) (total : Nat)
    (h : text.foldlM (countCodePoint limit) total = .ok t) : textSurrogate text = false := by
  induction text generalizing total with
  | nil => rfl
  | cons c rest ih =>
    rw [List.foldlM_cons] at h
    obtain ⟨next,hc,hrest⟩ := (bind_eq_ok _ _ _).mp h
    rw [textSurrogate, List.any_cons, countCodePoint_surrogate hc, Bool.false_or]
    exact ih next hrest

theorem countText_clean {limit : Int} {total t : Nat} (text : CodeText)
    (h : countText limit total text = .ok t) : textSurrogate text = false := by
  obtain ⟨start,_,hfold⟩ := (bind_eq_ok _ _ _).mp h
  exact foldlM_clean text start hfold

theorem addBytes_eq (limit total count : Nat) :
    addBytes limit total count = countBytes limit total count := by
  have h : ((total + count : Nat) : Int) > limit ↔ total + count > limit := Int.ofNat_lt
  simp only [addBytes, countBytes, h]

theorem addJsonStringBytes_eq (limit total : Nat) (text : String) :
    addJsonStringBytes limit total text = countText limit total (rawText text) := by
  have hchar : ∀ (total : Nat) (c : Char), addBytes limit total (jsonCharBytes c) =
      countCodePoint limit total (charPoint c) := by
    intro total c
    rw [countCodePoint_char, addBytes_eq, Lib.JsonText.length_encodeChar, Lib.JsonText.length_utf8]
    rfl
  rw [addJsonStringBytes, countText, rawText, addBytes_eq]
  simp only [List.foldlM_map, hchar]

theorem counts_chars {limit : Int} (chars : List Char) (total : Nat) (h : (total : Int) ≤ limit) :
    Counts limit total True (Lib.JsonText.encodeChars chars).length
      ((chars.map charPoint).foldlM (countCodePoint limit) total) := by
  induction chars generalizing total with
  | nil => exact Counts.done h
  | cons c rest ih =>
    rw [List.map_cons, List.foldlM_cons, countCodePoint_char, Lib.JsonText.encodeChars_cons,
      List.length_append]
    exact ((Counts.bytes limit total _).bind fun mid hmid => ih mid hmid).congr (and_self_iff) rfl

theorem counts_text (limit : Int) (total : Nat) (text : String) :
    Counts limit total True (Lib.JsonText.encodeString text).length
      (countText limit total (rawText text)) :=
  ((Counts.bytes limit total 2).bind fun mid hmid => counts_chars text.toList mid hmid).congr
    and_self_iff (Lib.JsonText.length_encodeString text).symm

section Values
variable [FloatText]

theorem countItems_cons (limit : Int) (total depth : Nat) (isFirst : Bool) (item : RawJson)
    (rest : List RawJson) : countItems limit total depth isFirst (item :: rest) =
      ((if isFirst then pure total else countBytes limit total 1) >>= fun total =>
        countValue limit total (depth + 1) item >>= fun total =>
          countItems limit total depth false rest) := by
  cases isFirst <;> rfl

theorem countFields_cons (limit : Int) (total depth : Nat) (isFirst : Bool) (key : CodeText)
    (nested : RawJson) (rest : List (CodeText × RawJson)) :
    countFields limit total depth isFirst ((key, nested) :: rest) =
      ((if isFirst then pure total else countBytes limit total 1) >>= fun total =>
        countText limit total key >>= fun total => countBytes limit total 1 >>= fun total =>
          countValue limit total (depth + 1) nested >>= fun total =>
            countFields limit total depth false rest) := by
  cases isFirst <;> rfl

mutual
/-- The counter on a value over characters. -/
theorem counts_value (limit : Int) (total depth : Nat) : ∀ j : Json,
    Counts limit total (depth + levels (rawOf j) ≤ 32) (encode j).length
      (countValue limit total depth (rawOf j))
  | .null => (Counts.check fun _ => Counts.bytes limit total 4).congr (Iff.of_eq (and_true _)) rfl
  | .bool b => by
    refine (Counts.check fun _ => Counts.bytes limit total _).congr (Iff.of_eq (and_true _)) ?_
    cases b <;> rfl
  | .int n =>
    (Counts.check fun _ => Counts.bytes limit total _).congr (Iff.of_eq (and_true _))
      (Lib.JsonText.length_asciiBytes _).symm
  | .float q => (Counts.check fun _ => Counts.bytes limit total _).congr (Iff.of_eq (and_true _)) rfl
  | .str text => (Counts.check fun _ => counts_text limit total text).congr (Iff.of_eq (and_true _)) rfl
  | .arr items => by
    refine (Counts.check fun hdepth => (Counts.bytes limit total 1).bind fun m1 h1 =>
      (counts_items limit m1 depth true items h1 hdepth).bind fun m2 _ =>
        Counts.bytes limit m2 1).congr ?_ ?_
    · simp [rawOf, levels]
      omega
    · simp [encode]
      omega
  | .obj fields => by
    refine (Counts.check fun hdepth => (Counts.bytes limit total 1).bind fun m1 h1 =>
      (counts_fields limit m1 depth true fields h1 hdepth).bind fun m2 _ =>
        Counts.bytes limit m2 1).congr ?_ ?_
    · simp [rawOf, levels]
      omega
    · simp [encode]
      omega
theorem counts_items (limit : Int) (total depth : Nat) (isFirst : Bool) : ∀ items : List Json,
    (total : Int) ≤ limit → depth ≤ 32 →
    Counts limit total (depth + itemsLevels (rawItems items) ≤ 32)
      (encodeItems isFirst items).length (countItems limit total depth isFirst (rawItems items))
  | [], h, hdepth => (Counts.done h).congr (iff_of_true trivial hdepth) rfl
  | item :: rest, h, hdepth => by
    rw [rawItems, countItems_cons]
    refine ((Counts.separated isFirst h).bind fun m1 _ =>
      (counts_value limit m1 (depth + 1) item).bind fun m2 h2 =>
        counts_items limit m2 depth false rest h2 hdepth).congr ?_ ?_
    · simp only [itemsLevels, true_and]
      omega
    · simp only [encodeItems, List.length_append]
      cases isFirst <;> simp
      omega
theorem counts_fields (limit : Int) (total depth : Nat) (isFirst : Bool) :
    ∀ fields : List (String × Json), (total : Int) ≤ limit → depth ≤ 32 →
    Counts limit total (depth + fieldsLevels (rawFields fields) ≤ 32)
      (encodeFields isFirst fields).length (countFields limit total depth isFirst (rawFields fields))
  | [], h, hdepth => (Counts.done h).congr (iff_of_true trivial hdepth) rfl
  | (key, nested) :: rest, h, hdepth => by
    rw [rawFields, countFields_cons]
    refine ((Counts.separated isFirst h).bind fun m1 _ =>
      (counts_text limit m1 key).bind fun m2 _ =>
        (Counts.bytes limit m2 1).bind fun m3 _ =>
          (counts_value limit m3 (depth + 1) nested).bind fun m4 h4 =>
            counts_fields limit m4 depth false rest h4 hdepth).congr ?_ ?_
    · simp only [fieldsLevels, true_and]
      omega
    · simp only [encodeFields, List.length_append, List.length_cons]
      cases isFirst <;> simp <;> omega
end

mutual
/-- A value with a surrogate is not counted to the end. -/
theorem countValue_clean {limit : Int} {total depth t : Nat} : ∀ v : RawJson,
    countValue limit total depth v = .ok t → hasSurrogate v = false
  | .null, _ => rfl
  | .bool _, _ => rfl
  | .int _, _ => rfl
  | .float _, _ => rfl
  | .str text, h => countText_clean text ((check_bind_eq_ok _ _ _).mp h).2
  | .arr items, h => by
    obtain ⟨_,h⟩ := (check_bind_eq_ok _ _ _).mp h
    obtain ⟨m1,_,h⟩ := (bind_eq_ok _ _ _).mp h
    obtain ⟨m2,hitems,_⟩ := (bind_eq_ok _ _ _).mp h
    exact countItems_clean items hitems
  | .obj fields, h => by
    obtain ⟨_,h⟩ := (check_bind_eq_ok _ _ _).mp h
    obtain ⟨m1,_,h⟩ := (bind_eq_ok _ _ _).mp h
    obtain ⟨m2,hfields,_⟩ := (bind_eq_ok _ _ _).mp h
    exact countFields_clean fields hfields
theorem countItems_clean {limit : Int} {total depth t : Nat} {isFirst : Bool} :
    ∀ items : List RawJson, countItems limit total depth isFirst items = .ok t →
      itemsSurrogate items = false
  | [], _ => rfl
  | item :: rest, h => by
    rw [countItems_cons] at h
    obtain ⟨m1,_,h⟩ := (bind_eq_ok _ _ _).mp h
    obtain ⟨m2,hitem,hrest⟩ := (bind_eq_ok _ _ _).mp h
    rw [itemsSurrogate, countValue_clean item hitem, countItems_clean rest hrest, Bool.or_self]
theorem countFields_clean {limit : Int} {total depth t : Nat} {isFirst : Bool} :
    ∀ fields : List (CodeText × RawJson), countFields limit total depth isFirst fields = .ok t →
      fieldsSurrogate fields = false
  | [], _ => rfl
  | (key, nested) :: rest, h => by
    rw [countFields_cons] at h
    obtain ⟨m1,_,h⟩ := (bind_eq_ok _ _ _).mp h
    obtain ⟨m2,hkey,h⟩ := (bind_eq_ok _ _ _).mp h
    obtain ⟨m3,_,h⟩ := (bind_eq_ok _ _ _).mp h
    obtain ⟨m4,hnested,hrest⟩ := (bind_eq_ok _ _ _).mp h
    rw [fieldsSurrogate, countText_clean key hkey, countValue_clean nested hnested,
      countFields_clean rest hrest]
    rfl
end

/-! ### The records of steps use the same counter -/

mutual
theorem addValue_eq (limit total depth : Nat) : ∀ j : Json,
    addValue limit total depth j = countValue limit total depth (rawOf j)
  | .null => by simp only [addValue, rawOf, countValue, addBytes_eq]
  | .bool b => by simp only [addValue, rawOf, countValue, addBytes_eq]
  | .int n => by simp only [addValue, rawOf, countValue, addBytes_eq]
  | .float q => by
    simp only [addValue, rawOf, countValue, addBytes_eq]
    rfl
  | .str text => by simp only [addValue, rawOf, countValue, addJsonStringBytes_eq]
  | .arr items => by simp only [addValue, rawOf, countValue, addBytes_eq, addItems_eq]
  | .obj fields => by simp only [addValue, rawOf, countValue, addBytes_eq, addFields_eq]
theorem addItems_eq (limit total depth : Nat) (isFirst : Bool) : ∀ items : List Json,
    addItems limit total depth isFirst items =
      countItems limit total depth isFirst (rawItems items)
  | [] => rfl
  | item :: rest => by
    simp only [addItems, rawItems, countItems, addBytes_eq, addValue_eq, addItems_eq]
theorem addFields_eq (limit total depth : Nat) (isFirst : Bool) :
    ∀ fields : List (String × Json), addFields limit total depth isFirst fields =
      countFields limit total depth isFirst (rawFields fields)
  | [] => rfl
  | (key, nested) :: rest => by
    simp only [addFields, rawFields, countFields, addBytes_eq, addJsonStringBytes_eq, addValue_eq,
      addFields_eq]
end

theorem boundedCanonicalJsonSize_eq_ok (value : Json) (maxBytes n : Nat) :
    boundedCanonicalJsonSize value maxBytes = .ok n ↔
      levels (rawOf value) ≤ 32 ∧ n = (encode value).length ∧ n ≤ maxBytes := by
  have h := counts_value maxBytes 0 0 value n
  rw [Nat.zero_add, Nat.zero_add, Int.ofNat_le] at h
  rw [boundedCanonicalJsonSize, addValue_eq]
  exact h

/-- A step remembers the length of its own encoding. -/
theorem canonicalJsonBytes_eq (step : ExecutedComponentStep) :
    step.canonicalJsonBytes = (encode step.toStepFields.toJson).length := by
  have h := step.valid
  rw [validStep, bind_eq_ok] at h
  obtain ⟨_,_,h⟩ := h
  rw [bind_eq_ok] at h
  obtain ⟨size,hsize,h⟩ := h
  obtain ⟨hstored,hcount⟩ := Prod.mk.inj (Except.ok.inj h)
  rw [hstored] at hsize
  rw [← hcount]
  exact ((boundedCanonicalJsonSize_eq_ok _ _ _).mp hsize).2.1

/- One turn of the loop over the sizes of steps. -/
def addStep (limit : Nat) (acc : Nat × Bool) (stepSize : Nat) : Except String (Nat × Bool) :=
  (if acc.2 then pure acc.1 else countBytes limit acc.1 1) >>= fun total =>
    countBytes limit total stepSize >>= fun total => pure (total, false)

omit [FloatText] in
theorem boundedTraceJsonSize_eq (stepSizes : List Nat) (maxBytes : Nat) :
    boundedTraceJsonSize stepSizes maxBytes = (countBytes maxBytes 0 2 >>= fun total =>
      stepSizes.foldlM (addStep maxBytes) (total, true) >>= fun acc => .ok acc.1) := by
  have hstep : (fun (acc : Nat × Bool) stepSize => do
      let total ← if acc.2 then pure acc.1 else countBytes maxBytes acc.1 1
      return (← countBytes maxBytes total stepSize, false)) = addStep maxBytes := by
    funext acc stepSize
    obtain ⟨total,isFirst⟩ := acc
    cases isFirst <;> rfl
  simp only [boundedTraceJsonSize, addBytes_eq, hstep]
  rfl

theorem counts_steps (limit : Nat) (items : List Json) (total : Nat) (isFirst : Bool)
    (h : (total : Int) ≤ limit) : Counts limit total True (encodeItems isFirst items).length
      ((items.map fun item => (encode item).length).foldlM (addStep limit) (total, isFirst) >>=
        fun acc => .ok acc.1) := by
  induction items generalizing total isFirst with
  | nil => exact Counts.done h
  | cons item rest ih =>
    rw [List.map_cons, List.foldlM_cons, addStep, bind_assoc, bind_assoc]
    simp only [bind_assoc, pure_bind]
    refine ((Counts.separated isFirst h).bind fun m1 _ =>
      (Counts.bytes limit m1 _).bind fun m2 h2 => ih m2 false h2).congr ?_ ?_
    · simp only [and_true]
    · simp only [encodeItems, List.length_append]
      cases isFirst <;> simp
      omega

/-- The total of a trace is the length of the array of its steps. -/
theorem boundedTraceJsonSize_eq_ok (steps : List ExecutedComponentStep) (maxBytes n : Nat) :
    boundedTraceJsonSize (steps.map fun step => step.canonicalJsonBytes) maxBytes = .ok n ↔
      n = (encode (.arr (steps.map fun step => step.toStepFields.toJson))).length ∧
        n ≤ maxBytes := by
  have hsizes : steps.map (fun step => step.canonicalJsonBytes) =
      (steps.map fun step => step.toStepFields.toJson).map fun item => (encode item).length := by
    rw [List.map_map]
    exact List.map_congr_left fun step _ => canonicalJsonBytes_eq step
  have h := ((Counts.bytes maxBytes 0 2).bind fun mid hmid =>
    counts_steps maxBytes (steps.map fun step => step.toStepFields.toJson) mid true hmid) n
  rw [Int.ofNat_le] at h
  rw [hsizes, boundedTraceJsonSize_eq, h]
  simp only [true_and, Nat.zero_add, and_self]
  have hlength : ∀ items : List Json,
      2 + (encodeItems true items).length = (encode (.arr items)).length := by
    intro items
    simp only [encode, List.length_append, List.length_cons, List.length_nil]
    omega
  rw [hlength]

theorem validateTrace_eq_ok (steps : List ExecutedComponentStep) :
    validateTrace steps = .ok () ↔ steps.length ≤ 16 ∧
      steps.map (fun step => step.traceIndex) = (List.range steps.length).map Int.ofNat ∧
      (encode (.arr (steps.map fun step => step.toStepFields.toJson))).length ≤
        4 * 1024 * 1024 := by
  have hsize : (boundedTraceJsonSize (steps.map fun step => step.canonicalJsonBytes)
      maxExecutedComponentJsonBytes >>= fun _ => pure ()) = .ok () ↔
        (encode (.arr (steps.map fun step => step.toStepFields.toJson))).length ≤
          4 * 1024 * 1024 := by
    rw [bind_eq_ok]
    constructor
    · intro h
      obtain ⟨n,hn,_⟩ := h
      obtain ⟨rfl,hle⟩ := (boundedTraceJsonSize_eq_ok steps _ n).mp hn
      exact hle
    · intro hle
      exact ⟨_, (boundedTraceJsonSize_eq_ok steps _ _).mpr ⟨rfl, hle⟩, rfl⟩
  rw [validateTrace, raiseIf_bind_eq_ok, raiseIf_bind_eq_ok, maxExecutedComponentSteps, not_lt,
    not_not, ← hsize]

end Values

end Whetstone.Eval
