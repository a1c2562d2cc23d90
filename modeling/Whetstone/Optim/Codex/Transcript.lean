import Whetstone.Lib.JsonText
import Mathlib.Data.List.DropRight

/-! The event stream of a Codex process, of which an output budget keeps a head and a tail: how the
two are stitched together, and what the parser makes of the lines that the cut has damaged. -/
namespace Whetstone.Optim.Codex
open Whetstone.Lib Whetstone.Lib.JsonText

/- `text.encode()`. -/
def encode (text : String) : Bytes := text.toUTF8.data.toList

/-! ### Byte strings -/

/- The ASCII whitespace of `bytes.strip`. -/
def isBlank (byte : UInt8) : Bool := byte = 0x20 ∨ (0x09 ≤ byte ∧ byte ≤ 0x0D)

def strip (raw : Bytes) : Bytes := (raw.dropWhile isBlank).rdropWhile isBlank

/- `bytes.splitlines`. The first argument holds the line read so far, backwards; a line feed behind
   a carriage return ends no line of its own. -/
def splitLinesFrom : (line : Bytes) → (afterReturn : Bool) → Bytes → List Bytes
  | line, _, [] => if line = [] then [] else [line.reverse]
  | line, afterReturn, byte :: rest =>
    if byte = 0x0A ∧ afterReturn then splitLinesFrom line false rest
    else if byte = 0x0A then line.reverse :: splitLinesFrom [] false rest
    else if byte = 0x0D then line.reverse :: splitLinesFrom [] true rest
    else splitLinesFrom (byte :: line) false rest

def splitLines (raw : Bytes) : List Bytes := splitLinesFrom [] false raw

/-! ### Retention -/

structure RetainedPayloadStream where
  head : Bytes
  tail : Bytes
  droppedBytes : Nat

structure RetainedStream where
  data : Bytes
  droppedBytes : Nat

def codexElisionSentinel : String := "whetstone-elision-53f1c0e2-8a47-4d19-9b6e-2c7d0f5a1b83"

def codexElidedMarkerPrefix : Bytes := encode ("[... " ++ codexElisionSentinel ++ " ")

def codexElidedMarkerEnd : Bytes := encode " bytes elided ...]"

/- The pattern is anchored on the whole line, which may end in a line feed. -/
def isElisionMarker (raw : Bytes) : Bool :=
  let rest := raw.drop codexElidedMarkerPrefix.length
  codexElidedMarkerPrefix.isPrefixOf raw ∧ rest.takeWhile isDigit ≠ [] ∧
    (rest.dropWhile isDigit = codexElidedMarkerEnd ∨
      rest.dropWhile isDigit = codexElidedMarkerEnd ++ [0x0A])

/- The digits of a count, which are ASCII characters. -/
def decimal (n : Nat) : Bytes := (Nat.toDigits 10 n).map fun digit => digit.val.toUInt8

def elisionMarker (droppedBytes : Nat) : Bytes :=
  codexElidedMarkerPrefix ++ decimal droppedBytes ++ codexElidedMarkerEnd

/- `_retained_bytes`. -/
def retainedBytes (stream : RetainedPayloadStream) : RetainedStream :=
  if stream.droppedBytes ≤ 0 then ⟨stream.head ++ stream.tail, stream.droppedBytes⟩
  else
    let head := if stream.head ≠ [] ∧ stream.head.getLast? ≠ some 0x0A then
      stream.head ++ [0x0A] else stream.head
    ⟨head ++ elisionMarker stream.droppedBytes ++ [0x0A] ++ stream.tail, stream.droppedBytes⟩

/-! ### The parser -/

/- The strict decoder, and whether a value of it is a dictionary. -/
structure StrictJson (V : Type) where
  decode : Bytes → Option V
  isDict : V → Bool

structure ParsedJsonlEvents (V : Type) where
  events : List V
  droppedPartialLines : Nat

/- `_brace_balance`. -/
def braceBalance (raw : Bytes) : Int :=
  let scanned := (BraceScan.outside 0).scan raw
  if scanned.inString ∧ scanned.depth = 0 then 1 else scanned.depth

def isCutRecordHead (raw : Bytes) : Bool :=
  (strip raw).head? = some 0x7B ∧ braceBalance (strip raw) > 0

def isCutRecordTail (raw : Bytes) (head : Option Bytes) : Bool :=
  (strip raw).head? ≠ some 0x7B ∧ (strip raw).getLast? = some 0x7D ∧
    head.any isCutRecordHead

/- The lines beside the first marker are the only ones that a stitch can have damaged. -/
def isCutStitchBoundary (ordinal : Nat) (lines : List Bytes) : Bool :=
  let index := ordinal - 1
  match lines.findIdx? isElisionMarker, lines[index]? with
  | some marker, some raw =>
    if index + 1 = marker then isCutRecordHead raw
    else if index = marker + 1 then
      isCutRecordTail raw (if marker > 0 then lines[marker - 1]? else none)
    else false
  | _, _ => false

section Parser

variable {V : Type} (json : StrictJson V)

/- The loop of `_parse_jsonl_events` over the lines of a stream, from the one with this ordinal. -/
def parseLines (truncated : Bool) (lines : List Bytes) : (ordinal : Nat) → List Bytes →
    Except String (ParsedJsonlEvents V)
  | _, [] => .ok ⟨[], 0⟩
  | ordinal, raw :: rest =>
    if truncated ∧ isElisionMarker raw then parseLines truncated lines (ordinal + 1) rest
    else match json.decode raw with
      | none =>
        if truncated ∧ isCutStitchBoundary ordinal lines then do
          let parsed ← parseLines truncated lines (ordinal + 1) rest
          return ⟨parsed.events, parsed.droppedPartialLines + 1⟩
        else .error ("Codex JSONL event " ++ toString ordinal ++ " is malformed")
      | some value =>
        if json.isDict value = false then
          .error ("Codex JSONL event " ++ toString ordinal ++ " is not an object")
        else do
          let parsed ← parseLines truncated lines (ordinal + 1) rest
          return ⟨value :: parsed.events, parsed.droppedPartialLines⟩

def parseJsonlEvents (stdout : Bytes) (truncated : Bool) :
    Except String (ParsedJsonlEvents V) :=
  let lines := (splitLines stdout).filter fun raw => strip raw ≠ []
  parseLines json truncated lines 1 lines

end Parser

/-! ### Streams of records -/

/- One JSON object without raw line breaks. -/
structure Record (raw : Bytes) : Prop where
  object : Object raw
  unbroken : ∀ byte ∈ raw, byte ≠ 0x0A ∧ byte ≠ 0x0D

/- Lines, each ended by a line feed. -/
def stream (lines : List Bytes) : Bytes := lines.flatMap fun line => line ++ [0x0A]

/- The records that end within the first `position` bytes of their stream. -/
def recordsBefore (position : Nat) : (start : Nat) → List Bytes → List Bytes
  | _, [] => []
  | start, record :: rest =>
    if start + record.length ≤ position then
      record :: recordsBefore position (start + record.length + 1) rest
    else recordsBefore position (start + record.length + 1) rest

/- The records that begin behind the first `position` bytes of their stream. -/
def recordsFrom (position : Nat) : (start : Nat) → List Bytes → List Bytes
  | _, [] => []
  | start, record :: rest =>
    if position ≤ start then record :: recordsFrom position (start + record.length + 1) rest
    else recordsFrom position (start + record.length + 1) rest

/- How many records, one or none, a cut at this position leaves a part of on both sides. -/
def divided (position : Nat) : (start : Nat) → List Bytes → Nat
  | _, [] => 0
  | start, record :: rest =>
    (if start < position ∧ position < start + record.length then 1 else 0) +
      divided position (start + record.length + 1) rest

/-! ### Lines -/

theorem splitLinesFrom_line (line raw rest : Bytes)
    (hraw : ∀ byte ∈ raw, byte ≠ 0x0A ∧ byte ≠ 0x0D) :
    splitLinesFrom line false (raw ++ 0x0A :: rest) =
      (line.reverse ++ raw) :: splitLinesFrom [] false rest := by
  induction raw generalizing line with
  | nil => simp [splitLinesFrom]
  | cons byte raw ih =>
    obtain ⟨hfeed,hreturn⟩ := hraw byte List.mem_cons_self
    rw [List.cons_append, splitLinesFrom, if_neg (by simp [hfeed]), if_neg hfeed, if_neg hreturn,
      ih _ fun own hown => hraw own (List.mem_cons_of_mem _ hown)]
    simp

/-- A stream of unbroken lines is split into them. -/
theorem splitLines_stream (lines : List Bytes)
    (hlines : ∀ line ∈ lines, ∀ byte ∈ line, byte ≠ 0x0A ∧ byte ≠ 0x0D) :
    splitLines (stream lines) = lines := by
  induction lines with
  | nil => rfl
  | cons line rest ih =>
    have hstream : stream (line :: rest) = line ++ 0x0A :: stream rest := by
      simp [stream]
    rw [splitLines, hstream, splitLinesFrom_line [] line _ (hlines line List.mem_cons_self)]
    exact congrArg (line :: ·) (ih fun own hown => hlines own (List.mem_cons_of_mem _ hown))

theorem strip_ne_nil {raw : Bytes} {byte : UInt8} (hmem : byte ∈ raw) (hbyte : isBlank byte = false) :
    strip raw ≠ [] := by
  have hfront : byte ∈ raw.dropWhile isBlank := by
    induction raw with
    | nil => cases hmem
    | cons first rest ih =>
      rw [List.dropWhile_cons]
      split
      · rename_i hblank
        refine ih ((List.mem_cons.mp hmem).resolve_left fun hsame => ?_)
        rw [hsame, hblank] at hbyte
        cases hbyte
      · exact hmem
  intro hnone
  rw [strip, List.rdropWhile_eq_nil_iff] at hnone
  have hblank := hnone byte hfront
  rw [hblank] at hbyte
  cases hbyte

theorem Record.braces {raw : Bytes} (h : Record raw) :
    ∃ inner, raw = 0x7B :: inner ++ [0x7D] := by
  obtain ⟨inner,hraw,_⟩ := h.object.braces
  exact ⟨inner, hraw⟩

theorem not_marker {raw : Bytes} {byte : UInt8} {rest : Bytes} (hraw : raw = byte :: rest)
    (hbyte : byte ≠ 0x5B) : isElisionMarker raw = false := by
  have hprefix : codexElidedMarkerPrefix.isPrefixOf raw = false := by
    have hfirst : codexElidedMarkerPrefix = 0x5B :: codexElidedMarkerPrefix.tail := by
      rfl
    rw [hfirst, hraw, List.isPrefixOf]
    simp [Ne.symm hbyte]
  simp [isElisionMarker, hprefix]

/-- A marker ends in a bracket, or in the line feed behind it. -/
theorem marker_last {raw : Bytes} (h : isElisionMarker raw = true) :
    raw.getLast? = some 0x5D ∨ raw.getLast? = some 0x0A := by
  rw [isElisionMarker, decide_eq_true_eq] at h
  obtain ⟨_,_,hend⟩ := h
  have hsplit : ∃ front, raw = front ++
      (raw.drop codexElidedMarkerPrefix.length).dropWhile isDigit := by
    refine ⟨raw.take codexElidedMarkerPrefix.length ++
      (raw.drop codexElidedMarkerPrefix.length).takeWhile isDigit, ?_⟩
    rw [List.append_assoc, List.takeWhile_append_dropWhile, List.take_append_drop]
  obtain ⟨front,hraw⟩ := hsplit
  rw [hraw]
  cases hend with
  | inl hend =>
    rw [hend, List.getLast?_append_of_ne_nil _ (by decide)]
    exact .inl (by rfl)
  | inr hend =>
    rw [hend, ← List.append_assoc, List.getLast?_concat]
    exact .inr rfl

theorem decimal_digits (n : Nat) : Digits (decimal n) := by
  refine ⟨?_, fun byte hmem => ?_⟩
  · rw [decimal, ne_eq, List.map_eq_nil_iff]
    exact Nat.toDigits_ne_nil
  · obtain ⟨digit,hdigit,rfl⟩ := List.mem_map.mp hmem
    have hrange := Nat.isDigit_of_mem_toDigits (by decide) (by decide) hdigit
    simp only [Char.isDigit, Bool.and_eq_true, decide_eq_true_eq] at hrange
    obtain ⟨hlow,hhigh⟩ := hrange
    have hlow : 48 ≤ digit.val.toNat := UInt32.le_iff_toNat_le.mp hlow
    have hhigh : digit.val.toNat ≤ 57 := UInt32.le_iff_toNat_le.mp hhigh
    have hbyte : digit.val.toUInt8.toNat = digit.val.toNat := by
      rw [UInt32.toNat_toUInt8]
      omega
    simp only [isDigit, decide_eq_true_eq, UInt8.le_iff_toNat_le, hbyte]
    exact ⟨hlow, hhigh⟩

/-- The marker is recognized. -/
theorem isElisionMarker_marker (n : Nat) : isElisionMarker (elisionMarker n) = true := by
  obtain ⟨hne,hdigits⟩ := decimal_digits n
  have hend : ∃ rest, codexElidedMarkerEnd = 0x20 :: rest :=
    ⟨codexElidedMarkerEnd.tail, by rfl⟩
  obtain ⟨rest,hend⟩ := hend
  have htake : (decimal n ++ codexElidedMarkerEnd).takeWhile isDigit = decimal n := by
    rw [List.takeWhile_append_of_pos hdigits, hend]
    simp [isDigit]
  have hdrop : (decimal n ++ codexElidedMarkerEnd).dropWhile isDigit = codexElidedMarkerEnd := by
    rw [List.dropWhile_append_of_pos hdigits, hend]
    simp [isDigit]
  rw [isElisionMarker, elisionMarker, List.append_assoc, List.drop_left, htake, hdrop]
  simp [hne]

theorem elisionMarker_unbroken (n : Nat) :
    ∀ byte ∈ elisionMarker n, byte ≠ 0x0A ∧ byte ≠ 0x0D := by
  intro byte hmem
  rw [elisionMarker, List.mem_append, List.mem_append] at hmem
  rcases hmem with (hfront | hdigit) | hend
  · exact (by decide +kernel : ∀ byte ∈ codexElidedMarkerPrefix, byte ≠ 0x0A ∧ byte ≠ 0x0D) byte
      hfront
  · have hrange := (decimal_digits n).2 byte hdigit
    constructor <;> rintro rfl <;> exact absurd hrange (by decide)
  · exact (by decide +kernel : ∀ byte ∈ codexElidedMarkerEnd, byte ≠ 0x0A ∧ byte ≠ 0x0D) byte hend

theorem strip_marker (n : Nat) : strip (elisionMarker n) ≠ [] := by
  have hfirst : codexElidedMarkerPrefix = 0x5B :: codexElidedMarkerPrefix.tail := by
    rfl
  have hmem : (0x5B : UInt8) ∈ elisionMarker n := by
    rw [elisionMarker, hfirst]
    exact List.mem_cons_self
  exact strip_ne_nil hmem (by decide)

/-! ### The shape of a cut record -/

theorem blank_next {byte : UInt8} (hblank : isBlank byte = true) (s : BraceScan) :
    (s.next byte).depth = s.depth ∧ (s.next byte).inString = s.inString := by
  have hquote : byte ≠ 0x22 := by rintro rfl; exact absurd hblank (by decide)
  have hopen : byte ≠ 0x7B := by rintro rfl; exact absurd hblank (by decide)
  have hclose : byte ≠ 0x7D := by rintro rfl; exact absurd hblank (by decide)
  unfold BraceScan.next
  split
  · split
    · exact ⟨rfl, rfl⟩
    split
    · exact ⟨rfl, rfl⟩
    · exact ⟨rfl, rfl⟩
  · exact ⟨rfl, rfl⟩

theorem scan_blank (s : BraceScan) (bytes : Bytes) (h : ∀ byte ∈ bytes, isBlank byte = true) :
    (s.scan bytes).depth = s.depth := by
  induction bytes generalizing s with
  | nil => rfl
  | cons byte rest ih =>
    rw [BraceScan.scan_cons, ih _ fun own hown => h own (List.mem_cons_of_mem _ hown)]
    exact (blank_next (h byte List.mem_cons_self) s).1

/-- Where nothing is stripped in front, only blanks are stripped behind. -/
theorem strip_cons {byte : UInt8} {rest : Bytes} (hbyte : isBlank byte = false) :
    ∃ blanks, byte :: rest = strip (byte :: rest) ++ blanks ∧
      (∀ own ∈ blanks, isBlank own = true) ∧ (strip (byte :: rest)).head? = some byte := by
  have hne := strip_ne_nil (List.mem_cons_self : byte ∈ byte :: rest) hbyte
  have hfront : (byte :: rest).dropWhile isBlank = byte :: rest :=
    List.dropWhile_cons_of_neg (by simp [hbyte])
  rw [strip, hfront] at hne ⊢
  have hsplit : (byte :: rest).rdropWhile isBlank ++ (byte :: rest).rtakeWhile isBlank =
      byte :: rest := List.rdropWhile_append_rtakeWhile
  refine ⟨_, hsplit.symm, fun own hown => List.mem_rtakeWhile_imp hown, ?_⟩
  cases hkept : (byte :: rest).rdropWhile isBlank with
  | nil => exact absurd hkept hne
  | cons first kept =>
    rw [hkept, List.cons_append] at hsplit
    rw [List.head?_cons, (List.cons.inj hsplit).1]

theorem strip_getLast {raw : Bytes} {byte : UInt8} (hlast : raw.getLast? = some byte)
    (hbyte : isBlank byte = false) : (strip raw).getLast? = some byte := by
  have hne := strip_ne_nil (List.mem_of_getLast? hlast) hbyte
  have hkept : raw.dropWhile isBlank ≠ [] := by
    intro hnone
    rw [strip, hnone] at hne
    exact hne rfl
  have hown : (raw.dropWhile isBlank).getLast? = some byte := by
    have hsplit := List.takeWhile_append_dropWhile (p := isBlank) (l := raw)
    rw [← List.getLast?_append_of_ne_nil _ hkept, hsplit, hlast]
  rw [strip, List.rdropWhile_eq_self_iff.mpr, hown]
  intro _ hblank
  rw [List.getLast?_eq_some_getLast hkept, Option.some.injEq] at hown
  rw [hown, hbyte] at hblank
  cases hblank

/-- A proper front part of a record is recognized as cut. -/
theorem isCutRecordHead_front {front rear : Bytes} (h : Object (front ++ rear))
    (hfront : front ≠ []) (hrear : rear ≠ []) : isCutRecordHead front = true := by
  have hdepth := h.front_depth hfront hrear
  obtain ⟨inner,hraw,_⟩ := h.braces
  cases front with
  | nil => exact absurd rfl hfront
  | cons byte front =>
    obtain ⟨rfl,_⟩ := List.cons_eq_cons.mp hraw
    obtain ⟨blanks,hsplit,hblanks,hhead⟩ := @strip_cons 0x7B front (by decide)
    have hscan : ((BraceScan.outside 0).scan (strip (0x7B :: front))).depth =
        ((BraceScan.outside 0).scan (0x7B :: front)).depth := by
      conv => rhs; rw [hsplit, BraceScan.scan_append, scan_blank _ _ hblanks]
    have hbalance : braceBalance (strip (0x7B :: front)) > 0 := by
      rw [braceBalance, hscan]
      split <;> omega
    rw [isCutRecordHead, hhead]
    simpa using hbalance

theorem strip_object {raw : Bytes} (h : Object raw) : strip raw = raw := by
  obtain ⟨inner,rfl,_⟩ := h.braces
  have hfront : (0x7B :: inner ++ [0x7D]).dropWhile isBlank = 0x7B :: inner ++ [0x7D] :=
    List.dropWhile_cons_of_neg (by decide)
  rw [strip, hfront, List.rdropWhile_concat_neg]
  decide

theorem isCutRecordHead_object {raw : Bytes} (h : Object raw) : isCutRecordHead raw = false := by
  rw [isCutRecordHead, strip_object h, braceBalance, h.scan_eq.1]
  simp

/-- A proper rear part of a record is recognized as cut, unless it begins like a record or the
line before the marker does not end inside one. -/
theorem isCutRecordTail_rear {front rear : Bytes} (h : Object (front ++ rear)) (hrear : rear ≠ [])
    (head : Option Bytes) : isCutRecordTail rear head =
      (decide ((strip rear).head? ≠ some 0x7B) && head.any isCutRecordHead) := by
  have hlast : rear.getLast? = some 0x7D := by
    obtain ⟨inner,hraw,_⟩ := h.braces
    rw [← List.getLast?_append_of_ne_nil front hrear, hraw, List.getLast?_concat]
  rw [isCutRecordTail, strip_getLast hlast (by decide)]
  simp

/-! ### A cut -/

theorem stream_cons (line : Bytes) (rest : List Bytes) :
    stream (line :: rest) = line ++ 0x0A :: stream rest := by
  simp [stream]

theorem stream_append (xs ys : List Bytes) : stream (xs ++ ys) = stream xs ++ stream ys :=
  List.flatMap_append

theorem getLast_stream {lines : List Bytes} (h : lines ≠ []) :
    (stream lines).getLast? = some 0x0A := by
  induction lines with
  | nil => exact absurd rfl h
  | cons line rest ih =>
    rw [stream_cons, List.getLast?_append_of_ne_nil _ (by simp), List.getLast?_cons]
    cases rest with
    | nil => rfl
    | cons next rest =>
      rw [ih (by simp)]
      rfl

/- What a cut leaves of a stream: whole records, and both parts of the one that it falls into. The
   line feed of a whole record can stand behind the cut, as a line of its own. -/
structure CutAt (records : List Bytes) (head rest : Bytes) (before : List Bytes)
    (parts : List (Bytes × Bytes)) (after : List Bytes) : Prop where
  whole : ∀ record ∈ before ++ after, record ∈ records
  divides : parts = [] ∨ ∃ own other, parts = [(own, other)] ∧ own ≠ [] ∧ other ≠ [] ∧
    own ++ other ∈ records
  head : head = stream (before ++ parts.map Prod.fst) ∨
    head ++ [0x0A] = stream (before ++ parts.map Prod.fst) ∧ head ≠ [] ∧
      head.getLast? ≠ some 0x0A
  rest : rest = stream (parts.map Prod.snd ++ after) ∨
    parts = [] ∧ rest = stream ([] :: after)

/- Behind the position every record is whole. -/
theorem behind_cut {position start : Nat} (records : List Bytes) (h : position ≤ start) :
    recordsFrom position start records = records ∧ divided position start records = 0 := by
  induction records generalizing start with
  | nil => exact ⟨rfl, rfl⟩
  | cons record rest ih =>
    obtain ⟨hfrom,hdivided⟩ := @ih (start + record.length + 1) (by omega)
    rw [recordsFrom, if_pos h, hfrom, divided, if_neg (by omega), hdivided]
    exact ⟨rfl, rfl⟩

theorem none_before {position start : Nat} (records : List Bytes) (h : position < start) :
    recordsBefore position start records = [] := by
  induction records generalizing start with
  | nil => rfl
  | cons record rest ih => rw [recordsBefore, if_neg (by omega), ih (by omega)]

/-- Where a cut falls, told from its position alone. -/
theorem cutAt_exists (records : List Bytes) (hrecords : ∀ record ∈ records, Record record)
    (start : Nat) (head rest : Bytes) (h : stream records = head ++ rest) :
    ∃ parts, CutAt records head rest (recordsBefore (start + head.length) start records) parts
      (recordsFrom (start + head.length) start records) ∧
      divided (start + head.length) start records = parts.length := by
  induction records generalizing start head with
  | nil =>
    obtain ⟨rfl,rfl⟩ := List.append_eq_nil_iff.mp h.symm
    exact ⟨[], ⟨fun _ hmem => (by cases hmem), .inl rfl, .inl rfl, .inl rfl⟩, rfl⟩
  | cons record more ih =>
    have hrecord := hrecords record List.mem_cons_self
    obtain ⟨inner,hbraces⟩ := hrecord.braces
    have hpos : 0 < record.length := by rw [hbraces]; simp
    have hlast : record.getLast? ≠ some 0x0A := by
      rw [hbraces, List.getLast?_concat]
      decide
    rw [stream_cons] at h
    -- the record ends at the cut
    have hends : head = record → rest = 0x0A :: stream more → ∃ parts,
        CutAt (record :: more) head rest (recordsBefore (start + head.length) start (record :: more))
          parts (recordsFrom (start + head.length) start (record :: more)) ∧
        divided (start + head.length) start (record :: more) = parts.length := by
      rintro rfl rfl
      obtain ⟨hfrom,hdivided⟩ := @behind_cut (start + head.length) (start + head.length + 1) more
        (by omega)
      rw [recordsBefore, if_pos (le_refl _), none_before more (by omega), recordsFrom,
        if_neg (by omega), hfrom, divided, if_neg (by omega), hdivided]
      refine ⟨[], ⟨fun _ hmem => hmem, .inl rfl, .inr ⟨?_, ?_, hlast⟩, .inr ⟨rfl, ?_⟩⟩, rfl⟩
      · simp [stream]
      · exact List.length_pos_iff.mp hpos
      · simp [stream]
    rcases List.append_eq_append_iff.mp h with ⟨beyond,hhead,hrest⟩ | ⟨within,hrecord',hrest⟩
    · cases beyond with
      | nil =>
        rw [List.append_nil] at hhead
        exact hends hhead hrest.symm
      | cons feed beyond =>
        obtain ⟨rfl,hmore⟩ := List.cons_eq_cons.mp hrest
        obtain ⟨parts,hcut,hcount⟩ := ih (fun own hown => hrecords own (List.mem_cons_of_mem _ hown))
          (start + record.length + 1) beyond hmore
        have hposition : start + record.length + 1 + beyond.length = start + head.length := by
          rw [hhead]
          simp only [List.length_append, List.length_cons]
          omega
        rw [hposition] at hcut hcount
        have hlength : record.length + 1 ≤ head.length := by omega
        rw [recordsBefore, if_pos (by omega), recordsFrom, if_neg (by omega), divided,
          if_neg (by omega), Nat.zero_add]
        generalize recordsBefore (start + head.length) (start + record.length + 1) more = before
          at hcut ⊢
        refine ⟨parts, ⟨?_, ?_, ?_, hcut.rest⟩, hcount⟩
        · intro own hown
          cases List.mem_cons.mp hown with
          | inl hsame => exact List.mem_cons.mpr (.inl hsame)
          | inr hin => exact List.mem_cons_of_mem _ (hcut.whole own hin)
        · rcases hcut.divides with hnone | ⟨own,other,hparts,hown,hother,hmem⟩
          · exact .inl hnone
          · exact .inr ⟨own, other, hparts, hown, hother, List.mem_cons_of_mem _ hmem⟩
        · rw [List.cons_append, stream_cons, hhead]
          rcases hcut.head with hover | ⟨hover,hne,hend⟩
          · exact .inl (by rw [← hover])
          · refine .inr ⟨by rw [← hover]; simp, by simp, ?_⟩
            rw [List.getLast?_append_of_ne_nil _ (by simp), List.getLast?_cons]
            cases hover' : beyond.getLast? with
            | none => exact absurd (List.getLast?_eq_none_iff.mp hover') hne
            | some byte =>
              rw [hover'] at hend
              exact hend
    · cases within with
      | nil =>
        rw [List.append_nil] at hrecord'
        exact hends hrecord'.symm hrest
      | cons first within =>
        have hlength : record.length = head.length + (within.length + 1) := by
          rw [hrecord', List.length_append, List.length_cons]
        rw [recordsBefore, if_neg (by omega), none_before more (by omega)]
        cases head with
        | nil =>
          obtain ⟨hfrom,hdivided⟩ := @behind_cut (start + 0) start (record :: more) (by omega)
          rw [List.length_nil, hfrom, hdivided]
          refine ⟨[], ⟨fun _ hmem => hmem, .inl rfl, .inl rfl, .inl ?_⟩, rfl⟩
          rw [List.map_nil, List.nil_append, stream_cons, hrecord', hrest]
          rfl
        | cons byte head =>
          rw [List.length_cons] at *
          obtain ⟨hfrom,hdivided⟩ := @behind_cut (start + (head.length + 1))
            (start + record.length + 1) more (by omega)
          rw [recordsFrom, if_neg (by omega), hfrom, divided, if_pos (by omega), hdivided]
          refine ⟨[(byte :: head, first :: within)], ⟨?_, .inr ⟨_, _, rfl, by simp, by simp, ?_⟩,
            .inr ⟨?_, by simp, ?_⟩, .inl ?_⟩, rfl⟩
          · exact fun own hown => List.mem_cons_of_mem _ hown
          · rw [hrecord']
            exact List.mem_cons_self
          · simp [stream]
          · intro hfeed
            have hbyte := hrecord.unbroken 0x0A (by
              rw [hrecord']
              exact List.mem_append_left _ (List.mem_of_getLast? hfeed))
            exact hbyte.1 rfl
          · rw [hrest, List.map_cons, List.map_nil, List.singleton_append, stream_cons]

/- A line of a retained stream that carries something. -/
def Lined (line : Bytes) : Prop :=
  strip line ≠ [] ∧ ∀ byte ∈ line, byte ≠ 0x0A ∧ byte ≠ 0x0D

theorem Record.lined {raw : Bytes} (h : Record raw) : Lined raw := by
  refine ⟨?_, h.unbroken⟩
  rw [strip_object h.object]
  obtain ⟨inner,hraw⟩ := h.braces
  rw [hraw]
  simp

theorem Record.front_lined {own other : Bytes} (h : Record (own ++ other)) (hown : own ≠ []) :
    Lined own := by
  refine ⟨?_, fun byte hmem => h.unbroken byte (List.mem_append_left _ hmem)⟩
  obtain ⟨inner,hraw⟩ := h.braces
  cases own with
  | nil => exact absurd rfl hown
  | cons byte rest =>
    obtain ⟨rfl,_⟩ := List.cons_eq_cons.mp hraw
    exact strip_ne_nil List.mem_cons_self (by decide)

theorem Record.rear_lined {own other : Bytes} (h : Record (own ++ other)) (hother : other ≠ []) :
    Lined other := by
  refine ⟨?_, fun byte hmem => h.unbroken byte (List.mem_append_right _ hmem)⟩
  obtain ⟨inner,hraw⟩ := h.braces
  have hlast : other.getLast? = some 0x7D := by
    rw [← List.getLast?_append_of_ne_nil own hother, hraw, List.getLast?_concat]
  exact strip_ne_nil (List.mem_of_getLast? hlast) (by decide)

section Lines

variable {records before after : List Bytes} {parts : List (Bytes × Bytes)} {head rest : Bytes}

theorem CutAt.lined (h : CutAt records head rest before parts after)
    (hrecords : ∀ record ∈ records, Record record) :
    (∀ line ∈ before ++ parts.map Prod.fst, Lined line) ∧
      ∀ line ∈ parts.map Prod.snd ++ after, Lined line := by
  have hwhole := fun record hmem => (hrecords record (h.whole record hmem)).lined
  constructor
  · intro line hline
    cases List.mem_append.mp hline with
    | inl hbefore => exact hwhole line (List.mem_append_left _ hbefore)
    | inr hpart =>
      rcases h.divides with rfl | ⟨own,other,rfl,hown,_,hmem⟩
      · cases hpart
      · rw [List.mem_singleton.mp hpart]
        exact (hrecords _ hmem).front_lined hown
  · intro line hline
    cases List.mem_append.mp hline with
    | inr hafter => exact hwhole line (List.mem_append_right _ hafter)
    | inl hpart =>
      rcases h.divides with rfl | ⟨own,other,rfl,_,hother,hmem⟩
      · cases hpart
      · rw [List.mem_singleton.mp hpart]
        exact (hrecords _ hmem).rear_lined hother

/-- A retained head ends its last line. -/
theorem CutAt.head_lines (h : CutAt records head rest before parts after) :
    (if head ≠ [] ∧ head.getLast? ≠ some 0x0A then head ++ [0x0A] else head) =
      stream (before ++ parts.map Prod.fst) := by
  rcases h.head with hhead | ⟨hhead,hne,hlast⟩
  · rw [if_neg, hhead]
    rintro ⟨hne,hlast⟩
    rw [hhead] at hne hlast
    refine hlast (getLast_stream fun hnone => hne ?_)
    rw [hnone]
    rfl
  · rw [if_pos ⟨hne, hlast⟩, hhead]

theorem CutAt.rest_lines (h : CutAt records head rest before parts after) :
    ∃ blank : List Bytes, (∀ line ∈ blank, line = []) ∧
      rest = stream (blank ++ (parts.map Prod.snd ++ after)) := by
  rcases h.rest with hrest | ⟨rfl,hrest⟩
  · exact ⟨[], fun _ hmem => (by cases hmem), hrest⟩
  · exact ⟨[[]], fun _ hmem => List.mem_singleton.mp hmem, hrest⟩

end Lines

/-- The lines of a stitched stream: the whole records, and the parts that the cuts have left. -/
theorem retained_lines {records : List Bytes} (hrecords : ∀ record ∈ records, Record record)
    {head behind ahead tail : Bytes} {before nearer farther after : List Bytes}
    {front rear : List (Bytes × Bytes)} (hhead : CutAt records head behind before front nearer)
    (htail : CutAt records ahead tail farther rear after) {n : Nat} (hn : 0 < n) :
    (splitLines (retainedBytes ⟨head, tail, n⟩).data).filter (fun raw => strip raw ≠ []) =
      before ++ front.map Prod.fst ++ elisionMarker n :: (rear.map Prod.snd ++ after) := by
  obtain ⟨blank,hblank,hrest⟩ := htail.rest_lines
  have hfront := (hhead.lined hrecords).1
  have hrear := (htail.lined hrecords).2
  have hlines := hhead.head_lines
  generalize before ++ front.map Prod.fst = xs at hfront hlines ⊢
  generalize rear.map Prod.snd ++ after = ys at hrear hrest ⊢
  have hdata : (retainedBytes ⟨head, tail, n⟩).data =
      stream (xs ++ elisionMarker n :: (blank ++ ys)) := by
    rw [retainedBytes, if_neg (by simp only; omega)]
    dsimp only
    rw [hlines, hrest, stream_append xs, stream_cons]
    simp
  rw [hdata, splitLines_stream]
  · have hnone : blank.filter (fun raw => strip raw ≠ []) = [] := by
      refine List.filter_eq_nil_iff.mpr fun line hline => ?_
      rw [hblank line hline]
      decide
    have hall : ∀ lines : List Bytes, (∀ line ∈ lines, Lined line) →
        lines.filter (fun raw => strip raw ≠ []) = lines := by
      intro lines hlines
      exact List.filter_eq_self.mpr fun line hline => decide_eq_true (hlines line hline).1
    rw [List.filter_append, List.filter_cons_of_pos (by simpa using strip_marker n),
      List.filter_append, hnone, List.nil_append, hall _ hfront, hall _ hrear]
  · intro line hline
    rw [List.mem_append, List.mem_cons, List.mem_append] at hline
    rcases hline with hline | rfl | hline | hline
    · exact (hfront line hline).2
    · exact elisionMarker_unbroken n
    · rw [hblank line hline]
      exact fun _ hmem => (by cases hmem)
    · exact (hrear line hline).2

section Parsing

variable {V : Type} {json : StrictJson V}

/-- What is assumed of the decoder: it accepts exactly the JSON texts, and an object is a
dictionary. -/
structure StrictJson.Exact (json : StrictJson V) : Prop where
  accepts : ∀ raw, (json.decode raw).isSome = true ↔ Text raw
  dict : ∀ raw value, Object raw → json.decode raw = some value → json.isDict value = true

theorem Record.not_marker {raw : Bytes} (h : Record raw) : isElisionMarker raw = false := by
  obtain ⟨inner,hraw⟩ := h.braces
  exact Codex.not_marker hraw (by decide)

/-- Whole records are decoded one after the other. -/
theorem parse_records (hjson : json.Exact) {records : List Bytes}
    (hrecords : ∀ record ∈ records, Record record) :
    ∃ values : List V, records.map json.decode = values.map some ∧ ∀ lines ordinal rest,
      parseLines json true lines ordinal (records ++ rest) =
        (parseLines json true lines (ordinal + records.length) rest).map fun parsed =>
          ⟨values ++ parsed.events, parsed.droppedPartialLines⟩ := by
  induction records with
  | nil =>
    refine ⟨[], rfl, fun lines ordinal rest => ?_⟩
    cases hparse : parseLines json true lines ordinal rest <;> simp [hparse, Except.map]
  | cons record more ih =>
    have hrecord := hrecords record List.mem_cons_self
    obtain ⟨values,hvalues,hparse⟩ := ih fun own hown => hrecords own (List.mem_cons_of_mem _ hown)
    obtain ⟨value,hvalue⟩ := Option.isSome_iff_exists.mp
      ((hjson.accepts record).mpr hrecord.object.text)
    have hdict := hjson.dict record value hrecord.object hvalue
    refine ⟨value :: values, by simp [hvalue, hvalues], fun lines ordinal rest => ?_⟩
    rw [List.cons_append, parseLines, if_neg (by simp [hrecord.not_marker]), hvalue]
    dsimp only
    rw [if_neg (by simp [hdict]), hparse, List.length_cons, Nat.add_assoc, Nat.add_comm 1]
    cases parseLines json true lines (ordinal + (more.length + 1)) rest <;> rfl

/-- A line that is no text is forgiven beside the marker only. -/
theorem parse_part (hjson : json.Exact) {raw : Bytes} (hraw : ¬ Text raw)
    (hmarker : isElisionMarker raw = false) (lines : List Bytes) (ordinal : Nat)
    (rest : List Bytes) : parseLines json true lines ordinal (raw :: rest) =
      if isCutStitchBoundary ordinal lines = true then
        (parseLines json true lines (ordinal + 1) rest).map fun parsed =>
          ⟨parsed.events, parsed.droppedPartialLines + 1⟩
      else .error ("Codex JSONL event " ++ toString ordinal ++ " is malformed") := by
  have hnone : json.decode raw = none := by
    cases hdecode : json.decode raw with
    | none => rfl
    | some value => exact absurd ((hjson.accepts raw).mp (by rw [hdecode]; rfl)) hraw
  rw [parseLines, if_neg (by simp [hmarker]), hnone]
  dsimp only
  by_cases hboundary : isCutStitchBoundary ordinal lines = true
  · rw [if_pos ⟨rfl, hboundary⟩, if_pos hboundary]
    cases parseLines json true lines (ordinal + 1) rest <;> rfl
  · rw [if_neg (fun h => hboundary h.2), if_neg hboundary]

theorem parse_marker {raw : Bytes} (hmarker : isElisionMarker raw = true) (lines : List Bytes)
    (ordinal : Nat) (rest : List Bytes) : parseLines json true lines ordinal (raw :: rest) =
      parseLines json true lines (ordinal + 1) rest := by
  rw [parseLines, if_pos ⟨rfl, hmarker⟩]

/-! ### The lines beside the marker -/

theorem findIdx_marker {xs ys : List Bytes} {marker : Bytes}
    (hxs : ∀ line ∈ xs, isElisionMarker line = false) (hmarker : isElisionMarker marker = true) :
    (xs ++ marker :: ys).findIdx? isElisionMarker = some xs.length := by
  induction xs with
  | nil => simp [List.findIdx?_cons, hmarker]
  | cons line rest ih =>
    rw [List.cons_append, List.findIdx?_cons, hxs line List.mem_cons_self,
      ih fun own hown => hxs own (List.mem_cons_of_mem _ hown)]
    rfl

/-- The last line of the head is judged by its own shape. -/
theorem boundary_front {zs ys : List Bytes} {own marker : Bytes}
    (hxs : ∀ line ∈ zs ++ [own], isElisionMarker line = false)
    (hmarker : isElisionMarker marker = true) :
    isCutStitchBoundary (zs.length + 1) (zs ++ [own] ++ marker :: ys) = isCutRecordHead own := by
  have hline : (zs ++ [own] ++ marker :: ys)[zs.length]? = some own := by simp
  rw [isCutStitchBoundary, findIdx_marker hxs hmarker]
  simp only [Nat.add_sub_cancel, hline]
  rw [if_pos (by simp)]

/-- The first line of the tail is judged by the last line of the head as well. -/
theorem boundary_rear {xs ys : List Bytes} {other marker : Bytes}
    (hxs : ∀ line ∈ xs, isElisionMarker line = false) (hmarker : isElisionMarker marker = true) :
    isCutStitchBoundary (xs.length + 2) (xs ++ marker :: other :: ys) =
      isCutRecordTail other xs.getLast? := by
  have hline : (xs ++ marker :: other :: ys)[xs.length + 1]? = some other := by simp
  rw [isCutStitchBoundary, findIdx_marker hxs hmarker]
  simp only [show xs.length + 2 - 1 = xs.length + 1 by omega, hline]
  rw [if_neg (by omega), if_pos trivial]
  congr 1
  rw [List.getLast?_eq_getElem?]
  split
  · rw [List.getElem?_append_left (by omega)]
  · rename_i hnone
    have hnil : xs = [] := List.length_eq_zero_iff.mp (by omega)
    rw [hnil]
    rfl

/- The parser forgives a rear part that does not begin like a record, if the head shows the front
   part of one. -/
def Forgiven (front rear : List (Bytes × Bytes)) : Prop :=
  ∀ pair ∈ rear, front ≠ [] ∧ (strip pair.2).head? ≠ some 0x7B

section Stitched

variable {records before nearer farther after : List Bytes} {head behind ahead tail : Bytes}
  {front rear : List (Bytes × Bytes)}

theorem CutAt.no_marker (h : CutAt records head behind before front nearer)
    (hrecords : ∀ record ∈ records, Record record) :
    ∀ line ∈ before ++ front.map Prod.fst, isElisionMarker line = false := by
  intro line hline
  cases List.mem_append.mp hline with
  | inl hbefore => exact (hrecords _ (h.whole _ (List.mem_append_left _ hbefore))).not_marker
  | inr hpart =>
    rcases h.divides with rfl | ⟨own,other,rfl,hown,_,hmem⟩
    · cases hpart
    · rw [List.mem_singleton.mp hpart]
      obtain ⟨inner,hraw⟩ := (hrecords _ hmem).braces
      cases own with
      | nil => exact absurd rfl hown
      | cons byte own =>
        obtain ⟨rfl,_⟩ := List.cons_eq_cons.mp hraw
        exact Codex.not_marker rfl (by decide)

/-- The head shows the front part of a record just in case the cut has left one. -/
theorem CutAt.ends_cut (h : CutAt records head behind before front nearer)
    (hrecords : ∀ record ∈ records, Record record) :
    (before ++ front.map Prod.fst).getLast?.any isCutRecordHead = decide (front ≠ []) := by
  rcases h.divides with rfl | ⟨own,other,rfl,hown,hother,hmem⟩
  · rw [List.map_nil, List.append_nil]
    cases hlast : before.getLast? with
    | none => rfl
    | some record =>
      have hobject := (hrecords _ (h.whole _ (List.mem_append_left _
        (List.mem_of_getLast? hlast)))).object
      simp [isCutRecordHead_object hobject]
  · have hcut := isCutRecordHead_front (hrecords _ hmem).object hown hother
    simp [hcut]

/-- The lines up to the marker are parsed to the whole records among them. -/
theorem parse_head (hjson : json.Exact) (hrecords : ∀ record ∈ records, Record record)
    (h : CutAt records head behind before front nearer) :
    ∃ values : List V, before.map json.decode = values.map some ∧
      ∀ (marker : Bytes) (ys : List Bytes), isElisionMarker marker = true →
        parseLines json true (before ++ front.map Prod.fst ++ marker :: ys) 1
            (before ++ front.map Prod.fst ++ marker :: ys) =
          (parseLines json true (before ++ front.map Prod.fst ++ marker :: ys)
            ((before ++ front.map Prod.fst).length + 2) ys).map fun parsed =>
              ⟨values ++ parsed.events, parsed.droppedPartialLines + front.length⟩ := by
  obtain ⟨values,hvalues,hparse⟩ := parse_records hjson fun record hmem =>
    hrecords record (h.whole record (List.mem_append_left _ hmem))
  refine ⟨values, hvalues, fun marker ys hmarker => ?_⟩
  have hlines := h.no_marker hrecords
  suffices hall : ∀ lines, lines = before ++ front.map Prod.fst ++ marker :: ys →
      parseLines json true lines 1 (before ++ front.map Prod.fst ++ marker :: ys) =
        (parseLines json true lines ((before ++ front.map Prod.fst).length + 2) ys).map
          fun parsed => ⟨values ++ parsed.events, parsed.droppedPartialLines + front.length⟩ from
    hall _ rfl
  intro lines hall
  rw [List.append_assoc, hparse]
  rcases h.divides with rfl | ⟨own,other,rfl,hown,hother,hmem⟩
  · rw [List.map_nil, List.nil_append, parse_marker hmarker, List.append_nil,
      show 1 + before.length + 1 = before.length + 2 by omega]
    cases parseLines json true lines (before.length + 2) ys <;> rfl
  · have hobject := (hrecords _ hmem).object
    have hpart : isElisionMarker own = false := hlines own (by simp)
    have hboundary : isCutStitchBoundary (1 + before.length) lines = true := by
      rw [hall, Nat.add_comm 1, List.map_cons, List.map_nil, boundary_front hlines hmarker]
      exact isCutRecordHead_front hobject hown hother
    rw [List.map_cons, List.map_nil, List.singleton_append,
      parse_part hjson (hobject.front_not_text hown hother) hpart, if_pos hboundary,
      parse_marker hmarker, List.length_append, List.length_singleton,
      show 1 + before.length + 1 + 1 = before.length + 1 + 2 by omega]
    cases parseLines json true lines (before.length + 1 + 2) ys <;> rfl

/-- The lines behind the marker are parsed to the whole records among them, if the part of a record
in front of them is forgiven. -/
theorem parse_tail (hjson : json.Exact) (hrecords : ∀ record ∈ records, Record record)
    (h : CutAt records ahead tail farther rear after) {xs : List Bytes}
    (hxs : ∀ line ∈ xs, isElisionMarker line = false) {marker : Bytes}
    (hmarker : isElisionMarker marker = true) :
    ∃ values : List V, after.map json.decode = values.map some ∧
      ((∀ pair ∈ rear, isCutRecordTail pair.2 xs.getLast? = true) →
        parseLines json true (xs ++ marker :: (rear.map Prod.snd ++ after)) (xs.length + 2)
          (rear.map Prod.snd ++ after) = .ok ⟨values, rear.length⟩) ∧
      ((∃ pair ∈ rear, isCutRecordTail pair.2 xs.getLast? = false) → ∃ message,
        parseLines json true (xs ++ marker :: (rear.map Prod.snd ++ after)) (xs.length + 2)
          (rear.map Prod.snd ++ after) = .error message) := by
  obtain ⟨values,hvalues,hparse⟩ := parse_records hjson fun record hmem =>
    hrecords record (h.whole record (List.mem_append_right _ hmem))
  have hafter : ∀ lines ordinal, parseLines json true lines ordinal after = .ok ⟨values, 0⟩ := by
    intro lines ordinal
    have hown := hparse lines ordinal []
    rw [List.append_nil, parseLines] at hown
    rw [hown, Except.map, List.append_nil]
  refine ⟨values, hvalues, ?_⟩
  rcases h.divides with rfl | ⟨own,other,rfl,hown,hother,hmem⟩
  · refine ⟨fun _ => hafter _ _, fun ⟨pair,hpair,_⟩ => ?_⟩
    cases hpair
  · have hobject := (hrecords _ hmem).object
    have hpart : isElisionMarker other = false := by
      obtain ⟨inner,hraw⟩ := (hrecords _ hmem).braces
      have hlast : other.getLast? = some 0x7D := by
        rw [← List.getLast?_append_of_ne_nil own hother, hraw, List.getLast?_concat]
      rw [Bool.eq_false_iff]
      intro hmarked
      cases marker_last hmarked with
      | inl hbracket => rw [hlast] at hbracket; exact absurd hbracket (by decide)
      | inr hfeed => rw [hlast] at hfeed; exact absurd hfeed (by decide)
    have hline := parse_part hjson (hobject.rear_not_text hown hother) hpart
      (xs ++ marker :: other :: after) (xs.length + 2) after
    rw [boundary_rear hxs hmarker, hafter] at hline
    simp only [List.map_cons, List.map_nil, List.singleton_append, List.mem_singleton,
      forall_eq, exists_eq_left]
    rw [hline]
    constructor
    · intro hcut
      rw [if_pos hcut]
      rfl
    · intro hcut
      rw [if_neg (by simp [hcut])]
      exact ⟨_, rfl⟩

/-- Whole records and the parts of two cuts are parsed to the whole records, or not at all. -/
theorem parse_stitched (hjson : json.Exact) (hrecords : ∀ record ∈ records, Record record)
    (hhead : CutAt records head behind before front nearer)
    (htail : CutAt records ahead tail farther rear after) {n : Nat} (hn : 0 < n) :
    ∃ events, (before ++ after).map json.decode = events.map some ∧
      (Forgiven front rear → parseJsonlEvents json (retainedBytes ⟨head, tail, n⟩).data true =
        .ok ⟨events, front.length + rear.length⟩) ∧
      (¬ Forgiven front rear → ∃ message,
        parseJsonlEvents json (retainedBytes ⟨head, tail, n⟩).data true = .error message) := by
  have hmarker := isElisionMarker_marker n
  obtain ⟨early,hearly,hparsed⟩ := parse_head hjson hrecords hhead
  obtain ⟨late,hlate,hforgiven,hrefused⟩ := parse_tail hjson hrecords htail
    (hhead.no_marker hrecords) hmarker
  have htails : ∀ pair ∈ rear,
      isCutRecordTail pair.2 (before ++ front.map Prod.fst).getLast? =
        decide (front ≠ [] ∧ (strip pair.2).head? ≠ some 0x7B) := by
    intro pair hpair
    rcases htail.divides with rfl | ⟨own,other,rfl,_,hother,hmem⟩
    · cases hpair
    · rw [List.mem_singleton.mp hpair, isCutRecordTail_rear (hrecords _ hmem).object hother,
        hhead.ends_cut hrecords, Bool.and_comm, ← Bool.decide_and]
  refine ⟨early ++ late, by rw [List.map_append, List.map_append, hearly, hlate], ?_⟩
  rw [parseJsonlEvents, retained_lines hrecords hhead htail hn]
  rw [hparsed _ _ hmarker]
  constructor
  · intro h
    rw [hforgiven fun pair hpair => by rw [htails pair hpair]; exact decide_eq_true (h pair hpair),
      Except.map, Nat.add_comm rear.length]
  · intro h
    simp only [Forgiven, not_forall] at h
    obtain ⟨pair,hpair,hnot⟩ := h
    obtain ⟨message,herror⟩ := hrefused ⟨pair, hpair, by
      rw [htails pair hpair]
      exact decide_eq_false hnot⟩
    exact ⟨message, by rw [herror, Except.map]⟩

end Stitched

/-! ### What the parser makes of a truncated stream -/

/- The first line of what was retained behind the cut. -/
def firstLine (raw : Bytes) : Bytes := raw.takeWhile (· ≠ 0x0A)

theorem CutAt.first_line {records farther after : List Bytes} {ahead tail own other : Bytes}
    (h : CutAt records ahead tail farther [(own, other)] after)
    (hrecords : ∀ record ∈ records, Record record) : firstLine tail = other := by
  have hrest : tail = other ++ 0x0A :: stream after := by
    rcases h.rest with hrest | ⟨hnone,_⟩
    · rw [hrest, List.map_cons, List.map_nil, List.singleton_append, stream_cons]
    · cases hnone
  have hlined := ((h.lined hrecords).2 other (by simp)).2
  rw [firstLine, hrest, List.takeWhile_append_of_pos fun byte hmem => by simp [hlined byte hmem]]
  simp

section Truncated

variable {records : List Bytes} {head dropped tail : Bytes}

/-- A truncated stream is parsed unless the tail begins inside a record that the head does not end
in, or with an opening brace inside a record. -/
theorem truncated_parses (hjson : json.Exact) (hrecords : ∀ record ∈ records, Record record)
    (hstream : stream records = head ++ dropped ++ tail) (hdropped : dropped ≠ []) :
    ∃ events, (recordsBefore head.length 0 records ++
        recordsFrom (head.length + dropped.length) 0 records).map json.decode =
        events.map some ∧
      ((divided (head.length + dropped.length) 0 records = 1 →
          divided head.length 0 records = 1 ∧ (strip (firstLine tail)).head? ≠ some 0x7B) →
        parseJsonlEvents json (retainedBytes ⟨head, tail, dropped.length⟩).data true =
          .ok ⟨events, divided head.length 0 records +
            divided (head.length + dropped.length) 0 records⟩) ∧
      (¬ (divided (head.length + dropped.length) 0 records = 1 →
          divided head.length 0 records = 1 ∧ (strip (firstLine tail)).head? ≠ some 0x7B) →
        ∃ message, parseJsonlEvents json (retainedBytes ⟨head, tail, dropped.length⟩).data true =
          .error message) := by
  obtain ⟨front,hhead,hfront⟩ := cutAt_exists records hrecords 0 head (dropped ++ tail)
    (by rw [hstream, List.append_assoc])
  obtain ⟨rear,htail,hrear⟩ := cutAt_exists records hrecords 0 (head ++ dropped) tail hstream
  rw [Nat.zero_add] at hhead hfront
  rw [Nat.zero_add, List.length_append] at htail hrear
  have hforgiven : Forgiven front rear ↔
      (divided (head.length + dropped.length) 0 records = 1 →
        divided head.length 0 records = 1 ∧ (strip (firstLine tail)).head? ≠ some 0x7B) := by
    have hwitnessed : front ≠ [] ↔ divided head.length 0 records = 1 := by
      rw [hfront]
      rcases hhead.divides with rfl | ⟨_,_,rfl,_⟩ <;> simp
    rcases htail.divides with rfl | ⟨own,other,rfl,_⟩
    · rw [hrear]
      simp [Forgiven]
    · rw [hrear, htail.first_line hrecords, ← hwitnessed]
      simp [Forgiven]
  rw [← hforgiven, hfront, hrear]
  exact parse_stitched hjson hrecords hhead htail (List.length_pos_iff.mpr hdropped)

/-- What is parsed of a truncated stream are the records that were retained whole, and the lines
that are left out are the parts of the others. -/
theorem truncated_events (hjson : json.Exact) (hrecords : ∀ record ∈ records, Record record)
    (hstream : stream records = head ++ dropped ++ tail) (hdropped : dropped ≠ [])
    {parsed : ParsedJsonlEvents V}
    (hparsed : parseJsonlEvents json (retainedBytes ⟨head, tail, dropped.length⟩).data true =
      .ok parsed) :
    parsed.events.map some = (recordsBefore head.length 0 records ++
        recordsFrom (head.length + dropped.length) 0 records).map json.decode ∧
      parsed.droppedPartialLines = divided head.length 0 records +
        divided (head.length + dropped.length) 0 records := by
  obtain ⟨events,hevents,hkept,hrefused⟩ := truncated_parses hjson hrecords hstream hdropped
  by_cases hcut : divided (head.length + dropped.length) 0 records = 1 →
      divided head.length 0 records = 1 ∧ (strip (firstLine tail)).head? ≠ some 0x7B
  · rw [hkept hcut] at hparsed
    cases hparsed
    exact ⟨hevents.symm, rfl⟩
  · obtain ⟨message,herror⟩ := hrefused hcut
    rw [herror] at hparsed
    cases hparsed

/-- A stream whose head ends inside a record is parsed unless the tail begins inside a record, too,
and with an opening brace. -/
theorem cut_head_parses_iff (hjson : json.Exact) (hrecords : ∀ record ∈ records, Record record)
    (hstream : stream records = head ++ dropped ++ tail) (hdropped : dropped ≠ [])
    (hinside : divided head.length 0 records = 1) :
    (∃ parsed, parseJsonlEvents json (retainedBytes ⟨head, tail, dropped.length⟩).data true =
        .ok parsed) ↔
      ¬ (divided (head.length + dropped.length) 0 records = 1 ∧
        (strip (firstLine tail)).head? = some 0x7B) := by
  obtain ⟨events,_,hkept,hrefused⟩ := truncated_parses hjson hrecords hstream hdropped
  constructor
  · rintro ⟨parsed,hparsed⟩ ⟨hdivided,hbrace⟩
    obtain ⟨message,herror⟩ := hrefused fun h => (h hdivided).2 hbrace
    rw [herror] at hparsed
    cases hparsed
  · intro h
    exact ⟨_, hkept fun hdivided => ⟨hinside, fun hbrace => h ⟨hdivided, hbrace⟩⟩⟩

end Truncated

end Parsing

section Example

/- A record with an object inside, cut in front of the inner brace. -/
def nestedRecord : Bytes := encode "\x7b\"a\":\x7b\x7d\x7d"

def cutFront : Bytes := encode "\x7b\"a\""

def cutRear : Bytes := encode "\x7b\x7d\x7d\n"

theorem encode_valid (text : String) : validUtf8 (encode text) := by
  rw [encode, validUtf8, Array.toArray_toList]
  exact text.isValidUTF8

theorem nestedRecord_record : Record nestedRecord where
  object :=
    { braces := by
        have hnone : Spaces [] := fun _ hmem => (by cases hmem)
        have hvalue : Parses .element ([] ++ (0x7B :: [] ++ [0x7D]) ++ []) :=
          .element hnone (.emptyObject hnone) hnone
        have hmember : Parses .members ([] ++ (0x22 :: [0x61] ++ [0x22]) ++ [] ++
            0x3A :: ([] ++ (0x7B :: [] ++ [0x7D]) ++ [])) :=
          .member hnone (.plain (by decide) (by decide) (by decide) .nil) hnone hvalue
        exact ⟨_, by rfl, .inr hmember⟩
      encoded := encode_valid _ }
  unbroken := by decide +kernel

open Classical in
/- The strict decoder, of which only the texts it accepts matter here. -/
noncomputable def textDecoder : StrictJson Bytes where
  decode raw := if Text raw then some raw else none
  isDict value := (strip value).head? = some 0x7B

theorem textDecoder_exact : textDecoder.Exact where
  accepts raw := by
    by_cases htext : Text raw <;> simp [textDecoder, htext]
  dict raw value hobject hvalue := by
    have hsame : raw = value := by simpa [textDecoder, hobject.text] using hvalue
    obtain ⟨inner,hraw,_⟩ := hobject.braces
    rw [← hsame]
    dsimp only [textDecoder]
    rw [strip_object hobject, hraw]
    rfl

/-- A whole record in front of the cut one, of which nothing but the brace is dropped. -/
theorem truncated_events_nested : ∃ parsed : ParsedJsonlEvents Bytes,
    parsed.events.map some = [nestedRecord].map textDecoder.decode ∧
      parsed.droppedPartialLines = 2 := by
  have hrecords : ∀ record ∈ [nestedRecord, nestedRecord], Record record := by
    simp [nestedRecord_record]
  have hstream : stream [nestedRecord, nestedRecord] =
      (nestedRecord ++ 0x0A :: cutFront) ++ [0x3A, 0x7B] ++ [0x7D, 0x7D, 0x0A] := by
    rfl
  obtain ⟨events,_,hkept,_⟩ := truncated_parses textDecoder_exact hrecords hstream (by decide)
  have hparsed := hkept fun _ => ⟨by rfl, by decide⟩
  have hresult := truncated_events textDecoder_exact hrecords hstream (by decide) hparsed
  refine ⟨_, hresult.1.trans (congrArg (List.map textDecoder.decode) ?_), hresult.2.trans ?_⟩
  · rfl
  · rfl

/-- The cut is forgiven where the tail begins behind the inner brace. -/
theorem cut_head_parses_nested : ∃ parsed : ParsedJsonlEvents Bytes,
    parseJsonlEvents textDecoder (retainedBytes ⟨cutFront, [0x7D, 0x7D, 0x0A], 2⟩).data true =
      .ok parsed :=
  (@cut_head_parses_iff Bytes textDecoder [nestedRecord] cutFront [0x3A, 0x7B] [0x7D, 0x7D, 0x0A]
    textDecoder_exact (by simp [nestedRecord_record]) (by rfl) (by decide)
    (by rfl)).mpr (by decide)

/-- A tail that begins with the inner brace fails the parse, although the head shows the cut. -/
theorem cut_tail_brace_raises : ¬ ∀ (V : Type) (json : StrictJson V), json.Exact →
    ∀ (records : List Bytes), (∀ record ∈ records, Record record) → ∀ (head dropped tail : Bytes),
      stream records = head ++ dropped ++ tail → dropped ≠ [] →
      divided head.length 0 records = 1 →
      ∃ parsed, parseJsonlEvents json (retainedBytes ⟨head, tail, dropped.length⟩).data true =
        .ok parsed := by
  intro hclaim
  have hrecords : ∀ record ∈ [nestedRecord], Record record := by simp [nestedRecord_record]
  have hstream : stream [nestedRecord] = cutFront ++ [0x3A] ++ cutRear := by rfl
  obtain ⟨parsed,hparsed⟩ := hclaim Bytes textDecoder textDecoder_exact [nestedRecord] hrecords
    cutFront [0x3A] cutRear hstream (by decide) (by rfl)
  obtain ⟨_,_,_,hrefused⟩ := truncated_parses textDecoder_exact hrecords hstream (by decide)
  obtain ⟨message,herror⟩ := hrefused fun h =>
    (h (by rfl)).2 (by rfl)
  rw [herror] at hparsed
  cases hparsed

end Example

end Whetstone.Optim.Codex
