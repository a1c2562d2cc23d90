import Mathlib.Data.List.TakeWhile
import Whetstone.Lib.Raise

/-! Python's format texts: the grammar of replacement fields, read character by character, and what
`str.format_map` makes of a text. Of a text whose fields are bare names the reading is known from
its segments. -/
namespace Whetstone.Lib.PyFormat

/- What stands between the braces of a replacement field. -/
structure Field where
  name : List Char
  conversion : Option Char
  spec : Option (List Char)
deriving DecidableEq

inductive Piece where
  | literal (c : Char)
  | field (field : Field)
deriving DecidableEq

/- Where the reader stands. Names and specifications are kept backwards while they are read. -/
inductive Reader where
  | outside
  | name (name : List Char) (indexed : Bool)
  | conversion (name : List Char)
  | converted (name : List Char) (conversion : Char)
  | spec (name : List Char) (conversion : Option Char) (spec : List Char) (depth : Nat)

/- The pieces of a format text in the order in which they are come to, up to the first error. -/
def read : Reader → List Char → List (Except String Piece)
  | .outside, [] => []
  | .outside, '{' :: '{' :: rest => .ok (.literal '{') :: read .outside rest
  | .outside, '}' :: '}' :: rest => .ok (.literal '}') :: read .outside rest
  | .outside, ['{'] => [.error "Single '\x7b' encountered in format string"]
  | .outside, '{' :: rest => read (.name [] false) rest
  | .outside, '}' :: _ => [.error "Single '\x7d' encountered in format string"]
  | .outside, c :: rest => .ok (.literal c) :: read .outside rest
  | .name _ _, [] => [.error "expected '\x7d' before end of string"]
  | .name name true, c :: rest => read (.name (c :: name) (c ≠ ']')) rest
  | .name _ false, '{' :: _ => [.error "unexpected '\x7b' in field name"]
  | .name name false, '}' :: rest =>
    .ok (.field ⟨name.reverse, none, none⟩) :: read .outside rest
  | .name name false, ':' :: rest => read (.spec name.reverse none [] 0) rest
  | .name name false, '!' :: rest => read (.conversion name.reverse) rest
  | .name name false, c :: rest => read (.name (c :: name) (c = '[')) rest
  | .conversion _, [] => [.error "end of string while looking for conversion specifier"]
  | .conversion name, c :: rest => read (.converted name c) rest
  | .converted _ _, [] => [.error "unmatched '\x7b' in format spec"]
  | .converted name c, '}' :: rest => .ok (.field ⟨name, some c, none⟩) :: read .outside rest
  | .converted name c, ':' :: rest => read (.spec name (some c) [] 0) rest
  | .converted _ _, _ :: _ => [.error "expected ':' after conversion specifier"]
  | .spec _ _ _ _, [] => [.error "unmatched '\x7b' in format spec"]
  | .spec name c spec depth, '{' :: rest => read (.spec name c ('{' :: spec) (depth + 1)) rest
  | .spec name c spec 0, '}' :: rest =>
    .ok (.field ⟨name, c, some spec.reverse⟩) :: read .outside rest
  | .spec name c spec (depth + 1), '}' :: rest => read (.spec name c ('}' :: spec) depth) rest
  | .spec name c spec depth, own :: rest => read (.spec name c (own :: spec) depth) rest

def pieces (text : List Char) : List (Except String Piece) := read .outside text

/- The part of a field's name in front of its first attribute or index. -/
def headName (name : List Char) : List Char := name.takeWhile fun c => c ≠ '.' ∧ c ≠ '['

/-! ### Formatting -/

inductive FormatError where
  | value (message : String)
  | key (name : String)
  | other (message : String)
deriving DecidableEq

inductive Value (Object : Type) where
  | text (value : String)
  | object (object : Object)

/-- What formatting needs of the objects of the language. No property is assumed. -/
class PyObjects where
  Object : Type
  isDecimal : Char → Bool
  access : Value Object → (path : List Char) → Except FormatError (Value Object)
  convert : Value Object → (conversion : Char) → Except FormatError (Value Object)
  format : Value Object → (spec : List Char) → Except FormatError (List Char)

abbrev PyValue [PyObjects] : Type := Value PyObjects.Object

section Formatting

variable [PyObjects]

/- A text is formatted as itself by an empty specification. -/
def formatValue : PyValue → (spec : List Char) → Except FormatError (List Char)
  | .text value, [] => .ok value.toList
  | value, spec => PyObjects.format value spec

def fieldValue (values : String → Option PyValue) (name : List Char) :
    Except FormatError PyValue :=
  let head := headName name
  if head.all PyObjects.isDecimal then .error (.value "Format string contains positional fields")
  else match values (String.ofList head) with
    | none => .error (.key (String.ofList head))
    | some value =>
      if name.drop head.length = [] then .ok value
      else PyObjects.access value (name.drop head.length)

/- The specification of a field is formatted itself, where it has braces. -/
def formatPiece (values : String → Option PyValue)
    (expand : List Char → Except FormatError (List Char)) :
    Except String Piece → Except FormatError (List Char)
  | .error message => .error (.value message)
  | .ok (.literal c) => .ok [c]
  | .ok (.field field) => do
    let value ← fieldValue values field.name
    let value ← match field.conversion with
      | none => pure value
      | some conversion => PyObjects.convert value conversion
    let spec := field.spec.getD []
    let spec ← if '{' ∈ spec then expand spec else pure spec
    formatValue value spec

def formatText (values : String → Option PyValue) :
    (depth : Nat) → List Char → Except FormatError (List Char)
  | 0, _ => .error (.value "Max string recursion exceeded")
  | depth + 1, text => do
    let parts ← (pieces text).mapM (formatPiece values (formatText values depth))
    return parts.flatten

/- `str.format_map`. -/
def formatMap (values : String → Option PyValue) (text : List Char) :
    Except FormatError (List Char) := formatText values 2 text

end Formatting

/-! ### Segments -/

/- A character, a brace that is written twice, or a field that is a bare name. -/
inductive Segment where
  | literal (c : Char)
  | escaped (c : Char)
  | placeholder (name : List Char)
deriving DecidableEq

namespace Segment

def source : Segment → List Char
  | literal c => [c]
  | escaped c => [c, c]
  | placeholder name => '{' :: name ++ ['}']

def piece : Segment → Piece
  | literal c => .literal c
  | escaped c => .literal c
  | placeholder name => .field ⟨name, none, none⟩

def filled (supplied : List Char → List Char) : Segment → List Char
  | literal c => [c]
  | escaped c => [c]
  | placeholder name => supplied name

def name? : Segment → Option (List Char)
  | placeholder name => some name
  | _ => none

end Segment

/- A name that no character of ends or changes the reading of a field. -/
def Bare (name : List Char) : Prop := ∀ c ∈ name, c ∉ ['{', '}', '[', '.', ':', '!']

def Segment.Reads : Segment → Prop
  | literal c => c ≠ '{' ∧ c ≠ '}'
  | escaped c => c = '{' ∨ c = '}'
  | placeholder name => Bare name

instance (name : List Char) : Decidable (Bare name) :=
  List.decidableBAll (fun c => c ∉ ['{', '}', '[', '.', ':', '!']) name

instance : DecidablePred Segment.Reads
  | .literal c => inferInstanceAs (Decidable (c ≠ '{' ∧ c ≠ '}'))
  | .escaped c => inferInstanceAs (Decidable (c = '{' ∨ c = '}'))
  | .placeholder name => inferInstanceAs (Decidable (Bare name))

def sourceOf (segments : List Segment) : List Char := segments.flatMap Segment.source

def namesOf (segments : List Segment) : List (List Char) := segments.filterMap Segment.name?

@[simp] theorem sourceOf_nil : sourceOf [] = [] := rfl

@[simp] theorem sourceOf_cons (segment : Segment) (rest : List Segment) :
    sourceOf (segment :: rest) = segment.source ++ sourceOf rest := rfl

@[simp] theorem sourceOf_append (xs ys : List Segment) :
    sourceOf (xs ++ ys) = sourceOf xs ++ sourceOf ys := List.flatMap_append

@[simp] theorem namesOf_append (xs ys : List Segment) :
    namesOf (xs ++ ys) = namesOf xs ++ namesOf ys := List.filterMap_append

theorem Bare.cons {c : Char} {name : List Char} (h : Bare (c :: name)) :
    (c ≠ '{' ∧ c ≠ '}' ∧ c ≠ '[' ∧ c ≠ '.' ∧ c ≠ ':' ∧ c ≠ '!') ∧ Bare name := by
  refine ⟨?_, fun own hown => h own (List.mem_cons_of_mem _ hown)⟩
  simpa using h c List.mem_cons_self

section Reading

attribute [local simp] read

theorem read_name_cons {c : Char} (hopen : c ≠ '{') (hclose : c ≠ '}') (hcolon : c ≠ ':')
    (hmark : c ≠ '!') (before rest : List Char) :
    read (.name before false) (c :: rest) = read (.name (c :: before) (c = '[')) rest := by
  rw [read]
  · exact hopen
  · exact hclose
  · exact hcolon
  · exact hmark

theorem read_name (name : List Char) (hname : Bare name) (before rest : List Char) :
    read (.name before false) (name ++ '}' :: rest) =
      .ok (.field ⟨before.reverse ++ name, none, none⟩) :: read .outside rest := by
  induction name generalizing before with
  | nil => simp [read]
  | cons c name ih =>
    obtain ⟨⟨hopen,hclose,hindex,_,hcolon,hmark⟩,hname⟩ := hname.cons
    rw [List.cons_append, read_name_cons hopen hclose hcolon hmark, decide_eq_false hindex,
      ih hname]
    simp

theorem read_placeholder {name : List Char} (hname : Bare name) (rest : List Char) :
    read .outside ('{' :: (name ++ '}' :: rest)) =
      .ok (.field ⟨name, none, none⟩) :: read .outside rest := by
  rw [read]
  · exact read_name name hname [] rest
  · intro more hsame
    cases name with
    | nil => simp at hsame
    | cons c name => exact hname.cons.1.1 (List.cons.inj hsame).1
  · simp

theorem read_literal {c : Char} (hopen : c ≠ '{') (hclose : c ≠ '}') (rest : List Char) :
    read .outside (c :: rest) = .ok (.literal c) :: read .outside rest := by
  rw [read]
  · exact fun _ hsame _ => hopen hsame
  · exact fun _ hsame _ => hclose hsame
  · exact fun hsame _ => hopen hsame
  · exact hopen
  · exact hclose

end Reading

/-- The source of segments is read as their pieces. -/
theorem pieces_source {segments : List Segment} (h : ∀ segment ∈ segments, segment.Reads) :
    pieces (sourceOf segments) = segments.map fun segment => .ok segment.piece := by
  rw [pieces]
  induction segments with
  | nil => rfl
  | cons segment rest ih =>
    have hrest := ih fun own hown => h own (List.mem_cons_of_mem _ hown)
    have hsegment := h segment List.mem_cons_self
    rw [sourceOf_cons, List.map_cons, ← hrest]
    cases segment with
    | literal c => exact read_literal hsegment.1 hsegment.2 _
    | escaped c => rcases hsegment with rfl | rfl <;> rfl
    | placeholder name =>
      rw [Segment.source, List.cons_append, List.cons_append, List.append_assoc]
      exact read_placeholder hsegment _

/-! ### Texts whose fields are bare names -/

/- A field of which nothing is known but its name. -/
def Field.Named (field : Field) : Prop := field.conversion = none ∧ field.spec = none

def Field.Bare (field : Field) : Prop := field.Named ∧ '.' ∉ field.name ∧ '[' ∉ field.name

/- A piece that was read without an error and is no field but a bare name. -/
def Plain (piece : Except String Piece) : Prop :=
  (∃ c, piece = .ok (.literal c)) ∨ ∃ field : Field, piece = .ok (.field field) ∧ field.Bare

theorem not_plain (message : String) : ¬ Plain (.error message) := by
  rintro (⟨c,hliteral⟩ | ⟨field,hfield,_⟩)
  · cases hliteral
  · cases hfield

/- What a reader inside a field has read of it already. -/
def Reader.Holds (field : Field) : Reader → Prop
  | .outside => True
  | .name before _ => field.Named → ∀ c ∈ before, c ∈ field.name
  | _ => ¬ field.Named

/- What is read next is an error, or the field that the reader is inside of. -/
def Opens (reader : Reader) (read : List (Except String Piece)) : Prop :=
  ∃ piece rest, read = piece :: rest ∧
    ∀ own, piece = .ok own → ∃ field, own = .field field ∧ reader.Holds field

theorem opens_error {reader : Reader} {message : String} {rest : List (Except String Piece)} :
    Opens reader (.error message :: rest) := ⟨_, _, rfl, fun _ h => (by cases h)⟩

theorem opens_field {reader : Reader} {field : Field} {rest : List (Except String Piece)}
    (h : reader.Holds field) : Opens reader (.ok (.field field) :: rest) :=
  ⟨_, _, rfl, fun _ hown => ⟨field, (Except.ok.inj hown).symm, h⟩⟩

theorem Opens.weaken {reader other : Reader} {read : List (Except String Piece)}
    (h : Opens other read) (hholds : ∀ field, other.Holds field → reader.Holds field) :
    Opens reader read := by
  obtain ⟨piece,rest,hread,hpiece⟩ := h
  refine ⟨piece, rest, hread, fun own hown => ?_⟩
  obtain ⟨field,hfield,hholds'⟩ := hpiece own hown
  exact ⟨field, hfield, hholds field hholds'⟩

/-- Inside a field a reader comes to an error or to the field. -/
theorem read_inside (text : List Char) (reader : Reader) (hreader : reader ≠ .outside) :
    Opens reader (read reader text) := by
  induction text generalizing reader with
  | nil =>
    cases reader with
    | outside => exact absurd rfl hreader
    | name before indexed => cases indexed <;> exact opens_error
    | conversion name => exact opens_error
    | converted name c => exact opens_error
    | spec name c spec depth => cases depth <;> exact opens_error
  | cons c rest ih =>
    cases reader with
    | outside => exact absurd rfl hreader
    | name before indexed =>
      have hlonger : ∀ other indexed field, (Reader.name (c :: before) indexed).Holds field →
          (Reader.name before other).Holds field :=
        fun _ _ field h hnamed own hown => h hnamed own (List.mem_cons_of_mem _ hown)
      cases indexed with
      | true =>
        rw [read]
        exact (ih _ (by simp)).weaken (hlonger _ _)
      | false =>
        by_cases hopen : c = '{'
        · rw [hopen]
          exact opens_error
        by_cases hclose : c = '}'
        · rw [hclose]
          exact opens_field fun _ own hown => List.mem_reverse.mpr hown
        by_cases hcolon : c = ':'
        · rw [hcolon]
          exact (ih (.spec before.reverse none [] 0) (by simp)).weaken
            fun _ hspec hnamed => absurd hnamed hspec
        by_cases hmark : c = '!'
        · rw [hmark]
          exact (ih (.conversion before.reverse) (by simp)).weaken
            fun _ hconversion hnamed => absurd hnamed hconversion
        rw [read_name_cons hopen hclose hcolon hmark]
        exact (ih _ (by simp)).weaken (hlonger _ _)
    | conversion name =>
      rw [read]
      exact (ih _ (by simp)).weaken fun _ h => h
    | converted name conversion =>
      by_cases hclose : c = '}'
      · rw [hclose]
        exact opens_field fun hnamed => (by cases hnamed.1)
      by_cases hcolon : c = ':'
      · rw [hcolon]
        exact (ih (.spec name (some conversion) [] 0) (by simp)).weaken fun _ h => h
      rw [read]
      · exact opens_error
      · exact hclose
      · exact hcolon
    | spec name conversion spec depth =>
      by_cases hopen : c = '{'
      · rw [hopen, read]
        exact (ih _ (by simp)).weaken fun _ h => h
      by_cases hclose : c = '}'
      · rw [hclose]
        cases depth with
        | zero => exact opens_field fun hnamed => (by cases hnamed.2)
        | succ depth =>
          rw [read]
          exact (ih _ (by simp)).weaken fun _ h => h
      rw [read]
      · exact (ih _ (by simp)).weaken fun _ h => h
      · exact hopen
      · exact fun _ hsame => absurd hsame hclose
      · exact fun _ _ hsame => absurd hsame hclose

/-- A plain piece is no error, and no field that a reader holds another thing of. -/
theorem Opens.holds {reader : Reader} {read : List (Except String Piece)} (h : Opens reader read)
    (hplain : ∀ piece ∈ read, Plain piece) : ∃ field, reader.Holds field ∧ field.Bare := by
  obtain ⟨piece,rest,rfl,hpiece⟩ := h
  rcases hplain piece List.mem_cons_self with ⟨c,hliteral⟩ | ⟨field,hfield,hbare⟩
  · obtain ⟨field,hfield,_⟩ := hpiece _ hliteral
    cases hfield
  · obtain ⟨own,hown,hholds⟩ := hpiece _ hfield
    cases hown
    exact ⟨field, hholds, hbare⟩

/-- A field that is a bare name is read to the brace behind it. -/
theorem read_bare (text before : List Char)
    (h : ∀ piece ∈ read (.name before false) text, Plain piece) :
    ∃ name rest, text = name ++ '}' :: rest ∧ Bare name ∧
      ∀ piece ∈ read .outside rest, Plain piece := by
  induction text generalizing before with
  | nil => exact absurd (h _ List.mem_cons_self) (not_plain _)
  | cons c text ih =>
    obtain ⟨first,hholds,hnamed,hdot,hindexed⟩ := (read_inside (c :: text) (.name before false)
      (by simp)).holds h
    by_cases hopen : c = '{'
    · rw [hopen] at h
      exact absurd (h _ List.mem_cons_self) (not_plain _)
    by_cases hclose : c = '}'
    · rw [hclose] at h
      exact ⟨[], text, by rw [hclose]; rfl, fun _ hmem => (by cases hmem), fun piece hmem =>
        h piece (List.mem_cons_of_mem _ hmem)⟩
    by_cases hcolon : c = ':'
    · rw [hcolon] at h
      obtain ⟨field,hspec,hbare⟩ := (read_inside text (.spec before.reverse none [] 0)
        (by simp)).holds h
      exact absurd hbare.1 hspec
    by_cases hmark : c = '!'
    · rw [hmark] at h
      obtain ⟨field,hconversion,hbare⟩ := (read_inside text (.conversion before.reverse)
        (by simp)).holds h
      exact absurd hbare.1 hconversion
    rw [read_name_cons hopen hclose hcolon hmark] at h
    obtain ⟨field,hread,hbare⟩ := (read_inside text (.name (c :: before) (c = '['))
      (by simp)).holds h
    have hmem := hread hbare.1 c List.mem_cons_self
    have hindex : c ≠ '[' := by
      rintro rfl
      exact hbare.2.2 hmem
    have hattribute : c ≠ '.' := by
      rintro rfl
      exact hbare.2.1 hmem
    rw [decide_eq_false hindex] at h
    obtain ⟨name,rest,rfl,hname,hrest⟩ := ih (c :: before) h
    refine ⟨c :: name, rest, rfl, fun own hown => ?_, hrest⟩
    cases List.mem_cons.mp hown with
    | inl hsame => rw [hsame]; simp [hopen, hclose, hcolon, hmark, hindex, hattribute]
    | inr hin => exact hname own hin

/-- A text of plain pieces is the source of segments. -/
theorem segments_of_plain (text : List Char) (h : ∀ piece ∈ pieces text, Plain piece) :
    ∃ segments, (∀ segment ∈ segments, Segment.Reads segment) ∧ text = sourceOf segments := by
  rw [pieces] at h
  -- a segment is at least one character long
  induction hlength : text.length using Nat.strongRecOn generalizing text with
  | _ length ih =>
    have hrest : ∀ (segment : Segment) (rest : List Char), segment.Reads →
        text = segment.source ++ rest → (∀ piece ∈ read .outside rest, Plain piece) →
        ∃ segments, (∀ segment ∈ segments, Segment.Reads segment) ∧ text = sourceOf segments := by
      intro segment rest hsegment htext hplain
      have hshorter : rest.length < length := by
        rw [← hlength, htext]
        cases segment <;> simp [Segment.source] <;> omega
      obtain ⟨segments,hreads,hsource⟩ := ih _ hshorter rest hplain rfl
      refine ⟨segment :: segments, List.forall_mem_cons.mpr ⟨hsegment, hreads⟩, ?_⟩
      rw [htext, hsource, sourceOf_cons]
    cases text with
    | nil => exact ⟨[], fun _ hmem => (by cases hmem), rfl⟩
    | cons c text =>
      by_cases hopen : c = '{'
      · subst hopen
        cases text with
        | nil => exact absurd (h _ List.mem_cons_self) (not_plain _)
        | cons next text =>
          by_cases hdouble : next = '{'
          · subst hdouble
            exact hrest (.escaped '{') text (.inl rfl) rfl fun piece hmem =>
              h piece (List.mem_cons_of_mem _ hmem)
          · have hfield : read .outside ('{' :: next :: text) =
                read (.name [] false) (next :: text) := by
              rw [read]
              · exact fun _ hsame => hdouble (List.cons.inj hsame).1
              · simp
            rw [hfield] at h
            obtain ⟨name,rest,htext,hname,hplain⟩ := read_bare _ _ h
            refine hrest (.placeholder name) rest hname ?_ hplain
            rw [htext, Segment.source]
            simp
      by_cases hclose : c = '}'
      · subst hclose
        cases text with
        | nil => exact absurd (h _ List.mem_cons_self) (not_plain _)
        | cons next text =>
          by_cases hdouble : next = '}'
          · subst hdouble
            exact hrest (.escaped '}') text (.inr rfl) rfl fun piece hmem =>
              h piece (List.mem_cons_of_mem _ hmem)
          · have hsingle : read .outside ('}' :: next :: text) =
                [.error "Single '\x7d' encountered in format string"] := by
              rw [read]
              exact fun _ hsame => hdouble (List.cons.inj hsame).1
            rw [hsingle] at h
            exact absurd (h _ List.mem_cons_self) (not_plain _)
      rw [read_literal hopen hclose] at h
      exact hrest (.literal c) text ⟨hopen, hclose⟩ rfl fun piece hmem =>
        h piece (List.mem_cons_of_mem _ hmem)

theorem plain_piece {segment : Segment} (h : segment.Reads) : Plain (.ok segment.piece) := by
  cases segment with
  | literal c => exact .inl ⟨c, rfl⟩
  | escaped c => exact .inl ⟨c, rfl⟩
  | placeholder name =>
    refine .inr ⟨⟨name, none, none⟩, rfl, ⟨rfl, rfl⟩, fun hmem => ?_, fun hmem => ?_⟩
    · exact h _ hmem (by decide)
    · exact h _ hmem (by decide)

/-- A text is the source of segments exactly if every piece of it is plain. -/
theorem plain_iff (text : List Char) : (∀ piece ∈ pieces text, Plain piece) ↔
    ∃ segments, (∀ segment ∈ segments, Segment.Reads segment) ∧ text = sourceOf segments := by
  refine ⟨segments_of_plain text, ?_⟩
  rintro ⟨segments,hreads,rfl⟩ piece hmem
  rw [pieces_source hreads] at hmem
  obtain ⟨segment,hsegment,rfl⟩ := List.mem_map.mp hmem
  exact plain_piece (hreads segment hsegment)

/-! ### Filling in -/

theorem headName_bare {name : List Char} (h : Bare name) : headName name = name := by
  rw [headName, List.takeWhile_eq_self_iff]
  intro c hmem
  have hc := h c hmem
  simp only [List.mem_cons, List.not_mem_nil, or_false, not_or] at hc
  simp [hc]

section Filling

variable [PyObjects]

/-- A text of segments is formatted by filling its names in, and what is filled in is not read
again. -/
theorem formatMap_source {segments : List Segment} (h : ∀ segment ∈ segments, segment.Reads)
    (values : String → Option PyValue) (supplied : List Char → List Char)
    (hvalues : ∀ name ∈ namesOf segments, name.all PyObjects.isDecimal = false ∧
      values (String.ofList name) = some (.text (String.ofList (supplied name)))) :
    formatMap values (sourceOf segments) = .ok (segments.flatMap (Segment.filled supplied)) := by
  have hfilled : ∀ segment ∈ segments, formatPiece values (formatText values 1)
      (.ok segment.piece) = .ok (segment.filled supplied) := by
    intro segment hmem
    cases segment with
    | literal c => rfl
    | escaped c => rfl
    | placeholder name =>
      obtain ⟨hdecimal,hvalue⟩ := hvalues name (List.mem_filterMap.mpr ⟨_, hmem, rfl⟩)
      have hfield : fieldValue values name =
          .ok (.text (String.ofList (supplied name))) := by
        rw [fieldValue, headName_bare (h _ hmem), if_neg (by simp [hdecimal]), hvalue]
        simp
      have hplain : '{' ∉ (none : Option (List Char)).getD [] := by simp
      simp only [Segment.piece, formatPiece, hfield, ok_bind, if_neg hplain]
      exact congrArg Except.ok String.toList_ofList
  rw [formatMap, formatText, pieces_source h, List.mapM_map]
  have hparts : segments.mapM (formatPiece values (formatText values 1) ∘
      fun segment : Segment => .ok segment.piece) =
        .ok (segments.map (Segment.filled supplied)) := mapM_ok _ _ segments hfilled
  rw [hparts, ok_bind]
  rfl

end Filling

/-! ### Segments are determined by their source -/

theorem source_ne_nil (segment : Segment) : segment.source ≠ [] := by
  cases segment <;> simp [Segment.source]

theorem first_unique {x y : Segment} (hx : x.Reads) (hy : y.Reads) {xs ys : List Char}
    (h : x.source ++ xs = y.source ++ ys) : x = y := by
  have hbare : ∀ {c : Char} {name rest more : List Char}, Bare name → c ∈ ['{', '}'] →
      '{' :: name ++ ['}'] ++ more ≠ c :: c :: rest := by
    intro c name rest more hname hc hsame
    obtain ⟨hfirst,hsecond⟩ := List.cons.inj hsame
    cases name with
    | nil =>
      obtain ⟨hbrace,_⟩ := List.cons.inj hsecond
      rw [← hfirst] at hbrace
      exact absurd hbrace (by decide)
    | cons d name =>
      obtain ⟨hbrace,_⟩ := List.cons.inj hsecond
      exact hname.cons.1.1 (hbrace.trans hfirst.symm)
  cases x with
  | literal c =>
    cases y with
    | literal d => rw [(List.cons.inj h).1]
    | escaped d =>
      rcases hy with rfl | rfl
      · exact absurd (List.cons.inj h).1 hx.1
      · exact absurd (List.cons.inj h).1 hx.2
    | placeholder name => exact absurd (List.cons.inj h).1 hx.1
  | escaped c =>
    have hc : c ∈ ['{', '}'] := by simpa [Segment.Reads] using hx
    cases y with
    | literal d =>
      rcases hx with rfl | rfl
      · exact absurd (List.cons.inj h).1.symm hy.1
      · exact absurd (List.cons.inj h).1.symm hy.2
    | escaped d => rw [(List.cons.inj h).1]
    | placeholder name => exact absurd h.symm (hbare hy hc)
  | placeholder name =>
    cases y with
    | literal d => exact absurd (List.cons.inj h).1.symm hy.1
    | escaped d => exact absurd h (hbare hx (by simpa [Segment.Reads] using hy))
    | placeholder other =>
      have hname : ∀ (own rest : List Char), Bare own →
          (own ++ '}' :: rest).takeWhile (· ≠ '}') = own := by
        intro own rest hown
        have hall : ∀ c ∈ own, decide (c ≠ '}') = true := fun c hmem =>
          decide_eq_true fun hclose => hown c hmem (by rw [hclose]; decide)
        rw [List.takeWhile_append_of_pos hall]
        simp
      simp only [Segment.source, List.cons_append, List.append_assoc, List.nil_append,
        List.cons.injEq, true_and] at h
      rw [← hname name xs hx, h, hname other ys hy]

/-- A text has one reading at most. -/
theorem sourceOf_injective {xs ys : List Segment} (hxs : ∀ segment ∈ xs, segment.Reads)
    (hys : ∀ segment ∈ ys, segment.Reads) (h : sourceOf xs = sourceOf ys) : xs = ys := by
  induction xs generalizing ys with
  | nil =>
    cases ys with
    | nil => rfl
    | cons y ys =>
      rw [sourceOf_nil, sourceOf_cons] at h
      exact absurd (List.append_eq_nil_iff.mp h.symm).1 (source_ne_nil y)
  | cons x xs ih =>
    cases ys with
    | nil =>
      rw [sourceOf_nil, sourceOf_cons] at h
      exact absurd (List.append_eq_nil_iff.mp h).1 (source_ne_nil x)
    | cons y ys =>
      rw [List.forall_mem_cons] at hxs hys
      rw [sourceOf_cons, sourceOf_cons] at h
      obtain rfl := first_unique hxs.1 hys.1 h
      rw [ih hxs.2 hys.2 (List.append_cancel_left h)]

end Whetstone.Lib.PyFormat
