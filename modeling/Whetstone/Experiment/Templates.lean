import Mathlib.Data.List.Infix
import Whetstone.Experiment.Candidate
import Whetstone.Lib.PyFormat

/-! Rendering a template under its contract. Whatever the kind of the contract, a template is a list
of segments, of which the scanner reports the names and rendering fills them in. -/
namespace Whetstone.Experiment
open Whetstone.Core Whetstone.Lib Whetstone.Lib.PyFormat

/- `str.replace` of a text that is not empty. -/
def replaceText (part value : List Char) : List Char → (skip : Nat) → List Char
  | [], _ => []
  | _ :: rest, skip + 1 => replaceText part value rest skip
  | c :: rest, 0 =>
    if part.isPrefixOf (c :: rest) then value ++ replaceText part value rest (part.length - 1)
    else c :: replaceText part value rest 0

section Rendering

variable [PyIdentifiers] [PyObjects]

/-- What the language promises of identifiers. -/
class LawfulIdentifiers : Prop where
  nonempty : PyIdentifiers.isIdentifier "" = false
  ascii : ∀ name, PyIdentifiers.isIdentifier name = true → ∀ c ∈ name.toList, c.toNat < 128 →
    c.isAlphanum = true ∨ c = '_'
  first : ∀ name, PyIdentifiers.isIdentifier name = true → ∀ c ∈ name.toList.head?,
    PyObjects.isDecimal c = false

namespace TemplateRenderContract

def isText : Option PyValue → Bool
  | some (.text _) => true
  | _ => false

/- The values of the observed fields, where each is a text. -/
def renderValues (observed : List String) (values : String → Option PyValue) (field : String) :
    Option PyValue :=
  if field ∈ observed then values field else none

def replaceValue (values : String → Option PyValue) (field : String) : List Char :=
  match values field with
  | some (.text value) => value.toList
  | _ => []

def requireTexts (observed : List String) (values : String → Option PyValue) :
    Except FormatError Unit := do
  let missing := (observed.filter fun field => (values field).isNone).eraseDups
  raiseIf (missing ≠ []) (.value ("render values are missing fields: " ++ joined missing))
  let nonString := observed.eraseDups.filter fun field => isText (values field) = false
  raiseIf (nonString ≠ []) (.value ("render values must be strings: " ++ joined nonString))

/- The last part of `render`, where every observed field has its text. -/
def substitute (contract : TemplateRenderContract) (observed : List String) (text : String)
    (values : String → Option PyValue) : Except FormatError String :=
  if contract.kind = .literalReplaceV1 then
    if observed = [] then .ok text
    else match contract.availableFields with
      | [] => .error (.other "tuple index out of range")
      | field :: _ => .ok (String.ofList (replaceText ('{' :: field.toList ++ ['}'])
          (replaceValue values field) text.toList 0))
  else (formatMap values text.toList).map String.ofList

def render (contract : TemplateRenderContract) (template : Option Json)
    (values : String → Option PyValue) : Except FormatError String := do
  let observed ← (contract.validateTemplate template).mapError .value
  let text ← (validateTemplateText template).mapError .value
  if contract.kind = .literalBodyV1 then return text
  requireTexts observed values
  contract.substitute observed text (renderValues observed values)

end TemplateRenderContract

end Rendering

/-! ### Format templates -/

section Scanning

open TemplateRenderContract

variable [PyIdentifiers]

attribute [local simp] scanFields

theorem placeholderName_ok (name : List Char) (field : String) :
    placeholderName name = .ok field ↔
      field = String.ofList name ∧ PyIdentifiers.isIdentifier field = true ∧ '{' ∉ name := by
  simp only [placeholderName, raiseIf_bind_eq_ok]
  constructor
  · rintro ⟨hopen,hidentifier,hfield⟩
    cases hfield
    exact ⟨rfl, by simpa using hidentifier, hopen⟩
  · rintro ⟨rfl,hidentifier,hopen⟩
    exact ⟨hopen, by simp [hidentifier], rfl⟩

theorem scan_name (name : List Char) (hname : '}' ∉ name) (before rest : List Char) :
    scanFields (some before) (name ++ '}' :: rest) = (do
      let field ← placeholderName (before.reverse ++ name)
      let fields ← scanFields none rest
      return field :: fields) := by
  induction name generalizing before with
  | nil => simp [scanFields]
  | cons c name ih =>
    rw [List.mem_cons, not_or] at hname
    have hstep : scanFields (some before) (c :: (name ++ '}' :: rest)) =
        scanFields (some (c :: before)) (name ++ '}' :: rest) := by
      rw [scanFields]
      exact fun hsame => hname.1 hsame.symm
    rw [List.cons_append, hstep, ih hname.2]
    simp

theorem scan_name_closes (text before : List Char) (fields : List String)
    (h : scanFields (some before) text = .ok fields) :
    ∃ name rest, text = name ++ '}' :: rest ∧ '}' ∉ name := by
  induction text generalizing before with
  | nil => cases h
  | cons c text ih =>
    by_cases hclose : c = '}'
    · exact ⟨[], text, by rw [hclose]; rfl, by simp⟩
    · rw [scanFields] at h
      · obtain ⟨name,rest,rfl,hname⟩ := ih _ h
        exact ⟨c :: name, rest, rfl, by simp [Ne.symm hclose, hname]⟩
      · exact hclose

theorem scan_open {next : Char} (hnext : next ≠ '{') (text : List Char) :
    scanFields none ('{' :: next :: text) = scanFields (some []) (next :: text) := by
  rw [scanFields]
  exact fun _ hsame => hnext (List.cons.inj hsame).1

theorem scan_literal {c : Char} (hopen : c ≠ '{') (hclose : c ≠ '}') (rest : List Char) :
    scanFields none (c :: rest) = scanFields none rest := by
  rw [scanFields]
  · exact fun _ hsame _ => hopen hsame
  · exact fun _ hsame _ => hclose hsame
  · exact hopen
  · exact hclose

/-- The scanner reports the names of the segments. -/
theorem scanFields_source {segments : List Segment} (h : ∀ segment ∈ segments, segment.Reads)
    (hnames : ∀ name ∈ namesOf segments, PyIdentifiers.isIdentifier (String.ofList name) = true) :
    scanFields none (sourceOf segments) = .ok ((namesOf segments).map String.ofList) := by
  induction segments with
  | nil => rfl
  | cons segment rest ih =>
    rw [List.forall_mem_cons] at h
    have hrest := ih h.2 fun name hmem => hnames name (by
      rw [namesOf, List.filterMap_cons]
      split
      · exact hmem
      · exact List.mem_cons_of_mem _ hmem)
    rw [sourceOf_cons]
    cases segment with
    | literal c =>
      rw [Segment.source, List.singleton_append, scan_literal h.1.1 h.1.2, hrest]
      rfl
    | escaped c =>
      rcases h.1 with rfl | rfl
      · exact hrest
      · exact hrest
    | placeholder name =>
      have hname := hnames name (List.mem_filterMap.mpr ⟨_, List.mem_cons_self, rfl⟩)
      have hbraces : '{' ∉ name ∧ '}' ∉ name :=
        ⟨fun hmem => h.1 _ hmem (by decide), fun hmem => h.1 _ hmem (by decide)⟩
      have hopen : scanFields none ((Segment.placeholder name).source ++ sourceOf rest) =
          scanFields (some []) (name ++ '}' :: sourceOf rest) := by
        have hsource : (Segment.placeholder name).source ++ sourceOf rest =
            '{' :: (name ++ '}' :: sourceOf rest) := by simp [Segment.source]
        rw [hsource]
        cases name with
        | nil => rfl
        | cons c name => exact scan_open (fun hsame => hbraces.1 (by simp [hsame])) _
      rw [hopen, scan_name name hbraces.2, hrest]
      have hfield := (placeholderName_ok name _).mpr ⟨rfl, hname, hbraces.1⟩
      rw [List.reverse_nil, List.nil_append, hfield]
      rfl

variable [PyObjects] [LawfulIdentifiers]

theorem identifier_bare {name : List Char}
    (h : PyIdentifiers.isIdentifier (String.ofList name) = true) : Bare name := by
  intro c hmem hspecial
  have hascii := LawfulIdentifiers.ascii _ h c (by rwa [String.toList_ofList])
  simp only [List.mem_cons, List.not_mem_nil, or_false] at hspecial
  rcases hspecial with rfl | rfl | rfl | rfl | rfl | rfl <;>
    exact absurd (hascii (by decide)) (by decide)

theorem identifier_unbroken {name : String} (h : PyIdentifiers.isIdentifier name = true) :
    '\n' ∉ name.toList := by
  intro hmem
  exact absurd (LawfulIdentifiers.ascii _ h _ hmem (by decide)) (by decide)

theorem identifier_not_decimal {name : List Char}
    (h : PyIdentifiers.isIdentifier (String.ofList name) = true) :
    name.all PyObjects.isDecimal = false := by
  cases name with
  | nil =>
    rw [show String.ofList [] = "" from rfl, LawfulIdentifiers.nonempty] at h
    cases h
  | cons c name =>
    have hfirst := LawfulIdentifiers.first _ h c (by simp)
    simp [hfirst]

/-- What the scanner accepts is read as segments. -/
theorem segments_of_scan (text : List Char) (fields : List String)
    (h : scanFields none text = .ok fields) :
    ∃ segments, (∀ segment ∈ segments, Segment.Reads segment) ∧ text = sourceOf segments ∧
      fields = (namesOf segments).map String.ofList ∧
      ∀ field ∈ fields, PyIdentifiers.isIdentifier field = true := by
  induction hlength : text.length using Nat.strongRecOn generalizing text fields with
  | _ length ih =>
    have hrest : ∀ (segment : Segment) (rest : List Char) (more : List String), segment.Reads →
        text = segment.source ++ rest → scanFields none rest = .ok more →
        fields = (segment.name?.map String.ofList).toList ++ more →
        (∀ field ∈ (segment.name?.map String.ofList).toList,
          PyIdentifiers.isIdentifier field = true) →
        ∃ segments, (∀ segment ∈ segments, Segment.Reads segment) ∧ text = sourceOf segments ∧
          fields = (namesOf segments).map String.ofList ∧
          ∀ field ∈ fields, PyIdentifiers.isIdentifier field = true := by
      intro segment rest more hsegment htext hmore hfields hidentifier
      have hshorter : rest.length < length := by
        rw [← hlength, htext]
        cases segment <;> simp [Segment.source] <;> omega
      obtain ⟨segments,hreads,hsource,hnames,hidentifiers⟩ := ih _ hshorter rest more hmore rfl
      refine ⟨segment :: segments, List.forall_mem_cons.mpr ⟨hsegment, hreads⟩, ?_, ?_, ?_⟩
      · rw [htext, hsource, sourceOf_cons]
      · rw [hfields, hnames]
        cases segment <;> rfl
      · intro field hmem
        rw [hfields, List.mem_append] at hmem
        exact hmem.elim (hidentifier field) (hidentifiers field)
    cases text with
    | nil =>
      cases h
      exact ⟨[], by simp, rfl, rfl, by simp⟩
    | cons c text =>
      by_cases hopen : c = '{'
      · subst hopen
        cases text with
        | nil => cases h
        | cons next text =>
          by_cases hdouble : next = '{'
          · subst hdouble
            exact hrest (.escaped '{') text fields (.inl rfl) rfl h rfl (by simp [Segment.name?])
          · rw [scan_open hdouble] at h
            obtain ⟨name,rest,htext,hname⟩ := scan_name_closes _ _ _ h
            rw [htext, scan_name name hname, List.reverse_nil, List.nil_append, bind_eq_ok] at h
            obtain ⟨field,hfield,hfields⟩ := h
            obtain ⟨more,hmore,hfields⟩ := (bind_eq_ok _ _ _).mp hfields
            obtain ⟨rfl,hidentifier,_⟩ := (placeholderName_ok _ _).mp hfield
            cases hfields
            exact hrest (.placeholder name) rest more (identifier_bare hidentifier)
              (by simp [htext, Segment.source]) hmore rfl
              (by simpa [Segment.name?] using hidentifier)
      by_cases hclose : c = '}'
      · subst hclose
        cases text with
        | nil => cases h
        | cons next text =>
          by_cases hdouble : next = '}'
          · subst hdouble
            exact hrest (.escaped '}') text fields (.inr rfl) rfl h rfl (by simp [Segment.name?])
          · rw [scanFields] at h
            · cases h
            · exact fun _ hsame => hdouble (List.cons.inj hsame).1
      rw [scan_literal hopen hclose] at h
      exact hrest (.literal c) text fields ⟨hopen, hclose⟩ rfl h rfl (by simp [Segment.name?])

end Scanning

/-! ### Literal templates -/

section Replacing

variable (part value : List Char)

attribute [local simp] countText replaceText

theorem count_skip (text : List Char) (skip : Nat) :
    countText part text skip = countText part (text.drop skip) 0 := by
  induction text generalizing skip with
  | nil => simp [countText]
  | cons c rest ih =>
    cases skip with
    | zero => rfl
    | succ skip => rw [countText, ih, List.drop_succ_cons]

theorem replace_skip (text : List Char) (skip : Nat) :
    replaceText part value text skip = replaceText part value (text.drop skip) 0 := by
  induction text generalizing skip with
  | nil => simp [replaceText]
  | cons c rest ih =>
    cases skip with
    | zero => rfl
    | succ skip => rw [replaceText, ih, List.drop_succ_cons]

/-- At an occurrence the scan goes on behind it. -/
theorem count_part (hpart : part ≠ []) (rest : List Char) :
    countText part (part ++ rest) 0 = countText part rest 0 + 1 := by
  cases part with
  | nil => exact absurd rfl hpart
  | cons c part =>
    have hhere : (c :: part).isPrefixOf (c :: part ++ rest) = true :=
      List.isPrefixOf_iff_prefix.mpr (List.prefix_append _ _)
    rw [List.cons_append] at hhere ⊢
    rw [countText, if_pos hhere, count_skip]
    simp

theorem replace_part (hpart : part ≠ []) (rest : List Char) :
    replaceText part value (part ++ rest) 0 = value ++ replaceText part value rest 0 := by
  cases part with
  | nil => exact absurd rfl hpart
  | cons c part =>
    have hhere : (c :: part).isPrefixOf (c :: part ++ rest) = true :=
      List.isPrefixOf_iff_prefix.mpr (List.prefix_append _ _)
    rw [List.cons_append] at hhere ⊢
    rw [replaceText, if_pos hhere, replace_skip]
    simp

theorem count_other {c : Char} {rest : List Char} (h : ¬ part <+: c :: rest) :
    countText part (c :: rest) 0 = countText part rest 0 := by
  rw [countText, if_neg (fun hhere => h (List.isPrefixOf_iff_prefix.mp hhere))]

theorem replace_other {c : Char} {rest : List Char} (h : ¬ part <+: c :: rest) :
    replaceText part value (c :: rest) 0 = c :: replaceText part value rest 0 := by
  rw [replaceText, if_neg (fun hhere => h (List.isPrefixOf_iff_prefix.mp hhere))]

end Replacing

def tokenOf (field : List Char) : List Char := '{' :: field ++ ['}']

/- The segments of a template in which one token stands for a field: it is taken wherever it
   begins. -/
inductive Replaces (field : List Char) : List Segment → Prop where
  | nil : Replaces field []
  | literal {c : Char} {rest : List Segment} : ¬ tokenOf field <+: c :: sourceOf rest →
      Replaces field rest → Replaces field (.literal c :: rest)
  | placeholder {rest : List Segment} : Replaces field rest →
      Replaces field (.placeholder field :: rest)

section Tokens

variable (field : List Char)

theorem replaces_exists (text : List Char) :
    ∃ segments, Replaces field segments ∧ text = sourceOf segments := by
  induction hlength : text.length using Nat.strongRecOn generalizing text with
  | _ length ih =>
    cases text with
    | nil => exact ⟨[], .nil, rfl⟩
    | cons c rest =>
      by_cases hhere : tokenOf field <+: c :: rest
      · obtain ⟨more,hmore⟩ := hhere
        have hshorter : more.length < length := by
          rw [← hlength, ← hmore]
          simp only [tokenOf, List.length_append, List.length_cons]
          omega
        obtain ⟨segments,hsegments,hsource⟩ := ih _ hshorter more rfl
        refine ⟨.placeholder field :: segments, .placeholder hsegments, ?_⟩
        rw [← hmore, hsource, sourceOf_cons]
        rfl
      · obtain ⟨segments,hsegments,hsource⟩ := ih _ (by rw [← hlength]; simp) rest rfl
        refine ⟨.literal c :: segments, .literal (by rwa [← hsource]) hsegments, ?_⟩
        rw [hsource, sourceOf_cons]
        rfl

variable {field} {segments : List Segment}

theorem Replaces.names (h : Replaces field segments) :
    namesOf segments = List.replicate (countText (tokenOf field) (sourceOf segments) 0) field := by
  induction h with
  | nil => rfl
  | literal hother _ ih =>
    rw [sourceOf_cons, Segment.source, List.singleton_append, count_other _ hother, ← ih]
    rfl
  | placeholder _ ih =>
    rw [sourceOf_cons, show (Segment.placeholder field).source = tokenOf field from rfl,
      count_part _ (by simp [tokenOf]), List.replicate_succ, ← ih]
    rfl

theorem Replaces.replaced (h : Replaces field segments) (supplied : List Char → List Char) :
    replaceText (tokenOf field) (supplied field) (sourceOf segments) 0 =
      segments.flatMap (Segment.filled supplied) := by
  induction h with
  | nil => rfl
  | literal hother _ ih =>
    rw [sourceOf_cons, Segment.source, List.singleton_append, replace_other _ _ hother, ih]
    rfl
  | placeholder _ ih =>
    rw [sourceOf_cons, show (Segment.placeholder field).source = tokenOf field from rfl,
      replace_part _ _ (by simp [tokenOf]), ih]
    rfl

/-- Without a name nothing is filled in. -/
theorem Replaces.untouched (h : Replaces field segments) (hnone : namesOf segments = [])
    (supplied : List Char → List Char) :
    segments.flatMap (Segment.filled supplied) = sourceOf segments := by
  induction h with
  | nil => rfl
  | literal _ _ ih =>
    rw [List.flatMap_cons, ih hnone, sourceOf_cons]
    rfl
  | placeholder => cases hnone

/-- Where the token begins is told by the text. -/
theorem Replaces.unique {other : List Segment} (h : Replaces field segments)
    (hother : Replaces field other) (hsource : sourceOf segments = sourceOf other) :
    segments = other := by
  induction h generalizing other with
  | nil =>
    cases hother with
    | nil => rfl
    | literal => cases hsource
    | placeholder => cases hsource
  | @literal c rest hfree hrest ih =>
    cases hother with
    | nil => cases hsource
    | literal _ hmore =>
      obtain ⟨rfl,htail⟩ := List.cons.inj hsource
      rw [ih hmore htail]
    | @placeholder more hmore => exact absurd ⟨sourceOf more, hsource.symm⟩ hfree
  | @placeholder rest hrest ih =>
    cases hother with
    | nil => cases hsource
    | literal hfree _ => exact absurd ⟨sourceOf rest, hsource⟩ hfree
    | placeholder hmore => rw [ih hmore (List.append_cancel_left hsource)]

end Tokens

def literals (text : List Char) : List Segment := text.map .literal

theorem sourceOf_literals (text : List Char) : sourceOf (literals text) = text := by
  induction text with
  | nil => rfl
  | cons c rest ih =>
    rw [literals, List.map_cons, sourceOf_cons, ← literals, ih]
    rfl

theorem namesOf_literals (text : List Char) : namesOf (literals text) = [] := by
  induction text with
  | nil => rfl
  | cons c rest ih => exact ih

theorem filled_literals (supplied : List Char → List Char) (text : List Char) :
    (literals text).flatMap (Segment.filled supplied) = text := by
  induction text with
  | nil => rfl
  | cons c rest ih =>
    rw [literals, List.map_cons, List.flatMap_cons, ← literals, ih]
    rfl

section Lines

variable {token xs ys : List Char}

/-- A token does not reach over a line feed. -/
theorem prefix_of_newline (hnewline : '\n' ∉ token) (h : token <+: xs ++ '\n' :: ys) :
    token <+: xs := by
  obtain ⟨rest,hrest⟩ := h
  rcases List.append_eq_append_iff.mp hrest with ⟨more,hxs,_⟩ | ⟨beyond,htoken,hfeed⟩
  · exact ⟨more, hxs.symm⟩
  · cases beyond with
    | nil => exact ⟨[], by rw [htoken, List.append_nil, List.append_nil]⟩
    | cons c beyond =>
      obtain ⟨rfl,_⟩ := List.cons.inj hfeed
      exact absurd (by rw [htoken]; simp) hnewline

theorem infix_of_newline (hnewline : '\n' ∉ token) (h : token <:+: xs ++ '\n' :: ys) :
    token <:+: xs ∨ token <:+: ys := by
  rcases List.infix_append_iff.mp h with hxs | hys | ⟨own,over',rfl,hown,hover⟩
  · exact .inl hxs
  · rcases List.infix_cons_iff.mp hys with hprefix | hys
    · rcases List.prefix_cons_iff.mp hprefix with rfl | ⟨rest,rfl,_⟩
      · exact .inl List.nil_infix
      · exact absurd List.mem_cons_self hnewline
    · exact .inr hys
  · rcases List.prefix_cons_iff.mp hover with rfl | ⟨rest,rfl,_⟩
    · rw [List.append_nil]
      exact .inl hown.isInfix
    · exact absurd (by simp) hnewline

/-- A token begins with a brace, so that none begins in a text without one. -/
theorem infix_of_plain {field : List Char} (hxs : '{' ∉ xs) (h : tokenOf field <:+: xs ++ ys) :
    tokenOf field <:+: ys := by
  rcases List.infix_append_iff.mp h with hin | hys | ⟨own,over',htoken,hown,hover⟩
  · exact absurd (hin.subset List.mem_cons_self) hxs
  · exact hys
  · cases own with
    | nil =>
      rw [htoken, List.nil_append]
      exact hover.isInfix
    | cons c own =>
      obtain ⟨rfl,_⟩ := List.cons.inj htoken
      exact absurd (hown.subset List.mem_cons_self) hxs

end Lines

section Adjacent

variable {field text : List Char} {segments more : List Segment}

theorem replaces_literals (h : ¬ tokenOf field <:+: text) : Replaces field (literals text) := by
  induction text with
  | nil => exact .nil
  | cons c rest ih =>
    rw [List.infix_cons_iff, not_or] at h
    refine .literal ?_ (ih h.2)
    rw [← literals, sourceOf_literals]
    exact h.1

/-- A line feed behind a template keeps its tokens where they are. -/
theorem Replaces.append (h : Replaces field segments) (hnewline : '\n' ∉ tokenOf field)
    {rest : List Char} (hrest : sourceOf more = '\n' :: rest) (hmore : Replaces field more) :
    Replaces field (segments ++ more) := by
  induction h with
  | nil => exact hmore
  | @literal c before hfree _ ih =>
    refine .literal (fun hprefix => hfree ?_) ih
    change tokenOf field <+: c :: sourceOf (before ++ more) at hprefix
    rw [sourceOf_append, hrest, ← List.cons_append] at hprefix
    exact prefix_of_newline hnewline hprefix
  | placeholder _ ih => exact .placeholder ih

/-- A text without a token that ends in a line feed adds none to a template behind it. -/
theorem Replaces.behind (hmore : Replaces field more) (hnewline : '\n' ∉ tokenOf field)
    (h : ¬ tokenOf field <:+: text) : Replaces field (literals (text ++ ['\n']) ++ more) := by
  induction text with
  | nil =>
    refine .literal (fun hprefix => ?_) hmore
    have hfeed := (List.cons_prefix_cons.mp hprefix).1
    exact absurd hfeed (by decide)
  | cons c rest ih =>
    rw [List.infix_cons_iff, not_or] at h
    refine .literal (fun hprefix => h.1 ?_) (ih h.2)
    have hsource : sourceOf (literals (rest ++ ['\n']) ++ more) =
        rest ++ '\n' :: sourceOf more := by
      rw [sourceOf_append, sourceOf_literals]
      simp
    change tokenOf field <+: c :: sourceOf (literals (rest ++ ['\n']) ++ more) at hprefix
    rw [hsource, ← List.cons_append] at hprefix
    exact prefix_of_newline hnewline hprefix

end Adjacent

/-! ### The segments of a template -/

/- How a template is read under a contract. -/
def TemplateRenderContract.Reads (contract : TemplateRenderContract) (segments : List Segment) :
    Prop :=
  match contract.kind with
  | .pythonFormatV1 => ∀ segment ∈ segments, segment.Reads
  | .literalReplaceV1 => ∃ field ∈ contract.availableFields, Replaces field.toList segments
  | .literalBodyV1 => ∃ text, segments = literals text

section Contracts

open TemplateRenderContract

variable [PyIdentifiers] {contract : TemplateRenderContract} {segments : List Segment}

theorem validate_single (h : contract.validate = .ok ()) (hkind : contract.kind = .literalReplaceV1) :
    ∃ field, contract.availableFields = [field] := by
  simp only [validate, raiseIf_bind_eq_ok, raiseIf_eq_ok] at h
  obtain ⟨_,_,_,hsingle,_⟩ := h
  rw [not_and, not_not] at hsingle
  exact List.length_eq_one_iff.mp (hsingle hkind)

theorem validate_identifier (h : contract.validate = .ok ()) :
    ∀ field ∈ contract.availableFields, PyIdentifiers.isIdentifier field = true := by
  simp only [validate, raiseIf_bind_eq_ok, not_not] at h
  intro field hmem
  have hfield := List.filter_eq_nil_iff.mp h.1 field (List.mem_append_left _ hmem)
  simpa using hfield

/-- The fields observed in a template are the names of its segments. -/
theorem placeholderFields_source (hvalid : contract.validate = .ok ())
    (hreads : contract.Reads segments) (hne : sourceOf segments ≠ [])
    (hidentifiers : contract.kind = .pythonFormatV1 → ∀ name ∈ namesOf segments,
      PyIdentifiers.isIdentifier (String.ofList name) = true) :
    contract.placeholderFields (some (.str (String.ofList (sourceOf segments)))) =
      .ok ((namesOf segments).map String.ofList) := by
  have htext : validateTemplateText (some (.str (String.ofList (sourceOf segments)))) =
      .ok (String.ofList (sourceOf segments)) := by
    have hnone : String.ofList (sourceOf segments) ≠ "" := by
      intro hempty
      exact hne (by simpa using congrArg String.toList hempty)
    rw [validateTemplateText, raiseIf_neg _ _ hnone]
    rfl
  rw [placeholderFields, htext, ok_bind, String.toList_ofList]
  rw [TemplateRenderContract.Reads] at hreads
  cases hkind : contract.kind with
  | pythonFormatV1 =>
    rw [hkind] at hreads
    exact scanFields_source hreads (hidentifiers hkind)
  | literalReplaceV1 =>
    rw [hkind] at hreads
    obtain ⟨own,hown⟩ := validate_single hvalid hkind
    obtain ⟨field,hmem,hreplaces⟩ := hreads
    rw [hown] at hmem ⊢
    rw [List.mem_singleton.mp hmem] at hreplaces
    dsimp only
    rw [hreplaces.names, List.map_replicate, String.ofList_toList]
    rfl
  | literalBodyV1 =>
    rw [hkind] at hreads
    obtain ⟨text,rfl⟩ := hreads
    rw [namesOf_literals]
    rfl

theorem validateTemplate_observed {template : Option Json} {observed : List String}
    (h : contract.validateTemplate template = .ok observed) :
    contract.placeholderFields template = .ok observed := by
  rw [validateTemplate, bind_eq_ok] at h
  obtain ⟨fields,hfields,h⟩ := h
  simp only [raiseIf_bind_eq_ok] at h
  rw [hfields]
  exact h.2.2

theorem validateTemplate_accepts {template : Option Json} {observed : List String}
    (h : contract.placeholderFields template = .ok observed)
    (havailable : ∀ field ∈ observed, field ∈ contract.availableFields)
    (hrequired : ∀ field ∈ contract.requiredFields,
      contract.requiredFields.count field ≤ observed.count field) :
    contract.validateTemplate template = .ok observed := by
  rw [validateTemplate, h, ok_bind]
  simp only [raiseIf_bind_eq_ok, not_not]
  refine ⟨List.filter_eq_nil_iff.mpr fun field hmem => ?_,
    List.filter_eq_nil_iff.mpr fun field hmem => ?_, rfl⟩
  · simpa using havailable field hmem
  · simpa using hrequired field (List.mem_eraseDups.mp hmem)

/-- Acceptance is told by the observed fields. -/
theorem validateTemplate_congr {template other : Option Json}
    (h : contract.placeholderFields template = contract.placeholderFields other) :
    contract.validateTemplate template = contract.validateTemplate other := by
  rw [validateTemplate, validateTemplate, h]

theorem accepted_ne_empty {text : String} {observed : List String}
    (h : contract.validateTemplate (some (.str text)) = .ok observed) : text ≠ "" := by
  rintro rfl
  have hobserved := validateTemplate_observed h
  rw [placeholderFields, bind_eq_ok] at hobserved
  obtain ⟨_,htext,_⟩ := hobserved
  cases htext

variable [PyObjects] [LawfulIdentifiers]

omit [PyIdentifiers] [PyObjects] [LawfulIdentifiers] in
theorem validateTemplateText_ok {text own : String}
    (h : validateTemplateText (some (.str text)) = .ok own) : text = own := by
  simp only [validateTemplateText, raiseIf_bind_eq_ok] at h
  exact Except.ok.inj h.2

/-- Every accepted template is read as segments. -/
theorem segments_exist (hvalid : contract.validate = .ok ()) {text : String}
    {observed : List String}
    (haccepted : contract.validateTemplate (some (.str text)) = .ok observed) :
    ∃ segments, contract.Reads segments ∧ text.toList = sourceOf segments ∧
      observed = (namesOf segments).map String.ofList ∧
      (contract.kind = .pythonFormatV1 → ∀ field ∈ observed,
        PyIdentifiers.isIdentifier field = true) := by
  have hobserved := validateTemplate_observed haccepted
  rw [placeholderFields, bind_eq_ok] at hobserved
  obtain ⟨own,htext,hobserved⟩ := hobserved
  obtain rfl := validateTemplateText_ok htext
  cases hkind : contract.kind with
  | pythonFormatV1 =>
    rw [hkind] at hobserved
    obtain ⟨segments,hreads,hsource,hnames,hidentifiers⟩ := segments_of_scan _ _ hobserved
    refine ⟨segments, ?_, hsource, hnames, fun _ => hidentifiers⟩
    rw [TemplateRenderContract.Reads, hkind]
    exact hreads
  | literalReplaceV1 =>
    obtain ⟨field,hfield⟩ := validate_single hvalid hkind
    obtain ⟨segments,hreplaces,hsource⟩ := replaces_exists field.toList text.toList
    rw [hkind, hfield] at hobserved
    refine ⟨segments, ?_, hsource, ?_, fun hother => (by cases hother)⟩
    · rw [TemplateRenderContract.Reads, hkind, hfield]
      exact ⟨field, List.mem_singleton_self _, hreplaces⟩
    · rw [hreplaces.names, ← hsource, List.map_replicate, String.ofList_toList]
      exact (Except.ok.inj hobserved).symm
  | literalBodyV1 =>
    rw [hkind] at hobserved
    refine ⟨literals text.toList, ?_, (sourceOf_literals _).symm, ?_, fun hother => (by cases hother)⟩
    · rw [TemplateRenderContract.Reads, hkind]
      exact ⟨_, rfl⟩
    · rw [namesOf_literals]
      exact (Except.ok.inj hobserved).symm

omit [PyObjects] [LawfulIdentifiers] in
/-- A text is read in one way. -/
theorem Reads.unique (hvalid : contract.validate = .ok ()) {other : List Segment}
    (hreads : contract.Reads segments) (hother : contract.Reads other)
    (hsource : sourceOf segments = sourceOf other) : segments = other := by
  rw [TemplateRenderContract.Reads] at hreads hother
  cases hkind : contract.kind with
  | pythonFormatV1 =>
    rw [hkind] at hreads hother
    exact sourceOf_injective hreads hother hsource
  | literalReplaceV1 =>
    rw [hkind] at hreads hother
    obtain ⟨own,hown⟩ := validate_single hvalid hkind
    rw [hown] at hreads hother
    obtain ⟨field,hfield,hreads⟩ := hreads
    obtain ⟨field',hfield',hother⟩ := hother
    rw [List.mem_singleton] at hfield hfield'
    subst hfield hfield'
    exact hreads.unique hother hsource
  | literalBodyV1 =>
    rw [hkind] at hreads hother
    obtain ⟨text,rfl⟩ := hreads
    obtain ⟨text',rfl⟩ := hother
    rw [sourceOf_literals, sourceOf_literals] at hsource
    rw [hsource]

/- A segment with the text that is supplied for its name. -/
def filledWith (supplied : String → String) : Segment → List Char :=
  Segment.filled fun name => (supplied (String.ofList name)).toList

omit [PyIdentifiers] [LawfulIdentifiers] in
theorem requireTexts_ok (observed : List String) (values : String → Option PyValue) :
    requireTexts observed values = .ok () ↔
      ∀ field ∈ observed, ∃ text, values field = some (.text text) := by
  simp only [requireTexts, raiseIf_bind_eq_ok, raiseIf_eq_ok, not_not]
  constructor
  · rintro ⟨_,hstrings⟩ field hmem
    have hfield := List.filter_eq_nil_iff.mp hstrings field (List.mem_eraseDups.mpr hmem)
    simp only [decide_eq_true_eq, Bool.not_eq_false] at hfield
    cases hvalue : values field with
    | none =>
      rw [hvalue] at hfield
      cases hfield
    | some value =>
      cases value with
      | text text => exact ⟨text, rfl⟩
      | object object =>
        rw [hvalue] at hfield
        cases hfield
  · intro h
    constructor
    · rw [List.filter_eq_nil_iff.mpr]
      · rfl
      · intro field hmem
        obtain ⟨text,hvalue⟩ := h field hmem
        simp [hvalue]
    · refine List.filter_eq_nil_iff.mpr fun field hmem => ?_
      obtain ⟨text,hvalue⟩ := h field (List.mem_eraseDups.mp hmem)
      simp [hvalue, isText]

/-- Segments whose names are all supplied are rendered by filling them in. -/
theorem render_segments (hvalid : contract.validate = .ok ()) {text : String}
    {observed : List String}
    (haccepted : contract.validateTemplate (some (.str text)) = .ok observed)
    (hreads : contract.Reads segments) (hsource : text.toList = sourceOf segments)
    {values : String → Option PyValue} {supplied : String → String}
    (hvalues : ∀ field ∈ observed, values field = some (.text (supplied field))) :
    contract.render (some (.str text)) values =
      .ok (String.ofList (segments.flatMap (filledWith supplied))) := by
  obtain ⟨own,hown,hsource',hnames,hidentifiers⟩ := segments_exist hvalid haccepted
  obtain rfl := Reads.unique hvalid hown hreads (hsource'.symm.trans hsource)
  have hobserved := validateTemplate_observed haccepted
  rw [placeholderFields, bind_eq_ok] at hobserved
  obtain ⟨kept,htext,_⟩ := hobserved
  obtain rfl := validateTemplateText_ok htext
  have htexts := (requireTexts_ok observed values).mpr fun field hmem => ⟨_, hvalues field hmem⟩
  have hsupplied : ∀ field ∈ observed, renderValues observed values field =
      some (.text (supplied field)) := by
    intro field hmem
    rw [renderValues, if_pos hmem, hvalues field hmem]
  simp only [render, haccepted, htext, Except.mapError, ok_bind, htexts]
  rw [TemplateRenderContract.Reads] at hreads
  cases hkind : contract.kind with
  | pythonFormatV1 =>
    rw [hkind] at hreads
    have hformat : formatMap (renderValues observed values) text.toList =
        .ok (own.flatMap (filledWith supplied)) := by
      rw [hsource]
      refine formatMap_source hreads _ _ fun name hmem => ?_
      have hfield : String.ofList name ∈ observed := by
        rw [hnames]
        exact List.mem_map_of_mem hmem
      refine ⟨identifier_not_decimal (hidentifiers hkind _ hfield), ?_⟩
      rw [hsupplied _ hfield, String.ofList_toList]
    rw [substitute, hkind, hformat]
    rfl
  | literalReplaceV1 =>
    rw [hkind] at hreads
    obtain ⟨single,hsingle⟩ := validate_single hvalid hkind
    obtain ⟨field,hfield,hreplaces⟩ := hreads
    rw [hsingle] at hfield
    obtain rfl := List.mem_singleton.mp hfield
    have hgoal : contract.substitute observed text (renderValues observed values) =
        .ok (String.ofList (own.flatMap (filledWith supplied))) := by
      rw [substitute, if_pos hkind]
      by_cases hnone : observed = []
      · have hnames : namesOf own = [] := List.map_eq_nil_iff.mp (hnames.symm.trans hnone)
        rw [if_pos hnone, filledWith, hreplaces.untouched hnames, ← hsource, String.ofList_toList]
      · have hmem : field ∈ observed := by
          rw [hnames, hreplaces.names, List.map_replicate, String.ofList_toList] at hnone ⊢
          exact List.mem_replicate.mpr ⟨fun hzero => hnone (by rw [hzero]; rfl), rfl⟩
        have hvalue : replaceValue (renderValues observed values) field =
            (supplied (String.ofList field.toList)).toList := by
          rw [replaceValue, hsupplied field hmem, String.ofList_toList]
        rw [if_neg hnone, hsingle, hsource]
        dsimp only
        rw [hvalue]
        exact congrArg (fun chars => Except.ok (String.ofList chars))
          (hreplaces.replaced fun name => (supplied (String.ofList name)).toList)
    exact hgoal
  | literalBodyV1 =>
    rw [hkind] at hreads
    obtain ⟨chars,rfl⟩ := hreads
    rw [filledWith, filled_literals, ← sourceOf_literals chars, ← hsource, String.ofList_toList]
    rfl

end Contracts

/-- A template that a contract accepts renders without an error, whatever the texts that are
supplied for its fields, to its segments with each placeholder filled in and every doubled brace of
a format template written once. -/
theorem render_single_pass [PyIdentifiers] [PyObjects] [LawfulIdentifiers]
    (contract : TemplateRenderContract) (hvalid : contract.validate = .ok ()) (text : String)
    (observed : List String)
    (haccepted : contract.validateTemplate (some (.str text)) = .ok observed)
    (values : String → Option PyValue) (supplied : String → String)
    (hvalues : ∀ field ∈ observed, values field = some (.text (supplied field))) :
    ∃ segments, contract.Reads segments ∧ text.toList = sourceOf segments ∧
      (∀ other, contract.Reads other → text.toList = sourceOf other → other = segments) ∧
      observed = (namesOf segments).map String.ofList ∧
      contract.render (some (.str text)) values =
        .ok (String.ofList (segments.flatMap (filledWith supplied))) := by
  obtain ⟨segments,hreads,hsource,hnames,_⟩ := segments_exist hvalid haccepted
  refine ⟨segments, hreads, hsource, fun other hother hsame => ?_, hnames,
    render_segments hvalid haccepted hreads hsource hvalues⟩
  exact Reads.unique hvalid hother hreads (hsame.symm.trans hsource)

section Example

@[reducible] def asciiIdentifiers : PyIdentifiers where
  isIdentifier name := name != "" && (name.toList.head?.all fun c => !c.isDigit) &&
    name.toList.all fun c => c.isAlphanum || c == '_'

@[reducible] def textObjects : PyObjects where
  Object := Empty
  isDecimal := Char.isDigit
  access _ _ := .error (.other "attribute")
  convert value _ := .ok value
  format _ _ := .error (.value "Invalid format specifier")

attribute [local instance] asciiIdentifiers textObjects

theorem asciiIdentifiers_lawful : LawfulIdentifiers where
  nonempty := rfl
  ascii _ hname c hmem _ := by
    have hall := (Bool.and_eq_true_iff.mp hname).2
    simpa using List.all_eq_true.mp hall c hmem
  first _ hname c hmem := by
    have hfirst := (Bool.and_eq_true_iff.mp (Bool.and_eq_true_iff.mp hname).1).2
    rw [Option.mem_def.mp hmem] at hfirst
    exact (Bool.not_eq_true' _).mp hfirst

def promptContract : TemplateRenderContract := ⟨.pythonFormatV1, ["prompt"], ["prompt"]⟩

def promptTemplate : String := "\x7b\x7bkept\x7d\x7d: \x7bprompt\x7d"

theorem promptContract_valid : promptContract.validate = .ok () := by rfl

theorem promptTemplate_accepted :
    promptContract.validateTemplate (some (.str promptTemplate)) = .ok ["prompt"] := by
  rfl

/-- A value that looks like a placeholder is filled in as it is. -/
theorem render_single_pass_prompt : ∃ segments, promptContract.Reads segments ∧
    promptTemplate.toList = sourceOf segments ∧
    (∀ other, promptContract.Reads other → promptTemplate.toList = sourceOf other →
      other = segments) ∧
    ["prompt"] = (namesOf segments).map String.ofList ∧
    promptContract.render (some (.str promptTemplate)) (fun _ => some (.text promptTemplate)) =
      .ok (String.ofList (segments.flatMap (filledWith fun _ => promptTemplate))) :=
  @render_single_pass _ _ asciiIdentifiers_lawful promptContract promptContract_valid promptTemplate
    ["prompt"] promptTemplate_accepted _ _ fun _ _ => rfl

end Example

end Whetstone.Experiment
