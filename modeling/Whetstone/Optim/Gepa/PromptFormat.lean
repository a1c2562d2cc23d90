import Mathlib.Data.List.Sort
import Whetstone.Experiment.Templates
import Whetstone.Core.Identity

/-! The format of a prompt component, which accepts replacement texts by the fields that Python's
formatter finds in them. The render contract of a run finds the same fields as long as every field
is a bare name. -/
namespace Whetstone.Optim.Gepa
open Whetstone.Core Whetstone.Lib Whetstone.Lib.PyFormat Whetstone.Experiment

/-- The characters of `str.isdigit`. No property is assumed. -/
class PyDigits where
  isDigit : Char → Bool

/- `sorted`, of names. -/
def sortedNames (names : List String) : List String :=
  names.eraseDups.mergeSort fun a b => a ≤ b

def reprList (names : List String) : String := "[" ++ joined (names.map quoted) ++ "]"

section Placeholders

variable [PyDigits]

def positional : String := "<positional>"

/- The name of a field up to its first attribute or index. -/
def placeholderHead (name : List Char) : String :=
  let head := headName name
  if name = [] then positional
  else if head ≠ [] ∧ head.all PyDigits.isDigit then positional
  else String.ofList head

def placeholder? : Piece → Option String
  | .literal _ => none
  | .field field => some (placeholderHead field.name)

def templatePlaceholderFields (template : String) : Except String (List String) := do
  let read ← (pieces template.toList).mapM fun piece => piece
  return read.filterMap placeholder?

structure GepaComponentFormat where
  componentName : String
  componentSchemaIdentityHash : String
  allowedPlaceholders : List String
  requiredPlaceholders : List String
  placeholderSemantics : List (String × String)
  outputContract : String
deriving DecidableEq

namespace GepaComponentFormat

def validate (format : GepaComponentFormat) : Except String Unit := do
  raiseIf (format.componentName = "") "component_name must be non-empty"
  requireFullHash format.componentSchemaIdentityHash "component_schema_identity_hash"
  raiseIf (¬ format.allowedPlaceholders.Nodup) "allowed_placeholders must be unique"
  raiseIf ("" ∈ format.allowedPlaceholders) "allowed placeholder names must be non-empty"
  raiseIf ("" ∈ format.requiredPlaceholders) "required placeholder names must be non-empty"
  raiseIf (¬ ∀ name ∈ format.requiredPlaceholders, name ∈ format.allowedPlaceholders)
    "required_placeholders must be allowed placeholders"
  let semanticNames := format.placeholderSemantics.map Prod.fst
  raiseIf (¬ semanticNames.Nodup) "placeholder semantics must be unique"
  raiseIf (¬ ∀ name ∈ semanticNames, name ∈ format.allowedPlaceholders)
    "placeholder semantics must name allowed placeholders"
  raiseIf (format.outputContract = "") "output_contract must be non-empty"

def validateReplacement (format : GepaComponentFormat) (text : String) : Except String String := do
  raiseIf (text = "") "GEPA replacement component must be non-empty"
  let observed ← (templatePlaceholderFields text).mapError
    fun _ => "GEPA replacement component has malformed braces"
  let undeclared := observed.filter (· ∉ format.allowedPlaceholders)
  raiseIf (undeclared ≠ [])
    ("GEPA replacement component introduced undeclared placeholders " ++
      reprList (sortedNames undeclared))
  let missing := format.requiredPlaceholders.filter
    fun name => observed.count name < format.requiredPlaceholders.count name
  raiseIf (missing ≠ [])
    ("GEPA replacement component omitted required placeholders " ++ reprList (sortedNames missing))
  return text

/- The contract of a format template with the fields of a component. -/
def renderContract (format : GepaComponentFormat) : TemplateRenderContract :=
  ⟨.pythonFormatV1, format.allowedPlaceholders, format.requiredPlaceholders⟩

end GepaComponentFormat

/-! ### Agreement with the render contract -/

section Agreement

variable {format : GepaComponentFormat} {text : String}

/-- What an accepted replacement shows: its fields are read, declared and sufficient. -/
theorem validateReplacement_ok (h : format.validateReplacement text = .ok text) :
    text ≠ "" ∧ ∃ observed, templatePlaceholderFields text = .ok observed ∧
      (∀ field ∈ observed, field ∈ format.allowedPlaceholders) ∧
      ∀ field ∈ format.requiredPlaceholders,
        format.requiredPlaceholders.count field ≤ observed.count field := by
  rw [GepaComponentFormat.validateReplacement, raiseIf_bind_eq_ok, bind_eq_ok] at h
  obtain ⟨hne,observed,hobserved,h⟩ := h
  simp only [raiseIf_bind_eq_ok, not_not] at h
  obtain ⟨hdeclared,hsufficient,_⟩ := h
  refine ⟨hne, observed, ?_, fun field hmem => ?_, fun field hmem => ?_⟩
  · cases hread : templatePlaceholderFields text with
    | error message =>
      rw [hread] at hobserved
      cases hobserved
    | ok fields =>
      rw [hread] at hobserved
      exact congrArg Except.ok (Except.ok.inj hobserved)
  · simpa using List.filter_eq_nil_iff.mp hdeclared field hmem
  · simpa using List.filter_eq_nil_iff.mp hsufficient field hmem

/-- The formatter comes to the end of an accepted replacement. -/
theorem pieces_ok {observed : List String} (h : templatePlaceholderFields text = .ok observed) :
    ∀ piece ∈ pieces text.toList, ∃ own, piece = .ok own := by
  rw [templatePlaceholderFields, bind_eq_ok] at h
  obtain ⟨read,hread,_⟩ := h
  exact mapM_mem_ok hread

/-- The formatter finds the names of the segments of a text. -/
theorem placeholderFields_segments {segments : List Segment}
    (h : ∀ segment ∈ segments, segment.Reads) :
    templatePlaceholderFields (String.ofList (sourceOf segments)) =
      .ok ((namesOf segments).map placeholderHead) := by
  have hread : (segments.map fun segment => .ok segment.piece).mapM
      (fun piece : Except String Piece => piece) = .ok (segments.map Segment.piece) := by
    rw [List.mapM_map]
    exact mapM_ok _ _ segments fun segment _ => rfl
  rw [templatePlaceholderFields, String.toList_ofList, pieces_source h, hread, ok_bind]
  refine congrArg Except.ok ?_
  rw [List.filterMap_map, namesOf, List.map_filterMap]
  congr 1
  funext segment
  cases segment <;> rfl

variable [PyIdentifiers] [PyObjects] [LawfulIdentifiers]

omit [PyDigits] in
theorem positional_no_identifier : PyIdentifiers.isIdentifier positional = false := by
  rw [Bool.eq_false_iff]
  intro h
  exact absurd (LawfulIdentifiers.ascii _ h '<' (by decide) (by decide)) (by decide)

/-- A bare name that is found as an identifier is found as it is. -/
theorem placeholderHead_identifier {name : List Char} (hname : Bare name)
    (h : PyIdentifiers.isIdentifier (placeholderHead name) = true) :
    placeholderHead name = String.ofList name := by
  rw [placeholderHead] at h ⊢
  split at h
  · rw [positional_no_identifier] at h
    cases h
  split at h
  · rw [positional_no_identifier] at h
    cases h
  · rename_i hne hdigits
    rw [if_neg hne, if_neg hdigits, headName_bare hname]

end Agreement
end Placeholders

section Example

@[reducible] def asciiDigits : PyDigits := ⟨Char.isDigit⟩

attribute [local instance] asciiIdentifiers textObjects asciiDigits

def promptFormat : GepaComponentFormat where
  componentName := "user"
  componentSchemaIdentityHash := ""
  allowedPlaceholders := ["prompt"]
  requiredPlaceholders := ["prompt"]
  placeholderSemantics := []
  outputContract := "Return one replacement component."

def promptSegments : List Segment :=
  .escaped '{' :: literals "kept".toList ++ .escaped '}' :: literals ": ".toList ++
    [.placeholder "prompt".toList]

end Example

end Whetstone.Optim.Gepa
