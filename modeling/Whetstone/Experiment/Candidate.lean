import Whetstone.Core.Identity
import Whetstone.Lib.Raise

/-! Candidates and the contract their templates are rendered under. JSON objects are lists of
fields in canonical order, so that equal lists are equal objects. -/
namespace Whetstone.Experiment
open Whetstone.Core Whetstone.Lib

/-- `str.isidentifier`. No property is assumed. -/
class PyIdentifiers where
  isIdentifier : String → Bool

inductive TemplateRenderKind where
  | pythonFormatV1
  | literalReplaceV1
  | literalBodyV1
deriving DecidableEq, Inhabited

structure TemplateRenderContract where
  kind : TemplateRenderKind
  availableFields : List String
  requiredFields : List String
deriving DecidableEq, Inhabited

def joined (names : List String) : String := ", ".intercalate names

def quoted (text : String) : String := "'" ++ text ++ "'"

/- How often a text occurs in another, without overlap, as `str.count` counts it. -/
def countText (part : List Char) : List Char → Nat → Nat
  | [], _ => 0
  | _ :: rest, skip + 1 => countText part rest skip
  | c :: rest, 0 =>
    if part.isPrefixOf (c :: rest) then countText part rest (part.length - 1) + 1
    else countText part rest 0

section Templates

variable [PyIdentifiers]

namespace TemplateRenderContract

def validate (contract : TemplateRenderContract) : Except String Unit := do
  let invalid := (contract.availableFields ++ contract.requiredFields).filter
    fun field => PyIdentifiers.isIdentifier field = false
  raiseIf (invalid ≠ [])
    ("template render fields must be non-empty identifiers: " ++ joined (invalid.map quoted))
  raiseIf (¬ contract.availableFields.Nodup) "available_fields must be unique"
  let unavailable := contract.requiredFields.filter (· ∉ contract.availableFields)
  raiseIf (unavailable ≠ []) ("required_fields must be available: " ++ joined unavailable.eraseDups)
  raiseIf (contract.kind = .literalReplaceV1 ∧ contract.availableFields.length ≠ 1)
    "literal_replace/v1 requires exactly one available field"
  raiseIf (contract.kind = .literalBodyV1 ∧
      (contract.availableFields ≠ [] ∨ contract.requiredFields ≠ []))
    "literal_body/v1 has no active fields"

def validateTemplateText : Option Json → Except String String
  | some (.str template) => do
    raiseIf (template = "") "template must be non-empty"
    return template
  | _ => .error "template must be a strict string"

def placeholderName (name : List Char) : Except String String := do
  raiseIf ('{' ∈ name) "template has malformed placeholders: nested '\x7b'"
  let field := String.ofList name
  raiseIf (PyIdentifiers.isIdentifier field = false)
    ("template has unsupported field expression " ++ quoted field ++
      "; only simple named fields are allowed")
  return field

/- The scan of a format template. The first argument holds the name read so far, backwards,
   while a placeholder is open. -/
def scanFields : Option (List Char) → List Char → Except String (List String)
  | none, [] => .ok []
  | some _, [] => .error "template has malformed placeholders: unmatched '\x7b'"
  | none, '{' :: '{' :: rest => scanFields none rest
  | none, '}' :: '}' :: rest => scanFields none rest
  | none, '{' :: rest => scanFields (some []) rest
  | none, '}' :: _ => .error "template has malformed placeholders: unmatched '\x7d'"
  | none, _ :: rest => scanFields none rest
  | some name, '}' :: rest => do
    let field ← placeholderName name.reverse
    let fields ← scanFields none rest
    return field :: fields
  | some name, c :: rest => scanFields (some (c :: name)) rest

def placeholderFields (contract : TemplateRenderContract) (template : Option Json) :
    Except String (List String) := do
  let text ← validateTemplateText template
  match contract.kind with
  | .literalBodyV1 => return []
  | .literalReplaceV1 =>
    match contract.availableFields with
    | [] => throw "tuple index out of range"
    | field :: _ =>
      let marker := '{' :: field.toList ++ ['}']
      return List.replicate (countText marker text.toList 0) field
  | .pythonFormatV1 => scanFields none text.toList

def validateTemplate (contract : TemplateRenderContract) (template : Option Json) :
    Except String (List String) := do
  let observed ← contract.placeholderFields template
  let unknown := observed.filter (· ∉ contract.availableFields)
  raiseIf (unknown ≠ []) ("template contains unavailable fields: " ++ joined unknown.eraseDups)
  let missing := contract.requiredFields.eraseDups.filter
    fun field => observed.count field < contract.requiredFields.count field
  raiseIf (missing ≠ [])
    ("template does not satisfy required field multiplicity: " ++ joined (missing.map fun field =>
      field ++ " (" ++ toString (observed.count field) ++ "/" ++
        toString (contract.requiredFields.count field) ++ ")"))
  return observed

end TemplateRenderContract
end Templates

def candidateRecordSchema : String := "whetstone.optim_candidate"

structure Candidate where
  candidateId : String
  baseRef : TypedRef
  payload : List (String × Json)
deriving DecidableEq, Inhabited

/-- The identity hash of a candidate and the content hash of its record. No property is
assumed. -/
class CandidateIdentity where
  identityHash : Candidate → String
  contentHash : Candidate → String

section References

variable [CandidateIdentity]

/- A CandidateRef is determined by its record, since its constructor rejects any other
   record_ref or identity_hash. -/
def Candidate.recordRef (candidate : Candidate) : TypedRef :=
  ⟨candidateRecordSchema, CandidateIdentity.contentHash candidate⟩

def Candidate.identityHash (candidate : Candidate) : String :=
  CandidateIdentity.identityHash candidate

def reprRef (ref : TypedRef) : String :=
  "TypedRef(schema_name=" ++ quoted ref.schemaName ++ ", content_hash=" ++
    quoted ref.contentHash ++ ")"

def proposedText (field : String) (proposed : Candidate) : Except String String :=
  let message := "proposal must supply a non-empty " ++ quoted field ++ " template"
  match proposed.payload.lookup field with
  | some (.str value) => if value = "" then .error message else .ok value
  | _ => .error message

def baseText (field : String) (base : Candidate) : Except String String :=
  match base.payload.lookup field with
  | some (.str value) => .ok value
  | some _ => .error ("base candidate " ++ quoted field ++ " mutation field must be a string")
  | none => .error ("base candidate must supply the " ++ quoted field ++ " mutation field")

/- `diff_check`, for a run whose mutation field is `field`. -/
def diffCheck (field : String) (base proposed : Candidate) : Except String Unit := do
  raiseIf (proposed.baseRef ≠ base.recordRef)
    ("proposal binds base " ++ reprRef proposed.baseRef ++
      ", not the exact request candidate " ++ reprRef base.recordRef)
  let value ← proposedText field proposed
  let baseValue ← baseText field base
  raiseIf (value = baseValue)
    ("proposal " ++ quoted field ++ " mutation must differ from its base")
  raiseIf (proposed.payload.filter (·.1 ≠ field) ≠ base.payload.filter (·.1 ≠ field))
    ("proposal changes a field outside the Mutation Surface (" ++ quoted field ++
      " only): non-surface payload diverged from base")

end References
end Whetstone.Experiment
