import Whetstone.Core.Identity
import Whetstone.Lib.Dict
import Whetstone.Lib.UnicodeEscape

/-! Failure text at the lease boundary. The lease library takes short printable text; the
conversion cuts and cleans what it would refuse and keeps the original beside it, in a
reserved entry of the details, so that the way back restores it. -/
namespace Whetstone.Core.FailureText
open Whetstone.Lib Whetstone.Lib.UnicodeEscape

def leaseTextLimit : Nat := 1024

def codeText (text : String) : CodeText := text.toList.map fun c => point c.toNat

def truncationSuffix : CodeText := codeText "..."

def leaseOriginalKey : String := "_whetstone_lease_original"

inductive Field where
  | code
  | message
deriving DecidableEq

def Field.name : Field → String
  | .code => "code"
  | .message => "message"

structure NonEmptyId where
  value : CodeText
  valid : value ≠ []
deriving DecidableEq

def NonEmptyId.create (value : CodeText) : Except String NonEmptyId :=
  if h : value ≠ [] then .ok ⟨value, h⟩ else .error "ID must be non-empty"

structure TerminalFailure where
  code : NonEmptyId
  message : NonEmptyId
  details : Dict String Json

def TerminalFailure.text (failure : TerminalFailure) : Field → CodeText
  | .code => failure.code.value
  | .message => failure.message.value

/- The failure of the lease library, whose text is a plain string. -/
structure LeaseFailure where
  code : CodeText
  message : CodeText
  details : Dict String Json

def isSurrogate (c : CodePoint) : Bool := 0xd800 ≤ c.val && c.val ≤ 0xdfff

/- `str.isspace` of one character. -/
def isWhitespace (c : CodePoint) : Bool :=
  (9 ≤ c.val && c.val ≤ 13) || (28 ≤ c.val && c.val ≤ 32) ||
    (0x2000 ≤ c.val && c.val ≤ 0x200a) ||
    c.val ∈ [0x85, 0xa0, 0x1680, 0x2028, 0x2029, 0x202f, 0x205f, 0x3000]

/- `not text.strip()` -/
def isBlank (text : CodeText) : Bool := text.all isWhitespace

/- The text without its NULs, then without its surrogates. -/
def cleaned (value : CodeText) : CodeText :=
  (value.filter (· ≠ 0)).filter fun c => !isSurrogate c

def truncated (text : CodeText) : CodeText :=
  if leaseTextLimit < text.length then
    text.take (leaseTextLimit - truncationSuffix.length) ++ truncationSuffix
  else text

def unprintable (field : Field) : CodeText := codeText ("<unprintable " ++ field.name ++ ">")

/-- `_lease_text_shape` -/
def leaseTextShape (value : CodeText) (field : Field) : CodeText :=
  let coerced := truncated (cleaned value)
  if isBlank coerced = true then unprintable field else coerced

/- `details.get(_LEASE_ORIGINAL_KEY)`; what is not a dictionary counts as an empty one. -/
def envelope (details : Dict String Json) : List (String × Json) :=
  match details.get? leaseOriginalKey with
  | some (.obj fields) => fields
  | _ => []

/-- `_lease_text`, with the details it leaves -/
def leaseText (value : CodeText) (field : Field) (details : Dict String Json) :
    CodeText × Dict String Json :=
  let coerced := leaseTextShape value field
  if coerced ≠ value then
    (coerced, details.set leaseOriginalKey
      (.obj (Dict.setPairs field.name (.str (escape value)) (envelope details))))
  else (coerced, details)

/-- `_to_lease_failure` -/
def toLease (failure : TerminalFailure) : LeaseFailure :=
  let (code, details) := leaseText failure.code.value .code failure.details
  let (message, details) := leaseText failure.message.value .message details
  ⟨code, message, details⟩

variable [CharacterNames]

/- One field on the way back: the original, where the stored text is what it is coerced to. -/
def restore (fields : List (String × Json)) (field : Field) (text : CodeText) :
    Except String CodeText :=
  match Dict.getPairs field.name fields with
  | some (.str encoded) =>
    match unescape encoded with
    | .ok original => .ok (if leaseTextShape original field = text then original else text)
    | .error error => .error error
  | _ => .ok text

/-- `_from_lease_failure` -/
def fromLease (failure : LeaseFailure) : Except String TerminalFailure := do
  let fields := envelope failure.details
  let code ← restore fields .code failure.code
  let message ← restore fields .message failure.message
  let code ← NonEmptyId.create code
  let message ← NonEmptyId.create message
  return ⟨code, message, failure.details.erase leaseOriginalKey⟩

/- A terminal on either side of the boundary, which differs in its failure alone. -/
structure TerminalWith (Failure : Type) where
  request : EffectRequest
  outcome : TerminalOutcome
  ownerId : String
  attemptId : String
  fence : Nat
  resultRef : Option TypedRef
  failure : Option Failure

abbrev EffectTerminal := TerminalWith TerminalFailure

abbrev LeaseTerminal := TerminalWith LeaseFailure

omit [CharacterNames] in
def EffectTerminal.toLease (terminal : EffectTerminal) : LeaseTerminal :=
  { terminal with failure := terminal.failure.map FailureText.toLease }

def EffectTerminal.fromLease (terminal : LeaseTerminal) : Except String EffectTerminal := do
  let failure ← terminal.failure.mapM FailureText.fromLease
  return { terminal with failure := failure }

/-- The text the lease library takes. -/
structure LeaseShape (text : CodeText) : Prop where
  printable : isBlank text = false
  short : text.length ≤ 1024
  no_nul : 0 ∉ text
  no_surrogate : ∀ c ∈ text, isSurrogate c = false

end Whetstone.Core.FailureText
