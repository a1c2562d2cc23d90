import Whetstone.Eval.Traces

/-! Row attribution: which accounting cell a row's outcome falls into. A row value is scored
or stands in exactly one of the other cells. -/
namespace Whetstone.Eval
open Whetstone.Lib

inductive AccountingCell where
  | scored
  | missing
  | failed
  | invalid
deriving DecidableEq

def AccountingCell.value : AccountingCell → String
  | .scored => "scored"
  | .missing => "missing"
  | .failed => "failed"
  | .invalid => "invalid"

inductive AttributedOutcome where
  | cancellation
  | zeroEvidence
  | infrastructure
  | semanticRejection
  | emptyOutput
  | emptyCandidateSet
  | tokenLimitTruncation
  | vanishedPublishedEvidence
  | crash
  | abandonment
deriving DecidableEq

def AttributedOutcome.value : AttributedOutcome → String
  | .cancellation => "cancellation"
  | .zeroEvidence => "zero-evidence"
  | .infrastructure => "infrastructure"
  | .semanticRejection => "semantic-rejection"
  | .emptyOutput => "empty-output"
  | .emptyCandidateSet => "empty-candidate-set"
  | .tokenLimitTruncation => "token-limit-truncation"
  | .vanishedPublishedEvidence => "vanished-published-evidence"
  | .crash => "crash"
  | .abandonment => "abandonment"

def attributedOutcomes : List AttributedOutcome :=
  [.cancellation, .zeroEvidence, .infrastructure, .semanticRejection, .emptyOutput,
    .emptyCandidateSet, .tokenLimitTruncation, .vanishedPublishedEvidence, .crash, .abandonment]

def AttributedOutcome.ofValue? (text : String) : Option AttributedOutcome :=
  attributedOutcomes.find? (fun outcome => outcome.value = text)

/- `ROW_ATTRIBUTION_TABLE` -/
def attributeOutcome : AttributedOutcome → AccountingCell
  | .cancellation => .missing
  | .zeroEvidence => .missing
  | .infrastructure => .failed
  | .semanticRejection => .invalid
  | .emptyOutput => .invalid
  | .emptyCandidateSet => .invalid
  | .tokenLimitTruncation => .invalid
  | .vanishedPublishedEvidence => .missing
  | .crash => .failed
  | .abandonment => .failed

theorem attributeOutcome_ne_scored (outcome : AttributedOutcome) :
    attributeOutcome outcome ≠ .scored := by
  cases outcome <;> simp [attributeOutcome]

inductive RowValue (F : Type) where
  | scored (value : F)
  | failed
  | missing
  | invalid
deriving DecidableEq

variable {F : Type}

/- The source raises on a scored cell; the table has none. -/
def unscoredRowValue (outcome : AttributedOutcome) : RowValue F :=
  match h : attributeOutcome outcome with
  | .missing => .missing
  | .failed => .failed
  | .invalid => .invalid
  | .scored => absurd h (attributeOutcome_ne_scored outcome)

def providerRejection : String := "provider-rejection"
def blankProviderGeneration : String := "blank-provider-generation"

def outcomeByFailureCode (code : String) : Option AttributedOutcome :=
  if code = providerRejection then some .semanticRejection
  else if code = blankProviderGeneration then some .emptyOutput
  else none

def outcomeForGeneratedFailure (failureCode : Option String) : AttributedOutcome :=
  match failureCode with
  | none => .infrastructure
  | some code => (outcomeByFailureCode code).getD .infrastructure

def attributeGeneratedRowCell (failureCode : String) : Option AccountingCell :=
  (outcomeByFailureCode failureCode).map attributeOutcome

def attributeGeneratedRow (rowState : ExecutedRowState) (score : Option F)
    (failureCode : Option String) : RowValue F :=
  if rowState = .missing then unscoredRowValue .zeroEvidence
  else if rowState = .failed then unscoredRowValue (outcomeForGeneratedFailure failureCode)
  else match score with
    | none => unscoredRowValue (outcomeForGeneratedFailure failureCode)
    | some value => .scored value

def requireExclusiveRowState (scored failed missing invalid : Bool) : Except String Unit := do
  let stateCount := failed.toNat + missing.toNat + invalid.toNat
  raiseIf (scored = true ∧ stateCount ≠ 0) "a scored row must be present"
  raiseIf (scored = false ∧ stateCount ≠ 1)
    "an unscored row requires exactly one of failed / missing / invalid"

def attributePublishedRow (score : Option F) (failed missing invalid : Bool) :
    Except String (RowValue F) := do
  requireExclusiveRowState score.isSome failed missing invalid
  if failed then return .failed
  if missing then return .missing
  if invalid then return .invalid
  match score with
  | some value => return .scored value
  | none => throw "AssertionError"

/-- A code with a contract attribution stands in the invalid cell. -/
theorem attributeGeneratedRowCell_some (code : String) (cell : AccountingCell)
    (h : attributeGeneratedRowCell code = some cell) : cell = .invalid := by
  rw [attributeGeneratedRowCell, outcomeByFailureCode] at h
  split at h
  · cases h
    rfl
  · split at h
    · cases h
      rfl
    · cases h

end Whetstone.Eval
