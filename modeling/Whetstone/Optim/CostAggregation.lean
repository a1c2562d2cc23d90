import Whetstone.Optim.StepResults
import Whetstone.Optim.StudyTranscript

/-! The spend of a run, derived from the evidence its step results cite. A record that others
store is kept as what the aggregation reads of it: a field that does not validate is the error
its validation raises. -/
namespace Whetstone.Optim.Step
open Whetstone.Core Whetstone.Lib Whetstone.Experiment Whetstone.Tools

structure EvalOutputRowUsage (F : Type) where
  promptTokens : Option Int := none
  completionTokens : Option Int := none
  providerCost : Option F := none
  cacheHit : Bool := false
  failed : Bool := false
  missing : Bool := false
  providerError : Option (List (String × Json)) := none
deriving DecidableEq

def rejectedResponseKey : String := "rejected_response"

/- `evidences_provider_response` -/
def evidencesProviderResponse (providerError : Option (List (String × Json))) : Bool :=
  match providerError with
  | none => false
  | some body =>
    match body.lookup rejectedResponseKey with
    | none | some .null => false
    | some _ => true

def EvalOutputRowUsage.responseRejected {F : Type} (row : EvalOutputRowUsage F) : Bool :=
  evidencesProviderResponse row.providerError

def rowObservation {F : Type} (row : EvalOutputRowUsage F) : Option (UsageObservation F) :=
  let hasAnyTokenCount := row.promptTokens.isSome || row.completionTokens.isSome
  let hasTokenBreakdown := row.promptTokens.isSome && row.completionTokens.isSome
  let hasTelemetry := hasAnyTokenCount || row.providerCost.isSome
  if row.cacheHit then some { cached := true }
  else if !hasTelemetry && row.missing then none
  else if !hasTelemetry && row.failed && !row.responseRejected then none
  else some
    { inputTokens := row.promptTokens.getD 0, outputTokens := row.completionTokens.getD 0
      usd := row.providerCost, missingTokenBreakdown := !hasTokenBreakdown }

/- `outputsRef` is `none` when the field is not an object; `outputs` is `none` when it is not a
   list. -/
structure ForeignRecord (F : Type) where
  outputsRef : Option (Except String TypedRef)
  outputs : Option (List (Except String (EvalOutputRowUsage F)))
deriving DecidableEq

def toolFailureEvidenceRefKey : String := "evidence_ref"

/- `TypedRef.model_validate(dict(raw))`, which takes the two fields and no other. -/
def typedRefOf (raw : List (String × Json)) : Option TypedRef :=
  match raw.lookup "schema_name", raw.lookup "content_hash" with
  | some (.str schemaName), some (.str contentHash) =>
    if raw.length = 2 ∧ schemaName ≠ "" ∧ isFullHash contentHash then some ⟨schemaName, contentHash⟩
    else none
  | _, _ => none

def toolFailureEvidenceRef (failure : Option TerminalFailure) : Option TypedRef :=
  match failure with
  | none => none
  | some failure =>
    match failure.details with
    | .obj fields =>
      match fields.lookup toolFailureEvidenceRefKey with
      | some (.obj raw) =>
        match typedRefOf raw with
        | some ref => if ref.schemaName ≠ evalFailureSchema then none else some ref
        | none => none
      | _ => none
    | _ => none

def costed (ref : TypedRef) : Bool :=
  ref.schemaName = evalEvidenceSchema ∨ ref.schemaName = evalFailureSchema

section Aggregation

variable [PyIdentifiers] [CandidateIdentity] [ToolIdentity]
variable {F : Type} [FiniteFloats F] [DecidableEq F] [RewardIdentity F] [ResultIdentity F]
variable [RequestIdentity F]

def toolEvidenceRefs (evidence : ToolEvidence F) : List TypedRef :=
  evidence.result.evaluationEvidenceRefs.filter costed ++
    (toolFailureEvidenceRef evidence.result.terminalFailure).toList

def evidenceRefs (result : OptimStepResult F) : List TypedRef :=
  (result.fields.resolvedIntents.filterMap fun resolution => resolution.evalResultRef).filter costed ++
    (result.fields.searchEvidence.filterMap fun evidence => evidence.evalResultRef).filter costed ++
    result.fields.toolEvidence.flatMap toolEvidenceRefs

/- Each reference once, at its first occurrence. -/
def distinctRefs (results : List (OptimStepResult F)) : List TypedRef :=
  (results.flatMap evidenceRefs).eraseDups

/- The observations of the proposer calls. A call that is identified counts once. -/
def proposerObservations : List String → List (ProposerCallUsage F) → List (UsageObservation F)
  | _, [] => []
  | seen, usage :: rest =>
    if usage.callId ≠ "" ∧ usage.callId ∈ seen then proposerObservations seen rest
    else usage.observation :: proposerObservations (usage.callId :: seen) rest

def rowObservations (rows : List (Except String (EvalOutputRowUsage F))) :
    Except String (List (UsageObservation F)) := do
  let parsed ← rows.mapM id
  return parsed.filterMap rowObservation

/- The observations behind one evidence reference. -/
def refObservations (get : TypedRef → Option (ForeignRecord F)) (ref : TypedRef) :
    Except String (List (UsageObservation F)) :=
  match get ref with
  | none => .error "no object is stored under the reference"
  | some evidence =>
    match evidence.outputsRef with
    | none => .ok []
    | some (.error message) => .error message
    | some (.ok outputsRef) =>
      match get outputsRef with
      | none => .error "no object is stored under the reference"
      | some record =>
        match record.outputs with
        | none => .ok []
        | some rows => rowObservations rows

def taskModelObservations (get : TypedRef → Option (ForeignRecord F)) (refs : List TypedRef) :
    Except String (List (UsageObservation F)) := do
  let observed ← refs.mapM (refObservations get)
  return observed.flatten

def aggregateRunCost (get : TypedRef → Option (ForeignRecord F))
    (results : List (OptimStepResult F)) : Except String (RunCostReport F) := do
  let observed ← taskModelObservations get (distinctRefs results)
  let taskModel ← aggregateRoleCost observed
  let proposer ← aggregateRoleCost
    (proposerObservations [] (results.flatMap fun result => result.fields.proposerUsage))
  return ⟨taskModel, proposer⟩

end Aggregation
end Whetstone.Optim.Step
