import Whetstone.Optim.StepResults

/-! The effects of a reflective search: evaluations of a candidate on a batch of tasks and
reflections that draft a replacement text, each in the slot of its invocation ordinal. -/
namespace Whetstone.Optim.Gepa
open Whetstone.Core Whetstone.Lib Whetstone.Experiment Whetstone.Optim.Step

structure GepaEffectContext where
  runId : String
  controlIdentityHash : String
  sourceManifestIdentityHash : String
  adapterIdentityHash : String
deriving DecidableEq, Inhabited

structure GepaEffectSlot where
  context : GepaEffectContext
  invocationOrdinal : Nat
deriving DecidableEq, Inhabited

structure GepaCandidateComponent where
  name : String
  text : String
deriving DecidableEq, Inhabited

structure GepaDataInstance where
  upstreamPosition : Nat
  dataId : String
  taskHash : String
  dataRef : TypedRef
  loaderIdentityHash : String
deriving DecidableEq, Inhabited

structure GepaEvalAuthorityBinding (F : Type) [FiniteFloats F] where
  authorityIdentityHash : String
  evaluationConfigHash : String
  rewardPolicyIdentityHash : String
  providerRouteIdentityHash : String
  executionPolicyIdentityHash : String
  promptAdapterIdentityHash : String
  responseParserIdentityHash : String
  dataRegistryIdentityHash : String
  failureScore : FiniteFloat F
  addFormatFailureAsFeedback : Bool
  warnOnScoreMismatch : Bool
  selectionSeed : Int
deriving DecidableEq

structure GepaProposalAuthorityBinding where
  authorityIdentityHash : String
  proposerTransportIdentityHash : String
  promptBindingIdentityHash : String
  executionPolicyIdentityHash : String
  promptAdapterIdentityHash : String
  durabilityPolicyIdentityHash : String
  proposerConfigHash : String
deriving DecidableEq, Inhabited

section Requests

variable {F : Type} [FiniteFloats F]

/-! ### Evaluations -/

structure EvaluationRequestFields (F : Type) [FiniteFloats F] where
  slot : GepaEffectSlot
  candidate : List GepaCandidateComponent
  upstreamCandidateIndex : Option Nat
  data : List GepaDataInstance
  captureTraces : Bool
  authority : GepaEvalAuthorityBinding F
deriving DecidableEq

def EvaluationRequestFields.validate (request : EvaluationRequestFields F) : Except String Unit := do
  raiseIf (request.candidate = []) "GEPA evaluation candidate cannot be empty"
  raiseIf (¬ (request.candidate.map GepaCandidateComponent.name).Nodup)
    "GEPA candidate component names must be unique"
  raiseIf (request.data = []) "GEPA evaluation batch cannot be empty"
  raiseIf (¬ (request.data.map GepaDataInstance.upstreamPosition).Nodup)
    "GEPA evaluation positions must be unique"
  raiseIf (¬ (request.data.map GepaDataInstance.dataId).Nodup)
    "GEPA evaluation data_ids must be unique"
  raiseIf ((request.data.map GepaDataInstance.loaderIdentityHash).eraseDups.length ≠ 1)
    "GEPA evaluation batch must use one loader identity"

structure GepaEvaluationEffectRequest (F : Type) [FiniteFloats F] extends
    EvaluationRequestFields F where
  valid : toEvaluationRequestFields.validate = .ok ()
deriving DecidableEq

def EvaluationRequestFields.create (request : EvaluationRequestFields F) :
    Except String (GepaEvaluationEffectRequest F) :=
  match h : request.validate with
  | .ok () => .ok ⟨request, h⟩
  | .error message => .error message

structure GepaComponentTraceProjection (F : Type) [FiniteFloats F] where
  inputs : Json
  generatedOutputs : Json
  feedback : String
  formatFailure : Bool
  feedbackScore : Option (FiniteFloat F)
  sourceRefs : List TypedRef
deriving DecidableEq

/- The record a reflection prompt shows for one trace. -/
structure ReflectiveRecord where
  inputs : Json
  generatedOutputs : Json
  feedback : String
deriving DecidableEq, Inhabited

def GepaComponentTraceProjection.reflectiveRecord (trace : GepaComponentTraceProjection F) :
    ReflectiveRecord :=
  ⟨trace.inputs, trace.generatedOutputs, trace.feedback⟩

structure GepaTrajectoryProjection (F : Type) [FiniteFloats F] where
  dataId : String
  inputs : Json
  generatedOutputs : Json
  feedback : String
  componentRecords : Dict String (List (GepaComponentTraceProjection F))
  predictionFailed : Bool
  moduleScore : Option F
  sourceRefs : List TypedRef
deriving DecidableEq

def GepaTrajectoryProjection.records (trajectory : GepaTrajectoryProjection F) (name : String) :
    List (GepaComponentTraceProjection F) :=
  (trajectory.componentRecords.get? name).getD []

def GepaTrajectoryProjection.reflectiveRecord (trajectory : GepaTrajectoryProjection F)
    (name : String) : ReflectiveRecord :=
  match trajectory.records name with
  | selected :: _ => selected.reflectiveRecord
  | [] => ⟨trajectory.inputs, trajectory.generatedOutputs, trajectory.feedback⟩

structure EvaluationRowFields (F : Type) [FiniteFloats F] where
  data : GepaDataInstance
  output : Json
  score : FiniteFloat F
  objectiveScores : Option (Dict String F)
  trajectory : Option (GepaTrajectoryProjection F)
  evidenceRefs : List TypedRef
  providerAttemptRefs : List TypedRef
  failureRef : Option TypedRef
deriving DecidableEq

def EvaluationRowFields.validate (row : EvaluationRowFields F) : Except String Unit := do
  raiseIf (row.failureRef = none ∧ row.evidenceRefs = [])
    "successful GEPA evaluation row requires canonical evidence"
  raiseIf (row.failureRef ≠ none ∧ FiniteFloats.eq row.score.value (FloatOps.zero : F) = false)
    "failed GEPA evaluation row score must be zero before the bound failure_score projection"
  row.objectiveScores.forM fun scores => do
    raiseIf (scores.pairs = []) "GEPA objective_scores cannot be empty"
    raiseIf ("" ∈ scores.keys) "GEPA objective score names must be non-empty"

structure GepaEvaluationRow (F : Type) [FiniteFloats F] extends EvaluationRowFields F where
  valid : toEvaluationRowFields.validate = .ok ()

instance [DecidableEq F] : DecidableEq (GepaEvaluationRow F) := fun a b =>
  decidable_of_iff (a.toEvaluationRowFields = b.toEvaluationRowFields)
    ⟨fun h => by cases a; cases b; cases h; rfl,
      fun h => congrArg GepaEvaluationRow.toEvaluationRowFields h⟩

structure EvaluationResultFields (F : Type) [FiniteFloats F] [RewardIdentity F] where
  requestHash : String
  rows : List (GepaEvaluationRow F)
  logicalMetricCalls : Nat
  resolution : Option (IntentResolution F)
deriving DecidableEq

def EvaluationResultFields.validate [RewardIdentity F] (result : EvaluationResultFields F) :
    Except String Unit := do
  raiseIf (result.rows.isEmpty = true) "GEPA evaluation result cannot be empty"
  raiseIf (result.logicalMetricCalls ≠ result.rows.length)
    "GEPA logical_metric_calls must equal returned row count"

structure GepaEvaluationEffectResult (F : Type) [FiniteFloats F] [RewardIdentity F] extends
    EvaluationResultFields F where
  valid : toEvaluationResultFields.validate = .ok ()
deriving DecidableEq

/-! ### Reflections -/

structure GepaRenderedPrompt where
  text : String
  messages : Option (List Json)
deriving DecidableEq, Inhabited

structure ProposalRequestFields where
  slot : GepaEffectSlot
  candidate : List GepaCandidateComponent
  upstreamCandidateIndex : Option Nat
  componentsToUpdate : List String
  componentName : String
  renderedPrompt : GepaRenderedPrompt
  authority : GepaProposalAuthorityBinding
deriving DecidableEq

def ProposalRequestFields.validate (request : ProposalRequestFields) : Except String Unit := do
  let names := request.candidate.map GepaCandidateComponent.name
  raiseIf (names = [] ∨ ¬ names.Nodup)
    "GEPA proposal candidate components must be non-empty and unique"
  raiseIf (request.componentName = "" ∨ request.componentName ∉ request.componentsToUpdate ∨
      request.componentName ∉ names)
    "GEPA proposal component must be selected and present"
  raiseIf (¬ request.componentsToUpdate.Nodup)
    "GEPA components_to_update must preserve unique order"

structure GepaProposalEffectRequest extends ProposalRequestFields where
  valid : toProposalRequestFields.validate = .ok ()
deriving DecidableEq

def ProposalRequestFields.create (request : ProposalRequestFields) :
    Except String GepaProposalEffectRequest :=
  match h : request.validate with
  | .ok () => .ok ⟨request, h⟩
  | .error message => .error message

structure ProposalResultFields (F : Type) [FiniteFloats F] where
  requestHash : String
  rawResponse : String
  parsedComponents : List GepaCandidateComponent
  requestEvidence : List (String × Json)
  responseEvidence : List (String × Json)
  providerAttemptRefs : List TypedRef
  usage : List (String × Json)
  cost : Option (FiniteFloat F)
  failed : Bool
  failureDetail : Option String
  rejectedByParser : Bool
deriving DecidableEq

/- `not failure_detail`: neither a missing text nor an empty one is a detail. -/
def ProposalResultFields.detailed (result : ProposalResultFields F) : Bool :=
  result.failureDetail.any fun detail => detail ≠ ""

def ProposalResultFields.validate (result : ProposalResultFields F) : Except String Unit := do
  if result.failed then
    raiseIf (result.parsedComponents ≠ [] ∨ result.detailed = false)
      "failed GEPA proposal requires detail and no parsed components"
  else do
    raiseIf (result.rejectedByParser = true)
      "only a failed GEPA proposal may be rejected by the parser"
    raiseIf (result.rawResponse = "" ∨ result.parsedComponents = [] ∨ result.failureDetail ≠ none)
      "successful GEPA proposal requires raw and parsed output"
    raiseIf (result.requestEvidence.isEmpty = true ∨ result.responseEvidence.isEmpty = true ∨
        result.providerAttemptRefs = [])
      "successful GEPA proposal requires request, response, and provider-attempt evidence"
  raiseIf (¬ (result.parsedComponents.map GepaCandidateComponent.name).Nodup)
    "GEPA parsed proposal component names must be unique"

structure GepaProposalEffectResult (F : Type) [FiniteFloats F] extends ProposalResultFields F where
  valid : toProposalResultFields.validate = .ok ()
deriving DecidableEq

end Requests

/-! ### Effects -/

inductive GepaEffect (F : Type) [FiniteFloats F] where
  | evaluate (request : GepaEvaluationEffectRequest F)
  | propose (request : GepaProposalEffectRequest)
deriving DecidableEq

variable {F : Type} [FiniteFloats F]

def GepaEffect.slot : GepaEffect F → GepaEffectSlot
  | .evaluate request => request.slot
  | .propose request => request.slot

abbrev GepaEffect.Result [RewardIdentity F] : GepaEffect F → Type
  | .evaluate _ => GepaEvaluationEffectResult F
  | .propose _ => GepaProposalEffectResult F

/-- The hashes of slots, effect requests, evaluation intents and stored records. No property is
assumed. -/
class GepaIdentity (F : Type) [FiniteFloats F] [RewardIdentity F] where
  slotHash : GepaEffectSlot → String
  evaluationHash : GepaEvaluationEffectRequest F → String
  proposalHash : GepaProposalEffectRequest → String
  requestContent : GepaEffect F → String
  evaluationContent : GepaEvaluationEffectResult F → String
  proposalContent : GepaProposalEffectResult F → String
  intentHash : OptimEvalRequest → String

def GepaEffect.identityHash [RewardIdentity F] [GepaIdentity F] : GepaEffect F → String
  | .evaluate request => GepaIdentity.evaluationHash request
  | .propose request => GepaIdentity.proposalHash (F := F) request

end Whetstone.Optim.Gepa
