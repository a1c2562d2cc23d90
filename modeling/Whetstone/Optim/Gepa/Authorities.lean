import Whetstone.Optim.Gepa.Broker

/-! The evaluation authority of a harness run, the evidence and spend its steps report, and the
run itself: attempts of steps, deferred evaluations that the platform resolves between them,
and the chain of Step Results. -/
namespace Whetstone.Optim.Gepa
open Whetstone.Core Whetstone.Lib Whetstone.Experiment Whetstone.Optim.Step

section Authorities

variable {F : Type} [FiniteFloats F] [DecidableEq F] [RewardIdentity F] [GepaIdentity F]

/-! ### The evaluation authority -/

/- What the data registry and the store say of an instance, and the candidate assembler, are
   what the run is configured with. -/
structure CanonicalGepaEvalAuthority (F : Type) [FiniteFloats F] where
  binding : GepaEvalAuthorityBinding F
  controlIdentityHash : String
  rewardPolicyHash : String
  requireExact : GepaDataInstance → Except String Unit
  assemble : List GepaCandidateComponent → Except String Candidate
  dispatchMode : EvalDispatchMode

def evalRequestId (runId effectHash : String) : String := runId ++ ":gepa:" ++ effectHash

def valued {α : Type} (x : Except String α) : GepaProg F α :=
  .ofExcept (x.mapError GepaError.value)

/- `ObjectStore.bind`, which raises where another object is bound. -/
def bindOnce (key : EffectKey) (ref : TypedRef) : GepaProg F Unit := do
  let held ← performed (.resolve key)
  match held with
  | none => performed (.bind key ref)
  | some other =>
    if other = ref then return ()
    else .raise (.store "the key is bound to another object")

def projectedResult (request : GepaEvaluationEffectRequest F) (resolution : IntentResolution F)
    (rows : List (GepaEvaluationRow F)) : Except String (GepaEvaluationEffectResult F) :=
  let fields : EvaluationResultFields F :=
    ⟨GepaIdentity.evaluationHash request, rows, rows.length, some resolution⟩
  match h : fields.validate with
  | .ok () => .ok ⟨fields, h⟩
  | .error message => .error message

namespace CanonicalGepaEvalAuthority

variable (authority : CanonicalGepaEvalAuthority F)

def requireRequestBinding (request : GepaEvaluationEffectRequest F) : Except String Unit := do
  raiseIf (request.authority ≠ authority.binding)
    "GEPA evaluation request conflicts with runtime authority"
  raiseIf (request.slot.context.controlIdentityHash ≠ authority.controlIdentityHash)
    "GEPA evaluation request control drifted"

def mintIntent (request : GepaEvaluationEffectRequest F) (candidate : Candidate)
    (stepIndex : Nat) : Except String OptimEvalRequest :=
  let taskHashes := some (request.data.map GepaDataInstance.taskHash)
  match h : validateTaskHashes taskHashes with
  | .ok () => .ok {
      optimRunId := request.slot.context.runId
      optimStepIndex := stepIndex
      evalRequest := ⟨evalRequestId request.slot.context.runId (GepaIdentity.evaluationHash request),
        candidate, [("purpose", .str "gepa_metric")]⟩
      expectedRewardPolicyHash := some authority.rewardPolicyHash
      taskHashes := taskHashes
      valid := h }
  | .error message => .error message

def aliasKey (request : GepaEvaluationEffectRequest F) : EffectKey :=
  .alias request.slot.context.runId (GepaIdentity.evaluationHash request)

/- An intent that an earlier episode deferred stands in for the minted one. -/
def aliased (request : GepaEvaluationEffectRequest F) (minted : OptimEvalRequest) :
    GepaProg F OptimEvalRequest := do
  let bound ← performed (.resolve (aliasKey request))
  match bound with
  | none => return minted
  | some ref => do
    let stored ← performed (.get ref)
    match stored with
    | some (.intent intent) => return intent
    | _ => .raise (.store "the stored record is missing or does not validate")

def resolveIntent (request : GepaEvaluationEffectRequest F) (intent : OptimEvalRequest) :
    GepaProg F (IntentResolution F) := do
  let reply ← performed (.resolveIntent authority.dispatchMode intent)
  match reply with
  | .resolved resolution => return resolution
  | .raised message => .raise (.authority message)
  | .deferred => do
    let bound ← performed (.resolve (.platformIntent (GepaIdentity.intentHash F intent)))
    match bound with
    | none => .raise (.deferred intent)
    | some ref => do
      bindOnce (aliasKey request) ref
      .raise (.deferred intent)

/- The rows of a resolution are projected from its evidence, which the environment holds. -/
def evaluate (stepIndex : Nat) (request : GepaEvaluationEffectRequest F) :
    GepaProg F (GepaEvaluationEffectResult F) := do
  valued (authority.requireRequestBinding request)
  valued (request.data.forM authority.requireExact)
  let candidate ← valued (authority.assemble request.candidate)
  let minted ← valued (authority.mintIntent request candidate stepIndex)
  let intent ← aliased request minted
  let resolution ← authority.resolveIntent request intent
  performed (.collect resolution false)
  let projection ← performed (.project request resolution)
  let rows ← valued projection
  valued (projectedResult request resolution rows)

def collectReplayed (result : GepaEvaluationEffectResult F) : GepaProg F Unit :=
  match result.resolution with
  | none => .done ()
  | some resolution => performed (.collect resolution true)

/- The authority behind `begin_step`. -/
def began (stepIndex : Nat) : EvaluationAuthority F where
  collectReplayed := collectReplayed
  evaluate := authority.evaluate stepIndex

end CanonicalGepaEvalAuthority

def GepaState.beginStep (s : GepaState F) : GepaState F := { s with collected := [], spent := [] }

/-! ### Search evidence -/

def searchFields (resolution : IntentResolution F) (runId : String) (stepIndex : Nat) :
    SearchFields F where
  evalRequestId := resolution.optimEvalRequest.evalRequest.requestId
  optimRunId := runId
  optimStepIndex := stepIndex
  candidate := resolution.optimEvalRequest.evalRequest.candidate
  outcome := resolution.outcome
  evalResultRef := resolution.evalResultRef
  rewardRef := resolution.rewardRef
  rewardEvidenceRefs := resolution.rewardEvidenceRefs

def createEvidence (fields : SearchFields F) : Except String (SearchEvidence F) :=
  match h : fields.validate with
  | .ok () => .ok ⟨fields, h⟩
  | .error message => .error message

def fromResolution (resolution : IntentResolution F) (runId : String) (stepIndex : Nat) :
    Except String (SearchEvidence F) := do
  raiseIf (resolution.optimEvalRequest.optimRunId ≠ runId ∨
      resolution.optimEvalRequest.optimStepIndex ≠ stepIndex)
    "search evidence run/step must equal the resolved Optim Eval Request binding"
  createEvidence (searchFields resolution runId stepIndex)

def fromReplayedResolution (resolution : IntentResolution F) (runId : String) (stepIndex : Nat) :
    Except String (SearchEvidence F) := do
  raiseIf (resolution.optimEvalRequest.optimRunId ≠ runId)
    "replayed search evidence must belong to the exact optimization run"
  createEvidence (searchFields resolution runId stepIndex)

def evidenceOf (resolution : IntentResolution F) (replayed : Bool) (runId : String)
    (stepIndex : Nat) : Except String (SearchEvidence F) :=
  if replayed then fromReplayedResolution resolution runId stepIndex
  else fromResolution resolution runId stepIndex

/- The loop of `search_evidence`: each request id once, and none an ancestor recorded. -/
def searchEvidence (recorded : List String) (runId : String) (stepIndex : Nat) :
    List (IntentResolution F × Bool) → (emitted : List String) →
      Except String (List (SearchEvidence F))
  | [], _ => return []
  | (resolution, replayed) :: rest, emitted => do
    let requestId := resolution.optimEvalRequest.evalRequest.requestId
    if requestId ∈ recorded ∨ requestId ∈ emitted then
      searchEvidence recorded runId stepIndex rest emitted
    else
      let evidence ← evidenceOf resolution replayed runId stepIndex
      let more ← searchEvidence recorded runId stepIndex rest (emitted ++ [requestId])
      return evidence :: more

/-! ### Step Results -/

structure GepaStepResult (F : Type) [FiniteFloats F] where
  runId : String
  stepIndex : Nat
  priorStepResultRef : Option TypedRef
  status : StepStatus
  searchEvidence : List (SearchEvidence F)
  proposerUsage : List (ProposerCallUsage F)
  checkpoint : Option GepaStepCheckpoint
deriving DecidableEq

def GepaStepResult.evidenceIds (result : GepaStepResult F) : List String :=
  result.searchEvidence.map fun evidence => evidence.evalRequestId

/-- The hash of a Step Result. No property is assumed. -/
class GepaResultIdentity (F : Type) [FiniteFloats F] where
  resultHash : GepaStepResult F → String

def stepResultSchema : String := "whetstone.optim_step_result"

def GepaStepResult.ref [GepaResultIdentity F] (result : GepaStepResult F) : TypedRef :=
  ⟨stepResultSchema, GepaResultIdentity.resultHash result⟩

/- The walk of `recorded_evidence_ids` from a Step Result back to the first. -/
def recordedEvidenceIds (results : Dict TypedRef (GepaStepResult F)) :
    (left : Nat) → (seen : List TypedRef) → Option TypedRef → Except String (List String)
  | _, _, none => return []
  | 0, _, some _ => throw "the Step chain is longer than the store"
  | left + 1, seen, some ref => do
    raiseIf (ref ∈ seen)
      "GEPA Step chain cites itself; evidence cannot be reconciled against a cyclic chain"
    match results.get? ref with
    | none => throw "the store holds no object under the reference"
    | some result => do
      let earlier ← recordedEvidenceIds results left (ref :: seen) result.priorStepResultRef
      return result.evidenceIds ++ earlier

end Authorities
end Whetstone.Optim.Gepa
