import Whetstone.Optim.StepContracts

/-! What a step yields: intent resolutions, search and tool evidence, adapter outputs, step
results and the optimization result. Each is made of its fields and the check of its
constructor. -/
namespace Whetstone.Optim.Step
open Whetstone.Core Whetstone.Lib Whetstone.Experiment Whetstone.Eval Whetstone.Tools

def evalEvidenceSchema : String := "whetstone.eval_evidence"
def evalFailureSchema : String := "whetstone.eval_failure"

/- `Counter(a) - Counter(b)` is not empty. -/
def exceeds {α : Type} [DecidableEq α] (a b : List α) : Bool := ∃ x ∈ a, b.count x < a.count x

section Evidence

variable {F : Type} [FiniteFloats F]

/-! ### Intent resolutions -/

structure ResolutionDetail where
  classification : ResolutionClass
  message : String
deriving DecidableEq, Inhabited

structure ResolutionFields (F : Type) [FiniteFloats F] where
  optimEvalRequest : OptimEvalRequest
  outcome : IntentOutcome
  detail : ResolutionDetail
  evalResultRef : Option TypedRef
  rewardEvidenceRefs : List TypedRef
  resolvedEvalConfig : EvalConfig
  rewardRef : Option (Reward F)
  terminalFailure : Option TerminalFailure
deriving DecidableEq

def expectedResultSchema : IntentOutcome → Option String
  | .completed => some evalEvidenceSchema
  | .failed => some evalFailureSchema
  | .rejected => none

variable [RewardIdentity F]

namespace ResolutionFields

def validateReward (resolution : ResolutionFields F) (reward : Reward F) : Except String Unit := do
  raiseIf (reward.evidenceRefs ≠ resolution.rewardEvidenceRefs)
    ("Reward evidence_refs must exactly equal the ordered Intent Resolution " ++
      "reward_evidence_refs")
  raiseIf (some reward.rewardPolicyHash ≠ resolution.optimEvalRequest.expectedRewardPolicyHash)
    "Reward Policy must match the Evaluation Intent expected Reward Policy hash"

def validate (resolution : ResolutionFields F) : Except String Unit := do
  let outcome := resolution.outcome
  raiseIf (outcome ≠ .rejected ∧ resolution.evalResultRef = none)
    "completed/failed resolution requires an Evaluation Result"
  raiseIf (outcome = .rejected ∧ resolution.evalResultRef ≠ none)
    "pre-execution rejection must not carry an Evaluation Result"
  raiseIf (resolution.evalResultRef.any
      (fun ref => some ref.schemaName ≠ expectedResultSchema outcome) = true)
    (outcome.value ++ " eval_result_ref must use schema " ++
      quoted ((expectedResultSchema outcome).getD "None"))
  raiseIf (outcome = .completed ∧ resolution.detail.classification ≠ .measured)
    "completed resolution must be classified measured"
  raiseIf (outcome = .rejected ∧ resolution.detail.classification ≠ .validation ∧
      resolution.detail.classification ≠ .unscorable)
    "rejection must be classified validation or unscorable"
  raiseIf (¬ (outcome = .failed ↔ resolution.terminalFailure ≠ none))
    "a failed Intent Resolution requires exactly one shared terminal failure"
  raiseIf (outcome ≠ .completed ∧ resolution.rewardRef.isSome)
    "only a completed Intent Resolution may carry a Reward"
  raiseIf (resolution.optimEvalRequest.expectedRewardPolicyHash = none ∧
      resolution.rewardRef.isSome)
    "an official Intent Resolution must not carry a Reward"
  raiseIf (outcome = .completed ∧ resolution.optimEvalRequest.expectedRewardPolicyHash ≠ none ∧
      resolution.rewardRef.isNone)
    "a completed internal Intent Resolution requires a Reward"
  raiseIf (resolution.rewardRef.isNone ∧ resolution.rewardEvidenceRefs ≠ [])
    "a rewardless Intent Resolution must not carry Reward evidence refs"
  resolution.rewardRef.forM resolution.validateReward

end ResolutionFields

structure IntentResolution (F : Type) [FiniteFloats F] [RewardIdentity F] extends
    ResolutionFields F where
  valid : toResolutionFields.validate = .ok ()

instance [DecidableEq F] : DecidableEq (IntentResolution F) := fun a b =>
  decidable_of_iff (a.toResolutionFields = b.toResolutionFields)
    ⟨fun h => by cases a; cases b; cases h; rfl,
      fun h => congrArg IntentResolution.toResolutionFields h⟩

def ResolutionFields.modelValidate (resolution : ResolutionFields F) :
    Except String (IntentResolution F) :=
  match h : resolution.validate with
  | .ok () => .ok ⟨resolution, h⟩
  | .error message => .error message

/-! ### Search evidence -/

structure SearchFields (F : Type) [FiniteFloats F] where
  evalRequestId : String
  optimRunId : String
  optimStepIndex : Nat
  candidate : Candidate
  outcome : IntentOutcome
  evalResultRef : Option TypedRef
  rewardRef : Option (Reward F)
  rewardEvidenceRefs : List TypedRef
deriving DecidableEq

def SearchFields.validate (evidence : SearchFields F) : Except String Unit := do
  raiseIf (evidence.outcome ≠ .rejected ∧ evidence.evalResultRef = none)
    "completed/failed search evidence requires an Evaluation Result ref"
  raiseIf (evidence.outcome = .rejected ∧ evidence.evalResultRef ≠ none)
    "rejected search evidence carries no Evaluation Result ref"
  raiseIf (evidence.rewardRef.isNone ∧ evidence.rewardEvidenceRefs ≠ [])
    "rewardless search evidence carries no Reward evidence refs"
  raiseIf (evidence.rewardRef.any
      (fun reward => reward.evidenceRefs ≠ evidence.rewardEvidenceRefs) = true)
    "search evidence reward_evidence_refs must equal the ordered Reward evidence refs"

structure SearchEvidence (F : Type) [FiniteFloats F] extends SearchFields F where
  valid : toSearchFields.validate = .ok ()
deriving DecidableEq

def SearchEvidence.evidenceRefs (evidence : SearchEvidence F) : List TypedRef :=
  evidence.evalResultRef.toList ++ (evidence.rewardRef.map rewardReference).toList ++
    evidence.rewardEvidenceRefs

/-! ### Tool evidence -/

variable [DecidableEq F] [ResultIdentity F] [ToolIdentity]

def validateCompletedEvidence (result : ToolResult F) (entry : ToolCallStoreEntry) :
    Except String Unit := do
  match entry.effectTerminal with
  | none => throw "completed Tool Call Store entry lost its EffectTerminal"
  | some terminal =>
    match terminal.outcome with
    | .succeeded =>
      raiseIf (result.output.isNone ∨ result.refusal.isSome ∨ result.terminalFailure.isSome)
        "succeeded EffectTerminal requires the exact successful Tool Result"
    | .failed =>
      raiseIf (result.output.isSome ∨ result.refusal.isSome ∨
          result.terminalFailure ≠ terminal.failure)
        ("failed EffectTerminal failure must exactly equal the Tool Result terminal failure")
    | .recoveryRequired => throw "recovery-required effects have no completed Tool Evidence"
  raiseIf (entry.capacityDebitOrdinal ≠ result.provenanceOrdinal)
    ("completed Tool Evidence capacity debit ordinal must exactly equal the Tool Result " ++
      "provenance ordinal")

def validateToolEvidence (result : ToolResult F) (entry : ToolCallStoreEntry) :
    Except String Unit := do
  raiseIf (entry.toolCall ≠ result.call) "Tool Evidence store entry must cite the exact Tool Call"
  raiseIf (entry.toolResultRef ≠ some (toolResultReference result))
    "Tool Evidence store entry must cite the exact Tool Result"
  match entry.state with
  | .refused =>
    raiseIf (result.output.isSome ∨ result.terminalFailure.isSome)
      "refused Tool Evidence result has no output or terminal failure"
    raiseIf (entry.refusal ≠ result.refusal)
      "refused Tool Evidence requires the exact Tool Result refusal"
  | .accepted => throw "Tool Evidence requires a terminal store entry"
  | .completed => validateCompletedEvidence result entry

structure ToolEvidence (F : Type) [FiniteFloats F] [DecidableEq F] [RewardIdentity F]
    [ResultIdentity F] [ToolIdentity] where
  result : ToolResult F
  storeEntry : ToolCallStoreEntry
  valid : validateToolEvidence result storeEntry = .ok ()

instance : DecidableEq (ToolEvidence F) := fun a b =>
  decidable_of_iff (a.result = b.result ∧ a.storeEntry = b.storeEntry)
    ⟨fun h => by cases a; cases b; cases h.1; cases h.2; rfl, fun h => by cases h; exact ⟨rfl, rfl⟩⟩

end Evidence

/-! ### Shared terminal failures -/

def supersededFailureCodesKey : String := "superseded_failure_codes"

def textOf : Json → Option String
  | .str text => some text
  | _ => none

/- The codes a failure says it stands for: a list of strings under the reserved key. -/
def supersededCodes (failure : TerminalFailure) : Option (List String) :=
  match failure.details with
  | .obj fields =>
    match fields.lookup supersededFailureCodesKey with
    | some (.arr items) => items.mapM textOf
    | _ => none
  | _ => none

def validateSupersession (outer : TerminalFailure) (nested : List TerminalFailure) :
    Except String Unit :=
  match supersededCodes outer with
  | none => .error
      ("a Step Result whose nested terminal failures differ from its own must record them as a " ++
        "list of string codes under " ++ quoted supersededFailureCodesKey)
  | some codes => raiseIf (¬ codes.Perm (nested.map TerminalFailure.code))
      ("a superseding Step failure must name the exact set of nested terminal failure codes it " ++
        "stands for")

def validateSharedTerminalFailure (outer : Option TerminalFailure) (nested : List TerminalFailure)
    (supersessionAllowed : Bool) : Except String Unit :=
  match outer with
  | none => .ok ()
  | some failure =>
    if ∀ other ∈ nested, other = failure then .ok ()
    else if supersessionAllowed = false then .error
      ("a Step Result whose nested terminal failures carry no tool evidence must adopt the " ++
        "exact nested terminal failure")
    else validateSupersession failure nested

/-! ### Adapter outputs -/

section Outputs

variable {F : Type} [FiniteFloats F]

structure OutputFields (F : Type) [FiniteFloats F] where
  proposedCandidates : List Candidate
  acceptedCandidates : List Candidate
  optimEvalRequests : List OptimEvalRequest
  searchEvidence : List (SearchEvidence F)
  budgetDelta : BudgetDelta
  proposedStatus : StepStatus
  terminalFailure : Option TerminalFailure
  seedRetained : Bool
  retainedCandidate : Option Candidate
  proposerUsage : List (ProposerCallUsage F)
  stateDelta : List (String × Json)
  historyDelta : List (String × Json)
deriving DecidableEq

def OutputFields.validateSeed (output : OutputFields F) : Except String Unit :=
  if output.seedRetained then do
    raiseIf (output.proposedStatus ≠ .complete) "only a COMPLETE Adapter Output may retain the seed"
    raiseIf (output.acceptedCandidates ≠ [])
      "a seed-retaining Adapter Output accepts no candidates"
    raiseIf (output.retainedCandidate = none)
      "a seed-retaining Adapter Output must name the retained candidate"
  else raiseIf (output.retainedCandidate ≠ none)
    "only a seed-retaining Adapter Output names a retained candidate"

def OutputFields.validate (output : OutputFields F) : Except String Unit := do
  raiseIf (¬ (output.proposedStatus = .failed ↔ output.terminalFailure ≠ none))
    "a failed Adapter Output requires exactly one shared terminal failure"
  raiseIf (output.proposedStatus = .failed ∧ output.acceptedCandidates ≠ [])
    "a failed Adapter Output claims no accepted candidates"
  raiseIf (output.proposedStatus = .failed ∧ output.optimEvalRequests ≠ [])
    "a failed Adapter Output requests no Evaluations"
  output.validateSeed
  raiseIf (¬ (output.searchEvidence.map fun evidence => evidence.evalRequestId).Nodup)
    "Adapter Output search evidence Eval Request IDs must be unique"

structure AdapterOutput (F : Type) [FiniteFloats F] extends OutputFields F where
  valid : toOutputFields.validate = .ok ()
deriving DecidableEq

structure AdapterCheckpoint (F : Type) [FiniteFloats F] where
  requestRef : TypedRef
  adapterKey : String
  output : AdapterOutput F
deriving DecidableEq

end Outputs

/-! ### Step results -/

structure StepResultOf (Request Resolution Search Tool Usage : Type) where
  request : Request
  proposedCandidates : List Candidate
  acceptedCandidates : List Candidate
  resolvedIntents : List Resolution
  searchEvidence : List Search
  toolEvidence : List Tool
  proposerUsage : List Usage
  stateRef : Option TypedRef
  historyRef : Option TypedRef
  budgetDelta : BudgetDelta
  budget : BudgetState
  status : StepStatus
  terminalFailure : Option TerminalFailure
  seedRetained : Bool
  retainedCandidateRef : Option Candidate
  provenanceNote : Option String
  provenanceOrdinal : Option Nat
deriving DecidableEq

/- A proposal is the candidate it names. -/
structure OptimResultOf (Run StepResult Cost : Type) where
  run : Run
  proposals : List Candidate
  stepResults : List StepResult
  cost : Cost
  terminalFailure : Option TerminalFailure
  seedRetained : Bool
  provenanceNote : Option String
  provenanceOrdinal : Option Nat
deriving DecidableEq

section Results

variable [PyIdentifiers] [CandidateIdentity] [ToolIdentity]
variable {F : Type} [FiniteFloats F] [DecidableEq F] [RewardIdentity F] [ResultIdentity F]
variable [RequestIdentity F]

abbrev StepResultFields (F : Type) [FiniteFloats F] [DecidableEq F] [RewardIdentity F]
    [ResultIdentity F] :=
  StepResultOf (OptimStepRequest F) (IntentResolution F) (SearchEvidence F) (ToolEvidence F)
    (ProposerCallUsage F)

/- The request's candidates by their references; of two with one reference the later counts. -/
def requestBases (request : OptimStepRequest F) : Dict TypedRef Candidate :=
  Dict.ofPairs (request.candidates.map fun candidate => (candidate.recordRef, candidate))

namespace StepResultFields

def validateEvidenceModes (result : StepResultFields F) : Except String Unit := do
  raiseIf ((result.resolvedIntents ≠ [] ∨ result.searchEvidence ≠ []) ∧ result.toolEvidence ≠ [])
    "a Step Result carries intent or tool evidence, never both"
  raiseIf (result.request.mode = .pure ∧ (result.resolvedIntents ≠ [] ∨
      result.searchEvidence ≠ [] ∨ result.toolEvidence ≠ []))
    "a pure Step Result carries no execution evidence"
  raiseIf (result.request.mode = .proposalOnly ∧ result.toolEvidence ≠ [])
    "a proposal-only Step Result carries only Intent Resolutions"
  raiseIf (result.request.mode = .toolUsing ∧
      (result.resolvedIntents ≠ [] ∨ result.searchEvidence ≠ []))
    "a tool-using Step Result carries only Tool Evidence"

def validatePure (result : StepResultFields F) : Except String Unit := do
  let requested := result.request.candidates.map Candidate.recordRef
  raiseIf (¬ (result.proposedCandidates.map Candidate.recordRef).Perm requested)
    ("a pure Step Result proposed candidate multiset must exactly equal the request candidate " ++
      "multiset")
  raiseIf (result.status ≠ .failed ∧
      ¬ (result.acceptedCandidates.map Candidate.recordRef).Perm requested)
    ("a pure Step Result accepted candidate multiset must exactly equal the request candidate " ++
      "multiset")

def validateBase (result : StepResultFields F) (proposed : Candidate) : Except String Unit :=
  match (requestBases result.request).get? proposed.baseRef with
  | none => .error "every effectful proposed candidate must bind an exact request base"
  | some base =>
    (diffCheck result.request.run.mutationField base proposed).mapError fun error =>
      "every effectful proposed candidate must satisfy the canonical Mutation Surface: " ++ error

def validateSources (result : StepResultFields F) : Except String Unit :=
  if result.request.mode = .pure then result.validatePure
  else result.proposedCandidates.forM result.validateBase

def validateResolved (result : StepResultFields F) (resolution : IntentResolution F) :
    Except String Unit := do
  let intent := resolution.optimEvalRequest
  raiseIf (intent.optimRunId ≠ result.request.runId)
    "every resolved Intent must belong to the exact request run"
  raiseIf (intent.optimStepIndex ≠ result.request.stepIndex)
    "every resolved Intent must belong to the exact request step"
  raiseIf (intent.evalRequest.candidate ∉ result.request.candidates ++ result.proposedCandidates)
    "every resolved Intent must cite an exact request, or proposed candidate"
  match result.request.run.rewardPolicy with
  | none => throw "a resolved proposal Intent requires the exact run Reward Policy"
  | some policy =>
    raiseIf (intent.expectedRewardPolicyHash.any
        (fun hash => hash ≠ RewardIdentity.rewardPolicyHash policy) = true)
      "every resolved Intent must expect the exact run Reward Policy"
    raiseIf (resolution.rewardRef.any (fun reward => reward.rewardPolicy ≠ policy) = true)
      "every resolved Reward must carry the exact run Reward Policy"

def validateIntents (result : StepResultFields F) : Except String Unit := do
  raiseIf (¬ (result.resolvedIntents.map
      fun resolution => resolution.optimEvalRequest.evalRequest.requestId).Nodup)
    "a Step Result must not carry duplicate Eval Request IDs"
  raiseIf (¬ (result.resolvedIntents.map fun resolution => resolution.optimEvalRequest).Nodup)
    "a Step Result must not carry duplicate Intent Resolutions"
  result.resolvedIntents.forM result.validateResolved

/- The subject a call of a scope must have been issued for. -/
def capacitySubject (request : OptimStepRequest F) : ToolCapacityScope → Option TypedRef
  | .run => some request.run.recordRef
  | .step => some request.recordRef
  | .global => none

def validateTool (result : StepResultFields F) (evidence : ToolEvidence F) :
    Except String Unit := do
  let call := evidence.result.call
  raiseIf (call.toolConfig ∉ result.request.toolConfigs)
    "every Tool Evidence call must use an exact request Tool Config"
  raiseIf (call.capacityBinding.subjectRef ≠
      capacitySubject result.request call.capacityBinding.scope)
    "every Tool Evidence call must bind exact request capacity authority"

/- The failures of the evidence, in the order of the two channels. -/
def nestedFailures (result : StepResultFields F) : List TerminalFailure :=
  (result.resolvedIntents.filterMap fun resolution => resolution.terminalFailure) ++
    result.toolEvidence.filterMap fun evidence => evidence.result.terminalFailure

def validateFailure (result : StepResultFields F) : Except String Unit := do
  raiseIf (¬ (result.status = .failed ↔ result.terminalFailure ≠ none))
    "a failed Step Result requires exactly one shared terminal failure"
  raiseIf (result.status = .failed ∧ result.acceptedCandidates ≠ [])
    "a failed Step Result claims no accepted candidates"
  if result.status = .failed then
    validateSharedTerminalFailure result.terminalFailure result.nestedFailures
      (result.toolEvidence ≠ [])

def validateSeed (result : StepResultFields F) : Except String Unit :=
  if result.seedRetained then do
    raiseIf (result.status ≠ .complete) "only a COMPLETE Step Result may retain the seed"
    raiseIf (result.acceptedCandidates ≠ []) "a seed-retaining Step Result accepts no candidates"
    raiseIf (result.request.stepOutputContract.terminalProposalCount = none)
      "only a Step whose output contract sets terminal_proposal_count may retain the seed"
    raiseIf (result.request.run.initialCandidateRef = none)
      "a seed-retaining Step Result requires the run to name its initial_candidate_ref"
    raiseIf (result.retainedCandidateRef ≠ result.request.run.initialCandidateRef)
      "a seed-retaining Step Result must retain the exact run initial candidate"
  else raiseIf (result.retainedCandidateRef ≠ none)
    "only a seed-retaining Step Result names a retained candidate"

/- Whether the number of accepted candidates is one the contract admits. -/
def admitted (contract : OutputContract) (status : StepStatus) (seedRetained : Bool)
    (accepted : Nat) : Bool :=
  if seedRetained then accepted = 0 else contract.admitsAcceptedCount status accepted

def validateCardinality (result : StepResultFields F) : Except String Unit := do
  if result.status ≠ .failed then
    let contract := result.request.stepOutputContract
    raiseIf (admitted contract result.status result.seedRetained
        result.acceptedCandidates.length = false)
      "Step Result violates returned proposal cardinality"
    raiseIf (contract.requireDistinctBases ∧ ¬ (result.proposedCandidates.map Candidate.baseRef).Nodup)
      "Step Result violates the distinct-base output contract"

def validateBudget (result : StepResultFields F) : Except String Unit := do
  let expected ← result.request.budget.debit result.budgetDelta
  raiseIf (result.budget.same expected = false)
    "Step Result budget must exactly debit its Step Request budget"

def validate (result : StepResultFields F) : Except String Unit := do
  validateTemplates "proposed" result.request.run result.proposedCandidates
  validateTemplates "accepted" result.request.run result.acceptedCandidates
  result.validateEvidenceModes
  raiseIf (¬ (result.searchEvidence.map fun evidence => evidence.evalRequestId).Nodup)
    "a Step Result must not carry duplicate search evidence Eval Request IDs"
  result.validateSources
  result.validateIntents
  result.toolEvidence.forM result.validateTool
  result.validateFailure
  result.validateSeed
  result.validateCardinality
  raiseIf (exceeds (result.acceptedCandidates.map Candidate.recordRef)
      (result.proposedCandidates.map Candidate.recordRef))
    "accepted candidate multiset must be contained in proposed candidate multiset"
  raiseIf (result.status = .complete ∧ result.request.stepOutputContract.honorsTerminal
      result.request.run.terminalOutputContract = false)
    "a COMPLETE Step must honor the run terminal output contract"
  result.validateBudget

end StepResultFields

structure OptimStepResult (F : Type) [FiniteFloats F] [DecidableEq F] [RewardIdentity F]
    [ResultIdentity F] [RequestIdentity F] where
  fields : StepResultFields F
  valid : fields.validate = .ok ()

instance : DecidableEq (OptimStepResult F) := fun a b =>
  decidable_of_iff (a.fields = b.fields)
    ⟨fun h => by cases a; cases b; cases h; rfl, fun h => congrArg OptimStepResult.fields h⟩

def StepResultFields.modelValidate (result : StepResultFields F) :
    Except String (OptimStepResult F) :=
  match h : result.validate with
  | .ok () => .ok ⟨result, h⟩
  | .error message => .error message

namespace OptimStepResult

def request (result : OptimStepResult F) : OptimStepRequest F := result.fields.request
def runId (result : OptimStepResult F) : String := result.request.runId
def stepIndex (result : OptimStepResult F) : Nat := result.request.stepIndex
def status (result : OptimStepResult F) : StepStatus := result.fields.status

end OptimStepResult

/-- The content hash of a step result. No property is assumed. -/
class StepResultIdentity (F : Type) [FiniteFloats F] [DecidableEq F] [RewardIdentity F]
    [ResultIdentity F] [RequestIdentity F] where
  stepResultHash : OptimStepResult F → String

def OptimStepResult.recordRef [StepResultIdentity F] (result : OptimStepResult F) : TypedRef :=
  ⟨stepResultSchema, StepResultIdentity.stepResultHash result⟩

/-! ### The optimization result -/

variable [StepResultIdentity F]

abbrev OptimResultFields (F : Type) [FiniteFloats F] [DecidableEq F] [RewardIdentity F]
    [ResultIdentity F] [RequestIdentity F] :=
  OptimResultOf (OptimRun F) (OptimStepResult F) (RunCostReport F)

namespace OptimResultFields

/- A step result against the one before it, if there is one, and its place in the list. -/
def validateStep (optim : OptimResultFields F) (prior : Option (OptimStepResult F))
    (index : Nat) (result : OptimStepResult F) : Except String Unit := do
  raiseIf (result.stepIndex ≠ index) "Step Result indices must be contiguous from zero"
  raiseIf (result.request.run ≠ optim.run) "every Step Result request must belong to the exact run"
  raiseIf (index ≠ optim.stepResults.length - 1 ∧ result.status ≠ .continuing)
    "only the final Step Result may have terminal status"
  match prior with
  | none => .ok ()
  | some prior =>
    raiseIf (result.request.priorStepResultRef ≠ some prior.recordRef)
      "each later Step Request must cite the prior exact result"
    raiseIf (result.request.priorStateRef ≠ prior.fields.stateRef)
      "each later Step Request must carry the prior exact state"
    raiseIf (result.request.priorHistoryRef ≠ prior.fields.historyRef)
      "each later Step Request must carry the prior exact history"
    raiseIf (result.request.budget.same prior.fields.budget = false)
      "each later Step Request must carry the prior exact budget"

def validateSteps (optim : OptimResultFields F) :
    Option (OptimStepResult F) → Nat → List (OptimStepResult F) → Except String Unit
  | _, _, [] => .ok ()
  | prior, index, result :: rest => do
    optim.validateStep prior index result
    optim.validateSteps (some result) (index + 1) rest

def validateProposals (optim : OptimResultFields F) (last : OptimStepResult F) :
    Except String Unit := do
  raiseIf (optim.proposals ≠ last.fields.acceptedCandidates)
    "successful proposals must exactly derive from final accepted candidates"
  let contract := optim.run.terminalOutputContract
  raiseIf (optim.proposals.length ≠
      (if optim.seedRetained then 0 else contract.acceptedCountFor .complete))
    "Optimization Result violates terminal proposal cardinality"

def validate (optim : OptimResultFields F) : Except String Unit := do
  match optim.stepResults.getLast? with
  | none => throw "an Optimization Result composes every ordered Step Result"
  | some last =>
    optim.validateSteps none 0 optim.stepResults
    raiseIf (last.status = .continuing) "the final Step Result must have terminal status"
    raiseIf (optim.terminalFailure ≠ last.fields.terminalFailure)
      "Optimization Result failure must match the final Step Result"
    raiseIf (optim.seedRetained ≠ last.fields.seedRetained)
      "Optimization Result seed_retained must match the final Step Result"
    raiseIf (last.status = .failed ∧ optim.proposals ≠ [])
      "a failed Optimization Result claims no proposals"
    if last.status = .complete then optim.validateProposals last

end OptimResultFields

structure OptimResult (F : Type) [FiniteFloats F] [DecidableEq F] [RewardIdentity F]
    [ResultIdentity F] [RequestIdentity F] [StepResultIdentity F] where
  fields : OptimResultFields F
  valid : fields.validate = .ok ()

instance : DecidableEq (OptimResult F) := fun a b =>
  decidable_of_iff (a.fields = b.fields)
    ⟨fun h => by cases a; cases b; cases h; rfl, fun h => congrArg OptimResult.fields h⟩

def OptimResultFields.modelValidate (optim : OptimResultFields F) :
    Except String (OptimResult F) :=
  match h : optim.validate with
  | .ok () => .ok ⟨optim, h⟩
  | .error message => .error message

end Results
end Whetstone.Optim.Step
