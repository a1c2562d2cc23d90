import Whetstone.Experiment.Candidate
import Whetstone.Optim.Cost
import Whetstone.Tools.Results

/-! The records of one optimization step and what their constructors check. Ids and budget
labels that the source requires to be non-empty are plain strings, since nothing else here
depends on it. A reference that a constructor ties to its record is the record. -/
namespace Whetstone.Optim.Step
open Whetstone.Core Whetstone.Lib Whetstone.Experiment Whetstone.Eval Whetstone.Tools

inductive StepMode where
  | pure
  | proposalOnly
  | toolUsing
deriving DecidableEq, Inhabited

inductive StepKind where
  | identity
  | proposal
  | tool
deriving DecidableEq, Inhabited

inductive StepStatus where
  | continuing
  | complete
  | failed
deriving DecidableEq, Inhabited

inductive IntentOutcome where
  | completed
  | rejected
  | failed
deriving DecidableEq, Inhabited

inductive ResolutionClass where
  | measured
  | validation
  | unscorable
  | provider
  | infrastructure
deriving DecidableEq, Inhabited

def IntentOutcome.value : IntentOutcome → String
  | .completed => "completed"
  | .rejected => "rejected"
  | .failed => "failed"

/-! ### Output contracts -/

def validateShortfallFloor (returned : Nat) : Option Nat → Except String Unit
  | none => .ok ()
  | some floor => do
    raiseIf (returned < floor)
      "min_returned_proposal_count cannot exceed the requested returned_proposal_count"
    raiseIf (floor < 1)
      ("min_returned_proposal_count must be at least 1: a round that realized nothing has no " ++
        "proposals to continue on")

structure OutputContract where
  returnedProposalCount : Nat
  terminalProposalCount : Option Nat
  minReturnedProposalCount : Option Nat
  requireDistinctBases : Bool
  valid : validateShortfallFloor returnedProposalCount minReturnedProposalCount = .ok ()
deriving DecidableEq

namespace OutputContract

def acceptedCountFor (contract : OutputContract) : StepStatus → Nat
  | .failed => 0
  | .complete => contract.terminalProposalCount.getD contract.returnedProposalCount
  | .continuing => contract.returnedProposalCount

def admitsAcceptedCount (contract : OutputContract) (status : StepStatus) (count : Nat) : Bool :=
  let expected := contract.acceptedCountFor status
  match status, contract.minReturnedProposalCount with
  | .continuing, some floor => floor ≤ count ∧ count ≤ expected
  | _, _ => count = expected

def honorsTerminal (contract terminal : OutputContract) : Bool :=
  contract.acceptedCountFor .complete = terminal.acceptedCountFor .complete ∧
    contract.requireDistinctBases = terminal.requireDistinctBases

end OutputContract

/-! ### Budgets -/

structure BudgetDelta where
  consumed : Dict String Nat
deriving DecidableEq

structure BudgetState where
  consumed : Dict String Nat
  remaining : Dict String Nat
deriving DecidableEq

/- `==` on budgets, whose labels have no order. -/
def BudgetState.same (a b : BudgetState) : Bool :=
  a.consumed.sameItems b.consumed && a.remaining.sameItems b.remaining

def BudgetState.debitLabel (budget : BudgetState) (entry : String × Nat) :
    Except String BudgetState :=
  match budget.remaining.get? entry.1 with
  | none => .error ("adapter consumed undeclared budget " ++ quoted entry.1)
  | some left =>
    if left < entry.2 then
      .error ("adapter consumed " ++ toString entry.2 ++ " " ++ quoted entry.1 ++ ", but only " ++
        toString left ++ " remains")
    else .ok
      { consumed := budget.consumed.set entry.1 ((budget.consumed.get? entry.1).getD 0 + entry.2)
        remaining := budget.remaining.set entry.1 (left - entry.2) }

def BudgetState.debit (budget : BudgetState) (delta : BudgetDelta) : Except String BudgetState :=
  delta.consumed.pairs.foldlM debitLabel budget

/-! ### Requests -/

structure EvalRequest where
  requestId : String
  candidate : Candidate
  metadata : List (String × Json)
deriving DecidableEq, Inhabited

def validateTaskHashes : Option (List String) → Except String Unit
  | none => .ok ()
  | some hashes => do
    raiseIf (hashes = [])
      ("an Optim Eval Request task subset must not be empty; omit it to evaluate the full " ++
        "task set")
    raiseIf (¬ hashes.Nodup) "an Optim Eval Request task subset must be unique"

structure OptimEvalRequest where
  optimRunId : String
  optimStepIndex : Nat
  evalRequest : EvalRequest
  expectedRewardPolicyHash : Option String
  taskHashes : Option (List String)
  valid : validateTaskHashes taskHashes = .ok ()
deriving DecidableEq

structure IdentityRef where
  recordRef : TypedRef
  recordHash : String
deriving DecidableEq, Inhabited

variable [PyIdentifiers] [CandidateIdentity] [ToolIdentity]
variable {F : Type} [FiniteFloats F]

structure RunFields (F : Type) [FiniteFloats F] where
  runId : String
  optimizerConfig : IdentityRef
  adapterKey : String
  mode : StepMode
  terminalOutputContract : OutputContract
  templateRenderContract : TemplateRenderContract
  initialCandidateRef : Option Candidate
  mutationField : String
  rewardPolicy : Option (RewardPolicy F)
  toolConfigs : List ToolConfig
deriving DecidableEq

def RunFields.validate (run : RunFields F) : Except String Unit := do
  run.templateRenderContract.validate
  raiseIf (run.mode = .proposalOnly ∧ run.rewardPolicy.isNone)
    "a proposal-only run requires an exact Reward Policy"
  raiseIf (run.mode ≠ .proposalOnly ∧ run.rewardPolicy.isSome)
    "only a proposal-only run may carry a Reward Policy"
  raiseIf (run.mode ≠ .toolUsing ∧ run.toolConfigs ≠ [])
    "only tool-using runs may carry Tool Configs"
  raiseIf (run.mode = .toolUsing ∧ run.toolConfigs = []) "a tool-using run requires a Tool Config"
  raiseIf (¬ (run.toolConfigs.map ToolIdentity.toolConfigHash).Nodup)
    "Optimization Run Tool Configs must be unique"

structure OptimRun (F : Type) [FiniteFloats F] [PyIdentifiers] [ToolIdentity] extends RunFields F where
  valid : toRunFields.validate = .ok ()

instance [DecidableEq F] : DecidableEq (OptimRun F) := fun a b =>
  decidable_of_iff (a.toRunFields = b.toRunFields)
    ⟨fun h => by cases a; cases b; cases h; rfl, fun h => congrArg OptimRun.toRunFields h⟩

def validateCandidateTemplate (candidate : Candidate) (run : OptimRun F) : Except String Unit := do
  let _ ← run.templateRenderContract.validateTemplate (candidate.payload.lookup run.mutationField)

structure OptimStepRequest (F : Type) [FiniteFloats F] [PyIdentifiers] [ToolIdentity] where
  run : OptimRun F
  stepId : String
  kind : StepKind
  kindLabel : Option String
  stepIndex : Nat
  priorStepResultRef : Option TypedRef
  priorStateRef : Option TypedRef
  priorHistoryRef : Option TypedRef
  candidates : List Candidate
  pools : List (String × Json)
  hyperparameters : List (String × Json)
  budget : BudgetState
  stepOutputContract : OutputContract
deriving DecidableEq

def stepResultSchema : String := "whetstone.optim_step_result"

/- A template check under the name of the list the candidate stands in. -/
def validateTemplates (label : String) (run : OptimRun F) (candidates : List Candidate) :
    Except String Unit :=
  candidates.forM fun candidate => (validateCandidateTemplate candidate run).mapError fun error =>
    "every " ++ label ++ " candidate must satisfy the exact run template contract: " ++ error

namespace OptimStepRequest

def runId (request : OptimStepRequest F) : String := request.run.runId
def adapterKey (request : OptimStepRequest F) : String := request.run.adapterKey
def mode (request : OptimStepRequest F) : StepMode := request.run.mode
def toolConfigs (request : OptimStepRequest F) : List ToolConfig := request.run.toolConfigs

def validate (request : OptimStepRequest F) : Except String Unit := do
  raiseIf (request.stepIndex = 0 ∧ (request.priorStepResultRef ≠ none ∨
      request.priorStateRef ≠ none ∨ request.priorHistoryRef ≠ none))
    "the initial Step Request carries no prior refs"
  raiseIf (0 < request.stepIndex ∧ request.priorStepResultRef = none)
    "a noninitial Step Request must reference the prior result"
  raiseIf (request.priorStepResultRef.any (fun ref => ref.schemaName ≠ stepResultSchema) = true)
    "prior_step_result_ref must be a typed Step Result ref"
  raiseIf (request.mode = .pure ∧ request.kind ≠ .identity) "a pure step must be the identity kind"
  validateTemplates "Step Request" request.run request.candidates

end OptimStepRequest

def optimRunSchema : String := "whetstone.optim_run"
def stepRequestSchema : String := "whetstone.optim_step_request"

/-- The content hashes of runs and requests. No property is assumed. -/
class RequestIdentity (F : Type) [FiniteFloats F] [PyIdentifiers] [ToolIdentity] where
  runHash : OptimRun F → String
  requestHash : OptimStepRequest F → String

variable [RequestIdentity F]

def OptimRun.recordRef (run : OptimRun F) : TypedRef :=
  ⟨optimRunSchema, RequestIdentity.runHash run⟩

def OptimStepRequest.recordRef (request : OptimStepRequest F) : TypedRef :=
  ⟨stepRequestSchema, RequestIdentity.requestHash request⟩

end Whetstone.Optim.Step
