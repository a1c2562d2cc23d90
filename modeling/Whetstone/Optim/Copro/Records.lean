import Whetstone.Optim.StepResults
import Whetstone.Lib.Text

/-! The records of COPRO: its control, the attempts it has measured and the state they fold to.
Rewards are finite floats, which are exact rationals. -/
namespace Whetstone.Optim.Copro
open Whetstone.Core Whetstone.Lib Whetstone.Experiment Whetstone.Eval Whetstone.Optim.Step

attribute [local instance] exactFiniteFloats

/-! ### The control -/

def validateRounds (breadth depth : Nat) : Except String Unit := do
  raiseIf (breadth ≤ 1) "COPRO breadth must be greater than 1"
  raiseIf (depth < 1) "COPRO depth must be positive"

structure CoproConfig where
  breadth : Nat
  depth : Nat
  trackStats : Bool
  valid : validateRounds breadth depth = .ok ()
deriving DecidableEq

structure ProposalContractFields where
  contractVersion : String
  targetName : String
  taskContext : String
  outputRule : String
deriving DecidableEq

def ProposalContractFields.validate (contract : ProposalContractFields) : Except String Unit := do
  raiseIf (strip contract.targetName = "") "target_name must be non-empty"
  raiseIf (strip contract.taskContext = "") "task_context must be non-empty"
  raiseIf (strip contract.outputRule = "") "output_rule must be non-empty"

structure CoproProposalContractRecord extends ProposalContractFields where
  valid : toProposalContractFields.validate = .ok ()
deriving DecidableEq

namespace CoproProposalContractRecord

def validateMutation (_contract : CoproProposalContractRecord) (body : String) :
    Except String Unit :=
  raiseIf (strip body = "") "proposal mutation body must be non-empty text"

def validateInstruction (contract : CoproProposalContractRecord) (body : String) :
    Except String Unit :=
  contract.validateMutation body

def json (contract : CoproProposalContractRecord) : List (String × Json) :=
  [("contract_version", .str contract.contractVersion), ("output_rule", .str contract.outputRule),
    ("target_name", .str contract.targetName), ("task_context", .str contract.taskContext)]

end CoproProposalContractRecord

def coproAlgorithmVersion : String := "dspy_copro_single_prompt/v1"
def coproProposalPromptSchemaTag : String := "copro-pp2"

/- `temperature` is that of a provider proposer, and `none` otherwise. -/
structure ControlFields where
  temperature : Option Rat
  proposalContract : CoproProposalContractRecord
  evalConfigRef : EvalConfig
  evalRole : EvalRole
  providerExecutionPolicyRef : Option IdentityRef
  expectedRewardPolicyHash : String
  breadth : Nat
  depth : Nat
  trackStats : Bool
  providerExecutionPolicyHash : String
  promptAdapterIdentityHash : String
  algorithmVersion : String
  proposalPromptSchemaTag : String
deriving DecidableEq

def ControlFields.validate (control : ControlFields) : Except String Unit := do
  validateRounds control.breadth control.depth
  raiseIf (control.temperature ≠ none) "COPRO provider proposer must leave temperature unset"
  requireFullHash control.expectedRewardPolicyHash "expected_reward_policy_hash"
  requireFullHash control.providerExecutionPolicyHash "provider_execution_policy_hash"
  requireFullHash control.promptAdapterIdentityHash "prompt_adapter_identity_hash"
  raiseIf (control.evalRole ≠ .internal) "COPRO requires internal evaluation"
  raiseIf (control.algorithmVersion ≠ coproAlgorithmVersion) "COPRO algorithm_version is fixed"
  raiseIf (control.proposalPromptSchemaTag ≠ coproProposalPromptSchemaTag)
    "COPRO proposal prompt schema tag is fixed"

structure CoproControl extends ControlFields where
  valid : toControlFields.validate = .ok ()
deriving DecidableEq

theorem CoproControl.rounds_valid (control : CoproControl) :
    validateRounds control.breadth control.depth = .ok () := by
  have h := control.valid
  unfold ControlFields.validate at h
  rw [check_bind_eq_ok] at h
  exact h.1

def CoproControl.config (control : CoproControl) : CoproConfig :=
  ⟨control.breadth, control.depth, control.trackStats, control.rounds_valid⟩

/-- The reference of a control and the JSON forms that its hyperparameters cite. No property is
assumed. -/
class CoproIdentity where
  controlReference : CoproControl → IdentityRef
  evalConfigJson : EvalConfig → Json
  identityRefJson : IdentityRef → Json

def evalRoleValue : EvalRole → String
  | .internal => "internal"
  | .official => "official"
  | .heldOut => "held_out"

/- `step_hyperparameters`, with its fields in canonical order. -/
def CoproControl.stepHyperparameters [CoproIdentity] (control : CoproControl) (iteration : Int) :
    Except String (List (String × Json)) := do
  raiseIf (iteration < 0 ∨ control.depth ≤ iteration) "COPRO iteration exceeds configured depth"
  return [("algorithm_version", .str control.algorithmVersion),
    ("breadth", .int control.breadth), ("depth", .int control.depth),
    ("eval_config_ref", CoproIdentity.evalConfigJson control.evalConfigRef),
    ("eval_role", .str (evalRoleValue control.evalRole)),
    ("expected_reward_policy_hash", .str control.expectedRewardPolicyHash),
    ("prompt_adapter_identity_hash", .str control.promptAdapterIdentityHash),
    ("proposal_contract", .obj control.proposalContract.json),
    ("proposal_prompt_schema_tag", .str control.proposalPromptSchemaTag),
    ("provider_execution_policy_hash", .str control.providerExecutionPolicyHash),
    ("provider_execution_policy_ref",
      (control.providerExecutionPolicyRef.map CoproIdentity.identityRefJson).getD .null),
    ("round_index", .int iteration), ("track_stats", .bool control.trackStats)]

/-! ### Attempts -/

section Attempts

variable [RewardIdentity Rat]

structure AttemptFields where
  occurrenceOrdinal : Nat
  roundIndex : Nat
  runId : String
  stepIndex : Nat
  intentId : String
  candidate : Candidate
  evalConfigRef : EvalConfig
  evalRole : EvalRole
  providerExecutionPolicyRef : Option IdentityRef
  reward : Rat
  expectedRewardPolicyHash : String
  evalResultRef : TypedRef
  rewardEvidenceRefs : List TypedRef
  rewardRef : Reward Rat
  mutationField : String
deriving DecidableEq

/- The instruction that a candidate carries, if it has one. -/
def instructionOf (field : String) (candidate : Candidate) : Option String :=
  match candidate.payload.lookup field with
  | some (.str template) => if template = "" then none else some template
  | _ => none

def AttemptFields.validate (attempt : AttemptFields) : Except String Unit := do
  raiseIf (attempt.runId = "" ∨ attempt.intentId = "")
    "COPRO attempt run_id and intent_id are required"
  raiseIf (attempt.stepIndex ≠ attempt.roundIndex)
    "COPRO attempt step_index must equal its round_index"
  requireFullHash attempt.expectedRewardPolicyHash "expected_reward_policy_hash"
  raiseIf (instructionOf attempt.mutationField attempt.candidate = none)
    "COPRO attempt candidate requires a non-empty instruction"
  raiseIf (attempt.evalResultRef.schemaName ≠ Step.evalEvidenceSchema)
    ("COPRO attempt eval_result_ref must use schema " ++ quoted Step.evalEvidenceSchema)
  raiseIf (attempt.rewardRef.value.value ≠ attempt.reward)
    "COPRO attempt reward must match its exact Reward"
  raiseIf (attempt.rewardRef.rewardPolicyHash ≠ attempt.expectedRewardPolicyHash)
    "COPRO attempt Reward Policy must match its expected hash"
  raiseIf (attempt.rewardRef.evidenceRefs ≠ attempt.rewardEvidenceRefs)
    "COPRO attempt Reward citations must match its exact Reward"
  raiseIf (attempt.evalRole ≠ .internal) "COPRO attempt requires internal evaluation"

structure CoproAttempt extends AttemptFields where
  valid : toAttemptFields.validate = .ok ()

instance : DecidableEq CoproAttempt := fun a b =>
  decidable_of_iff (a.toAttemptFields = b.toAttemptFields)
    ⟨fun h => by cases a; cases b; cases h; rfl, fun h => congrArg CoproAttempt.toAttemptFields h⟩

def AttemptFields.build (attempt : AttemptFields) : Except String CoproAttempt :=
  match h : attempt.validate with
  | .ok () => .ok ⟨attempt, h⟩
  | .error message => .error message

/- What a prompt says of one attempt. -/
structure PromptEntry where
  occurrenceOrdinal : Nat
  candidateId : String
  instruction : String
  reward : Rat
deriving DecidableEq

def PromptEntry.json (entry : PromptEntry) : Json :=
  .obj [("candidate_id", .str entry.candidateId), ("instruction", .str entry.instruction),
    ("occurrence_ordinal", .int entry.occurrenceOrdinal), ("reward", .float entry.reward)]

namespace CoproAttempt

def candidateId (attempt : CoproAttempt) : String := attempt.candidate.candidateId

def instruction (attempt : CoproAttempt) : String :=
  (instructionOf attempt.mutationField attempt.candidate).getD ""

/- What one measured resolution of a round says of its occurrence. -/
def fromResolution (control : CoproControl) (runId mutationField : String)
    (occurrenceOrdinal roundIndex : Nat) (resolution : IntentResolution Rat) :
    Except String CoproAttempt := do
  raiseIf (resolution.outcome ≠ .completed) "COPRO folds only completed measured resolutions"
  raiseIf (resolution.detail.classification ≠ .measured)
    "COPRO folds only measured resolution details"
  let reward ← raised "COPRO measured resolution requires Reward ref" resolution.rewardRef
  let evalResultRef ← raised "COPRO measured resolution requires an Evaluation Result ref"
    resolution.evalResultRef
  let intent := resolution.optimEvalRequest
  raiseIf (intent.expectedRewardPolicyHash = none) "COPRO folds only internal evaluation intents"
  raiseIf (intent.optimRunId ≠ runId) "COPRO resolution belongs to another run"
  raiseIf (intent.optimStepIndex ≠ roundIndex) "COPRO resolution belongs to another round"
  raiseIf (resolution.resolvedEvalConfig ≠ control.evalConfigRef)
    "COPRO resolution uses an unexpected Eval Config"
  raiseIf (control.evalRole ≠ .internal) "COPRO folds only internal evaluation intents"
  raiseIf (intent.expectedRewardPolicyHash ≠ some control.expectedRewardPolicyHash)
    "COPRO resolution expects an unexpected Reward Policy"
  raiseIf (reward.rewardPolicyHash ≠ control.expectedRewardPolicyHash)
    "COPRO Reward uses an unexpected Reward Policy"
  AttemptFields.build
    { occurrenceOrdinal := occurrenceOrdinal, roundIndex := roundIndex, runId := runId
      stepIndex := intent.optimStepIndex, intentId := intent.evalRequest.requestId
      candidate := intent.evalRequest.candidate
      evalConfigRef := resolution.resolvedEvalConfig, evalRole := control.evalRole
      providerExecutionPolicyRef := control.providerExecutionPolicyRef
      reward := reward.value.value, expectedRewardPolicyHash := reward.rewardPolicyHash
      evalResultRef := evalResultRef, rewardEvidenceRefs := resolution.rewardEvidenceRefs
      rewardRef := reward, mutationField := mutationField }

def promptEntry (attempt : CoproAttempt) : PromptEntry where
  occurrenceOrdinal := attempt.occurrenceOrdinal
  candidateId := attempt.candidateId
  instruction := attempt.instruction
  reward := attempt.reward

end CoproAttempt

structure CoproState where
  initialCandidate : Candidate
  mutationField : String
  completedRounds : Nat
  attempts : List CoproAttempt
  totalCalls : Nat
  valid : totalCalls = attempts.length
deriving DecidableEq

end Attempts

end Whetstone.Optim.Copro
