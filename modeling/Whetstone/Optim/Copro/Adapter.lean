import Whetstone.Optim.Codex.Adapter
import Whetstone.Optim.Copro.Driver
import Whetstone.Optim.ProposalDraft

/-! The COPRO adapter: one round of proposals, or the terminal selection, from what the earlier
rounds have measured. The pool `attempt_history` is carried beside its request, as the attempts
that its dump validates back to. -/
namespace Whetstone.Optim.Copro
open Whetstone.Core Whetstone.Lib Whetstone.Experiment Whetstone.Eval Whetstone.Tools
open Whetstone.Optim.Step

attribute [local instance] exactFiniteFloats

def coproAdapterKey : String := "copro"
def proposalCallsLabel : String := "proposal_calls"

/- `template.strip('"')` -/
def stripQuotes (s : String) : String :=
  String.ofList ((s.toList.dropWhile (· = '"')).reverse.dropWhile (· = '"')).reverse

theorem noTasks_valid : validateTaskHashes none = .ok () := rfl

section Adapter

variable [PyIdentifiers] [CandidateIdentity] [ToolIdentity] [RewardIdentity Rat]

/-- The hash of a run's record, the dumps of COPRO's records and the text of a score. No property
is assumed. -/
class CoproDumps [PyIdentifiers] [ToolIdentity] [RewardIdentity Rat] where
  configHash : OptimRun Rat → String
  attempt : CoproAttempt → Json
  finalization : CoproFinalization → Json
  rewardText : Rat → String

variable [CoproIdentity] [CoproDumps] [ScoreStatistics]

structure CoproStepRequest [PyIdentifiers] [ToolIdentity] [RewardIdentity Rat] extends
    OptimStepRequest Rat where
  attemptHistory : List CoproAttempt

/-! ### Selection -/

def seedWon (ranked : List CoproAttempt) (run : OptimRun Rat) : Bool :=
  match run.initialCandidateRef, ranked with
  | some seed, best :: _ => best.candidate = seed
  | _, _ => false

def acceptedWithoutSeed (ranked : List CoproAttempt) (run : OptimRun Rat) (required : Nat) :
    Option (List Candidate) :=
  let proposals := (ranked.filter fun entry => run.initialCandidateRef ≠ some entry.candidate).map
    fun entry => entry.candidate
  if proposals.length < required then none else some (proposals.take required)

/-! ### Checks -/

/- `_normalize_initial_candidate`, with the instruction it finds. -/
def normalizeInitialCandidate (run : OptimRun Rat) (candidate : Candidate) :
    Except String String :=
  match candidate.payload.lookup run.mutationField with
  | some (.str raw) => do
    let _ ← run.templateRenderContract.validateTemplate (some (.str raw))
    return raw
  | _ => .error "COPRO initial candidate requires an instruction"

def checkHistory (control : CoproControl) (runId : String) (attempt : CoproAttempt) :
    Except String Unit := do
  raiseIf (attempt.runId ≠ runId) "COPRO history belongs to another run"
  raiseIf (attempt.evalConfigRef ≠ control.evalConfigRef)
    "COPRO history uses an unexpected Eval Config"
  raiseIf (attempt.evalRole ≠ control.evalRole)
    "COPRO history uses an unexpected Evaluation Role"
  raiseIf (attempt.providerExecutionPolicyRef ≠ control.providerExecutionPolicyRef)
    "COPRO history uses an unexpected Provider Execution Policy"
  raiseIf (attempt.expectedRewardPolicyHash ≠ control.expectedRewardPolicyHash)
    "COPRO history uses an unexpected Reward Policy"

def validateAttemptPlaceholders (run : OptimRun Rat) (attempts : List CoproAttempt) :
    Except String Unit :=
  attempts.forM fun attempt => do
    let _ ← (run.templateRenderContract.validateTemplate (some (.str attempt.instruction))).mapError
      fun error => "COPRO history violates the run Template Render Contract at occurrence " ++
        toString attempt.occurrenceOrdinal ++ ": " ++ error

/-! ### Outputs -/

section Outputs

variable (usage : List (ProposerCallUsage Rat)) (delta : BudgetDelta)
variable (stateDelta : List (String × Json))

def failedOutput (proposed : List Candidate) (failure : TerminalFailure) : AdapterOutput Rat where
  toOutputFields := { Codex.plainFields .failed stateDelta with
    proposedCandidates := proposed, proposerUsage := usage, budgetDelta := delta
    terminalFailure := some failure }
  valid := by simp [OutputFields.validate, OutputFields.validateSeed, Codex.plainFields]

def seedRetainedOutput (seed : Candidate) : AdapterOutput Rat where
  toOutputFields := { Codex.plainFields .complete stateDelta with
    proposerUsage := usage, budgetDelta := delta
    seedRetained := true, retainedCandidate := some seed }
  valid := by simp [OutputFields.validate, OutputFields.validateSeed, Codex.plainFields]

def acceptedOutput (accepted : List Candidate) : AdapterOutput Rat where
  toOutputFields := { Codex.plainFields .complete stateDelta with
    proposedCandidates := accepted, acceptedCandidates := accepted
    proposerUsage := usage, budgetDelta := delta }
  valid := by simp [OutputFields.validate, OutputFields.validateSeed, Codex.plainFields]

def continuingOutput (historyDelta : List (String × Json)) (proposed : List Candidate)
    (intents : List OptimEvalRequest) : AdapterOutput Rat where
  toOutputFields := { Codex.plainFields .continuing stateDelta with
    proposedCandidates := proposed, acceptedCandidates := proposed, optimEvalRequests := intents
    proposerUsage := usage, budgetDelta := delta, historyDelta := historyDelta }
  valid := by simp [OutputFields.validate, OutputFields.validateSeed, Codex.plainFields]

end Outputs

def noDelta : BudgetDelta := ⟨Dict.empty⟩

def proposalDelta (count : Nat) : BudgetDelta := ⟨Dict.empty.set proposalCallsLabel count⟩

/-! ### Finalization -/

def insufficientRanked (message : String) : TerminalFailure :=
  ⟨"copro_insufficient_ranked_candidates", message, .obj []⟩

def finalizedOutput (run : OptimRun Rat) (initial : Candidate)
    (finalization : CoproFinalization) : AdapterOutput Rat :=
  let required := run.terminalOutputContract.acceptedCountFor .complete
  let ranked := finalization.rankedAttempts
  let stateDelta := [("copro_finalization", CoproDumps.finalization finalization)]
  if ranked = [] then failedOutput [] noDelta [] []
    ⟨"copro_no_measured_history", "COPRO cannot finalize without measured history", .obj []⟩
  else if ranked.length < required then failedOutput [] noDelta [] [] (insufficientRanked
    ("COPRO finalization produced " ++ toString ranked.length ++
      " ranked candidates but terminal contract requires " ++ toString required))
  else if seedWon ranked run then seedRetainedOutput [] noDelta stateDelta initial
  else match acceptedWithoutSeed ranked run required with
    | none => failedOutput [] noDelta stateDelta [] (insufficientRanked
        ("COPRO finalization ranked " ++ toString ranked.length ++
          " candidates but too few are proposals; the terminal contract requires " ++
          toString required))
    | some accepted => acceptedOutput [] noDelta stateDelta accepted

/-! ### The prompt -/

/- Its context is the instruction contract, whose budget mode is the proposal mode, the history
   and, once it is known, the prompt. -/
structure ProposalRequest where
  proposalMode : ProposalMode
  requestOrdinal : Nat
  proposalAuthorityIdentityHash : String
  mutationField : String
  baseCandidate : Candidate
  instructionContract : CoproProposalContractRecord
  instructionHistory : List PromptEntry
  proposalPrompt : Option String
deriving DecidableEq

def contractLines (request : ProposalRequest) : List String :=
  ["Optimization target: " ++ request.instructionContract.targetName,
    "Task context: " ++ request.instructionContract.taskContext,
    "Budget mode: " ++ request.proposalMode.value, "Output contract:",
    request.instructionContract.outputRule]

def coproHistoryRole : String :=
  "You are an instruction optimizer for large language models. I will give you some task " ++
    "instructions I've tried, along with their corresponding validation scores. The " ++
    "instructions are arranged in increasing order based on their scores, where higher scores " ++
    "indicate better quality.\n\nYour task is to propose a new instruction that will lead a " ++
    "good language model to perform the task even better. Don't be afraid to be creative."

def historyLines (index : Nat) (entry : PromptEntry) : List String :=
  ["Instruction #" ++ toString (index + 1) ++ ": " ++ entry.instruction,
    "Resulting Score #" ++ toString (index + 1) ++ ": " ++ CoproDumps.rewardText entry.reward]

def coproProposalPrompt (request : ProposalRequest) : Except String String :=
  match request.proposalMode with
  | .seedProposal => .ok ("\n".intercalate (contractLines request ++
      ["", "Propose diverse instruction variants for the task."]))
  | .historyProposal => do
    raiseIf (request.instructionHistory = []) "COPRO history prompt requires selected attempts"
    return "\n".intercalate ([coproHistoryRole, ""] ++ contractLines request ++ [""] ++
      (request.instructionHistory.mapIdx historyLines).flatten)

def proposalRequest (control : CoproControl) (run : OptimRun Rat) (initial : Candidate)
    (plan : CoproRoundPlan) : Except String ProposalRequest := do
  let request : ProposalRequest :=
    { proposalMode := plan.proposalMode, requestOrdinal := plan.iteration
      proposalAuthorityIdentityHash := CoproDumps.configHash run
      mutationField := run.mutationField, baseCandidate := initial
      instructionContract := control.proposalContract
      instructionHistory := plan.instructionHistory, proposalPrompt := none }
  let prompt ← coproProposalPrompt request
  return { request with proposalPrompt := some prompt }

/-! ### The drafts of a round -/

inductive Disposition where
  | accepted
  | rejected
  | providerFailed
  | missing
deriving DecidableEq

def Disposition.value : Disposition → String
  | .accepted => "accepted"
  | .rejected => "rejected"
  | .providerFailed => "provider_failed"
  | .missing => "missing"

structure DraftEvidence where
  draftIndex : Nat
  occurrenceOrdinal : Option Nat
  candidateId : Option String
  disposition : Disposition
  reason : Option String
  request : List (String × Json)
  response : List (String × Json)
  usage : List (String × Json)
  cost : Option Rat
deriving DecidableEq

structure DraftedRound where
  occurrences : List (Nat × Candidate)
  evidence : List DraftEvidence
  reservedCandidateIds : List String
  nextOrdinal : Nat

/- The `while` loop, which ends behind as many turns as ids are reserved. -/
def unreservedId (reserved : List String) : Nat → String → String
  | 0, candidateId => candidateId
  | turns + 1, candidateId =>
    if candidateId ∈ reserved then unreservedId reserved turns (candidateId ++ ":generated")
    else candidateId

def candidateIdFor (runId : String) (reserved : List String) (ordinal : Nat) : String :=
  unreservedId reserved reserved.length ("copro:" ++ runId ++ ":" ++ toString ordinal)

/- `candidate_from_draft` of the normalized draft. -/
def draftCandidate (control : CoproControl) (run : OptimRun Rat) (base : Candidate)
    (candidateId : String) (draft : ProposalDraft) : Except String Candidate :=
  match draft.terminalFailure with
  | some failure => .error failure.message
  | none => do
    let template := strip (stripQuotes draft.template)
    control.proposalContract.validateInstruction template
    Codex.candidateFromDraft run base candidateId template

def DraftedRound.take (control : CoproControl) (run : OptimRun Rat) (base : Candidate)
    (round : DraftedRound) (draft : ProposalDraft × Nat) : DraftedRound :=
  let candidateId := candidateIdFor run.runId round.reservedCandidateIds round.nextOrdinal
  let evidence (ordinal : Option Nat) (id : Option String) (disposition : Disposition)
      (reason : Option String) : DraftEvidence :=
    ⟨draft.2, ordinal, id, disposition, reason, draft.1.requestEvidence,
      draft.1.responseEvidence, draft.1.usage, draft.1.cost⟩
  match draftCandidate control run base candidateId draft.1 with
  | .ok candidate =>
    { occurrences := round.occurrences ++ [(round.nextOrdinal, candidate)]
      evidence := round.evidence ++
        [evidence (some round.nextOrdinal) (some candidateId) .accepted none]
      reservedCandidateIds := candidateId :: round.reservedCandidateIds
      nextOrdinal := round.nextOrdinal + 1 }
  | .error reason =>
    { round with evidence := round.evidence ++ [evidence none none
        (if draft.1.failed then .providerFailed else .rejected) (some reason)] }

def draftedRound (control : CoproControl) (run : OptimRun Rat) (initial : Candidate)
    (roundStart : Nat) (drafts : List ProposalDraft) : DraftedRound :=
  drafts.zipIdx.foldl (DraftedRound.take control run initial)
    ⟨[], [], [initial.candidateId], roundStart⟩

def missingEvidence (index : Nat) : DraftEvidence :=
  ⟨index, none, none, .missing, some "transport returned no draft for paid slot", [], [], [], none⟩

/-! ### Reports -/

def optionJson {α : Type} (f : α → Json) : Option α → Json
  | none => .null
  | some a => f a

def CoproConfig.json (config : CoproConfig) : Json :=
  .obj [("breadth", .int config.breadth), ("depth", .int config.depth),
    ("track_stats", .bool config.trackStats)]

def CoproRoundPlan.json (plan : CoproRoundPlan) : Json :=
  .obj [("include_initial_candidate", .bool plan.includeInitialCandidate),
    ("instruction_history", .arr (plan.instructionHistory.map PromptEntry.json)),
    ("iteration", .int plan.iteration), ("proposal_count", .int plan.proposalCount),
    ("proposal_mode", .str plan.proposalMode.value)]

def DraftEvidence.json (evidence : DraftEvidence) : Json :=
  .obj [("candidate_id", optionJson .str evidence.candidateId),
    ("cost", optionJson .float evidence.cost),
    ("disposition", .str evidence.disposition.value), ("draft_index", .int evidence.draftIndex),
    ("occurrence_ordinal", optionJson (fun n : Nat => .int n) evidence.occurrenceOrdinal),
    ("reason", optionJson .str evidence.reason), ("request", .obj evidence.request),
    ("response", .obj evidence.response), ("usage", .obj evidence.usage)]

/- The drafts that were returned and dropped. -/
def rejectedJson (evidence : List DraftEvidence) : Json :=
  .arr ((evidence.filter fun e => e.disposition = .rejected ∨ e.disposition = .providerFailed).map
    fun e => .obj [("disposition", .str e.disposition.value), ("draft_index", .int e.draftIndex),
      ("reason", optionJson .str e.reason)])

/- A round once its drafts are taken: `evidence` are the drafts' and those of the missing slots,
   and `usage` is what the proposer billed. -/
structure RoundReport where
  plan : CoproRoundPlan
  drafts : List ProposalDraft
  usage : List (ProposerCallUsage Rat)
  proposed : List (Nat × Candidate)
  occurrences : List (Nat × Candidate)
  evidence : List DraftEvidence

namespace RoundReport

variable (report : RoundReport) (config : CoproConfig)

def realized : Nat := report.occurrences.length

def shortfallJson : Json :=
  .obj [("dropped_occurrences", .int ((config.breadth : Int) - report.realized)),
    ("realized_occurrences", .int report.realized),
    ("rejected", rejectedJson report.evidence),
    ("requested_occurrences", .int config.breadth),
    ("requested_proposal_count", .int report.plan.proposalCount),
    ("returned_drafts", .int report.drafts.length)]

def overfilled : Bool :=
  report.plan.proposalCount < report.drafts.length ∨ config.breadth < report.realized

def evidenceJson : Json := .arr (report.evidence.map DraftEvidence.json)

def overfilledOutput : AdapterOutput Rat :=
  failedOutput report.usage (proposalDelta report.plan.proposalCount)
    [("proposal_shortfall", report.shortfallJson config),
      ("proposer_evidence", report.evidenceJson), ("reason", .str "proposal cardinality"),
      ("rejected", rejectedJson report.evidence), ("round_plan", report.plan.json)]
    (report.proposed.map Prod.snd)
    ⟨"copro_proposal_cardinality", "COPRO proposer overfilled its round",
      .obj [("actual_occurrences", .int report.realized),
        ("expected_occurrences", .int config.breadth),
        ("requested_proposal_count", .int report.plan.proposalCount),
        ("returned_drafts", .int report.drafts.length)]⟩

def roundEmpty (ranked required : Nat) (message : String) : TerminalFailure :=
  ⟨"copro_proposal_round_empty", message,
    .obj [("actual_occurrences", .int 0), ("expected_occurrences", .int config.breadth),
      ("ranked_candidates", .int ranked), ("required_terminal_candidates", .int required)]⟩

def terminalizeWithoutProposals (run : OptimRun Rat) (initial : Candidate)
    (ranked : List CoproAttempt) : AdapterOutput Rat :=
  let required := run.terminalOutputContract.acceptedCountFor .complete
  let delta := proposalDelta report.plan.proposalCount
  let stateDelta := [("proposal_shortfall", report.shortfallJson config),
    ("proposer_evidence", report.evidenceJson),
    ("reason", .str "proposal round realized no candidates"),
    ("rejected", rejectedJson report.evidence), ("round_plan", report.plan.json),
    ("terminal_ranking", .arr (ranked.map CoproDumps.attempt))]
  if ranked.length < required then failedOutput report.usage delta stateDelta []
    (roundEmpty config ranked.length required ("COPRO proposal round realized no candidates " ++
      "and the run has too little measured history to terminalize"))
  else if seedWon ranked run then seedRetainedOutput report.usage delta stateDelta initial
  else match acceptedWithoutSeed ranked run required with
    | none => failedOutput report.usage delta stateDelta []
        (roundEmpty config ranked.length required ("COPRO proposal round realized no candidates " ++
          "and the run has too few measured proposals to terminalize"))
    | some accepted => acceptedOutput report.usage delta stateDelta accepted

def requestId (runId : String) (stepIndex ordinal : Nat) (candidate : Candidate) : String :=
  runId ++ ":" ++ toString stepIndex ++ ":" ++ toString ordinal ++ ":" ++ candidate.identityHash

def intent (request : OptimStepRequest Rat) (control : CoproControl) (mode : ProposalMode)
    (occurrence : Nat × Candidate) : OptimEvalRequest where
  optimRunId := request.runId
  optimStepIndex := request.stepIndex
  evalRequest :=
    { requestId := requestId request.runId request.stepIndex occurrence.1 occurrence.2
      candidate := occurrence.2, metadata := [("purpose", .str mode.value)] }
  expectedRewardPolicyHash := some control.expectedRewardPolicyHash
  taskHashes := none
  valid := noTasks_valid

def evaluatedOutput (control : CoproControl) (request : OptimStepRequest Rat)
    (history ranked : List CoproAttempt) : AdapterOutput Rat :=
  let shortfall := report.shortfallJson config
  continuingOutput report.usage (proposalDelta report.plan.proposalCount)
    [("copro_config", config.json),
      ("globally_best_measured", optionJson CoproDumps.attempt ranked.head?),
      ("proposal_shortfall", shortfall), ("proposer_evidence", report.evidenceJson),
      ("round_plan", report.plan.json),
      ("terminal_ranking", .arr (ranked.map CoproDumps.attempt))]
    [("occurrence_ordinals", .arr (report.occurrences.map fun occurrence => .int occurrence.1)),
      ("prior_entries", .arr (history.map CoproDumps.attempt)),
      ("proposal_shortfall", shortfall),
      ("proposed_candidate_ids",
        .arr (report.proposed.map fun occurrence => .str occurrence.2.candidateId))]
    (report.proposed.map Prod.snd)
    (report.occurrences.map (intent request control report.plan.proposalMode))

def output (control : CoproControl) (request : OptimStepRequest Rat) (initial : Candidate)
    (history : List CoproAttempt) : AdapterOutput Rat :=
  let ranked := rankAttemptHistory history
  if report.overfilled config then report.overfilledOutput config
  else if report.proposed = [] then
    report.terminalizeWithoutProposals config request.run initial ranked
  else report.evaluatedOutput config control request history ranked

end RoundReport

/- The seed round carries the initial candidate as its last occurrence. -/
def roundReport (control : CoproControl) (run : OptimRun Rat) (initial : Candidate)
    (roundStart : Nat) (plan : CoproRoundPlan) (drafts : List ProposalDraft)
    (usage : List (ProposerCallUsage Rat)) : RoundReport :=
  let round := draftedRound control run initial roundStart drafts
  { plan := plan, drafts := drafts, usage := usage, proposed := round.occurrences
    occurrences := if plan.includeInitialCandidate then
      round.occurrences ++ [(round.nextOrdinal, initial)] else round.occurrences
    evidence := round.evidence ++
      (List.range' drafts.length (plan.proposalCount - drafts.length)).map missingEvidence }

/-! ### Invocation -/

def validateTransport (control : CoproControl) (executionPolicyHash adapterHash : String) :
    Except String Unit := do
  raiseIf (executionPolicyHash ≠ control.providerExecutionPolicyHash)
    "COPRO provider execution policy conflicts with control"
  raiseIf (adapterHash ≠ control.promptAdapterIdentityHash)
    "COPRO prompt adapter identity conflicts with control"

/- `execute` is the proposal executor over the transport of the adapter. -/
structure CoproAdapter where
  control : CoproControl
  executionPolicyHash : String
  promptAdapterIdentityHash : String
  execute : ProposalRequest → (count : Nat) → Except String (List ProposalDraft)
  valid : validateTransport control executionPolicyHash promptAdapterIdentityHash = .ok ()

def roundIndexOf (hyperparameters : List (String × Json)) : Except String Int :=
  match hyperparameters.lookup "round_index" with
  | some (.int iteration) => .ok iteration
  | _ => .error "COPRO round_index must be an integer"

def exhaustedOutput (required remaining : Nat) : AdapterOutput Rat :=
  let details := [("remaining", Json.int remaining), ("required", .int required)]
  failedOutput [] noDelta [("reason", .str "proposal budget exhausted"),
      ("remaining", .int remaining), ("required", .int required)] []
    ⟨"copro_proposal_budget_exhausted", "COPRO proposal budget is exhausted", .obj details⟩

namespace CoproAdapter

variable (adapter : CoproAdapter)

def checkRun (run : OptimRun Rat) : Except String Unit := do
  let control := adapter.control
  raiseIf (run.optimizerConfig ≠ CoproIdentity.controlReference control)
    "COPRO run optimizer_config does not bind the exact control"
  raiseIf (adapter.executionPolicyHash ≠ control.providerExecutionPolicyHash)
    "COPRO provider execution policy conflicts with request"
  raiseIf (adapter.promptAdapterIdentityHash ≠ control.promptAdapterIdentityHash)
    "COPRO prompt adapter identity conflicts with request"
  let policy ← raised "COPRO requires the exact run Reward Policy" run.rewardPolicy
  raiseIf (RewardIdentity.rewardPolicyHash policy ≠ control.expectedRewardPolicyHash)
    "COPRO expected Reward Policy conflicts with the exact run"

def draftRound (request : OptimStepRequest Rat) (initial : Candidate)
    (history : List CoproAttempt) (plan : CoproRoundPlan) : Except String (AdapterOutput Rat) := do
  let prompted ← proposalRequest adapter.control request.run initial plan
  let drafts ← adapter.execute prompted plan.proposalCount
  let usage ← drafts.mapM ProposalDraft.callUsage
  let report := roundReport adapter.control request.run initial history.length plan drafts
    (usage.filterMap id)
  return report.output adapter.control.config adapter.control request initial history

def proposeRound (request : OptimStepRequest Rat) (initial : Candidate)
    (state : CoproState) : Except String (AdapterOutput Rat) := do
  let iteration ← roundIndexOf request.hyperparameters
  let expected ← adapter.control.stepHyperparameters iteration
  raiseIf (request.hyperparameters ≠ expected)
    "COPRO step hyperparameters do not match the exact control"
  raiseIf (iteration ≠ request.stepIndex) "COPRO round_index must match the durable step index"
  raiseIf (iteration ≠ state.completedRounds)
    "COPRO round_index does not match durable measured history"
  let plan ← advance adapter.control.config state
  match request.budget.remaining.get? proposalCallsLabel with
  | none => adapter.draftRound request initial state.attempts plan
  | some remaining =>
    if remaining < plan.proposalCount then return exhaustedOutput plan.proposalCount remaining
    else adapter.draftRound request initial state.attempts plan

def invoke (request : CoproStepRequest) (handles : List ToolConfig) :
    Except String (AdapterOutput Rat) := do
  raiseIf (handles ≠ []) "COPRO receives no Runtime Tool Handles"
  adapter.checkRun request.run
  match request.candidates with
  | [initial] =>
    let instruction ← normalizeInitialCandidate request.run initial
    adapter.control.proposalContract.validateInstruction instruction
    request.attemptHistory.forM (checkHistory adapter.control request.run.runId)
    validateAttemptPlaceholders request.run request.attemptHistory
    let state ← restoreState adapter.control.config initial request.run.mutationField
      request.attemptHistory
    if adapter.control.depth ≤ state.completedRounds then do
      let finalization ← finalize adapter.control.config state
      return finalizedOutput request.run initial finalization
    else adapter.proposeRound request.toOptimStepRequest initial state
  | _ => throw "single-prompt COPRO requires exactly one initial candidate"

end CoproAdapter

end Adapter
end Whetstone.Optim.Copro
