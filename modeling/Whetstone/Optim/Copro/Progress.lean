import Whetstone.Optim.Copro.HistoryTracing
import Whetstone.Optim.Copro.Invocation
import Whetstone.Optim.StepReplay

/-! What the runs of COPRO come to: whatever is proposed and measured, the history of a run is one
that restores, and an invocation on it returns what it ranks first, fails or goes on. -/
namespace Whetstone.Optim.Copro
open Whetstone.Core Whetstone.Lib Whetstone.Experiment Whetstone.Eval Whetstone.Tools
open Whetstone.Optim.Step

attribute [local instance] exactFiniteFloats

section Progress

variable [PyIdentifiers] [CandidateIdentity] [ToolIdentity] [RewardIdentity Rat]
variable [ResultIdentity Rat] [RequestIdentity Rat] (control : CoproControl)

/-! ### The history of a run -/

/- The attempts of one result, whose ordinals go on behind those of the results before it. -/
def addAttempts (field : String) (held : List CoproAttempt × Nat) (prior : OptimStepResult Rat) :
    Except String (List CoproAttempt × Nat) := do
  let resolutions := prior.fields.resolvedIntents
  let attempts ← (resolutions.zipIdx held.2).mapM fun entry =>
    CoproAttempt.fromResolution control prior.runId field entry.2 prior.stepIndex entry.1
  return (held.1 ++ attempts, held.2 + resolutions.length)

def coproAttemptHistory (field : String) (priorResults : List (OptimStepResult Rat)) :
    Except String (List CoproAttempt) := do
  let held ← priorResults.foldlM (addAttempts control field) ([], 0)
  return held.1

/-! ### The rounds of a run -/

variable [CoproIdentity] [CoproDumps] [ScoreStatistics]

/- The results of a run that goes on: each answers a request that carries the history of those
   before it, and its resolutions measure the intents of what the adapter has put out. The
   adapters have one control, and may propose anything. -/
inductive Progress (run : OptimRun Rat) (initial : Candidate) :
    List (OptimStepResult Rat) → Prop
  | start : Progress run initial []
  | round {results : List (OptimStepResult Rat)} {result : OptimStepResult Rat}
      {adapter : CoproAdapter} {request : CoproStepRequest} {output : AdapterOutput Rat}
      (before : Progress run initial results)
      (bound : adapter.control = control) (ofRun : request.run = run)
      (candidates : request.candidates = [initial])
      (history : coproAttemptHistory control run.mutationField results =
        .ok request.attemptHistory)
      (invoked : adapter.invoke request [] = .ok output)
      (continued : output.proposedStatus = .continuing)
      (answers : result.request = request.toOptimStepRequest)
      (measured : List.Forall₂ (Measured control run) output.optimEvalRequests
        result.fields.resolvedIntents) : Progress run initial (results ++ [result])

variable {control} {run : OptimRun Rat} {initial : Candidate}
variable {results : List (OptimStepResult Rat)} {rounds : List (List CoproAttempt)}
variable {state : CoproState}

/- The rounds that the results of a run were measured in, and the state they fold to. -/
structure Recorded (control : CoproControl) (run : OptimRun Rat) (initial : Candidate)
    (results : List (OptimStepResult Rat)) (rounds : List (List CoproAttempt))
    (state : CoproState) : Prop where
  folded : foldRounds control.config initial run.mutationField rounds = .ok state
  rounds : rounds.length = results.length
  attempts : results.foldlM (addAttempts control run.mutationField) ([], 0) =
    .ok (state.attempts, state.attempts.length)
  traced : ∀ attempt ∈ state.attempts, Traced control run initial attempt

omit [CoproIdentity] [CoproDumps] [ScoreStatistics] in
theorem Recorded.history (h : Recorded control run initial results rounds state) :
    coproAttemptHistory control run.mutationField results = .ok state.attempts := by
  rw [coproAttemptHistory, h.attempts]
  rfl

omit [CoproIdentity] [CoproDumps] [ScoreStatistics] in
theorem Recorded.restored (h : Recorded control run initial results rounds state) :
    restoreState control.config initial run.mutationField state.attempts = .ok state :=
  (restoreState_iff _).mpr ⟨rounds, h.folded, rfl⟩

omit [ResultIdentity Rat] [RequestIdentity Rat] [CoproIdentity] [ScoreStatistics] in
/- A round that goes on has put out its occurrences, each to be measured. -/
theorem Rounded.continues {adapter : CoproAdapter} {request : OptimStepRequest Rat}
    {output : AdapterOutput Rat} (h : Rounded adapter request initial state output)
    (hseed : request.run.initialCandidateRef = some initial)
    (hcontinued : output.proposedStatus = .continuing) : ∃ report : RoundReport,
      Reported request.run initial state.attempts.length report ∧ report.occurrences ≠ [] ∧
      report.occurrences.length ≤ adapter.control.breadth ∧
      output.proposedCandidates = report.proposed.map Prod.snd ∧
      output.optimEvalRequests = report.occurrences.map
        (RoundReport.intent request adapter.control report.plan.proposalMode) := by
  obtain ⟨plan,_,⟨remaining,_,rfl⟩ | ⟨_,drafts,usage,rfl⟩⟩ := h.asks
  · cases hcontinued
  · obtain ⟨report,hreport⟩ : ∃ report, report = roundReport adapter.control request.run initial
      state.attempts.length plan drafts usage := ⟨_, rfl⟩
    have hreported : Reported request.run initial state.attempts.length report :=
      hreport ▸ roundReport_reported _ _ _ _
    rw [← hreport] at hcontinued ⊢
    obtain ⟨hfits,hsome,hevaluated⟩ := (output_concludes hseed).2 hcontinued
    obtain ⟨occurrence,hmem⟩ := List.exists_mem_of_ne_nil _ hsome
    refine ⟨report, hreported, List.ne_nil_of_mem (hreported.within occurrence hmem), ?_, ?_, ?_⟩
    · by_contra hmany
      have hover : report.overfilled adapter.control.config = true :=
        decide_eq_true (.inr (not_le.mp hmany))
      rw [hfits] at hover
      cases hover
    · rw [hevaluated]
      rfl
    · rw [hevaluated]
      rfl

omit [ScoreStatistics] in
/-- The attempts of a round that has been measured fold to the state behind it. -/
theorem Recorded.round (h : Recorded control run initial results rounds state)
    (hp : Prepared control run initial) {adapter : CoproAdapter} {request : CoproStepRequest}
    {output : AdapterOutput Rat} {result : OptimStepResult Rat}
    (hbound : adapter.control = control) (hrun : request.run = run)
    (hrounded : Rounded adapter request.toOptimStepRequest initial state output)
    (hcontinued : output.proposedStatus = .continuing)
    (hanswers : result.request = request.toOptimStepRequest)
    (hmeasured : List.Forall₂ (Measured control run) output.optimEvalRequests
      result.fields.resolvedIntents) : ∃ attempts,
      Recorded control run initial (results ++ [result]) (rounds ++ [attempts])
        (state.extend attempts) := by
  subst hbound
  have hindex : request.stepIndex = rounds.length := by
    rw [← hrounded.index, (foldRounds_folded h.folded).completed]
  obtain ⟨report,hreported,hoccurs,hshort,_,hintents⟩ :=
    hrounded.continues (hrun.symm ▸ hp.seed) hcontinued
  rw [hintents, List.forall₂_map_left_iff] at hmeasured
  rw [hrun] at hreported
  have htried : ∀ occurrence ∈ report.occurrences, occurrence.2 = initial ∨
      Mutates run initial occurrence.2 := by
    intro occurrence hmem
    rcases List.mem_cons.mp (hreported.occurrences occurrence hmem) with heq | hproposed
    · exact .inl heq
    · exact .inr (hreported.mutates _ hproposed)
  obtain ⟨attempts,hattempts,hon⟩ := hp.attempts hrun hreported.ordinals htried hmeasured
  rw [hindex] at hon
  have hwithin : rounds.length < adapter.control.config.depth := by
    rw [← hindex, ← hrounded.index]
    exact hrounded.within
  obtain ⟨hfoldable,hnew⟩ := hp.foldable (foldRounds_folded h.folded) hwithin h.traced
    hreported.ordinals hoccurs hshort hon
  refine ⟨attempts, ⟨?_, ?_, ?_, ?_⟩⟩
  · rw [foldRounds_append, h.folded, ok_bind]
    exact (foldRound_iff _ _).mpr ⟨hfoldable, rfl⟩
  · rw [List.length_append, List.length_append, h.rounds]
    rfl
  · have hrunId : result.runId = run.runId := by
      rw [OptimStepResult.runId, hanswers, OptimStepRequest.runId, hrun]
    have hstepIndex : result.stepIndex = request.stepIndex := by
      rw [OptimStepResult.stepIndex, hanswers]
    have hcount : result.fields.resolvedIntents.length = attempts.length :=
      hmeasured.length_eq.symm.trans hon.length_eq
    rw [List.foldlM_append, h.attempts, ok_bind, List.foldlM_cons, addAttempts, hrunId,
      hstepIndex, hattempts, ok_bind]
    simp only [CoproState.extend, List.length_append, hcount]
    rfl
  · intro attempt hmem
    rcases List.mem_append.mp hmem with hold | hadded
    · exact h.traced attempt hold
    · exact hnew attempt hadded

theorem Progress.recorded (hp : Prepared control run initial)
    (h : Progress control run initial results) :
    ∃ rounds state, Recorded control run initial results rounds state := by
  induction h with
  | start =>
    exact ⟨[], initialState initial run.mutationField, rfl, rfl, rfl,
      fun _ hmem => absurd hmem List.not_mem_nil⟩
  | @round results result adapter request output _ hbound hrun hcandidates hhistory hinvoked
      hcontinued hanswers hmeasured ih =>
    obtain ⟨rounds,state,hrecorded⟩ := ih
    obtain ⟨other,restored,hother,hrestored,hends⟩ := invoke_restores hinvoked
    rw [hcandidates] at hother
    cases hother
    rw [hrecorded.history] at hhistory
    rw [hbound, hrun, ← Except.ok.inj hhistory, hrecorded.restored] at hrestored
    cases hrestored
    rcases hends with ⟨finalization,_,rfl⟩ | hrounded
    · exact absurd hcontinued (finalizedOutput_delta _ _ _).2
    · obtain ⟨attempts,hround⟩ := hrecorded.round hp hbound hrun hrounded hcontinued hanswers
        hmeasured
      exact ⟨_, _, hround⟩

/-- The history of a run falls into one round for each of its results, and there are no more of
them than the depth. None is empty or longer than the breadth, the ordinals count up through all
of them, no intent is made twice, every attempt is on the initial candidate or on an admitted
mutation of it, and the history restores. -/
theorem progress_restores (hp : Prepared control run initial)
    (h : Progress control run initial results) : ∃ attempts rounds state,
      coproAttemptHistory control run.mutationField results = .ok attempts ∧
      restoreState control.config initial run.mutationField attempts = .ok state ∧
      results.length ≤ control.depth ∧ Rounds attempts rounds ∧ rounds.length = results.length ∧
      (∀ round ∈ rounds, round ≠ [] ∧ round.length ≤ control.breadth) ∧
      ordinals attempts = List.range attempts.length ∧ (intentIds attempts).Nodup ∧
      ∀ attempt ∈ attempts, Tried run initial attempt := by
  obtain ⟨rounds,state,hrecorded⟩ := h.recorded hp
  have hf := foldRounds_folded hrecorded.folded
  exact ⟨state.attempts, rounds, state, hrecorded.history, hrecorded.restored,
    hrecorded.rounds ▸ hf.within, hf.cut, hrecorded.rounds,
    fun round hmem => ⟨hf.cut.filled round hmem, hf.short round hmem⟩, hf.ordinals, hf.distinct,
    fun attempt hmem => (hrecorded.traced attempt hmem).tried⟩

/-! ### Invocations -/

omit [PyIdentifiers] [CandidateIdentity] [ToolIdentity] [ResultIdentity Rat] [RequestIdentity Rat]
  [CoproIdentity] [CoproDumps] in
theorem finalize_ranked {config : CoproConfig} {finalization : CoproFinalization}
    (h : finalize config state = .ok finalization) :
    finalization.rankedAttempts = rankAttemptHistory state.attempts := by
  unfold finalize at h
  rw [check_bind_eq_ok, raiseIf_bind_eq_ok, bind_eq_ok] at h
  obtain ⟨_,_,rounds,_,h⟩ := h
  dsimp only at h
  split_ifs at h
  · rw [bind_eq_ok] at h
    obtain ⟨_,_,h⟩ := h
    cases h
    rfl
  · rw [ok_bind] at h
    cases h
    rfl

omit [ResultIdentity Rat] [RequestIdentity Rat] in
/-- What an invocation puts out follows from its history. A complete output returns the best of
what was measured: the seed, or the best candidates that are not the seed. A failed one has one of
five codes. A continuing one has at most `breadth` intents, on admitted mutations of the initial
candidate or on itself. And no more proposals are debited than the budget has left. -/
theorem invoke_concludes {adapter : CoproAdapter} {request : CoproStepRequest}
    {output : AdapterOutput Rat} (h : adapter.invoke request [] = .ok output)
    (hseed : request.run.initialCandidateRef = request.candidates.head?) : ∃ initial ranked,
      request.candidates = [initial] ∧ Ranked request.attemptHistory ranked ∧
      Concludes request.run initial ranked output ∧
      (output.proposedStatus = .continuing → output.optimEvalRequests ≠ [] ∧
        output.optimEvalRequests.length ≤ adapter.control.breadth ∧
        ∀ candidate ∈ output.proposedCandidates, Mutates request.run initial candidate) ∧
      (output.budgetDelta = noDelta ∨ ∃ count, output.budgetDelta = proposalDelta count ∧
        ∀ remaining, request.budget.remaining.get? proposalCallsLabel = some remaining →
          count ≤ remaining) := by
  obtain ⟨initial,state,hcandidates,hrestored,hends⟩ := invoke_restores h
  obtain ⟨_,_,hattempts⟩ := (restoreState_iff _).mp hrestored
  rw [hcandidates, List.head?_cons] at hseed
  refine ⟨initial, rankAttemptHistory request.attemptHistory, hcandidates,
    ranked_rankAttemptHistory _, ?_⟩
  rw [← hattempts]
  rcases hends with ⟨finalization,hfinalize,rfl⟩ | hrounded
  · obtain ⟨hdelta,hstatus⟩ := finalizedOutput_delta request.run initial finalization
    exact ⟨finalizedOutput_concludes hseed (finalize_ranked hfinalize),
      fun hcontinued => absurd hcontinued hstatus, .inl hdelta⟩
  · have hgoes : output.proposedStatus = .continuing → output.optimEvalRequests ≠ [] ∧
        output.optimEvalRequests.length ≤ adapter.control.breadth ∧
        ∀ candidate ∈ output.proposedCandidates, Mutates request.run initial candidate := by
      intro hcontinued
      obtain ⟨report,hreported,hoccurs,hshort,hproposed,hintents⟩ :=
        hrounded.continues hseed hcontinued
      rw [hintents, hproposed, List.length_map]
      exact ⟨by simpa using hoccurs, hshort, hreported.mutates⟩
    obtain ⟨plan,_,⟨remaining,_,rfl⟩ | ⟨hcovered,drafts,usage,rfl⟩⟩ := hrounded.asks
    · exact ⟨concludes_failed (by simp [failureCodes]), hgoes, .inl rfl⟩
    · exact ⟨(output_concludes hseed).1, hgoes,
        .inr ⟨plan.proposalCount, output_budgetDelta, hcovered⟩⟩

/-! ### Histories that are gone on with -/

section Restored

variable {config : CoproConfig} {field : String} {attempts : List CoproAttempt}

omit [PyIdentifiers] [CandidateIdentity] [ToolIdentity] [ResultIdentity Rat] [RequestIdentity Rat]
  [CoproIdentity] [CoproDumps] in
/-- A history that restores is never stuck. It is cut into one round for each completed one; short
of the depth it is advanced by the plan of its best attempts, and at the depth it is finalized
with its ranking and its statistics. -/
theorem restoreState_resumes (h : restoreState config initial field attempts = .ok state) :
    ∃ rounds, Rounds attempts rounds ∧ rounds.length = state.completedRounds ∧
      state.attempts = attempts ∧
      (advance config state = .ok (if state.completedRounds = 0 then seedPlan config 0
          else historyPlan config state) ∧ state.completedRounds < config.depth ∨
        state.completedRounds = config.depth ∧ ∃ finalization,
          finalize config state = .ok finalization ∧ Finalized config rounds finalization) := by
  obtain ⟨rounds,hfolded,rfl⟩ := (restoreState_iff _).mp h
  have hf := foldRounds_folded hfolded
  refine ⟨rounds, hf.cut, hf.completed.symm, rfl, ?_⟩
  rcases lt_or_eq_of_le (hf.completed ▸ hf.within) with hmore | hdepth
  · exact .inl ⟨advance_folded hfolded hmore, hmore⟩
  · obtain ⟨finalization,hfinalize,_,hfinalized⟩ := finalize_folded hfolded hdepth
    exact .inr ⟨hdepth, finalization, hfinalize, hfinalized⟩

end Restored

end Progress

section Witnesses

/-! ### A run with one round -/

attribute [local instance] plainNames namedCandidates namedTools namedRewards namedResults
  namedRequests

@[reducible] def namedControls : CoproIdentity where
  controlReference := fun control => ⟨⟨"whetstone.copro_control", control.algorithmVersion⟩,
    control.algorithmVersion⟩
  evalConfigJson := fun _ => .null
  identityRefJson := fun _ => .null

attribute [local instance] namedControls

@[reducible] def plainDumps : CoproDumps where
  configHash := fun run => run.runId
  attempt := fun attempt => .str attempt.intentId
  finalization := fun finalization => .int finalization.totalCalls
  rewardText := fun _ => "0.0"

@[reducible] def evenScores : ScoreStatistics where
  average := fun scores => scores.sum / scores.length
  pstdev := fun _ => 0

attribute [local instance] plainDumps evenScores

def zeroHash : String := String.ofList (List.replicate 64 '0')

def roundControl : CoproControl where
  temperature := none
  proposalContract := ⟨⟨"v1", "solver", "word problems", "one instruction"⟩, by decide⟩
  evalConfigRef := default
  evalRole := .internal
  providerExecutionPolicyRef := none
  expectedRewardPolicyHash := zeroHash
  breadth := 2
  depth := 1
  trackStats := true
  providerExecutionPolicyHash := zeroHash
  promptAdapterIdentityHash := zeroHash
  algorithmVersion := coproAlgorithmVersion
  proposalPromptSchemaTag := coproProposalPromptSchemaTag
  valid := by decide +kernel

def roundDraft (template : String) (h : validateDraft template none = .ok ()) : ProposalDraft :=
  ⟨template, none, [], [], [], none, h⟩

/- The proposer answers each slot with one text. -/
def roundAdapter (draft : ProposalDraft) : CoproAdapter where
  control := roundControl
  executionPolicyHash := zeroHash
  promptAdapterIdentityHash := zeroHash
  execute := fun _ count => .ok (List.replicate count draft)
  valid := by decide +kernel

def roundPolicy : RewardPolicy Rat where
  policyName := zeroHash
  rewardName := "accuracy"
  terms := [⟨"accuracy", exactFinite 1, true, exactFinite 0⟩]
  missingData := .fail
  valid := by decide

def roundInitial : Candidate :=
  ⟨"seed", ⟨candidateRecordSchema, "seed"⟩, [("instruction", .str "Answer.")]⟩

def roundRun : OptimRun Rat where
  runId := "run"
  optimizerConfig := CoproIdentity.controlReference roundControl
  adapterKey := coproAdapterKey
  mode := .proposalOnly
  terminalOutputContract := oneProposal
  templateRenderContract := ⟨.literalBodyV1, [], []⟩
  initialCandidateRef := some roundInitial
  mutationField := "instruction"
  rewardPolicy := some roundPolicy
  toolConfigs := []
  valid := by decide +kernel

theorem roundRun_prepared : Prepared roundControl roundRun roundInitial := by
  have hrun : prepareCoproRun roundControl roundControl roundPolicy ⟨.literalBodyV1, [], []⟩ "run"
      "instruction" roundInitial 1 = .ok roundRun := by
    rfl
  exact prepareCoproRun_prepared hrun (by decide) rfl (by decide) (by decide +kernel)

def roundReward : Reward Rat where
  rewardName := "accuracy"
  value := exactFinite 0
  rewardPolicy := roundPolicy
  evidenceRole := .internal
  inputCitations := [⟨"accuracy", some (exactFinite 0), exactFinite 0, false, rfl⟩]
  evidenceRefs := [⟨"whetstone.evidence", "aggregate"⟩]
  provenanceOrdinal := none
  valid := by decide +kernel

def measuredFields (intent : OptimEvalRequest) : ResolutionFields Rat where
  optimEvalRequest := intent
  outcome := .completed
  detail := ⟨.measured, "measured"⟩
  evalResultRef := some ⟨Step.evalEvidenceSchema, "evidence"⟩
  rewardEvidenceRefs := [⟨"whetstone.evidence", "aggregate"⟩]
  resolvedEvalConfig := default
  rewardRef := some roundReward
  terminalFailure := none

theorem measuredFields_valid {intent : OptimEvalRequest}
    (h : intent.expectedRewardPolicyHash = some zeroHash) :
    (measuredFields intent).validate = .ok () := by
  have hpolicy : roundReward.rewardPolicyHash = zeroHash := rfl
  simp [ResolutionFields.validate, ResolutionFields.validateReward, measuredFields, h, hpolicy,
    expectedResultSchema]
  rfl

def roundProposal : ProposalDraft := roundDraft "Think, then answer." (by decide)

theorem floor_valid : validateShortfallFloor 1 (some 1) = .ok () := rfl

def roundRequest : CoproStepRequest where
  run := roundRun
  stepId := "run:copro:0"
  kind := .proposal
  kindLabel := some "seed_proposal"
  stepIndex := 0
  priorStepResultRef := none
  priorStateRef := none
  priorHistoryRef := none
  candidates := [roundInitial]
  pools := [("attempt_history", .arr [])]
  hyperparameters := (roundControl.stepHyperparameters 0).toOption.getD []
  budget := ⟨Dict.empty, Dict.empty.set proposalCallsLabel 1⟩
  stepOutputContract := ⟨1, some 1, some 1, false, floor_valid⟩
  attemptHistory := []

def roundAttempt : CoproAttempt where
  occurrenceOrdinal := 0
  roundIndex := 0
  runId := "run"
  stepIndex := 0
  intentId := "run:0:0:seed"
  candidate := roundInitial
  evalConfigRef := default
  evalRole := .internal
  providerExecutionPolicyRef := none
  reward := 0
  expectedRewardPolicyHash := zeroHash
  evalResultRef := ⟨Step.evalEvidenceSchema, "evidence"⟩
  rewardEvidenceRefs := [⟨"whetstone.evidence", "aggregate"⟩]
  rewardRef := roundReward
  mutationField := "instruction"
  valid := by decide +kernel

theorem restoreState_resumes_round : ∃ state rounds,
    restoreState roundControl.config roundInitial "instruction" [roundAttempt] = .ok state ∧
      Rounds [roundAttempt] rounds ∧ rounds.length = state.completedRounds ∧
      state.attempts = [roundAttempt] ∧
      (advance roundControl.config state = .ok (if state.completedRounds = 0 then
          seedPlan roundControl.config 0 else historyPlan roundControl.config state) ∧
          state.completedRounds < 1 ∨
        state.completedRounds = 1 ∧ ∃ finalization, finalize roundControl.config state =
          .ok finalization ∧ Finalized roundControl.config rounds finalization) := by
  have hstate : restoreState roundControl.config roundInitial "instruction" [roundAttempt] =
      .ok ⟨roundInitial, "instruction", 1, [roundAttempt], 1, rfl⟩ := rfl
  obtain ⟨rounds,hrounds⟩ := restoreState_resumes hstate
  exact ⟨_, rounds, hstate, hrounds⟩

def roundOutput : AdapterOutput Rat :=
  ((roundAdapter roundProposal).invoke roundRequest []).toOption.getD (exhaustedOutput 0 0)

theorem roundOutput_invoked :
    (roundAdapter roundProposal).invoke roundRequest [] = .ok roundOutput := by
  have hok : ((roundAdapter roundProposal).invoke roundRequest []).toOption.isSome = true := by
    decide +kernel
  cases hinvoke : (roundAdapter roundProposal).invoke roundRequest [] with
  | ok output =>
    rw [roundOutput, hinvoke]
    rfl
  | error message =>
    rw [hinvoke] at hok
    cases hok

theorem roundOutput_intents : ∀ intent ∈ roundOutput.optimEvalRequests,
    intent.expectedRewardPolicyHash = some zeroHash := by
  decide +kernel

theorem invoke_concludes_round : ∃ initial ranked,
    roundRequest.candidates = [initial] ∧ Ranked roundRequest.attemptHistory ranked ∧
      Concludes roundRun initial ranked roundOutput ∧
      (roundOutput.proposedStatus = .continuing → roundOutput.optimEvalRequests ≠ [] ∧
        roundOutput.optimEvalRequests.length ≤ 2 ∧
        ∀ candidate ∈ roundOutput.proposedCandidates, Mutates roundRun initial candidate) ∧
      (roundOutput.budgetDelta = noDelta ∨ ∃ count,
        roundOutput.budgetDelta = proposalDelta count ∧ ∀ remaining,
          roundRequest.budget.remaining.get? proposalCallsLabel = some remaining →
            count ≤ remaining) :=
  invoke_concludes roundOutput_invoked rfl

/- Every intent of the round is measured. -/
def roundResult : OptimStepResult Rat where
  fields := stepResultFields roundRequest.toOptimStepRequest roundOutput []
    ⟨Dict.empty.set proposalCallsLabel 1, Dict.empty.set proposalCallsLabel 0⟩
    (roundOutput.optimEvalRequests.pmap (fun intent h =>
      ⟨measuredFields intent, measuredFields_valid h⟩) roundOutput_intents) none none
  valid := by decide +kernel

theorem forall₂_pmap {α β : Type} {P : α → Prop} {R : α → β → Prop} {f : ∀ a, P a → β}
    (hf : ∀ a h, R a (f a h)) (l : List α) (hl : ∀ a ∈ l, P a) :
    List.Forall₂ R l (l.pmap f hl) := by
  induction l with
  | nil => exact .nil
  | cons a rest ih => exact .cons (hf _ _) (ih _)

theorem roundRun_progress : Progress roundControl roundRun roundInitial [roundResult] := by
  have hmeasured : List.Forall₂ (Measured roundControl roundRun) roundOutput.optimEvalRequests
      roundResult.fields.resolvedIntents := by
    refine forall₂_pmap (fun intent h => ⟨rfl, rfl, rfl, fun reward hreward => ?_⟩) _ _
    cases hreward
    rfl
  have hcontinues : roundOutput.proposedStatus = .continuing := by decide +kernel
  refine Progress.round .start ?_ ?_ ?_ ?_ roundOutput_invoked hcontinues ?_ hmeasured
  · rfl
  · rfl
  · rfl
  · rfl
  · rfl

theorem progress_restores_round : ∃ attempts rounds state,
    coproAttemptHistory roundControl roundRun.mutationField [roundResult] = .ok attempts ∧
      restoreState roundControl.config roundInitial roundRun.mutationField attempts = .ok state ∧
      [roundResult].length ≤ roundControl.depth ∧ Rounds attempts rounds ∧
      rounds.length = [roundResult].length ∧
      (∀ round ∈ rounds, round ≠ [] ∧ round.length ≤ roundControl.breadth) ∧
      ordinals attempts = List.range attempts.length ∧ (intentIds attempts).Nodup ∧
      ∀ attempt ∈ attempts, Tried roundRun roundInitial attempt :=
  progress_restores roundRun_prepared roundRun_progress

end Witnesses
end Whetstone.Optim.Copro
