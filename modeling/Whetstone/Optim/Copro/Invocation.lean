import Whetstone.Optim.Copro.RoundFolding
import Whetstone.Optim.Copro.Adapter

/-! The invocations of COPRO: a round puts out what its drafts come to, and what ends the run is
the choice among what was ranked, or one of five failures. -/
namespace Whetstone.Optim.Copro
open Whetstone.Core Whetstone.Lib Whetstone.Experiment Whetstone.Eval Whetstone.Tools
open Whetstone.Optim.Step

attribute [local instance] exactFiniteFloats

section Conclusions

variable [PyIdentifiers] [ToolIdentity] [RewardIdentity Rat]
variable {run : OptimRun Rat} {initial : Candidate} {ranked : List CoproAttempt}

/-! ### What ends a run -/

/- The choice of a terminal step among what was ranked: the seed when it is the best, and
   otherwise the best candidates that are not the seed, as many as the run wants. -/
structure Selects (run : OptimRun Rat) (initial : Candidate) (ranked : List CoproAttempt)
    (accepted : List Candidate) (seedRetained : Bool) (retained : Option Candidate) : Prop where
  enough : run.terminalOutputContract.acceptedCountFor .complete ≤ ranked.length
  seed : (ranked.head?.map fun best => best.candidate) = some initial →
    accepted = [] ∧ seedRetained = true ∧ retained = some initial
  proposals : (ranked.head?.map fun best => best.candidate) ≠ some initial →
    seedRetained = false ∧ retained = none ∧
      accepted.length = run.terminalOutputContract.acceptedCountFor .complete ∧
      accepted <+: (ranked.map fun entry => entry.candidate).filter fun candidate =>
        candidate ≠ initial

def failureCodes : List String :=
  ["copro_proposal_cardinality", "copro_proposal_round_empty", "copro_no_measured_history",
    "copro_insufficient_ranked_candidates", "copro_proposal_budget_exhausted"]

structure Concludes (run : OptimRun Rat) (initial : Candidate) (ranked : List CoproAttempt)
    (output : AdapterOutput Rat) : Prop where
  selects : output.proposedStatus = .complete → Selects run initial ranked
    output.acceptedCandidates output.seedRetained output.retainedCandidate
  fails : ∀ failure, output.terminalFailure = some failure → failure.code ∈ failureCodes

theorem seedWon_iff (hseed : run.initialCandidateRef = some initial) : seedWon ranked run = true ↔
    (ranked.head?.map fun best => best.candidate) = some initial := by
  unfold seedWon
  rw [hseed]
  cases ranked with
  | nil => simp
  | cons best rest => simp

theorem acceptedWithoutSeed_length {accepted : List Candidate} {required : Nat}
    (h : acceptedWithoutSeed ranked run required = some accepted) : accepted.length = required := by
  unfold acceptedWithoutSeed at h
  dsimp only at h
  split_ifs at h with hfew
  cases h
  rw [List.length_take]
  omega

theorem acceptedWithoutSeed_selects (hseed : run.initialCandidateRef = some initial)
    {accepted : List Candidate}
    (hmany : run.terminalOutputContract.acceptedCountFor .complete ≤ ranked.length)
    (hlost : ¬ seedWon ranked run = true)
    (hsome : acceptedWithoutSeed ranked run
      (run.terminalOutputContract.acceptedCountFor .complete) = some accepted) :
    Selects run initial ranked accepted false none := by
  rw [seedWon_iff hseed] at hlost
  refine ⟨hmany, fun hwon => absurd hwon hlost, fun _ => ⟨rfl, rfl, ?_, ?_⟩⟩
  · exact acceptedWithoutSeed_length hsome
  · unfold acceptedWithoutSeed at hsome
    dsimp only at hsome
    split_ifs at hsome
    cases hsome
    rw [List.filter_map]
    simp only [hseed, ne_eq, Option.some.injEq, Function.comp_def, eq_comm (a := initial)]
    exact List.take_prefix _ _

variable {usage : List (ProposerCallUsage Rat)} {delta : BudgetDelta}
variable {stateDelta : List (String × Json)}

theorem concludes_failed {proposed : List Candidate} {failure : TerminalFailure}
    (hcode : failure.code ∈ failureCodes) :
    Concludes run initial ranked (failedOutput usage delta stateDelta proposed failure) := by
  refine ⟨fun h => ?_, fun other h => ?_⟩
  · simp [failedOutput, Codex.plainFields] at h
  · cases h
    exact hcode

theorem concludes_seedRetained
    (hmany : run.terminalOutputContract.acceptedCountFor .complete ≤ ranked.length)
    (hwon : (ranked.head?.map fun best => best.candidate) = some initial) :
    Concludes run initial ranked (seedRetainedOutput usage delta stateDelta initial) :=
  ⟨fun _ => ⟨hmany, fun _ => ⟨rfl, rfl, rfl⟩, fun h => absurd hwon h⟩, fun _ h => by cases h⟩

theorem concludes_accepted {accepted : List Candidate}
    (h : Selects run initial ranked accepted false none) :
    Concludes run initial ranked (acceptedOutput usage delta stateDelta accepted) :=
  ⟨fun _ => h, fun _ h => by cases h⟩

variable [CoproDumps]

theorem finalizedOutput_concludes (hseed : run.initialCandidateRef = some initial)
    {finalization : CoproFinalization} (hranked : finalization.rankedAttempts = ranked) :
    Concludes run initial ranked (finalizedOutput run initial finalization) := by
  unfold finalizedOutput
  dsimp only
  rw [hranked]
  split_ifs with hempty hfew hwon
  · exact concludes_failed (by simp [failureCodes])
  · exact concludes_failed (by simp [failureCodes, insufficientRanked])
  · exact concludes_seedRetained (not_lt.mp hfew) ((seedWon_iff hseed).mp hwon)
  · cases hsome : acceptedWithoutSeed ranked run
        (run.terminalOutputContract.acceptedCountFor .complete) with
    | none => exact concludes_failed (by simp [failureCodes, insufficientRanked])
    | some accepted =>
      exact concludes_accepted (acceptedWithoutSeed_selects hseed (not_lt.mp hfew) hwon hsome)

theorem finalizedOutput_delta (run : OptimRun Rat) (initial : Candidate)
    (finalization : CoproFinalization) :
    (finalizedOutput run initial finalization).budgetDelta = noDelta ∧
      (finalizedOutput run initial finalization).proposedStatus ≠ .continuing := by
  unfold finalizedOutput
  dsimp only
  split_ifs
  · exact ⟨rfl, StepStatus.noConfusion⟩
  · exact ⟨rfl, StepStatus.noConfusion⟩
  · exact ⟨rfl, StepStatus.noConfusion⟩
  · cases acceptedWithoutSeed finalization.rankedAttempts run
      (run.terminalOutputContract.acceptedCountFor .complete) with
    | none => exact ⟨rfl, StepStatus.noConfusion⟩
    | some accepted => exact ⟨rfl, StepStatus.noConfusion⟩

variable [CandidateIdentity] {report : RoundReport} {config : CoproConfig} {control : CoproControl}
variable {asked : OptimStepRequest Rat} {history : List CoproAttempt}

/-- A round concludes, or it goes on with every candidate it realized. -/
theorem output_concludes (hseed : asked.run.initialCandidateRef = some initial) :
    Concludes asked.run initial (rankAttemptHistory history)
        (report.output config control asked initial history) ∧
      ((report.output config control asked initial history).proposedStatus = .continuing →
        report.overfilled config = false ∧ report.proposed ≠ [] ∧
          report.output config control asked initial history =
            report.evaluatedOutput config control asked history (rankAttemptHistory history)) := by
  unfold RoundReport.output
  dsimp only
  split_ifs with hover hempty
  · refine ⟨concludes_failed (by simp [failureCodes]), fun h => ?_⟩
    simp [RoundReport.overfilledOutput, failedOutput, Codex.plainFields] at h
  · unfold RoundReport.terminalizeWithoutProposals
    dsimp only
    split_ifs with hfew hwon
    · refine ⟨concludes_failed (by simp [failureCodes, RoundReport.roundEmpty]), fun h => ?_⟩
      simp [failedOutput, Codex.plainFields] at h
    · refine ⟨concludes_seedRetained (not_lt.mp hfew) ((seedWon_iff hseed).mp hwon), fun h => ?_⟩
      simp [seedRetainedOutput, Codex.plainFields] at h
    · cases hsome : acceptedWithoutSeed (rankAttemptHistory history) asked.run
          (asked.run.terminalOutputContract.acceptedCountFor .complete) with
      | none =>
        refine ⟨concludes_failed (by simp [failureCodes, RoundReport.roundEmpty]), fun h => ?_⟩
        simp [failedOutput, Codex.plainFields] at h
      | some accepted =>
        refine ⟨concludes_accepted
          (acceptedWithoutSeed_selects hseed (not_lt.mp hfew) hwon hsome), fun h => ?_⟩
        simp [acceptedOutput, Codex.plainFields] at h
  · refine ⟨⟨fun h => ?_, fun _ h => by cases h⟩, fun _ => ⟨?_, hempty, rfl⟩⟩
    · simp [RoundReport.evaluatedOutput, continuingOutput, Codex.plainFields] at h
    · simpa using hover

theorem output_budgetDelta :
    (report.output config control asked initial history).budgetDelta =
      proposalDelta report.plan.proposalCount := by
  unfold RoundReport.output
  dsimp only
  split_ifs
  · rfl
  · unfold RoundReport.terminalizeWithoutProposals
    dsimp only
    split_ifs
    · rfl
    · rfl
    · cases acceptedWithoutSeed (rankAttemptHistory history) asked.run
        (asked.run.terminalOutputContract.acceptedCountFor .complete) <;> rfl
  · rfl

end Conclusions

/-! ### An invocation -/

section Invocation

variable [PyIdentifiers] [CandidateIdentity] [ToolIdentity] [RewardIdentity Rat]
variable [CoproIdentity] [CoproDumps] {adapter : CoproAdapter}

/- What a round asks for and what it puts out; a round that the budget does not cover puts out
   nothing. -/
structure Rounded (adapter : CoproAdapter) (request : OptimStepRequest Rat) (initial : Candidate)
    (state : CoproState) (output : AdapterOutput Rat) : Prop where
  index : state.completedRounds = request.stepIndex
  within : state.completedRounds < adapter.control.depth
  asks : ∃ plan, advance adapter.control.config state = .ok plan ∧
    ((∃ remaining, remaining < plan.proposalCount ∧
        output = exhaustedOutput plan.proposalCount remaining) ∨
      (∀ remaining, request.budget.remaining.get? proposalCallsLabel = some remaining →
        plan.proposalCount ≤ remaining) ∧ ∃ drafts usage, output =
          (roundReport adapter.control request.run initial state.attempts.length plan drafts
            usage).output adapter.control.config adapter.control request initial state.attempts)

omit [CoproIdentity] in
theorem draftRound_report {request : OptimStepRequest Rat} {initial : Candidate}
    {history : List CoproAttempt} {plan : CoproRoundPlan} {output : AdapterOutput Rat}
    (h : adapter.draftRound request initial history plan = .ok output) : ∃ drafts usage, output =
      (roundReport adapter.control request.run initial history.length plan drafts usage).output
        adapter.control.config adapter.control request initial history := by
  unfold CoproAdapter.draftRound at h
  rw [bind_eq_ok] at h
  obtain ⟨_,_,h⟩ := h
  rw [bind_eq_ok] at h
  obtain ⟨drafts,_,h⟩ := h
  rw [bind_eq_ok] at h
  obtain ⟨usage,_,h⟩ := h
  cases h
  exact ⟨drafts, _, rfl⟩

theorem proposeRound_rounded {request : OptimStepRequest Rat} {initial : Candidate}
    {state : CoproState} {output : AdapterOutput Rat}
    (hmore : ¬ adapter.control.depth ≤ state.completedRounds)
    (h : adapter.proposeRound request initial state = .ok output) :
    Rounded adapter request initial state output := by
  unfold CoproAdapter.proposeRound at h
  rw [bind_eq_ok] at h
  obtain ⟨iteration,_,h⟩ := h
  rw [bind_eq_ok] at h
  obtain ⟨expected,_,h⟩ := h
  rw [raiseIf_bind_eq_ok, raiseIf_bind_eq_ok, raiseIf_bind_eq_ok, bind_eq_ok] at h
  obtain ⟨_,hstep,hcompleted,plan,hplan,h⟩ := h
  refine ⟨?_, not_le.mp hmore, plan, hplan, ?_⟩
  · have hsame := (not_not.mp hcompleted).symm.trans (not_not.mp hstep)
    exact_mod_cast hsame
  · cases hremaining : request.budget.remaining.get? proposalCallsLabel with
    | none =>
      rw [hremaining] at h
      exact .inr ⟨fun _ hsome => (by cases hsome), draftRound_report h⟩
    | some remaining =>
      rw [hremaining] at h
      dsimp only at h
      split_ifs at h with hshort
      · cases h
        exact .inl ⟨remaining, hshort, rfl⟩
      · refine .inr ⟨fun other hsome => ?_, draftRound_report h⟩
        cases hsome
        exact not_lt.mp hshort

variable [ScoreStatistics]

/- An invocation restores the history of its request and finalizes it, or goes on with a round. -/
theorem invoke_restores {request : CoproStepRequest} {output : AdapterOutput Rat}
    (h : adapter.invoke request [] = .ok output) : ∃ initial state,
      request.candidates = [initial] ∧
      restoreState adapter.control.config initial request.run.mutationField
        request.attemptHistory = .ok state ∧
      ((∃ finalization, finalize adapter.control.config state = .ok finalization ∧
          output = finalizedOutput request.run initial finalization) ∨
        Rounded adapter request.toOptimStepRequest initial state output) := by
  unfold CoproAdapter.invoke at h
  rw [raiseIf_bind_eq_ok, check_bind_eq_ok] at h
  obtain ⟨_,_,h⟩ := h
  split at h
  · rename_i initial hcandidates
    rw [bind_eq_ok] at h
    obtain ⟨_,_,h⟩ := h
    rw [check_bind_eq_ok, check_bind_eq_ok, check_bind_eq_ok, bind_eq_ok] at h
    obtain ⟨_,_,_,state,hstate,h⟩ := h
    refine ⟨initial, state, hcandidates, hstate, ?_⟩
    split_ifs at h with hdepth
    · rw [bind_eq_ok] at h
      obtain ⟨finalization,hfinalize,h⟩ := h
      cases h
      exact .inl ⟨finalization, hfinalize, rfl⟩
    · exact .inr (proposeRound_rounded hdepth h)
  · cases h

end Invocation
end Whetstone.Optim.Copro
