import Whetstone.Optim.Copro.Records
import Whetstone.Lib.KeyedBest
import Mathlib.Algebra.Order.Ring.Unbundled.Rat

/-! The driver of COPRO: the ranking of what has been measured, the rounds that a history is made
of, the state they fold to, the plan of the next round and the finalization. -/
namespace Whetstone.Optim.Copro
open Whetstone.Core Whetstone.Lib Whetstone.Experiment Whetstone.Eval Whetstone.Optim.Step

attribute [local instance] exactFiniteFloats

section Driver

variable [RewardIdentity Rat]

/-! ### Ranking -/

/- The best attempt of each instruction, where the instruction first occurs. -/
def uniqueMeasuredAttempts (entries : List CoproAttempt) : List CoproAttempt :=
  (bestByKey CoproAttempt.instruction (fun entry => entry.reward) entries).values

def rankAttemptHistory (entries : List CoproAttempt) : List CoproAttempt :=
  (uniqueMeasuredAttempts entries).mergeSort fun a b => decide (-a.reward ≤ -b.reward)

/-! ### Rounds -/

/- The closed rounds, the open one and the indices of both. -/
structure Grouping where
  groups : List (List CoproAttempt)
  current : List CoproAttempt
  seen : List Nat

namespace Grouping

def empty : Grouping := ⟨[], [], []⟩

def closed (g : Grouping) : List (List CoproAttempt) :=
  if g.current = [] then g.groups else g.groups ++ [g.current]

def openRound (g : Grouping) (attempt : CoproAttempt) : Except String Grouping := do
  raiseIf (attempt.roundIndex ∈ g.seen) "COPRO attempt history revisits an earlier round index"
  -- `<= max(seen)`
  raiseIf (∃ index ∈ g.seen, attempt.roundIndex ≤ index)
    "COPRO attempt history round indices must ascend"
  return ⟨g.closed, [attempt], attempt.roundIndex :: g.seen⟩

def add (g : Grouping) (attempt : CoproAttempt) : Except String Grouping :=
  match g.current.getLast? with
  | none => g.openRound attempt
  | some last =>
    if attempt.roundIndex ≠ last.roundIndex then g.openRound attempt
    else .ok { g with current := g.current ++ [attempt] }

end Grouping

def roundsByIndex (attempts : List CoproAttempt) : Except String (List (List CoproAttempt)) := do
  let g ← attempts.foldlM Grouping.add Grouping.empty
  return g.closed

/-! ### Folding -/

def initialState (initialCandidate : Candidate) (mutationField : String) : CoproState :=
  ⟨initialCandidate, mutationField, 0, [], 0, rfl⟩

/- `first` is the attempt that the run, the Eval Config, the role and the policies are read off. -/
def checkAttempt (state : CoproState) (first : CoproAttempt) (priorIntentIds : List String)
    (expected : Nat) (attempt : CoproAttempt) : Except String Unit := do
  raiseIf (attempt.occurrenceOrdinal ≠ expected)
    "COPRO occurrence ordinals must be contiguous in evaluation order"
  raiseIf (attempt.roundIndex ≠ state.completedRounds)
    "COPRO attempt round_index does not match state"
  raiseIf (attempt.runId ≠ first.runId) "COPRO attempts span multiple runs"
  raiseIf (attempt.evalConfigRef ≠ first.evalConfigRef)
    "COPRO attempts span multiple Eval Configs"
  raiseIf (attempt.evalRole ≠ first.evalRole) "COPRO attempts span multiple Evaluation Roles"
  raiseIf (attempt.providerExecutionPolicyRef ≠ first.providerExecutionPolicyRef)
    "COPRO attempts span multiple Provider Execution Policies"
  raiseIf (attempt.expectedRewardPolicyHash ≠ first.expectedRewardPolicyHash)
    "COPRO attempts span multiple Reward Policies"
  raiseIf (attempt.intentId ∈ priorIntentIds) "COPRO attempt intent IDs must be unique"
  raiseIf (attempt.candidate.payload.filter (·.1 ≠ state.mutationField) ≠
      state.initialCandidate.payload.filter (·.1 ≠ state.mutationField))
    "COPRO attempt changes a field outside the instruction"

def checkAttempts (state : CoproState) (first : CoproAttempt) :
    (priorIntentIds : List String) → (expected : Nat) → List CoproAttempt → Except String Unit
  | _, _, [] => .ok ()
  | prior, expected, attempt :: rest => do
    checkAttempt state first prior expected attempt
    checkAttempts state first (attempt.intentId :: prior) (expected + 1) rest

def CoproState.extend (state : CoproState) (attempts : List CoproAttempt) : CoproState where
  initialCandidate := state.initialCandidate
  mutationField := state.mutationField
  completedRounds := state.completedRounds + 1
  attempts := state.attempts ++ attempts
  totalCalls := state.totalCalls + attempts.length
  valid := by rw [List.length_append, state.valid]

variable (config : CoproConfig)

def foldRound (state : CoproState) (attempts : List CoproAttempt) : Except String CoproState := do
  raiseIf (config.depth ≤ state.completedRounds) "COPRO state already contains configured depth"
  raiseIf (config.breadth < attempts.length) "COPRO round exceeded breadth measured occurrences"
  let first ← raised "COPRO round requires at least one measured occurrence" attempts.head?
  checkAttempts state (state.attempts.head?.getD first)
    (state.attempts.map fun attempt => attempt.intentId) state.attempts.length attempts
  return state.extend attempts

def restoreState (initialCandidate : Candidate) (mutationField : String)
    (attempts : List CoproAttempt) : Except String CoproState := do
  let rounds ← roundsByIndex attempts
  rounds.foldlM (foldRound config) (initialState initialCandidate mutationField)

def requireRestored (state : CoproState) : Except String Unit := do
  let restored ← restoreState config state.initialCandidate state.mutationField state.attempts
  raiseIf (restored ≠ state) "COPRO state does not match its occurrence history"

/-! ### Plans -/

inductive ProposalMode where
  | seedProposal
  | historyProposal
deriving DecidableEq

def ProposalMode.value : ProposalMode → String
  | .seedProposal => "seed_proposal"
  | .historyProposal => "history_proposal"

structure CoproRoundPlan where
  iteration : Nat
  proposalMode : ProposalMode
  proposalCount : Nat
  includeInitialCandidate : Bool
  instructionHistory : List PromptEntry
deriving DecidableEq

def planHistoryRound (iteration : Nat) (attemptHistory : List CoproAttempt) :
    Except String CoproRoundPlan := do
  let ranked := rankAttemptHistory attemptHistory
  raiseIf (ranked = []) "COPRO history round requires measured history"
  return ⟨iteration, .historyProposal, config.breadth, false,
    ((ranked.take config.breadth).reverse).map CoproAttempt.promptEntry⟩

def planSeedRound (iteration : Nat) (attemptHistory : List CoproAttempt) :
    Except String CoproRoundPlan := do
  raiseIf (rankAttemptHistory attemptHistory ≠ [])
    "COPRO seed round cannot consume measured history"
  return ⟨iteration, .seedProposal, config.breadth - 1, true, []⟩

def planRound (iteration : Nat) (initialCandidates : List Candidate)
    (attemptHistory : List CoproAttempt) : Except String CoproRoundPlan := do
  raiseIf (initialCandidates.length ≠ 1)
    "single-prompt COPRO requires exactly one initial candidate"
  raiseIf (config.depth ≤ iteration) "COPRO iteration exceeds configured depth"
  if iteration = 0 then planSeedRound config iteration attemptHistory
  else planHistoryRound config iteration attemptHistory

def advance (state : CoproState) : Except String CoproRoundPlan := do
  requireRestored config state
  raiseIf (config.depth ≤ state.completedRounds) "COPRO has no round remaining to advance"
  planRound config state.completedRounds [state.initialCandidate] state.attempts

/-! ### Finalization -/

/-- What is said of measured scores beside their extremes. No property is assumed. -/
class ScoreStatistics where
  average : List Rat → Rat
  pstdev : List Rat → Rat

structure ScoreSummary where
  max : Rat
  average : Rat
  min : Rat
  std : Rat
deriving DecidableEq

structure CoproStatistics where
  totalCalls : Nat
  resultsLatest : List ScoreSummary
  resultsBest : List ScoreSummary
deriving DecidableEq

structure CoproFinalization where
  rankedAttempts : List CoproAttempt
  totalCalls : Nat
  statistics : Option CoproStatistics
deriving DecidableEq

variable [ScoreStatistics]

def scoreSummary : List Rat → Except String ScoreSummary
  | [] => .error "COPRO statistics require measured scores"
  | score :: rest => .ok ⟨rest.foldl max score, ScoreStatistics.average (score :: rest),
      rest.foldl min score, ScoreStatistics.pstdev (score :: rest)⟩

def rewards (attempts : List CoproAttempt) : List Rat := attempts.map fun entry => entry.reward

/- The depths of a series are the positions in it. -/
def addRound (statistics : CoproStatistics × List CoproAttempt) (roundEntries : List CoproAttempt) :
    Except String (CoproStatistics × List CoproAttempt) := do
  raiseIf (config.breadth < roundEntries.length)
    "COPRO statistics require at most one breadth-sized batch per depth"
  let cumulative := statistics.2 ++ roundEntries
  let latest ← scoreSummary (rewards roundEntries)
  let best ← scoreSummary (rewards ((rankAttemptHistory cumulative).take 10))
  return (⟨statistics.1.totalCalls + roundEntries.length, statistics.1.resultsLatest ++ [latest],
    statistics.1.resultsBest ++ [best]⟩, cumulative)

def statistics (rounds : List (List CoproAttempt)) : Except String CoproStatistics := do
  raiseIf (rounds.length ≠ config.depth)
    "COPRO statistics require exactly configured depth rounds"
  let summed ← rounds.foldlM (addRound config) (⟨0, [], []⟩, [])
  return summed.1

def finalize (state : CoproState) : Except String CoproFinalization := do
  requireRestored config state
  raiseIf (state.completedRounds ≠ config.depth)
    "COPRO cannot finalize before configured depth"
  let rounds ← roundsByIndex state.attempts
  let statistics ← if config.trackStats then (statistics config rounds).map some else .ok none
  return ⟨rankAttemptHistory state.attempts, state.totalCalls, statistics⟩

end Driver

end Whetstone.Optim.Copro
