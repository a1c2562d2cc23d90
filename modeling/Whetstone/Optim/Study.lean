import Whetstone.Lib.Dict
import Whetstone.Optim.StudyTranscript

/-! The MIPROv2 study: its transcripts, the suggestions it derives from them and the samples
it records. A study holds no sampler state; each operation rebuilds the sampler's study from
the transcript. -/
namespace Whetstone.Optim
open Whetstone.Core Whetstone.Lib CitedRecords

section Study

variable {F : Type} [DecidableEq F] [StudyFloats F] [CitedRecords F] [StudyChecks F] [StudyHashes]

/-! ### Promotions -/

variable (F) in
structure PromotionCandidate where
  params : TrialParams
  candidateCombinationIdentityHash : String
  evaluatedCandidateIdentityHash : String
  candidateAssembly : Miprov2CandidateAssemblyBinding F
  sourceSampleTrialNumber : Int
  minibatchMean : F

def PromotionCandidate.modelValidate (c : PromotionCandidate F) :
    Except String (PromotionCandidate F) := do
  requireFullHash c.candidateCombinationIdentityHash "candidate_combination_identity_hash"
  requireFullHash c.evaluatedCandidateIdentityHash "evaluated_candidate_identity_hash"
  raiseIf (candidateHash c.candidateAssembly.candidate ≠ c.evaluatedCandidateIdentityHash)
    "promotion candidate does not match its assembly binding"
  raiseIf (c.sourceSampleTrialNumber < 1) "source_sample_trial_number must be positive"
  requireFinite c.minibatchMean "minibatch_mean"
  return c

/- The scores of each combination in the order of its first sample, with that sample. -/
def groupSamples (samples : List (SampleObservation F)) :
    Dict String (SampleObservation F × List F) :=
  samples.foldl (fun groups sample =>
    let key := sample.candidateCombinationIdentityHash
    match groups.get? key with
    | none => groups.set key (sample, [sample.score])
    | some (first, scores) => groups.set key (first, scores ++ [sample.score])) Dict.empty

def promotionOf (group : String × SampleObservation F × List F) :
    Except String (PromotionCandidate F) :=
  PromotionCandidate.modelValidate
    { params := group.2.1.params
      candidateCombinationIdentityHash := group.1
      evaluatedCandidateIdentityHash := group.2.1.evaluatedCandidateIdentityHash
      candidateAssembly := group.2.1.candidateAssembly
      sourceSampleTrialNumber := group.2.1.trialNumber
      minibatchMean := FloatOps.divNat (FloatOps.sum group.2.2) group.2.2.length }

/- Combinations rank by their mean, equal means by their first samples. -/
def selectPromotion (samples : List (SampleObservation F)) :
    Except String (PromotionCandidate F) := do
  let promoted := samples.filterMap fun sample =>
    sample.promotion.map Promotion.candidateCombinationIdentityHash
  let candidates ← (groupSamples samples).pairs.mapM promotionOf
  let ranked := candidates.mergeSort fun a b => !FloatOps.lt a.minibatchMean b.minibatchMean
  match ranked.find? fun c => decide (c.candidateCombinationIdentityHash ∉ promoted) with
  | some candidate => return candidate
  | none =>
    -- every combination has been promoted: the last one is promoted again
    match ranked.getLast? with
    | some candidate => return candidate
    | none => throw "No valid program found in param_score_dict"

/-! ### The study -/

structure StudySuggestion where
  trialNumber : Int
  params : TrialParams
  candidateCombinationIdentityHash : String
deriving DecidableEq

def StudySuggestion.modelValidate (s : StudySuggestion) : Except String StudySuggestion := do
  raiseIf (s.trialNumber < 1) "suggestion trial_number must be positive"
  requireFullHash s.candidateCombinationIdentityHash "candidate_combination_identity_hash"
  return s

/- What a study checks when it is built, and the validation of its schedule and space. -/
def validateStudy (contract : StudyContract F) : Except String Unit := do
  contract.parameterSpace.validate
  contract.schedule.validate
  raiseIf (CitedRecords.runId contract.run ≠ contract.runId)
    "study run_id conflicts with the exact run"
  raiseIf (contract.demoMode.searchesDemos ≠ contract.demoPoolIdentityHashes.isSome)
    ("demo_mode '" ++ contract.demoMode.value ++
      "' conflicts with the parameter space demo dimension")
  requireRunAuthorities contract.run contract.optimizerConfig (some contract.rewardPolicyHash)

variable (F) in
structure Miprov2Study extends StudyContract F where
  valid : validateStudy toStudyContract = .ok ()

variable [Sampler ParameterName F]

/- The parameters in the order they are suggested, each with the size of its pool. -/
def Miprov2ParameterSpace.categories (space : Miprov2ParameterSpace) :
    List (ParameterName × Nat) :=
  (space.instructionPoolIdentityHashes.zipIdx).flatMap fun entry =>
    (.instruction entry.2, entry.1.length) ::
      match space.demoPoolIdentityHashes with
      | none => []
      | some demos => [(.demos entry.2, (demos.getD entry.2 []).length)]

def suggestCategories : List (ParameterName × Nat) → AskTell ParameterName F →
    TrialParams × AskTell ParameterName F
  | [], optuna => ([], optuna)
  | (name, count) :: rest, optuna =>
    let (choice, optuna) := optuna.suggestCategorical name count
    let (params, optuna) := suggestCategories rest optuna
    ((name, (choice : Int)) :: params, optuna)

/- The input of one recorded sample beside its suggestion. -/
variable (F) in
structure SampleInput where
  score : F
  evaluation : EvalObservation F
  candidateAssembly : Miprov2CandidateAssemblyBinding F
  promotionFullScore : Option F
  promotionEvaluation : Option (EvalObservation F)

namespace Miprov2Study

variable (study : Miprov2Study F)

abbrev space : Miprov2ParameterSpace := study.parameterSpace

def suggest (optuna : AskTell ParameterName F) :
    Except String (TrialParams × AskTell ParameterName F) := do
  let (params, optuna) := suggestCategories study.space.categories optuna
  return (← study.space.normalize params, optuna)

def suggestion (trial : Nat) (optuna : AskTell ParameterName F) :
    Except String (StudySuggestion × AskTell ParameterName F) := do
  let (params, optuna) ← study.suggest optuna
  let combination ← study.space.combinationIdentityHash params
  let suggestion ← StudySuggestion.modelValidate ⟨trial, params, combination⟩
  return (suggestion, optuna)

/- The suggestion of the next trial. -/
def askSuggestion (optuna : AskTell ParameterName F) :
    Except String (StudySuggestion × AskTell ParameterName F) :=
  study.suggestion optuna.ask.1 optuna.ask.2

def addCompletedTrial (optuna : AskTell ParameterName F) (params : TrialParams) (value : F) :
    Except String (Nat × AskTell ParameterName F) := do
  let params ← study.space.normalize params
  return optuna.addTrial params (← study.space.distributions) value

/- A fresh sampler with the baseline as its first trial. -/
def openStudy (baselineScore : F) : Except String (AskTell ParameterName F) := do
  let (number, optuna) ← study.addCompletedTrial (.create study.seed) study.space.baselineParams
    baselineScore
  raiseIf (number ≠ 0) "Optuna did not assign the baseline to trial zero"
  return optuna

def promotionDiffers (promotion : Promotion F) (selected : PromotionCandidate F) : Prop :=
  promotion.params ≠ selected.params ∨
  promotion.candidateCombinationIdentityHash ≠ selected.candidateCombinationIdentityHash ∨
  promotion.sourceSampleTrialNumber ≠ selected.sourceSampleTrialNumber ∨
  FiniteFloats.eq promotion.minibatchMean selected.minibatchMean = false ∨
  promotion.evaluatedCandidateIdentityHash ≠ selected.evaluatedCandidateIdentityHash ∨
  promotion.candidateAssembly ≠ selected.candidateAssembly

instance (promotion : Promotion F) (selected : PromotionCandidate F) :
    Decidable (promotionDiffers promotion selected) :=
  inferInstanceAs (Decidable (_ ∨ _))

/- The promotion of a replayed sample enters the study before the sample is told. -/
def replayPromotion (replayed : List (SampleObservation F)) (recorded : SampleObservation F)
    (optuna : AskTell ParameterName F) : Except String (AskTell ParameterName F) :=
  match recorded.promotion with
  | none => return optuna
  | some promoted => do
    let selected ← selectPromotion (replayed ++ [{ recorded with promotion := none }])
    raiseIf (promotionDiffers promoted selected) "promotion does not match stable mean ranking"
    let (added, optuna) ← study.addCompletedTrial optuna promoted.params promoted.fullScore
    raiseIf ((added : Int) ≠ promoted.trialNumber)
      "promotion trial number differs during reconstruction"
    return optuna

def replaySample (state : AskTell ParameterName F × List (SampleObservation F))
    (recorded : SampleObservation F) :
    Except String (AskTell ParameterName F × List (SampleObservation F)) := do
  let (number, optuna) := state.1.ask
  let (params, optuna) ← study.suggest optuna
  raiseIf ((number : Int) ≠ recorded.trialNumber)
    "sample trial number differs during reconstruction"
  let expectedParams ← match study.space.normalize recorded.params with
    | .ok normalized => pure normalized
    | .error _ => throw "sample parameters do not match the frozen search space"
  raiseIf (params ≠ expectedParams) "sample parameters differ during reconstruction"
  let combination ← study.space.combinationIdentityHash params
  raiseIf (recorded.candidateCombinationIdentityHash ≠ combination)
    "sample candidate identity differs during reconstruction"
  raiseIf (study.schedule.promotionDue number ≠ recorded.promotion.isSome)
    "promotion presence differs from persisted cadence"
  let optuna ← study.replayPromotion state.2 recorded optuna
  return (optuna.tell number recorded.score, state.2 ++ [recorded])

def reconstruct (t : StudyTranscript F) : Except String (AskTell ParameterName F) := do
  let optuna ← study.openStudy t.baseline.score
  let (optuna, _) ← t.samples.foldlM study.replaySample (optuna, [])
  return optuna

/-! ### The bound transcript -/

/- The tuple of fields that the source lists by hand: it has neither the demo mode nor the
   number of seeds. -/
def boundContract (t : StudyTranscript F) (distribution : String) : Prop :=
  t.seed = study.seed ∧ t.runId = study.runId ∧
  t.validationTaskHashes = study.validationTaskHashes ∧
  t.validationEvalSource = study.validationEvalSource ∧
  t.rewardPolicyHash = study.rewardPolicyHash ∧ t.optimizerConfig = study.optimizerConfig ∧
  t.promptAdapterIdentityHash = study.promptAdapterIdentityHash ∧
  t.expectedBaseCandidate = study.expectedBaseCandidate ∧
  t.programLayout = study.programLayout ∧ t.run = study.run ∧
  t.instructionPoolIdentityHashes = study.instructionPoolIdentityHashes ∧
  t.demoPoolIdentityHashes = study.demoPoolIdentityHashes ∧
  t.parameterSpaceIdentityHash = study.space.identityHash ∧
  t.distributionIdentityHash = distribution ∧ t.schedule = study.schedule

instance (t : StudyTranscript F) (distribution : String) :
    Decidable (study.boundContract t distribution) :=
  inferInstanceAs (Decidable (_ ∧ _))

/- One sample of a bound transcript, under the trial number it must have; the number of the
   next sample. -/
def boundSample (state : Int × List (SampleObservation F)) (sample : SampleObservation F) :
    Except String (Int × List (SampleObservation F)) := do
  raiseIf (sample.trialNumber ≠ state.1) "sample trial chronology differs from promotion schedule"
  raiseIf (study.schedule.promotionDue sample.trialNumber ≠ sample.promotion.isSome)
    "promotion presence differs from persisted cadence"
  match sample.promotion with
  | none => return (state.1 + 1, state.2 ++ [sample])
  | some promotion =>
    let selected ← selectPromotion (state.2 ++ [{ sample with promotion := none }])
    raiseIf (promotion.trialNumber ≠ sample.trialNumber + 1)
      "promotion trial chronology differs from promotion-before-tell ordering"
    raiseIf (promotionDiffers promotion selected) "promotion does not match stable mean ranking"
    return (state.1 + 2, state.2 ++ [sample])

/- Validation returns the transcript it is given, so that the source's comparison with what it
   returns always holds. -/
def requireBoundTranscript (t : StudyTranscript F) : Except String Unit := do
  match t.validate with
  | .error _ => throw "transcript fails its identity and evidence contract"
  | .ok () =>
    let distribution ← study.space.distributionIdentityHash
    raiseIf (¬ study.boundContract t distribution)
      "transcript does not match the bound MIPROv2 study contract"
    let _ ← t.samples.foldlM study.boundSample (1, [])

/-! ### Operations -/

def initialTranscript (baselineScore : F) (baselineEvaluation : EvalObservation F) :
    Except String (StudyTranscript F) := do
  let combination ← study.space.combinationIdentityHash study.space.baselineParams
  let distribution ← study.space.distributionIdentityHash
  StudyTranscript.modelValidate
    { toStudyContract := study.toStudyContract
      parameterSpaceIdentityHash := study.space.identityHash
      distributionIdentityHash := distribution
      baseline := ⟨combination, study.expectedBaseCandidate, baselineScore, baselineEvaluation⟩
      samples := [] }

def exhaustedMessage : String := "MIPROv2 sampled trial schedule is exhausted"

def suggestNext (t : StudyTranscript F) : Except String StudySuggestion := do
  study.requireBoundTranscript t
  raiseIf (study.schedule.numTrials ≤ (t.samples.length : Int)) exhaustedMessage
  let optuna ← study.reconstruct t
  let (suggestion, _) ← study.askSuggestion optuna
  return suggestion

def differsMessage : String := "stored suggestion does not match reconstructed Optuna trial"

def validateNextSuggestion (t : StudyTranscript F) (suggestion : StudySuggestion) :
    Except String Unit := do
  study.requireBoundTranscript t
  raiseIf (study.schedule.numTrials ≤ (t.samples.length : Int)) exhaustedMessage
  let expected ← study.suggestNext t
  raiseIf (expected ≠ suggestion) differsMessage

def provisionalSample (suggestion : StudySuggestion) (input : SampleInput F) :
    Except String (SampleObservation F) := do
  study.requireCandidateAssembly input.candidateAssembly suggestion.params
    suggestion.candidateCombinationIdentityHash
  let tasks := input.evaluation.taskBatchHashes
  raiseIf ((tasks.length : Int) ≠ study.schedule.batchSize)
    "sample task batch does not match persisted schedule"
  let full := decide (study.schedule.valsetSize ≤ tasks.length)
  raiseIf (full = false ∧ ¬ (tasks.Nodup ∧ ∀ task ∈ tasks, task ∈ study.validationTaskHashes))
    "sample tasks must be a unique ordered validation subset"
  study.validateEvaluationBinding input.evaluation .sample
    (if full then study.validationTaskHashes else tasks)
  let sample : SampleObservation F :=
    { trialNumber := suggestion.trialNumber
      params := suggestion.params
      candidateCombinationIdentityHash := suggestion.candidateCombinationIdentityHash
      evaluatedCandidateIdentityHash := candidateHash input.candidateAssembly.candidate
      candidateAssembly := input.candidateAssembly
      score := input.score
      evaluation := input.evaluation
      batchFullEvaluation := full
      promotion := none }
  sample.validate
  return sample

/- The promotion that is due with a sample, and the study it has entered. -/
def promote (samples : List (SampleObservation F)) (provisional : SampleObservation F)
    (fullScore : F) (evaluation : EvalObservation F) (optuna : AskTell ParameterName F) :
    Except String (Promotion F × AskTell ParameterName F) := do
  raiseIf ((evaluation.taskBatchHashes.length : Int) ≠ study.schedule.valsetSize)
    "promotion task batch must cover validation set"
  let selected ← selectPromotion (samples ++ [provisional])
  study.validateEvaluationBinding evaluation .promotion study.validationTaskHashes
  raiseIf (candidateHash evaluation.candidate ≠ selected.evaluatedCandidateIdentityHash)
    "promotion evaluation does not match the selected first-observed candidate"
  let (number, optuna) ← study.addCompletedTrial optuna selected.params fullScore
  let promotion : Promotion F :=
    { trialNumber := number
      params := selected.params
      candidateCombinationIdentityHash := selected.candidateCombinationIdentityHash
      evaluatedCandidateIdentityHash := selected.evaluatedCandidateIdentityHash
      candidateAssembly := selected.candidateAssembly
      sourceSampleTrialNumber := selected.sourceSampleTrialNumber
      minibatchMean := selected.minibatchMean
      fullScore := fullScore
      evaluation := evaluation }
  promotion.validate
  return (promotion, optuna)

/- A trial that was asked, once its evaluation is there: the sample and the study after it. -/
def completeSample (samples : List (SampleObservation F)) (trial : Nat)
    (suggestion : StudySuggestion) (input : SampleInput F) (optuna : AskTell ParameterName F) :
    Except String (SampleObservation F × AskTell ParameterName F) := do
  let provisional ← study.provisionalSample suggestion input
  let due := study.schedule.promotionDue suggestion.trialNumber
  match due, input.promotionFullScore, input.promotionEvaluation with
  | true, some fullScore, some evaluation =>
    let (promotion, optuna) ← study.promote samples provisional fullScore evaluation optuna
    return ({ provisional with promotion := some promotion }, optuna.tell trial input.score)
  | true, _, _ => throw "a promotion evaluation is required at this trial"
  | false, none, none => return (provisional, optuna.tell trial input.score)
  | false, _, _ => throw "promotion evaluation supplied off cadence"

def recordSample (t : StudyTranscript F) (suggestion : StudySuggestion) (input : SampleInput F) :
    Except String (StudyTranscript F) := do
  study.validateNextSuggestion t suggestion
  let optuna ← study.reconstruct t
  let trial := optuna.ask.1
  let (reproduced, optuna) ← study.askSuggestion optuna
  raiseIf (reproduced ≠ suggestion) differsMessage
  let (completed, _) ← study.completeSample t.samples trial suggestion input optuna
  StudyTranscript.modelValidate { t with samples := t.samples ++ [completed] }

/-! ### Runs -/

/- A study that records each input under the suggestion it returns for it. -/
def recordNext (t : StudyTranscript F) (input : SampleInput F) : Except String (StudyTranscript F) := do
  study.recordSample t (← study.suggestNext t) input

def record (baselineScore : F) (baselineEvaluation : EvalObservation F)
    (inputs : List (SampleInput F)) : Except String (StudyTranscript F) := do
  inputs.foldlM study.recordNext (← study.initialTranscript baselineScore baselineEvaluation)

/- A study that keeps its sampler between the samples and never rebuilds it. -/
def liveNext (live : AskTell ParameterName F × List (SampleObservation F))
    (input : SampleInput F) :
    Except String (AskTell ParameterName F × List (SampleObservation F)) := do
  let (suggestion, optuna) ← study.askSuggestion live.1
  let (completed, optuna) ← study.completeSample live.2 live.1.ask.1 suggestion input optuna
  return (optuna, live.2 ++ [completed])

def live (baselineScore : F) (inputs : List (SampleInput F)) :
    Except String (AskTell ParameterName F × List (SampleObservation F)) := do
  inputs.foldlM study.liveNext (← study.openStudy baselineScore, [])

end Miprov2Study
end Study
end Whetstone.Optim
