import Whetstone.Core.Floats
import Whetstone.Core.Identity
import Whetstone.Experiment.Sampling
import Whetstone.Lib.AskTell
import Whetstone.Lib.Raise

/-! The records of a MIPROv2 study and their validation. The records of other subsystems that
a study cites are compared as wholes; their own validation and the derivations that a study
repeats are functions of those records, of which nothing is assumed. -/
namespace Whetstone.Optim
open Whetstone.Core Whetstone.Lib Whetstone.Experiment

/- A hash of a list, under the field's name and its position. -/
def requireFullHashes (values : List String) (field : String) : Except String Unit :=
  (values.zipIdx).forM fun entry =>
    requireFullHash entry.1 (field ++ "[" ++ toString entry.2 ++ "]")

inductive Miprov2DemoMode where
  | fewshot
  | zeroshot
  | groundOnly
deriving DecidableEq

namespace Miprov2DemoMode

def value : Miprov2DemoMode → String
  | .fewshot => "fewshot"
  | .zeroshot => "zeroshot"
  | .groundOnly => "ground_only"

def searchesDemos (mode : Miprov2DemoMode) : Bool := mode = .fewshot

end Miprov2DemoMode

/-! ### The search space -/

/- `{i}_predictor_instruction` and `{i}_predictor_demos` -/
inductive ParameterName where
  | instruction (predictor : Nat)
  | demos (predictor : Nat)
deriving DecidableEq

def ParameterName.text : ParameterName → String
  | .instruction i => toString i ++ "_predictor_instruction"
  | .demos i => toString i ++ "_predictor_demos"

abbrev TrialParams := List (ParameterName × Int)

/- One predictor of a combination. -/
structure SelectedCategory where
  predictorIndex : Nat
  instructionIndex : Int
  instructionIdentityHash : String
  demo : Option (Int × String)
deriving DecidableEq

structure Miprov2ParameterSpace where
  instructionPoolIdentityHashes : List (List String)
  demoPoolIdentityHashes : Option (List (List String))
deriving DecidableEq

/-- The identity hashes of a study's own payloads. -/
class StudyHashes where
  parameterSpace : Miprov2ParameterSpace → String
  distributions : List (ParameterName × Nat) → String
  combination : List SelectedCategory → String
  instruction : String → String
  combination_full : ∀ selected, isFullHash (combination selected) = true

namespace Miprov2ParameterSpace

variable (space : Miprov2ParameterSpace)

def validatePools (pools : List (List String)) (empty field : String) : Except String Unit :=
  (pools.zipIdx).forM fun entry => do
    raiseIf (entry.1 = []) empty
    requireFullHashes entry.1 (field ++ "[" ++ toString entry.2 ++ "]")

def validate : Except String Unit := do
  raiseIf (space.instructionPoolIdentityHashes = []) "at least one predictor is required"
  validatePools space.instructionPoolIdentityHashes
    "instruction candidate pools must all be non-empty" "instruction_pool_identity_hashes"
  match space.demoPoolIdentityHashes with
  | none => return
  | some demos =>
    raiseIf (demos.length ≠ space.instructionPoolIdentityHashes.length)
      "demo candidate pools must match predictor count"
    validatePools demos "demo candidate pools must all be non-empty" "demo_pool_identity_hashes"

/- The names of one predictor. -/
def predictorNames (predictor : Nat) : List ParameterName :=
  .instruction predictor ::
    (if space.demoPoolIdentityHashes.isSome then [.demos predictor] else [])

def parameterNames : List ParameterName :=
  (List.range space.instructionPoolIdentityHashes.length).flatMap space.predictorNames

def baselineParams : TrialParams := space.parameterNames.map fun name => (name, 0)

def candidateCount (name : ParameterName) : Except String Nat :=
  let pool := match name with
    | .instruction i => space.instructionPoolIdentityHashes[i]?
    | .demos i => space.demoPoolIdentityHashes.bind fun demos => demos[i]?
  match pool with
  | some pool => .ok pool.length
  | none => .error ("unknown MIPROv2 parameter '" ++ name.text ++ "'")

def checkCategory (param : ParameterName × Int) : Except String Unit := do
  let count ← space.candidateCount param.1
  raiseIf (¬ (0 ≤ param.2 ∧ param.2 < count))
    (param.1.text ++ " category " ++ toString param.2 ++ " is outside its search space")

def normalize (params : TrialParams) : Except String TrialParams := do
  raiseIf (params.map Prod.fst ≠ space.parameterNames)
    "parameters are not in predictor-major instruction/demo order"
  params.forM space.checkCategory
  return params

def distributions : Except String (List (ParameterName × Nat)) :=
  space.parameterNames.mapM fun name => do return (name, ← space.candidateCount name)

/- A category of a pool: its value and the identity hash it stands for. -/
def category (values : TrialParams) (name : ParameterName) (pool : List String) :
    Except String (Int × String) :=
  match values.lookup name with
  | none => .error ("KeyError: '" ++ name.text ++ "'")
  | some index =>
    match pool[index.toNat]? with
    | none => .error "IndexError: tuple index out of range"
    | some identityHash => .ok (index, identityHash)

def selectedCategory (values : TrialParams) (entry : List String × Nat) :
    Except String SelectedCategory := do
  let instruction ← category values (.instruction entry.2) entry.1
  let demo ← match space.demoPoolIdentityHashes with
    | none => pure none
    | some demos => do
      let selected ← category values (.demos entry.2) (demos.getD entry.2 [])
      pure (some selected)
  return ⟨entry.2, instruction.1, instruction.2, demo⟩

variable [StudyHashes]

def identityHash : String := StudyHashes.parameterSpace space

def distributionIdentityHash : Except String String := do
  return StudyHashes.distributions (← space.distributions)

def combinationIdentityHash (params : TrialParams) : Except String String := do
  let normalized ← space.normalize params
  let selected ← (space.instructionPoolIdentityHashes.zipIdx).mapM
    (space.selectedCategory normalized)
  return StudyHashes.combination selected

end Miprov2ParameterSpace

structure Miprov2StudySchedule where
  numTrials : Int
  minibatch : Bool
  minibatchSize : Int
  valsetSize : Int
  minibatchFullEvalSteps : Int
deriving DecidableEq

namespace Miprov2StudySchedule

variable (schedule : Miprov2StudySchedule)

def validate : Except String Unit := do
  raiseIf (schedule.numTrials ≤ 0) "num_trials must be positive"
  raiseIf (schedule.minibatchSize ≤ 0) "minibatch_size must be positive"
  raiseIf (schedule.valsetSize ≤ 0) "valset_size must be positive"
  raiseIf (schedule.minibatchFullEvalSteps ≤ 0) "minibatch_full_eval_steps must be positive"
  raiseIf (schedule.minibatch ∧ schedule.valsetSize < schedule.minibatchSize)
    "minibatch_size cannot exceed valset_size"

def adjustedNumTrials : Int :=
  if schedule.minibatch then
    schedule.numTrials + schedule.numTrials / schedule.minibatchFullEvalSteps + 1 +
      (if schedule.numTrials % schedule.minibatchFullEvalSteps ≠ 0 then 1 else 0)
  else schedule.numTrials

def promotionDue (optunaTrialNumber : Int) : Bool :=
  schedule.minibatch &&
    ((optunaTrialNumber + 1) % (schedule.minibatchFullEvalSteps + 1) = 0 ∨
      optunaTrialNumber + 1 = schedule.adjustedNumTrials - 1)

def batchSize : Int := if schedule.minibatch then schedule.minibatchSize else schedule.valsetSize

end Miprov2StudySchedule

/-! ### Cited records -/

/-- `percent` is `round(value * 100, 2)`. -/
class StudyFloats (F : Type) extends FiniteFloats F where
  percent : F → F
  eq_self : ∀ x, isFinite x = true → eq x x = true

def requireFinite {F : Type} [StudyFloats F] (value : F) (field : String) : Except String Unit :=
  raiseIf (FloatOps.isFinite value = false) (field ++ " must be finite")

class CitedRecords (F : Type) where
  CandidateRef : Type
  EvalConfigRef : Type
  IdentityRef : Type
  RewardRef : Type
  OptimRunRef : Type
  Derivation : Type
  ComponentSpec : Type
  DemoSet : Type
  candidateEq : DecidableEq CandidateRef
  evalConfigEq : DecidableEq EvalConfigRef
  identityEq : DecidableEq IdentityRef
  rewardEq : DecidableEq RewardRef
  runEq : DecidableEq OptimRunRef
  derivationEq : DecidableEq Derivation
  specEq : DecidableEq ComponentSpec
  demoSetEq : DecidableEq DemoSet
  candidateHash : CandidateRef → String
  candidateRecordRef : CandidateRef → Option TypedRef
  candidateBaseRef : CandidateRef → Option TypedRef
  recordHash : IdentityRef → String
  rewardPolicyHash : RewardRef → String
  rewardValue : RewardRef → F
  runId : OptimRunRef → String
  runOptimizerConfig : OptimRunRef → IdentityRef
  runRewardPolicyHash : OptimRunRef → Option String
  specComponentId : ComponentSpec → String
  specPromptFormatHash : ComponentSpec → String
  demoSetHash : DemoSet → String
  demoSetComponentIds : DemoSet → List String

open CitedRecords

section Equality

variable {F : Type} [CitedRecords F]

instance : DecidableEq (CandidateRef F) := candidateEq
instance : DecidableEq (EvalConfigRef F) := evalConfigEq
instance : DecidableEq (IdentityRef F) := identityEq
instance : DecidableEq (RewardRef F) := rewardEq
instance : DecidableEq (OptimRunRef F) := runEq
instance : DecidableEq (Derivation F) := derivationEq
instance : DecidableEq (ComponentSpec F) := specEq
instance : DecidableEq (DemoSet F) := demoSetEq

end Equality

inductive EvalPurpose where
  | baseline
  | sample
  | promotion
deriving DecidableEq

/- The purpose without its `miprov2_` text, as a derivation request spells it. -/
def EvalPurpose.derivation : EvalPurpose → String
  | .baseline => "baseline"
  | .sample => "sample"
  | .promotion => "promotion"

section Records

variable (F : Type) [CitedRecords F]

structure Miprov2ProgramLayout where
  layoutId : String
  componentSpecs : List (ComponentSpec F)
deriving DecidableEq

structure EvalBindingRequest where
  controlIdentityHash : String
  sourceEvalConfig : EvalConfigRef F
  purpose : String
  effectIdentityHash : String
  taskBatchHashes : List String
  numSeeds : Int
deriving DecidableEq

/- `derivation` is the Task Set, the seed plan and the Sampling Config. -/
structure EvalBinding where
  request : EvalBindingRequest F
  derivation : Derivation F
  evalConfig : EvalConfigRef F
deriving DecidableEq

structure EvalObservation where
  runId : String
  intentId : String
  effectIdentityHash : String
  purpose : EvalPurpose
  candidate : CandidateRef F
  taskBatchHashes : List String
  evalConfig : EvalConfigRef F
  evalBinding : EvalBinding F
  evalRole : EvalRole
  evalResultRef : TypedRef
  expectedRewardPolicyHash : String
  rewardRef : Option (RewardRef F)
  normalizedScore : F

structure BaselineObservation where
  categoricalCombinationIdentityHash : String
  evaluatedBaseCandidate : CandidateRef F
  score : F
  evaluation : EvalObservation F

structure Miprov2ComponentSelection where
  componentId : String
  instructionIndex : Int
  instruction : String
  instructionIdentityHash : String
  demoIndex : Option Int
  demoSet : Option (DemoSet F)
  demoIdentityHash : Option String
deriving DecidableEq

structure Miprov2CandidateRendering where
  controlIdentityHash : String
  baseCandidateIdentityHash : String
  categoricalCombinationIdentityHash : String
  components : List (Miprov2ComponentSelection F)
deriving DecidableEq

structure Miprov2CandidateAssemblyBinding where
  params : TrialParams
  categoricalCombinationIdentityHash : String
  candidate : CandidateRef F
  programIdentityHash : String
  rendering : Miprov2CandidateRendering F
  optimizerConfig : IdentityRef F
  baseCandidate : CandidateRef F
  programLayout : Miprov2ProgramLayout F
  promptAdapterIdentityHash : String
  run : OptimRunRef F
deriving DecidableEq

structure Promotion where
  trialNumber : Int
  params : TrialParams
  candidateCombinationIdentityHash : String
  evaluatedCandidateIdentityHash : String
  candidateAssembly : Miprov2CandidateAssemblyBinding F
  sourceSampleTrialNumber : Int
  minibatchMean : F
  fullScore : F
  evaluation : EvalObservation F

structure SampleObservation where
  trialNumber : Int
  params : TrialParams
  candidateCombinationIdentityHash : String
  evaluatedCandidateIdentityHash : String
  candidateAssembly : Miprov2CandidateAssemblyBinding F
  score : F
  evaluation : EvalObservation F
  batchFullEvaluation : Bool
  promotion : Option (Promotion F)

/- The fields that a study freezes in its transcripts. -/
structure StudyContract where
  demoMode : Miprov2DemoMode
  seed : Int
  runId : String
  validationTaskHashes : List String
  validationEvalSource : EvalConfigRef F
  validationNumSeeds : Int
  rewardPolicyHash : String
  optimizerConfig : IdentityRef F
  promptAdapterIdentityHash : String
  expectedBaseCandidate : CandidateRef F
  programLayout : Miprov2ProgramLayout F
  run : OptimRunRef F
  instructionPoolIdentityHashes : List (List String)
  demoPoolIdentityHashes : Option (List (List String))
  schedule : Miprov2StudySchedule
deriving DecidableEq

structure StudyTranscript extends StudyContract F where
  parameterSpaceIdentityHash : String
  distributionIdentityHash : String
  baseline : BaselineObservation F
  samples : List (SampleObservation F)

end Records

/-! ### Validation -/

/-- The validation of the cited records and the derivations a study repeats. A candidate stands
for its record in `diffCheck`. -/
class StudyChecks (F : Type) [CitedRecords F] where
  validateCandidate : CandidateRef F → Except String Unit
  validateReward : RewardRef F → Except String Unit
  validateRun : OptimRunRef F → Except String Unit
  requireCanonicalEvalConfig : EvalConfigRef F → Except String Unit
  validateSpec : ComponentSpec F → Except String Unit
  validateDerivation : EvalBinding F → Except String Unit
  diffCheck : (base proposed : CandidateRef F) → OptimRunRef F → Except String Unit
  candidateFromComponents : (base : CandidateRef F) → (candidateId : String) →
    List (Miprov2ComponentSelection F) → OptimRunRef F → Except String (CandidateRef F)
  renderingHash : Miprov2CandidateRendering F → String
  programHash : CandidateRef F → String

open StudyChecks

section Validation

variable {F : Type} [DecidableEq F] [StudyFloats F] [CitedRecords F] [StudyChecks F] [StudyHashes]

def requireRunAuthorities (run : OptimRunRef F) (optimizerConfig : IdentityRef F)
    (rewardPolicyHash : Option String) : Except String Unit := do
  raiseIf (runOptimizerConfig run ≠ optimizerConfig)
    "optimization run optimizer_config does not bind the exact MIPROv2 control"
  match rewardPolicyHash with
  | none => return
  | some policyHash =>
    requireFullHash policyHash "reward_policy_hash"
    raiseIf (runRewardPolicyHash run ≠ some policyHash)
      "optimization run reward policy does not bind the exact MIPROv2 reward policy"

def Miprov2ProgramLayout.validate (layout : Miprov2ProgramLayout F) : Except String Unit := do
  layout.componentSpecs.forM validateSpec
  raiseIf (layout.layoutId = "") "Whetstone safety: layout_id must be non-empty"
  raiseIf (layout.componentSpecs.length ≠ 1) "MIPROv2 requires exactly one optimizable component"
  raiseIf (¬ (layout.componentSpecs.map specComponentId).Nodup)
    "Whetstone safety: component_ids must be unique"
  raiseIf ((layout.componentSpecs.map specComponentId).head? ≠ some "generate" ∧
      (layout.componentSpecs.map specComponentId).head? ≠ some "encode")
    "MIPROv2 requires exactly one optimizable component (generate or encode)"

def EvalBindingRequest.validate (request : EvalBindingRequest F) : Except String Unit := do
  requireFullHash request.controlIdentityHash "control_identity_hash"
  requireFullHash request.effectIdentityHash "effect_identity_hash"
  requireCanonicalEvalConfig request.sourceEvalConfig
  raiseIf (request.taskBatchHashes = [] ∨ request.numSeeds ≤ 0)
    "Eval Config derivation requires tasks and positive repeats"
  raiseIf (¬ request.taskBatchHashes.Nodup) "Eval Config derivation tasks must be unique"
  request.taskBatchHashes.forM fun taskHash => requireFullHash taskHash "task_batch_hash"

def EvalBinding.validate (binding : EvalBinding F) : Except String Unit := do
  binding.request.validate
  validateDerivation binding

def evalEvidenceSchema : String := "whetstone.eval_evidence"

def evalFailureSchema : String := "whetstone.eval_failure"

/- What an observation says of its score. -/
def EvalObservation.validateScore (o : EvalObservation F) : Except String Unit :=
  if o.evalResultRef.schemaName = evalEvidenceSchema then
    match o.rewardRef with
    | none => .error "measured observation requires exact RewardRef"
    | some reward => do
      raiseIf (CitedRecords.rewardPolicyHash reward ≠ o.expectedRewardPolicyHash)
        "observation Reward uses another policy"
      raiseIf (FiniteFloats.eq (StudyFloats.percent (rewardValue reward)) o.normalizedScore = false)
        "observation score differs from exact Reward"
  else if o.evalResultRef.schemaName = evalFailureSchema then
    raiseIf (o.rewardRef ≠ none ∨ FiniteFloats.eq o.normalizedScore FloatOps.zero = false)
      "failed observation has zero score and no Reward"
  else .error "observation has the wrong Evaluation Result schema"

def EvalObservation.validate (o : EvalObservation F) : Except String Unit := do
  validateCandidate o.candidate
  o.evalBinding.validate
  o.rewardRef.toList.forM validateReward
  raiseIf (o.runId = "" ∨ o.intentId = "")
    "evaluation observation run_id and intent_id are required"
  requireFullHash o.effectIdentityHash "effect_identity_hash"
  requireFullHash o.expectedRewardPolicyHash "expected_reward_policy_hash"
  raiseIf (o.taskBatchHashes = []) "task_batch_hashes must not be empty"
  requireFullHashes o.taskBatchHashes "task_batch_hashes"
  raiseIf (o.evalConfig ≠ o.evalBinding.evalConfig)
    "evaluation Eval Config differs from its derivation binding"
  raiseIf (o.evalRole ≠ .internal) "MIPROv2 requires internal evaluation"
  o.validateScore
  requireFinite o.normalizedScore "normalized_score"

def BaselineObservation.validate (b : BaselineObservation F) : Except String Unit := do
  validateCandidate b.evaluatedBaseCandidate
  b.evaluation.validate
  requireFullHash b.categoricalCombinationIdentityHash "categorical_combination_identity_hash"
  requireFullHash (candidateHash b.evaluatedBaseCandidate) "evaluated_candidate_identity_hash"
  raiseIf (candidateHash b.evaluation.candidate ≠ candidateHash b.evaluatedBaseCandidate)
    "baseline evidence does not match evaluated candidate"
  raiseIf (b.evaluation.purpose ≠ .baseline) "baseline evidence has the wrong purpose"
  requireFinite b.score "score"
  raiseIf (FiniteFloats.eq b.score b.evaluation.normalizedScore = false)
    "baseline score does not match verified evaluation"

def Miprov2ComponentSelection.validate (c : Miprov2ComponentSelection F) :
    Except String Unit := do
  raiseIf (c.componentId = "") "component_id must be non-empty"
  raiseIf (c.instructionIndex < 0) "instruction_index cannot be negative"
  raiseIf (c.instructionIdentityHash ≠ StudyHashes.instruction c.instruction)
    "instruction identity does not match its text"
  raiseIf (c.demoIndex.isNone ≠ c.demoSet.isNone) "demo index and structured demo must be paired"
  raiseIf (c.demoSet.isNone ≠ c.demoIdentityHash.isNone)
    "structured demo and identity must be paired"
  raiseIf (∃ index ∈ c.demoIndex, index < 0) "demo_index cannot be negative"
  match c.demoSet with
  | none => return
  | some demoSet =>
    raiseIf (c.demoIdentityHash ≠ some (demoSetHash demoSet))
      "demo identity does not match structured demo"
    raiseIf (demoSetComponentIds demoSet ≠ [c.componentId])
      "structured demo must contain only its selected component"

def Miprov2CandidateRendering.validate (r : Miprov2CandidateRendering F) :
    Except String Unit := do
  r.components.forM Miprov2ComponentSelection.validate
  requireFullHash r.controlIdentityHash "control_identity_hash"
  requireFullHash r.baseCandidateIdentityHash "base_candidate_identity_hash"
  requireFullHash r.categoricalCombinationIdentityHash "categorical_combination_identity_hash"
  raiseIf (r.components.length ≠ 1) "candidate rendering requires exactly one component"

def Miprov2CandidateAssemblyBinding.validate (a : Miprov2CandidateAssemblyBinding F) :
    Except String Unit := do
  validateCandidate a.candidate
  a.rendering.validate
  validateCandidate a.baseCandidate
  a.programLayout.validate
  validateRun a.run
  requireFullHash a.categoricalCombinationIdentityHash "categorical_combination_identity_hash"
  requireFullHash a.programIdentityHash "program_identity_hash"
  requireFullHash a.promptAdapterIdentityHash "prompt_adapter_identity_hash"
  requireRunAuthorities a.run a.optimizerConfig none
  diffCheck a.baseCandidate a.candidate a.run
  raiseIf (candidateBaseRef a.candidate ≠ candidateRecordRef a.baseCandidate)
    "assembled candidate must bind its exact base"
  raiseIf (a.rendering.controlIdentityHash ≠ recordHash a.optimizerConfig ∨
      a.rendering.baseCandidateIdentityHash ≠ candidateHash a.baseCandidate ∨
      a.rendering.categoricalCombinationIdentityHash ≠ a.categoricalCombinationIdentityHash)
    "candidate rendering context does not match assembly"
  let expected ← candidateFromComponents a.baseCandidate
    ("miprov2-" ++ String.ofList ((renderingHash a.rendering).toList.take 24))
    a.rendering.components a.run
  raiseIf (expected ≠ a.candidate) "assembled candidate differs from deterministic rendering"
  raiseIf (a.programIdentityHash ≠ programHash a.candidate)
    "program identity does not match canonical candidate rendering"

def Promotion.validate (p : Promotion F) : Except String Unit := do
  p.candidateAssembly.validate
  p.evaluation.validate
  raiseIf (p.trialNumber < 1) "promotion trial_number must be positive"
  raiseIf (p.sourceSampleTrialNumber < 1) "source_sample_trial_number must be positive"
  requireFullHash p.candidateCombinationIdentityHash "candidate_combination_identity_hash"
  requireFullHash p.evaluatedCandidateIdentityHash "evaluated_candidate_identity_hash"
  raiseIf (candidateHash p.evaluation.candidate ≠ p.evaluatedCandidateIdentityHash)
    "promotion evidence does not match evaluated candidate"
  raiseIf (p.evaluation.purpose ≠ .promotion) "promotion evidence has the wrong purpose"
  raiseIf (candidateHash p.candidateAssembly.candidate ≠ p.evaluatedCandidateIdentityHash)
    "promotion candidate does not match its assembly binding"
  requireFinite p.minibatchMean "minibatch_mean"
  requireFinite p.fullScore "full_score"
  raiseIf (FiniteFloats.eq p.fullScore p.evaluation.normalizedScore = false)
    "promotion score does not match verified evaluation"

def SampleObservation.validate (s : SampleObservation F) : Except String Unit := do
  s.candidateAssembly.validate
  s.evaluation.validate
  s.promotion.toList.forM Promotion.validate
  raiseIf (s.trialNumber < 1) "sample trial_number must be positive"
  requireFullHash s.candidateCombinationIdentityHash "candidate_combination_identity_hash"
  requireFullHash s.evaluatedCandidateIdentityHash "evaluated_candidate_identity_hash"
  raiseIf (candidateHash s.evaluation.candidate ≠ s.evaluatedCandidateIdentityHash)
    "sample evidence does not match evaluated candidate"
  raiseIf (s.evaluation.purpose ≠ .sample) "sample evidence has the wrong purpose"
  raiseIf (candidateHash s.candidateAssembly.candidate ≠ s.evaluatedCandidateIdentityHash)
    "sample candidate does not match its assembly binding"
  requireFinite s.score "score"
  raiseIf (FiniteFloats.eq s.score s.evaluation.normalizedScore = false)
    "sample score does not match verified evaluation"

/- The two checks that a study and a transcript make alike, each against its own contract. -/
namespace StudyContract

variable (contract : StudyContract F)

def parameterSpace : Miprov2ParameterSpace :=
  ⟨contract.instructionPoolIdentityHashes, contract.demoPoolIdentityHashes⟩

def validateEvaluationBinding (binding : EvalObservation F) (expectedPurpose : EvalPurpose)
    (expectedTasks : List String) : Except String Unit := do
  raiseIf (binding.runId ≠ contract.runId) "evaluation binding belongs to another run"
  raiseIf (binding.purpose ≠ expectedPurpose) "evaluation binding has the wrong purpose"
  raiseIf (binding.taskBatchHashes ≠ expectedTasks)
    "evaluation task order does not match the persisted study contract"
  let request := binding.evalBinding.request
  raiseIf (request.controlIdentityHash ≠ recordHash contract.optimizerConfig ∨
      request.sourceEvalConfig ≠ contract.validationEvalSource ∨
      request.purpose ≠ expectedPurpose.derivation ∨
      request.effectIdentityHash ≠ binding.effectIdentityHash ∨
      request.taskBatchHashes ≠ expectedTasks ∨
      request.numSeeds ≠ contract.validationNumSeeds)
    "evaluation derivation does not match the persisted study contract"
  raiseIf (binding.expectedRewardPolicyHash ≠ contract.rewardPolicyHash)
    "evaluation reward policy does not match the persisted study contract"

/- One component of a rendering against the categories its parameters select. -/
def validateComponent (values : TrialParams) (entry : Miprov2ComponentSelection F × Nat) :
    Except String Unit := do
  let space := contract.parameterSpace
  let instruction ← Miprov2ParameterSpace.category values (.instruction entry.2)
    (space.instructionPoolIdentityHashes.getD entry.2 [])
  raiseIf (entry.1.instructionIndex ≠ instruction.1 ∨
      instruction.2 ≠ entry.1.instructionIdentityHash)
    "candidate instruction differs from the selected category"
  match space.demoPoolIdentityHashes with
  | none =>
    raiseIf (entry.1.demoIndex ≠ none) "candidate without a demo dimension cannot select a demo"
  | some demos =>
    let demo ← Miprov2ParameterSpace.category values (.demos entry.2) (demos.getD entry.2 [])
    raiseIf (entry.1.demoIndex ≠ some demo.1 ∨ some demo.2 ≠ entry.1.demoIdentityHash)
      "candidate demo differs from the selected category"

def requireCandidateAssembly (assembly : Miprov2CandidateAssemblyBinding F)
    (expectedParams : TrialParams) (expectedCombination : String) : Except String Unit := do
  raiseIf (assembly.params ≠ expectedParams)
    "candidate assembly parameters do not match the observation"
  raiseIf (assembly.categoricalCombinationIdentityHash ≠ expectedCombination)
    "candidate assembly does not match the categorical combination"
  raiseIf ((assembly.optimizerConfig, candidateHash assembly.baseCandidate,
      assembly.promptAdapterIdentityHash) ≠
      (contract.optimizerConfig, candidateHash contract.expectedBaseCandidate,
        contract.promptAdapterIdentityHash))
    "candidate assembly context does not match the study contract"
  raiseIf (assembly.baseCandidate ≠ contract.expectedBaseCandidate)
    "candidate assembly does not bind the exact native base candidate"
  raiseIf (assembly.programLayout ≠ contract.programLayout)
    "candidate assembly does not bind the exact program topology"
  raiseIf (assembly.run ≠ contract.run)
    "candidate assembly does not bind the exact optimization run"
  let components := assembly.rendering.components
  raiseIf (components.map Miprov2ComponentSelection.componentId ≠
      contract.programLayout.componentSpecs.map specComponentId)
    "candidate rendering does not match program topology"
  (components.zipIdx).forM (contract.validateComponent expectedParams)
  raiseIf (candidateBaseRef assembly.candidate ≠
      candidateRecordRef contract.expectedBaseCandidate)
    "assembled candidate does not bind the exact input CandidateRef"
  diffCheck contract.expectedBaseCandidate assembly.candidate contract.run

end StudyContract

namespace StudyTranscript

variable (t : StudyTranscript F)

def validatePromotion (seen : List String) (promotion : Promotion F) : Except String Unit := do
  t.validateEvaluationBinding promotion.evaluation .promotion t.validationTaskHashes
  raiseIf (promotion.evaluation.intentId ∈ seen) "evaluation intent IDs must be unique"
  let expected ← t.parameterSpace.combinationIdentityHash promotion.params
  raiseIf (promotion.candidateCombinationIdentityHash ≠ expected)
    "promotion candidate identity does not match parameters"
  t.requireCandidateAssembly promotion.candidateAssembly promotion.params expected

/- The tasks that the evaluation of a sample must have. -/
def expectedTasks (sample : SampleObservation F) : Except String (List String) := do
  let tasks := sample.evaluation.taskBatchHashes
  raiseIf ((tasks.length : Int) ≠ t.schedule.batchSize)
    "sample task batch does not match persisted schedule"
  raiseIf (sample.batchFullEvaluation ≠ decide (t.schedule.valsetSize ≤ tasks.length))
    "batch_full_evaluation does not match task batch size"
  if sample.batchFullEvaluation then return t.validationTaskHashes
  raiseIf (¬ (tasks.Nodup ∧ ∀ task ∈ tasks, task ∈ t.validationTaskHashes))
    "minibatch tasks must be a unique ordered subset of the validation set"
  return tasks

/- The parameters and the evaluation of one sample. -/
def validateSample (sample : SampleObservation F) : Except String Unit := do
  let expected ← match t.parameterSpace.normalize sample.params with
    | .ok normalized => t.parameterSpace.combinationIdentityHash normalized
    | .error _ => .error "sample parameters do not match the frozen search space"
  raiseIf (sample.candidateCombinationIdentityHash ≠ expected)
    "sample candidate identity does not match parameters"
  t.requireCandidateAssembly sample.candidateAssembly sample.params expected
  t.validateEvaluationBinding sample.evaluation .sample (← t.expectedTasks sample)

def validateSamples : List String → List (SampleObservation F) → Except String Unit
  | _, [] => return
  | seen, sample :: rest => do
    t.validateSample sample
    raiseIf (sample.evaluation.intentId ∈ seen) "evaluation intent IDs must be unique"
    raiseIf (t.schedule.promotionDue sample.trialNumber ≠ sample.promotion.isSome)
      "promotion presence does not match persisted cadence"
    match sample.promotion with
    | none => validateSamples (sample.evaluation.intentId :: seen) rest
    | some promotion =>
      t.validatePromotion (sample.evaluation.intentId :: seen) promotion
      validateSamples (promotion.evaluation.intentId :: sample.evaluation.intentId :: seen) rest

/- The contract fields of a transcript. -/
def validateContract : Except String Unit := do
  t.parameterSpace.validate
  raiseIf (t.runId = "") "run_id must be non-empty"
  raiseIf (t.demoMode.searchesDemos ≠ t.demoPoolIdentityHashes.isSome)
    ("demo_mode '" ++ t.demoMode.value ++
      "' conflicts with the presence of a searched demo dimension")
  raiseIf (CitedRecords.runId t.run ≠ t.runId) "study run_id conflicts with the exact run"
  raiseIf (t.validationTaskHashes = []) "validation_task_hashes must not be empty"
  requireFullHashes t.validationTaskHashes "validation_task_hashes"
  raiseIf (¬ t.validationTaskHashes.Nodup) "validation task identities must be unique"
  raiseIf ((t.validationTaskHashes.length : Int) ≠ t.schedule.valsetSize)
    "validation task identities do not match persisted valset size"
  requireFullHash t.rewardPolicyHash "reward_policy_hash"
  requireFullHash t.promptAdapterIdentityHash "prompt_adapter_identity_hash"
  requireFullHash t.parameterSpaceIdentityHash "parameter_space_identity_hash"
  requireFullHash t.distributionIdentityHash "distribution_identity_hash"
  requireRunAuthorities t.run t.optimizerConfig (some t.rewardPolicyHash)
  raiseIf (t.parameterSpaceIdentityHash ≠ t.parameterSpace.identityHash)
    "parameter_space_identity_hash does not match exact pools"
  raiseIf (t.distributionIdentityHash ≠ (← t.parameterSpace.distributionIdentityHash))
    "distribution_identity_hash does not match exact space"
  raiseIf (t.programLayout.componentSpecs.length ≠ t.instructionPoolIdentityHashes.length)
    "program topology does not match the frozen search space"
  raiseIf (∃ spec ∈ t.programLayout.componentSpecs,
      specPromptFormatHash spec ≠ t.promptAdapterIdentityHash)
    "program topology conflicts with the prompt adapter"

/-- The validation of a transcript and of every record in it. -/
def validate : Except String Unit := do
  validateCandidate t.expectedBaseCandidate
  t.programLayout.validate
  validateRun t.run
  t.schedule.validate
  t.baseline.validate
  t.samples.forM SampleObservation.validate
  t.validateContract
  let combination ← t.parameterSpace.combinationIdentityHash t.parameterSpace.baselineParams
  raiseIf (t.baseline.categoricalCombinationIdentityHash ≠ combination)
    "baseline categorical identity does not match all-zero params"
  raiseIf (t.baseline.evaluatedBaseCandidate ≠ t.expectedBaseCandidate)
    "baseline candidate does not match the expected native base"
  t.validateEvaluationBinding t.baseline.evaluation .baseline t.validationTaskHashes
  raiseIf ((t.samples.length : Int) > t.schedule.numTrials)
    "sample count exceeds persisted num_trials"
  t.validateSamples [t.baseline.evaluation.intentId] t.samples

def modelValidate : Except String (StudyTranscript F) := do
  t.validate
  return t

end StudyTranscript
end Validation
end Whetstone.Optim
