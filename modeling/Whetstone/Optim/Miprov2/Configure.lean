import Whetstone.Optim.Miprov2.ControlIdentity

/-! The resolution of a MIPROv2 control from the arguments of a run. Types that the source
checks at run time are the types of the arguments. -/
namespace Whetstone.Optim.Miprov2
open Whetstone.Core Whetstone.Lib Whetstone.Experiment Whetstone.Eval
open Whetstone.Optim.Step (IdentityRef)

variable {F : Type} [FiniteFloats F]

inductive PromptAdapter where
  | plain (outputField : String)
  | structured (outputField : String)
deriving DecidableEq, Inhabited

def PromptAdapter.modelDump : PromptAdapter → Json
  | .plain outputField => .obj [("output_field", .str outputField)]
  | .structured outputField => .obj [("output_field", .str outputField),
      ("content_mode", .str "text_and_structured_parts/v1")]

def promptAdapterIdentityHash [IdentityHasher] (adapter : PromptAdapter) : String :=
  IdentityHasher.computeIdentityHash "whetstone.proposal_prompt_adapter" 1 adapter.modelDump

def validateWhetstoneBindings (providerExecutionPolicyHash taskModelIdentityHash : String)
    (maxErrors : Int) : Except String Unit := do
  requireFullHash providerExecutionPolicyHash "provider_execution_policy_hash"
  requireFullHash taskModelIdentityHash "task_model_identity_hash"
  requirePositiveInt maxErrors "max_errors"

structure Miprov2InjectedDefaults (F : Type) [FiniteFloats F] where
  promptModel : ProposerConfig F
  bootstrapEvalSource : EvalConfig
  validationEvalSource : EvalConfig
  rewardPolicy : RewardPolicy F
  evalRole : EvalRole
  providerExecutionPolicyRef : Option IdentityRef
  providerExecutionPolicyHash : String
  taskModelIdentityHash : String
  promptAdapter : PromptAdapter
  templateRenderContract : TemplateRenderContract
  mutationField : String := "user_prompt_template"
  maxErrors : Int
  validationEvalSourceIsMetricAuthority : Bool := false
  valid : validateWhetstoneBindings providerExecutionPolicyHash taskModelIdentityHash maxErrors =
    .ok ()

/- The arguments of `configure_miprov2`, with its defaults but for the floats. -/
structure ConfigureArgs (F : Type) [FiniteFloats F] where
  metric : Option EvalConfig := none
  promptModel : Option (ProposerConfig F) := none
  taskModel : Option String := none
  teacherSettings : Option (List (String × Json)) := none
  maxBootstrappedDemos : Int := 4
  maxLabeledDemos : Int := 4
  auto : Option Miprov2AutoMode := some .light
  numCandidates : Option Int := none
  maxErrors : Option Int := none
  seed : Int := 9
  initTemperature : F
  verbose : Bool := false
  trackStats : Bool := true
  logDir : Option String := none
  metricThreshold : Option F := none
  baseCandidate : Candidate
  programLayout : Option Miprov2ProgramLayout := none
  trainset : List String
  teacher : Option Candidate := none
  teacherCompiled : Option Bool := none
  valset : Option (List String) := none
  numTrials : Option Int := none
  runMaxBootstrappedDemos : Option Int := none
  runMaxLabeledDemos : Option Int := none
  runSeed : Option Int := none
  minibatch : Bool := true
  minibatchSize : Int := 35
  minibatchFullEvalSteps : Int := 5
  numSeeds : Int := 1
  programAwareProposer : Bool := true
  dataAwareProposer : Bool := true
  viewDataBatchSize : Int := 10
  tipAwareProposer : Bool := true
  fewshotAwareProposer : Bool := true
  provideTraceback : Option Bool := none
  demoMode : Option Miprov2DemoMode := none
  defaults : Miprov2InjectedDefaults F

namespace ConfigureArgs

variable (args : ConfigureArgs F)

def effectiveMaxErrors : Int := args.maxErrors.getD args.defaults.maxErrors

def effectiveMaxBootstrappedDemos : Int :=
  args.runMaxBootstrappedDemos.getD args.maxBootstrappedDemos

def effectiveMaxLabeledDemos : Int := args.runMaxLabeledDemos.getD args.maxLabeledDemos

def maximaAreZero : Bool :=
  args.effectiveMaxBootstrappedDemos = 0 ∧ args.effectiveMaxLabeledDemos = 0

def componentCount : Nat :=
  match args.programLayout with
  | none => 1
  | some layout => layout.componentSpecs.length

/- `run_seed or seed` -/
def resolvedSeed : Int :=
  match args.runSeed with
  | none => args.seed
  | some seed => if seed = 0 then args.seed else seed

/- `task_model or defaults.task_model_identity_hash` -/
def resolvedTaskModelHash : String :=
  match args.taskModel with
  | none => args.defaults.taskModelIdentityHash
  | some hash => if hash = "" then args.defaults.taskModelIdentityHash else hash

end ConfigureArgs

/-! ### The steps of the resolution -/

def resolveDemoMode (requested : Option Miprov2DemoMode) (maximaAreZero : Bool) :
    Except String Miprov2DemoMode :=
  match requested with
  | none => .ok (if maximaAreZero then .zeroshot else .fewshot)
  | some requested => do
    raiseIf (maximaAreZero = true ∧ requested ≠ .zeroshot)
      ("demo_mode " ++ quoted requested.value ++ " requires positive demo maxima; " ++
        "zero max_bootstrapped_demos and max_labeled_demos is " ++ quoted "zeroshot")
    raiseIf (maximaAreZero = false ∧ requested = .zeroshot)
      ("demo_mode " ++ quoted "zeroshot" ++
        " requires zero max_bootstrapped_demos and max_labeled_demos")
    return requested

def checkTrialArguments (auto : Option Miprov2AutoMode) (numCandidates numTrials : Option Int)
    (componentCount : Nat) (searchesDemos : Bool) : Except String Unit :=
  match auto, numCandidates, numTrials with
  | none, some n, none => do
    requirePositiveInt n "num_candidates"
    throw ("If auto is None, num_trials must also be provided. Given num_candidates=" ++
      toString n ++ ", we'd recommend setting num_trials to ~" ++
      toString (recommendedNumTrials componentCount searchesDemos n.toNat) ++ ".")
  | none, none, _ => .error "If auto is None, num_candidates must also be provided."
  | none, some _, some _ => .ok ()
  | some _, none, none => .ok ()
  | some _, _, _ => .error
      ("If auto is not None, num_candidates and num_trials cannot be set, since they would be " ++
        "overridden by the auto settings. Please either set auto to None, or do not specify " ++
        "num_candidates and num_trials.")

/- The training set, and the validation set before it is sampled. -/
def splitDatasets (trainset : List String) (valset : Option (List String)) :
    Except String (List String × List String) := do
  raiseIf (trainset = []) "Trainset cannot be empty."
  match valset with
  | none => do
    raiseIf (trainset.length < 2) "Trainset must have at least 2 examples if no valset specified."
    let cutoff := trainset.length - heldBackSize trainset
    return (trainset.take cutoff, trainset.drop cutoff)
  | some valset => do
    raiseIf (valset.length < 1) "Validation set must have at least 1 example."
    return (trainset, valset)

structure ResolvedSearch where
  sampleIndices : Option (List Int)
  valset : List String
  numInstructCandidates : Int
  numFewshotCandidates : Int
  numTrials : Int
  minibatch : Bool
deriving DecidableEq

def resolveSearch [RandomSample] (args : ConfigureArgs F) (searchesDemos : Bool)
    (preAutoValset : List String) : Except String ResolvedSearch :=
  match args.auto with
  | none =>
    match args.numCandidates, args.numTrials with
    | some numCandidates, some numTrials => .ok
        { sampleIndices := none, valset := preAutoValset, numInstructCandidates := numCandidates
          numFewshotCandidates := numCandidates, numTrials := numTrials
          minibatch := args.minibatch }
    | _, _ => .error "assertion failed"
  | some auto => do
    let n := (autoRunSettings auto).1
    let batchSize := min (autoRunSettings auto).2 preAutoValset.length
    let sampled ← sampleRange (RandomSample.seeded args.resolvedSeed) preAutoValset.length batchSize
    let valset ← pickItems preAutoValset sampled.1
    return { sampleIndices := some (sampled.1.map Int.ofNat), valset := valset
             numInstructCandidates := instructCandidates searchesDemos n
             numFewshotCandidates := n
             numTrials := recommendedNumTrials args.componentCount searchesDemos n
             minibatch := decide (minMinibatchSize < valset.length) }

def normalizeProgramLayout (programLayout : Option Miprov2ProgramLayout) (baseCandidate : Candidate)
    (promptFormatIdentityHash mutationField : String) : Except String Miprov2ProgramLayout :=
  match programLayout with
  | some layout => .ok layout
  | none => do
    let message := "Whetstone safety: base candidate requires a non-empty " ++
      quoted mutationField ++ " mutation field"
    match baseCandidate.payload.lookup mutationField with
    | some (.str template) => raiseIf (template = "") message
    | _ => throw message
    let spec ← Miprov2ComponentSpec.create "generate" promptFormatIdentityHash
    Miprov2ProgramLayout.create "canonical-mutation-surface" [spec]

def validateInputNumericControls (args : ConfigureArgs F) : Except String Unit := do
  requireNonnegativeInt args.maxBootstrappedDemos "max_bootstrapped_demos"
  requireNonnegativeInt args.maxLabeledDemos "max_labeled_demos"
  args.runMaxBootstrappedDemos.forM (requireNonnegativeInt · "run_max_bootstrapped_demos")
  args.runMaxLabeledDemos.forM (requireNonnegativeInt · "run_max_labeled_demos")
  args.numCandidates.forM (requirePositiveInt · "num_candidates")
  args.numTrials.forM (requirePositiveInt · "num_trials")
  args.maxErrors.forM (requirePositiveInt · "max_errors")
  requireFinite args.initTemperature "init_temperature"
  args.metricThreshold.forM (requireFinite · "metric_threshold")
  requirePositiveInt args.minibatchSize "minibatch_size"
  requirePositiveInt args.minibatchFullEvalSteps "minibatch_full_eval_steps"
  requirePositiveInt args.viewDataBatchSize "view_data_batch_size"

section Configure

variable [IdentityHasher] [RandomSample]

/- The values that the final construction of `configure_miprov2` is given. -/
def resolveControl (args : ConfigureArgs F) : Except String (ControlFields F) := do
  raiseIf (args.metric = none ∧ args.defaults.validationEvalSourceIsMetricAuthority = false)
    ("metric is required unless the injected validation Eval Config is explicitly declared as " ++
      "the metric authority")
  let demoMode ← resolveDemoMode args.demoMode args.maximaAreZero
  checkTrialArguments args.auto args.numCandidates args.numTrials args.componentCount
    demoMode.searchesDemos
  let datasets ← splitDatasets args.trainset args.valset
  let search ← resolveSearch args demoMode.searchesDemos datasets.2
  raiseIf (search.minibatch = true ∧ search.valset.length < args.minibatchSize)
    ("Minibatch size cannot exceed the size of the valset. Valset size: " ++
      toString search.valset.length ++ ".")
  let adapterHash := promptAdapterIdentityHash args.defaults.promptAdapter
  let layout ← normalizeProgramLayout args.programLayout args.baseCandidate adapterHash
    args.defaults.mutationField
  validateInputNumericControls args
  validateComponentFormats layout.componentSpecs adapterHash
  requireFullHash args.resolvedTaskModelHash "task_model_identity_hash"
  let teacher := args.teacher.getD args.baseCandidate
  validateCandidateComponents args.baseCandidate layout.componentSpecs args.defaults.mutationField
    "base candidate"
  validateCandidateComponents teacher layout.componentSpecs args.defaults.mutationField
    "teacher candidate"
  return {
    baseCandidate := args.baseCandidate
    teacherCandidate := teacher
    teacherCompiled := args.teacherCompiled.getD false
    programLayout := layout
    sourceTrainsetTaskHashes := args.trainset
    sourceValsetTaskHashes := args.valset
    trainsetTaskHashes := datasets.1
    valsetTaskHashes := search.valset
    autoValidationSampleIndices := search.sampleIndices
    promptModel := args.promptModel.getD args.defaults.promptModel
    bootstrapEvalSource := args.defaults.bootstrapEvalSource
    validationEvalSource := args.metric.getD args.defaults.validationEvalSource
    rewardPolicy := args.defaults.rewardPolicy
    evalRole := args.defaults.evalRole
    providerExecutionPolicyRef := args.defaults.providerExecutionPolicyRef
    providerExecutionPolicyHash := args.defaults.providerExecutionPolicyHash
    taskModelIdentityHash := args.resolvedTaskModelHash
    promptAdapterIdentityHash := adapterHash
    templateRenderContract := args.defaults.templateRenderContract
    mutationField := args.defaults.mutationField
    metricAuthority := if args.metric = none then .injectedDefault else .explicit
    teacherSettings := args.teacherSettings.getD []
    maxBootstrappedDemos := args.effectiveMaxBootstrappedDemos
    maxLabeledDemos := args.effectiveMaxLabeledDemos
    auto := args.auto
    numCandidates := args.numCandidates
    numInstructCandidates := search.numInstructCandidates
    numFewshotCandidates := search.numFewshotCandidates
    numTrials := search.numTrials
    maxErrors := args.effectiveMaxErrors
    seed := args.resolvedSeed
    numSeeds := args.numSeeds
    initTemperature := args.initTemperature
    verbose := args.verbose
    trackStats := args.trackStats
    logDir := args.logDir
    metricThreshold := args.metricThreshold
    minibatch := search.minibatch
    minibatchSize := args.minibatchSize
    minibatchFullEvalSteps := args.minibatchFullEvalSteps
    programAwareProposer := args.programAwareProposer
    dataAwareProposer := args.dataAwareProposer
    viewDataBatchSize := args.viewDataBatchSize
    tipAwareProposer := args.tipAwareProposer
    fewshotAwareProposer := args.fewshotAwareProposer
    provideTraceback := args.provideTraceback
    demoMode := demoMode
    toControlVersions := fixedVersions }

def configureMiprov2 [PyIdentifiers] (args : ConfigureArgs F) : Except String (Miprov2Control F) := do
  let control ← resolveControl args
  control.modelValidate

end Configure

/-! ### Each step agrees with its check -/

theorem heldBackSize_le {trainset : List String} (h : trainset ≠ []) :
    heldBackSize trainset ≤ trainset.length := by
  have hpos := List.length_pos_iff.mpr h
  rw [heldBackSize]
  omega

/-- The datasets that the sources are split into are those that a control is checked against. -/
theorem splitDatasets_eq_ok (control : ControlFields F) (datasets : List String × List String) :
    splitDatasets control.sourceTrainsetTaskHashes control.sourceValsetTaskHashes = .ok datasets ↔
      expectedTrainset control = .ok datasets.1 ∧ preAutoValset control = datasets.2 := by
  obtain ⟨trainset,valset⟩ := datasets
  simp only [splitDatasets, expectedTrainset, preAutoValset, raiseIf_bind_eq_ok]
  cases control.sourceValsetTaskHashes with
  | none =>
    simp only [raiseIf_bind_eq_ok, pure, Except.pure, Except.ok.injEq, Prod.mk.injEq, lastItems]
    constructor
    · rintro ⟨hne,hlength,htrain,hval⟩
      refine ⟨⟨hne, hlength, ?_⟩, hval⟩
      rw [List.length_drop, Nat.sub_sub_self (heldBackSize_le hne), htrain]
    · rintro ⟨⟨hne,hlength,htrain⟩,hval⟩
      refine ⟨hne, hlength, ?_, hval⟩
      rw [List.length_drop, Nat.sub_sub_self (heldBackSize_le hne)] at htrain
      exact htrain
  | some sourceValset =>
    simp only [raiseIf_bind_eq_ok, pure, Except.pure, Except.ok.injEq, Prod.mk.injEq,
      Nat.lt_one_iff, List.length_eq_zero_iff, and_assoc]

theorem resolveDemoMode_zeroshot {requested : Option Miprov2DemoMode} {maximaAreZero : Bool}
    {mode : Miprov2DemoMode} (h : resolveDemoMode requested maximaAreZero = .ok mode) :
    decide (mode = .zeroshot) = maximaAreZero := by
  cases requested with
  | none =>
    simp only [resolveDemoMode, Except.ok.injEq] at h
    rw [← h]
    cases maximaAreZero <;> rfl
  | some asked =>
    simp only [resolveDemoMode, raiseIf_bind_eq_ok, pure, Except.pure, Except.ok.injEq] at h
    obtain ⟨hzero,hpositive,hsame⟩ := h
    rw [← hsame]
    cases maximaAreZero <;> simp_all

theorem resolveDemoMode_same {mode : Miprov2DemoMode} {maximaAreZero : Bool}
    (h : decide (mode = .zeroshot) = maximaAreZero) :
    resolveDemoMode (some mode) maximaAreZero = .ok mode := by
  simp only [resolveDemoMode, raiseIf_bind_eq_ok, pure, Except.pure, and_true]
  rw [← h]
  by_cases hmode : mode = .zeroshot <;> simp [hmode]

theorem normalizeProgramLayout_length {args : ConfigureArgs F} {candidate : Candidate}
    {hash field : String} {layout : Miprov2ProgramLayout}
    (h : normalizeProgramLayout args.programLayout candidate hash field = .ok layout) :
    args.componentCount = layout.componentSpecs.length := by
  rw [ConfigureArgs.componentCount]
  cases hlayout : args.programLayout with
  | some supplied =>
    rw [hlayout] at h
    cases h
    rfl
  | none =>
    have hone := layout.valid
    simp only [validateLayout, raiseIf_bind_eq_ok, List.length_map, not_not] at hone
    exact hone.2.1.symm

theorem recommendedNumTrials_pos (componentCount : Nat) (searchesDemos : Bool)
    (auto : Miprov2AutoMode) :
    0 < recommendedNumTrials componentCount searchesDemos (autoRunSettings auto).1 := by
  rw [recommendedNumTrials]
  refine lt_of_lt_of_le ?_ (le_max_right _ _)
  cases auto <;> decide

theorem maxErrors_pos (args : ConfigureArgs F) (h : ∀ n, args.maxErrors = some n → 0 < n) :
    0 < args.effectiveMaxErrors := by
  rw [ConfigureArgs.effectiveMaxErrors]
  cases herrors : args.maxErrors with
  | none =>
    have hvalid := args.defaults.valid
    simp only [validateWhetstoneBindings, check_bind_eq_ok, requirePositiveInt_eq_ok] at hvalid
    exact hvalid.2.2
  | some n => exact h n herrors

theorem effective_nonneg {value : Int} {replaced : Option Int} (hvalue : 0 ≤ value)
    (h : ∀ n, replaced = some n → 0 ≤ n) : 0 ≤ replaced.getD value := by
  cases replaced with
  | none => exact hvalue
  | some n => exact h n rfl

section Search

variable [RandomSample]

/- What a control keeps of its search. -/
def searchOf (control : ControlFields F) : ResolvedSearch where
  sampleIndices := control.autoValidationSampleIndices
  valset := control.valsetTaskHashes
  numInstructCandidates := control.numInstructCandidates
  numFewshotCandidates := control.numFewshotCandidates
  numTrials := control.numTrials
  minibatch := control.minibatch

/-- The arguments and the control have the same search to resolve. -/
structure SameSearch (args : ConfigureArgs F) (control : ControlFields F) : Prop where
  auto : args.auto = control.auto
  candidates : args.numCandidates = control.numCandidates
  seed : args.resolvedSeed = control.seed
  components : args.componentCount = control.programLayout.componentSpecs.length
  exclusive : args.auto ≠ none → args.numCandidates = none

theorem SameSearch.checked {args : ConfigureArgs F} {control : ControlFields F}
    (hsame : SameSearch args control)
    (h : resolveSearch args control.demoMode.searchesDemos (preAutoValset control) =
      .ok (searchOf control)) : validateDerivedSearch control = .ok () := by
  have hauto := hsame.auto
  rw [validateDerivedSearch, ← hauto]
  cases hmode : args.auto with
  | none =>
    simp only [resolveSearch, hmode, hsame.candidates] at h
    cases hcandidates : control.numCandidates with
    | none =>
      rw [hcandidates] at h
      cases h
    | some n =>
      rw [hcandidates] at h
      cases htrials : args.numTrials with
      | none =>
        rw [htrials] at h
        cases h
      | some trials =>
        simp only [htrials, Except.ok.injEq, searchOf, ResolvedSearch.mk.injEq] at h
        obtain ⟨hindices,hvalset,hinstruct,hfewshot,_⟩ := h
        rw [manualControl_eq_ok, hcandidates]
        exact ⟨by simp, hindices.symm, hvalset.symm, congrArg some hinstruct.symm,
          congrArg some hfewshot.symm⟩
  | some auto =>
    have hnone : control.numCandidates = none := by
      rw [← hsame.candidates]
      exact hsame.exclusive (by simp [hmode])
    simp only [resolveSearch, hmode, bind_eq_ok, pure, Except.pure, Except.ok.injEq, searchOf,
      ResolvedSearch.mk.injEq, hsame.seed, hsame.components] at h
    obtain ⟨sampled,hsampled,valset,hpicked,hindices,hvalset,hinstruct,hfewshot,htrials,hmini⟩ := h
    exact (autoControl_eq_ok control auto).mpr ⟨hnone, sampled, hsampled, hindices.symm, valset,
      hpicked, hvalset.symm, ⟨hinstruct.symm, hfewshot.symm⟩, htrials.symm, hmini.symm⟩

theorem SameSearch.resolved {args : ConfigureArgs F} {control : ControlFields F}
    (hsame : SameSearch args control)
    (htrials : control.auto = none → args.numTrials = some control.numTrials ∧
      args.minibatch = control.minibatch) (h : validateDerivedSearch control = .ok ()) :
    resolveSearch args control.demoMode.searchesDemos (preAutoValset control) =
      .ok (searchOf control) := by
  rw [validateDerivedSearch] at h
  cases hmode : control.auto with
  | none =>
    rw [hmode] at h
    obtain ⟨hcandidates,hindices,hvalset,hinstruct,hfewshot⟩ := (manualControl_eq_ok control).mp h
    obtain ⟨n,hn⟩ := Option.ne_none_iff_exists'.mp hcandidates
    rw [hn, Option.some.injEq] at hinstruct hfewshot
    simp only [resolveSearch, hsame.auto, hmode, hsame.candidates, hn, (htrials hmode).1,
      (htrials hmode).2, searchOf, hindices, hvalset, hinstruct, hfewshot]
  | some auto =>
    rw [hmode] at h
    obtain ⟨_,sampled,hsampled,hindices,valset,hpicked,hvalset,⟨hinstruct,hfewshot⟩,htrials,hmini⟩ :=
      (autoControl_eq_ok control auto).mp h
    simp only [resolveSearch, hsame.auto, hmode, hsame.seed, hsame.components, hsampled, ok_bind,
      hpicked, searchOf, hindices, hvalset, hinstruct, hfewshot, htrials, hmini]
    rfl

end Search

theorem fixedVersions_of_ok {versions : ControlVersions}
    (h : validateControlVersions versions = .ok ()) : versions = fixedVersions := by
  simp only [validateControlVersions, raiseIf_bind_eq_ok, raiseIf_eq_ok, not_or, not_not,
    ne_eq] at h
  cases versions
  simp only at h
  simp [fixedVersions, h]

section Resolution

variable [RandomSample]

/-- What the values of the final construction are resolved from. -/
structure Resolved (args : ConfigureArgs F) (control : ControlFields F) : Prop where
  demoMode : resolveDemoMode args.demoMode args.maximaAreZero = .ok control.demoMode
  trials : checkTrialArguments args.auto args.numCandidates args.numTrials args.componentCount
    control.demoMode.searchesDemos = .ok ()
  datasets : expectedTrainset control = .ok control.trainsetTaskHashes
  search : resolveSearch args control.demoMode.searchesDemos (preAutoValset control) =
    .ok (searchOf control)
  minibatch : ¬ (control.minibatch = true ∧
    control.valsetTaskHashes.length < control.minibatchSize)
  components : args.componentCount = control.programLayout.componentSpecs.length
  numeric : validateInputNumericControls args = .ok ()
  bootstrapped : control.maxBootstrappedDemos = args.effectiveMaxBootstrappedDemos
  labeled : control.maxLabeledDemos = args.effectiveMaxLabeledDemos
  auto : control.auto = args.auto
  candidates : control.numCandidates = args.numCandidates
  errors : control.maxErrors = args.effectiveMaxErrors
  seed : control.seed = args.resolvedSeed
  seeds : control.numSeeds = args.numSeeds
  temperature : control.initTemperature = args.initTemperature
  threshold : control.metricThreshold = args.metricThreshold
  size : control.minibatchSize = args.minibatchSize
  steps : control.minibatchFullEvalSteps = args.minibatchFullEvalSteps
  viewed : control.viewDataBatchSize = args.viewDataBatchSize

namespace Resolved

variable {args : ConfigureArgs F} {control : ControlFields F}

theorem sameSearch (h : Resolved args control) : SameSearch args control := by
  refine ⟨h.auto.symm, h.candidates.symm, h.seed.symm, h.components, fun hauto => ?_⟩
  have htrials := h.trials
  obtain ⟨auto,hmode⟩ := Option.ne_none_iff_exists'.mp hauto
  rw [hmode] at htrials
  cases hcandidates : args.numCandidates with
  | none => rfl
  | some n =>
    rw [hcandidates] at htrials
    cases htrials

/-- No derivation check rejects what was resolved. -/
theorem derivations (h : Resolved args control) :
    validateResolvedDerivations control = .ok () := by
  refine (derivations_eq_ok control).mpr ⟨h.datasets, ?_, h.sameSearch.checked h.search, h.minibatch⟩
  rw [h.bootstrapped, h.labeled]
  exact resolveDemoMode_zeroshot h.demoMode

/- The counts and the trials of a search are positive when those that are asked for are. -/
theorem search_positive (h : Resolved args control)
    (hcandidates : ∀ n, args.numCandidates = some n → 0 < n)
    (htrials : ∀ n, args.numTrials = some n → 0 < n) :
    0 < control.numInstructCandidates ∧ 0 < control.numFewshotCandidates ∧
      0 < control.numTrials := by
  have hsearch := h.search
  cases hmode : args.auto with
  | none =>
    simp only [resolveSearch, hmode] at hsearch
    cases hn : args.numCandidates with
    | none =>
      rw [hn] at hsearch
      cases hsearch
    | some n =>
      cases ht : args.numTrials with
      | none =>
        rw [hn, ht] at hsearch
        cases hsearch
      | some trials =>
        simp only [hn, ht, Except.ok.injEq, searchOf, ResolvedSearch.mk.injEq] at hsearch
        obtain ⟨_,_,hinstruct,hfewshot,htrial,_⟩ := hsearch
        rw [← hinstruct, ← hfewshot, ← htrial]
        exact ⟨hcandidates n hn, hcandidates n hn, htrials trials ht⟩
  | some auto =>
    simp only [resolveSearch, hmode, bind_eq_ok, pure, Except.pure, Except.ok.injEq, searchOf,
      ResolvedSearch.mk.injEq] at hsearch
    obtain ⟨_,_,_,_,_,_,hinstruct,hfewshot,htrial,_⟩ := hsearch
    rw [← hinstruct, ← hfewshot, ← htrial]
    refine ⟨?_, ?_, Int.natCast_pos.mpr (recommendedNumTrials_pos _ _ auto)⟩
    · cases auto <;> cases control.demoMode.searchesDemos <;> decide
    · cases auto <;> decide

/-- The numeric checks reject what was resolved exactly when the number of seeds is not
positive. -/
theorem numericControls_iff (h : Resolved args control) :
    validateResolvedNumericControls control = .ok () ↔ 0 < args.numSeeds := by
  have hnumeric := h.numeric
  simp only [validateInputNumericControls, check_bind_eq_ok, optionForM_eq_ok,
    requirePositiveInt_eq_ok, requireNonnegativeInt_eq_ok, requireFinite_eq_ok] at hnumeric
  obtain ⟨hboot,hlabel,hrunBoot,hrunLabel,hcandidates,htrials,herrors,htemperature,hthreshold,hsize,
    hsteps,hview⟩ := hnumeric
  obtain ⟨hinstruct,hfewshot,htrial⟩ := h.search_positive hcandidates htrials
  rw [numericControls_eq_ok, h.bootstrapped, h.labeled, h.candidates, h.errors, h.seeds,
    h.temperature, h.threshold, h.size, h.steps, h.viewed]
  constructor
  · rintro ⟨_,_,_,_,_,_,_,hseeds,_⟩
    exact hseeds
  · intro hseeds
    exact ⟨effective_nonneg hboot hrunBoot, effective_nonneg hlabel hrunLabel, hcandidates, hinstruct,
      hfewshot, htrial, maxErrors_pos args herrors, hseeds, htemperature, hthreshold, hsize, hsteps,
      hview⟩

end Resolved

theorem resolveControl_resolved [IdentityHasher] {args : ConfigureArgs F} {control : ControlFields F}
    (h : resolveControl args = .ok control) : Resolved args control := by
  rw [resolveControl, raiseIf_bind_eq_ok] at h
  simp only [↓check_bind_eq_ok, raiseIf_eq_ok, bind_eq_ok, pure, Except.pure, Except.ok.injEq] at h
  obtain ⟨_,demoMode,hdemo,htrials,datasets,hdatasets,search,hsearch,hmini,layout,hlayout,hnumeric,
    _,_,_,_,hcontrol⟩ := h
  have hsources : splitDatasets control.sourceTrainsetTaskHashes control.sourceValsetTaskHashes =
      .ok datasets := by
    rw [← hcontrol]
    exact hdatasets
  obtain ⟨htrainset,hvalset⟩ := (splitDatasets_eq_ok control datasets).mp hsources
  rw [← hvalset] at hsearch
  subst hcontrol
  exact ⟨hdemo, htrials, htrainset, hsearch, hmini, normalizeProgramLayout_length hlayout, hnumeric,
    rfl, rfl, rfl, rfl, rfl, rfl, rfl, rfl, rfl, rfl, rfl, rfl⟩

/-! ### The arguments that a control is resolved from -/

variable [PyIdentifiers]

/- The bindings of a valid control as defaults, under the adapter that its hash is of. -/
def defaultsOf (control : Miprov2Control F) (adapter : PromptAdapter) :
    Miprov2InjectedDefaults F where
  promptModel := control.promptModel
  bootstrapEvalSource := control.bootstrapEvalSource
  validationEvalSource := control.validationEvalSource
  rewardPolicy := control.rewardPolicy
  evalRole := control.evalRole
  providerExecutionPolicyRef := control.providerExecutionPolicyRef
  providerExecutionPolicyHash := control.providerExecutionPolicyHash
  taskModelIdentityHash := control.taskModelIdentityHash
  promptAdapter := adapter
  templateRenderContract := control.templateRenderContract
  mutationField := control.mutationField
  maxErrors := control.maxErrors
  validationEvalSourceIsMetricAuthority := true
  valid := by
    have hchecked := ControlFields.checked control.valid
    obtain ⟨_,_,_,_,_,_,herrors,_⟩ := (numericControls_eq_ok _).mp hchecked.numeric
    simp only [validateWhetstoneBindings, check_bind_eq_ok, requirePositiveInt_eq_ok]
    exact ⟨hchecked.policy, hchecked.taskModel, herrors⟩

def argsOf (control : Miprov2Control F) (adapter : PromptAdapter) : ConfigureArgs F where
  metric := if control.metricAuthority = .explicit then some control.validationEvalSource else none
  teacherSettings := some control.teacherSettings
  maxBootstrappedDemos := control.maxBootstrappedDemos
  maxLabeledDemos := control.maxLabeledDemos
  auto := control.auto
  numCandidates := control.numCandidates
  seed := control.seed
  initTemperature := control.initTemperature
  verbose := control.verbose
  trackStats := control.trackStats
  logDir := control.logDir
  metricThreshold := control.metricThreshold
  baseCandidate := control.baseCandidate
  programLayout := some control.programLayout
  trainset := control.sourceTrainsetTaskHashes
  teacher := some control.teacherCandidate
  teacherCompiled := some control.teacherCompiled
  valset := control.sourceValsetTaskHashes
  numTrials := if control.auto = none then some control.numTrials else none
  minibatch := control.minibatch
  minibatchSize := control.minibatchSize
  minibatchFullEvalSteps := control.minibatchFullEvalSteps
  numSeeds := control.numSeeds
  programAwareProposer := control.programAwareProposer
  dataAwareProposer := control.dataAwareProposer
  viewDataBatchSize := control.viewDataBatchSize
  tipAwareProposer := control.tipAwareProposer
  fewshotAwareProposer := control.fewshotAwareProposer
  provideTraceback := control.provideTraceback
  demoMode := some control.demoMode
  defaults := defaultsOf control adapter

theorem modelValidate_valid (control : Miprov2Control F) :
    control.toControlFields.modelValidate = .ok control := by
  rw [ControlFields.modelValidate]
  split
  · rfl
  · rename_i message herror
    rw [control.valid] at herror
    cases herror

variable [IdentityHasher]

/-- A valid control is what its own values resolve to. -/
theorem resolveControl_argsOf (control : Miprov2Control F) {adapter : PromptAdapter}
    (hadapter : promptAdapterIdentityHash adapter = control.promptAdapterIdentityHash) :
    resolveControl (argsOf control adapter) = .ok control.toControlFields := by
  have hchecked := ControlFields.checked control.valid
  obtain ⟨htrain,hzero,hderived,hmini⟩ := (derivations_eq_ok _).mp hchecked.derivations
  obtain ⟨hboot,hlabel,hcandidates,_,_,htrials,_,_,htemperature,hthreshold,hsize,hsteps,hview⟩ :=
    (numericControls_eq_ok _).mp hchecked.numeric
  have hmetric : ¬ ((argsOf control adapter).metric = none ∧
      (argsOf control adapter).defaults.validationEvalSourceIsMetricAuthority = false) :=
    fun h => by cases h.2
  have hdemo : resolveDemoMode (argsOf control adapter).demoMode (argsOf control adapter).maximaAreZero =
      .ok control.demoMode := resolveDemoMode_same hzero
  have hexclusive : control.auto ≠ none → control.numCandidates = none := by
    intro hauto
    obtain ⟨auto,hmode⟩ := Option.ne_none_iff_exists'.mp hauto
    rw [validateDerivedSearch, hmode] at hderived
    exact ((autoControl_eq_ok _ auto).mp hderived).1
  have hmanual : control.auto = none → control.numCandidates ≠ none := by
    intro hmode
    rw [validateDerivedSearch, hmode] at hderived
    exact ((manualControl_eq_ok _).mp hderived).1
  have hsame : SameSearch (argsOf control adapter) control.toControlFields :=
    ⟨rfl, rfl, rfl, rfl, hexclusive⟩
  have hsearch := hsame.resolved (fun hauto => ⟨if_pos hauto, rfl⟩) hderived
  have hsplit := (splitDatasets_eq_ok control.toControlFields
    (control.trainsetTaskHashes, preAutoValset control.toControlFields)).mpr ⟨htrain, rfl⟩
  have harguments : checkTrialArguments control.auto control.numCandidates
      (argsOf control adapter).numTrials (argsOf control adapter).componentCount
      control.demoMode.searchesDemos = .ok () := by
    rw [argsOf]
    cases hmode : control.auto with
    | none =>
      obtain ⟨n,hn⟩ := Option.ne_none_iff_exists'.mp (hmanual hmode)
      rw [hn]
      rfl
    | some auto =>
      rw [hexclusive (by simp [hmode])]
      rfl
  have hnumeric : validateInputNumericControls (argsOf control adapter) = .ok () := by
    simp only [validateInputNumericControls, check_bind_eq_ok, optionForM_eq_ok,
      requirePositiveInt_eq_ok, requireNonnegativeInt_eq_ok, requireFinite_eq_ok]
    refine ⟨hboot, hlabel, fun _ h => (by cases h), fun _ h => (by cases h), hcandidates,
      fun n hn => ?_, fun _ h => (by cases h), htemperature, hthreshold, hsize, hsteps, hview⟩
    obtain ⟨_,hn⟩ := (Option.ite_none_right_eq_some ..).mp hn
    rw [← Option.some.inj hn]
    exact htrials
  have hformats : validateComponentFormats control.programLayout.componentSpecs
      (promptAdapterIdentityHash adapter) = .ok () := by
    rw [hadapter]
    exact hchecked.formats
  rw [resolveControl, raiseIf_bind_eq_ok]
  simp only [↓check_bind_eq_ok, raiseIf_eq_ok, bind_eq_ok, pure, Except.pure, Except.ok.injEq]
  refine ⟨hmetric, control.demoMode, hdemo, harguments, _, hsplit, searchOf control.toControlFields,
    hsearch, hmini, control.programLayout, rfl, hnumeric, hformats, hchecked.taskModel,
    hchecked.base, hchecked.teacher, ?_⟩
  have hversions : fixedVersions = control.toControlVersions :=
    (fixedVersions_of_ok hchecked.versions).symm
  have hsource : (argsOf control adapter).metric.getD
      (argsOf control adapter).defaults.validationEvalSource = control.validationEvalSource := by
    rw [argsOf]
    cases control.metricAuthority <;> rfl
  have hauthority : (if (argsOf control adapter).metric = none then MetricAuthority.injectedDefault
      else .explicit) = control.metricAuthority := by
    rw [argsOf]
    cases control.metricAuthority <;> rfl
  have hadapter : promptAdapterIdentityHash (argsOf control adapter).defaults.promptAdapter =
      control.promptAdapterIdentityHash := hadapter
  rw [hversions, hauthority, hadapter, hsource]
  rfl

/-- What is resolved passes the checks of a persisted control but for a number of seeds that is not
positive, and every valid control under the hash of some prompt adapter is what some arguments
configure. -/
theorem configureMiprov2_exact :
    (∀ (args : ConfigureArgs F) (control : ControlFields F), resolveControl args = .ok control →
        validateResolvedDerivations control = .ok () ∧
        (validateResolvedNumericControls control = .ok () ↔ 0 < args.numSeeds) ∧
        ∃ rng, replayDatasetRng control = .ok rng) ∧
      ∀ (control : Miprov2Control F) (adapter : PromptAdapter),
        promptAdapterIdentityHash adapter = control.promptAdapterIdentityHash →
        ∃ args : ConfigureArgs F, configureMiprov2 args = .ok control := by
  constructor
  · intro args control h
    have hresolved := resolveControl_resolved h
    have hderived := hresolved.sameSearch.checked hresolved.search
    exact ⟨hresolved.derivations, hresolved.numericControls_iff, replayDatasetRng_ok hderived⟩
  · intro control adapter hadapter
    refine ⟨argsOf control adapter, ?_⟩
    rw [configureMiprov2, resolveControl_argsOf control hadapter, ok_bind,
      modelValidate_valid]

end Resolution

/-! ### Arguments that differ in the number of seeds -/

section Example

attribute [local instance] exactFiniteFloats namedFields firstIndices seedHasher

def sampleDefaults : Miprov2InjectedDefaults Rat where
  promptModel := ⟨⟨⟨"provider_call_config", digestOf 'f'⟩, digestOf 'f'⟩, some (exactFinite 1)⟩
  bootstrapEvalSource := sampleEvalSource
  validationEvalSource := sampleEvalSource
  rewardPolicy := samplePolicy
  evalRole := .internal
  providerExecutionPolicyRef := none
  providerExecutionPolicyHash := digestOf 'a'
  taskModelIdentityHash := digestOf 'b'
  promptAdapter := .plain "text"
  templateRenderContract := ⟨.literalBodyV1, [], []⟩
  maxErrors := 1
  validationEvalSourceIsMetricAuthority := true
  valid := by decide +kernel

/- Two tasks to split, and the light search. -/
def sampleArgs (numSeeds : Int) : ConfigureArgs Rat :=
  { initTemperature := 1, baseCandidate := sampleCandidate
    trainset := [digestOf '1', digestOf '2'], numSeeds := numSeeds, defaults := sampleDefaults }

/-- Arguments with no seeds reach the final construction, which rejects them. -/
theorem unseeded_arguments_rejected : ∃ control, resolveControl (sampleArgs 0) = .ok control ∧
    validateResolvedNumericControls control =
      .error "Whetstone safety: num_seeds must be positive" := by
  have hchecked : (resolveControl (sampleArgs 0)).toOption.map validateResolvedNumericControls =
      some (.error "Whetstone safety: num_seeds must be positive") := by
    decide +kernel
  cases hok : resolveControl (sampleArgs 0) with
  | error message =>
    rw [hok] at hchecked
    cases hchecked
  | ok control =>
    rw [hok] at hchecked
    exact ⟨control, rfl, Option.some.inj hchecked⟩

/-- The arguments with one seed give a control, which its own values give again. -/
theorem configureMiprov2_sample : ∃ control : Miprov2Control Rat,
    configureMiprov2 (sampleArgs 1) = .ok control ∧ replayDatasetRng control.toControlFields = .ok () ∧
      ∃ args, configureMiprov2 args = .ok control := by
  have hadapter : (configureMiprov2 (sampleArgs 1)).toOption.map
      (fun control => control.promptAdapterIdentityHash) =
      some (promptAdapterIdentityHash sampleDefaults.promptAdapter) := by
    decide +kernel
  cases hok : configureMiprov2 (sampleArgs 1) with
  | error message =>
    rw [hok] at hadapter
    cases hadapter
  | ok control =>
    rw [hok] at hadapter
    have hadapter := (Option.some.inj hadapter).symm
    obtain ⟨hforward,hback⟩ := @configureMiprov2_exact Rat _ _ _ _
    obtain ⟨fields,hfields,hvalid⟩ := (bind_eq_ok _ _ _).mp hok
    have hsame : fields = control.toControlFields := by
      rw [ControlFields.modelValidate] at hvalid
      split at hvalid
      · cases hvalid
        rfl
      · cases hvalid
    obtain ⟨_,_,rng,hreplay⟩ := hforward _ _ hfields
    exact ⟨control, rfl, hsame ▸ hreplay, hback control _ hadapter⟩

end Example

end Whetstone.Optim.Miprov2
