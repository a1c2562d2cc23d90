import Whetstone.Optim.Study

/-! Recorded transcripts are closed: every transcript that a study records is bound to it and
reconstructs the sampler of a study that was never interrupted. What a transcript is bound to
is all of its contract but two fields. -/
namespace Whetstone.Optim
open Whetstone.Core Whetstone.Lib CitedRecords

/-! ### Parameters -/

namespace Miprov2ParameterSpace

variable {space : Miprov2ParameterSpace}

theorem normalize_eq_ok {params normalized : TrialParams} :
    space.normalize params = .ok normalized ↔ normalized = params ∧
      params.map Prod.fst = space.parameterNames ∧
        ∀ param ∈ params, space.checkCategory param = .ok () := by
  unfold normalize
  rw [raiseIf_bind_eq_ok, not_not]
  constructor
  · rintro ⟨hnames,h⟩
    obtain ⟨_,hchecked,hsame⟩ := (bind_eq_ok _ _ _).mp h
    cases hsame
    exact ⟨rfl, hnames, (forM_eq_ok _ _).mp hchecked⟩
  · rintro ⟨rfl,hnames,hchecked⟩
    exact ⟨hnames, (bind_eq_ok _ _ _).mpr ⟨(), (forM_eq_ok _ _).mpr hchecked, rfl⟩⟩

theorem normalize_self {params normalized : TrialParams}
    (h : space.normalize params = .ok normalized) : space.normalize params = .ok params := by
  obtain ⟨hsame,h⟩ := normalize_eq_ok.mp h
  exact normalize_eq_ok.mpr ⟨rfl, h⟩

/- A space whose pools pair up and are not empty. -/
structure Populated (space : Miprov2ParameterSpace) : Prop where
  instructions : ∀ pool ∈ space.instructionPoolIdentityHashes, pool ≠ []
  demos : ∀ demos, space.demoPoolIdentityHashes = some demos →
    demos.length = space.instructionPoolIdentityHashes.length ∧ ∀ pool ∈ demos, pool ≠ []

theorem validatePools_ok {pools : List (List String)} {empty field : String}
    (h : validatePools pools empty field = .ok ()) : ∀ pool ∈ pools, pool ≠ [] := by
  intro pool hpool
  obtain ⟨i,hi,rfl⟩ := List.getElem_of_mem hpool
  have hmem : (pools[i], i) ∈ pools.zipIdx := by
    rw [List.mk_mem_zipIdx_iff_getElem?, List.getElem?_eq_getElem hi]
  have hentry := (forM_eq_ok _ _).mp h _ hmem
  rw [raiseIf_bind_eq_ok] at hentry
  exact hentry.1

theorem populated_of_validate (h : space.validate = .ok ()) : space.Populated := by
  unfold validate at h
  rw [raiseIf_bind_eq_ok] at h
  obtain ⟨_,hpools,hrest⟩ := (bind_eq_ok _ _ _).mp h.2
  refine ⟨validatePools_ok hpools, fun demos hdemos => ?_⟩
  rw [hdemos] at hrest
  rw [raiseIf_bind_eq_ok, not_not] at hrest
  exact ⟨hrest.1, validatePools_ok hrest.2⟩

theorem categories_names : space.categories.map Prod.fst = space.parameterNames := by
  unfold categories parameterNames
  rw [List.map_flatMap, List.range_eq_range', ← List.zipIdx_map_snd 0 _, List.flatMap_map]
  apply List.flatMap_congr
  rintro ⟨pool,i⟩ _
  unfold predictorNames
  cases space.demoPoolIdentityHashes <;> rfl

theorem candidateCount_of_mem (hspace : space.Populated) {name : ParameterName} {count : Nat}
    (h : (name, count) ∈ space.categories) :
    space.candidateCount name = .ok count ∧ 0 < count := by
  unfold categories at h
  obtain ⟨⟨pool,i⟩,hentry,h⟩ := List.mem_flatMap.mp h
  rw [List.mk_mem_zipIdx_iff_getElem?] at hentry
  rcases List.mem_cons.mp h with h | h
  · simp only [Prod.mk.injEq] at h
    obtain ⟨rfl,rfl⟩ := h
    refine ⟨by simp only [candidateCount, hentry], ?_⟩
    exact List.length_pos_iff.mpr (hspace.instructions pool (List.mem_of_getElem? hentry))
  · cases hdemos : space.demoPoolIdentityHashes with
    | none => simp [hdemos] at h
    | some demos =>
      obtain ⟨hlength,hfilled⟩ := hspace.demos demos hdemos
      have hi : i < demos.length := by
        rw [hlength]
        exact (List.getElem?_eq_some_iff.mp hentry).1
      simp only [hdemos, List.getD_eq_getElem?_getD, List.getElem?_eq_getElem hi,
        Option.getD_some, List.mem_singleton, Prod.mk.injEq] at h
      obtain ⟨rfl,rfl⟩ := h
      refine ⟨by simp only [candidateCount, hdemos, Option.bind_some, List.getElem?_eq_getElem hi],
        ?_⟩
      exact List.length_pos_iff.mpr (hfilled _ (List.getElem_mem hi))

/- Each suggested parameter is within its pool. -/
theorem normalize_suggested (hspace : space.Populated) {params : TrialParams}
    (h : List.Forall₂ (fun param category => param.1 = category.1 ∧ 0 ≤ param.2 ∧
      (0 < category.2 → param.2 < (category.2 : Int))) params space.categories) :
    space.normalize params = .ok params := by
  refine normalize_eq_ok.mpr ⟨rfl, ?_, ?_⟩
  · rw [← categories_names]
    generalize space.categories = categories at h
    induction h with
    | nil => rfl
    | cons hparam _ ih => rw [List.map_cons, List.map_cons, hparam.1, ih]
  · have hcounts : ∀ category ∈ space.categories,
        space.candidateCount category.1 = .ok category.2 ∧ 0 < category.2 :=
      fun _ hcategory => candidateCount_of_mem hspace hcategory
    generalize space.categories = categories at h hcounts
    induction h with
    | nil => simp
    | cons hparam _ ih =>
      rw [List.forall_mem_cons] at hcounts ⊢
      obtain ⟨⟨hcount,hpos⟩,hcounts⟩ := hcounts
      refine ⟨?_, ih hcounts⟩
      unfold checkCategory
      rw [hparam.1, hcount, ok_bind, raiseIf_eq_ok, not_not]
      exact ⟨hparam.2.1, hparam.2.2 hpos⟩

theorem category_ok (hspace : space.Populated) {values : TrialParams} {name : ParameterName}
    {pool : List String} (hvalues : space.normalize values = .ok values)
    (h : (name, pool.length) ∈ space.categories) :
    ∃ selected, category values name pool = .ok selected := by
  obtain ⟨hcount,_⟩ := candidateCount_of_mem hspace h
  have hname : name ∈ space.parameterNames := by
    rw [← categories_names]
    exact List.mem_map.mpr ⟨_, h, rfl⟩
  obtain ⟨_,hnames,hchecked⟩ := normalize_eq_ok.mp hvalues
  rw [← hnames] at hname
  obtain ⟨param,hparam,hsame⟩ := List.mem_map.mp hname
  have hfound : (values.lookup name).isSome = true :=
    List.lookup_isSome_iff.mpr ⟨param, hparam, by simp [hsame]⟩
  obtain ⟨index,hindex⟩ := Option.isSome_iff_exists.mp hfound
  obtain ⟨before,after,rfl,_⟩ := List.lookup_eq_some_iff.mp hindex
  have hcheck := hchecked (name, index) (by simp)
  unfold checkCategory at hcheck
  rw [hcount, ok_bind, raiseIf_eq_ok, not_not] at hcheck
  have hlt : index.toNat < pool.length := by omega
  refine ⟨(index, pool.get ⟨index.toNat, hlt⟩), ?_⟩
  simp only [category, hindex, List.getElem?_eq_getElem hlt]
  rfl

variable [StudyHashes]

theorem combinationIdentityHash_ok (hspace : space.Populated) {params : TrialParams}
    (hparams : space.normalize params = .ok params) :
    ∃ combination, space.combinationIdentityHash params = .ok combination ∧
      isFullHash combination = true := by
  have hselected : ∀ entry ∈ space.instructionPoolIdentityHashes.zipIdx,
      ∃ selected, space.selectedCategory params entry = .ok selected := by
    rintro ⟨pool,i⟩ hentry
    have hinstruction : (.instruction i, pool.length) ∈ space.categories :=
      List.mem_flatMap.mpr ⟨_, hentry, List.mem_cons_self⟩
    obtain ⟨instruction,hinstruction⟩ := category_ok hspace hparams hinstruction
    unfold selectedCategory
    rw [hinstruction, ok_bind]
    cases hdemos : space.demoPoolIdentityHashes with
    | none => exact ⟨_, rfl⟩
    | some demos =>
      have hdemo : (.demos i, (demos.getD i []).length) ∈ space.categories := by
        refine List.mem_flatMap.mpr ⟨_, hentry, List.mem_cons_of_mem _ ?_⟩
        simp [hdemos]
      obtain ⟨demo,hdemo⟩ := category_ok hspace hparams hdemo
      exact ⟨⟨i, instruction.1, instruction.2, some demo⟩, by simp only [hdemo]; rfl⟩
  obtain ⟨selected,hselected⟩ := mapM_exists_ok _ _ hselected
  refine ⟨StudyHashes.combination selected, ?_, StudyHashes.combination_full selected⟩
  unfold combinationIdentityHash
  rw [hparams, ok_bind, hselected]
  rfl

end Miprov2ParameterSpace

/-! ### Samples -/

section Samples

variable {F : Type} [CitedRecords F]

namespace Miprov2Study

variable {study : Miprov2Study F} {optuna optuna' : AskTell ParameterName F}

theorem populated (study : Miprov2Study F) : study.space.Populated := by
  obtain ⟨_,hspace,_⟩ := (bind_eq_ok _ _ _).mp study.valid
  exact Miprov2ParameterSpace.populated_of_validate hspace

theorem addCompletedTrial_trials {params : TrialParams} {value : F} {number : Nat}
    (h : study.addCompletedTrial optuna params value = .ok (number, optuna')) :
    number = optuna.trials ∧ optuna'.trials = optuna.trials + 1 := by
  unfold addCompletedTrial at h
  obtain ⟨normalized,_,h⟩ := (bind_eq_ok _ _ _).mp h
  obtain ⟨distributions,_,h⟩ := (bind_eq_ok _ _ _).mp h
  cases h
  exact ⟨rfl, AskTell.trials_addTrial _ _ _ _⟩

theorem searchesDemos_eq (study : Miprov2Study F) :
    study.demoMode.searchesDemos = study.demoPoolIdentityHashes.isSome := by
  have h := study.valid
  simp only [validateStudy, bind_eq_ok] at h
  obtain ⟨_,_,_,_,_,_,_,hdemos,_⟩ := h
  exact not_not.mp ((raiseIf_eq_ok _ _).mp hdemos)

variable [StudyHashes] [DecidableEq F] [StudyFloats F] [StudyChecks F]

theorem provisionalSample_fields {s : StudySuggestion} {input : SampleInput F}
    {provisional : SampleObservation F}
    (h : study.provisionalSample s input = .ok provisional) :
    provisional.trialNumber = s.trialNumber ∧ provisional.params = s.params ∧
      provisional.candidateCombinationIdentityHash = s.candidateCombinationIdentityHash ∧
      provisional.score = input.score ∧ provisional.promotion = none := by
  unfold provisionalSample at h
  obtain ⟨_,_,h⟩ := (bind_eq_ok _ _ _).mp h
  simp only [raiseIf_bind_eq_ok] at h
  obtain ⟨_,_,h⟩ := h
  obtain ⟨_,_,h⟩ := (bind_eq_ok _ _ _).mp h
  obtain ⟨_,_,h⟩ := (bind_eq_ok _ _ _).mp h
  cases h
  exact ⟨rfl, rfl, rfl, rfl, rfl⟩

omit [DecidableEq F] in
theorem mean_finite {promotion : Promotion F} (h : promotion.validate = .ok ()) :
    FloatOps.isFinite promotion.minibatchMean = true := by
  simp only [Promotion.validate, requireFullHash, requireFinite, bind_eq_ok] at h
  obtain ⟨_,_,_,_,_,_,_,_,_,_,_,_,_,_,_,_,_,_,_,hfinite,_⟩ := h
  simpa using (raiseIf_eq_ok _ _).mp hfinite

omit [DecidableEq F] in
theorem promote_ok {samples : List (SampleObservation F)} {provisional : SampleObservation F}
    {fullScore : F} {evaluation : EvalObservation F} {promotion : Promotion F}
    (h : study.promote samples provisional fullScore evaluation optuna =
      .ok (promotion, optuna')) :
    ∃ selected number, selectPromotion (samples ++ [provisional]) = .ok selected ∧
      ¬ promotionDiffers promotion selected ∧ promotion.trialNumber = (number : Nat) ∧
      study.addCompletedTrial optuna promotion.params promotion.fullScore =
        .ok (number, optuna') := by
  unfold promote at h
  rw [raiseIf_bind_eq_ok] at h
  obtain ⟨selected,hselected,h⟩ := (bind_eq_ok _ _ _).mp h.2
  obtain ⟨_,_,h⟩ := (bind_eq_ok _ _ _).mp h
  rw [raiseIf_bind_eq_ok] at h
  obtain ⟨⟨number,entered⟩,hadded,h⟩ := (bind_eq_ok _ _ _).mp h.2
  obtain ⟨_,hvalid,h⟩ := (bind_eq_ok _ _ _).mp h
  cases h
  refine ⟨selected, number, hselected, ?_, rfl, hadded⟩
  -- the mean of the promotion is finite, and equal to itself
  have hfinite : FloatOps.isFinite selected.minibatchMean = true := mean_finite hvalid
  simp [promotionDiffers, StudyFloats.eq_self _ hfinite]

/- What the trial of a sample left: its promotion entered the sampler's study before it was
   told. -/
inductive Told (study : Miprov2Study F) (samples : List (SampleObservation F)) (trial : Nat)
    (sample : SampleObservation F) (optuna : AskTell ParameterName F) :
    AskTell ParameterName F → Prop where
  | plain : sample.promotion = none → Told study samples trial sample optuna
      (optuna.tell trial sample.score)
  | promoted (promotion : Promotion F) (selected : PromotionCandidate F) (number : Nat)
      (entered : AskTell ParameterName F) : sample.promotion = some promotion →
      selectPromotion (samples ++ [{ sample with promotion := none }]) = .ok selected →
      ¬ promotionDiffers promotion selected → promotion.trialNumber = number →
      study.addCompletedTrial optuna promotion.params promotion.fullScore =
        .ok (number, entered) →
      Told study samples trial sample optuna (entered.tell trial sample.score)

structure Completed (study : Miprov2Study F) (samples : List (SampleObservation F)) (trial : Nat)
    (s : StudySuggestion) (sample : SampleObservation F)
    (optuna optuna' : AskTell ParameterName F) : Prop where
  number : sample.trialNumber = s.trialNumber
  params : sample.params = s.params
  combination : sample.candidateCombinationIdentityHash = s.candidateCombinationIdentityHash
  due : study.schedule.promotionDue s.trialNumber = sample.promotion.isSome
  told : Told study samples trial sample optuna optuna'

theorem completeSample_completed {samples : List (SampleObservation F)} {trial : Nat}
    {s : StudySuggestion} {input : SampleInput F} {sample : SampleObservation F}
    (h : study.completeSample samples trial s input optuna = .ok (sample, optuna')) :
    Completed study samples trial s sample optuna optuna' := by
  unfold completeSample at h
  obtain ⟨provisional,hprovisional,h⟩ := (bind_eq_ok _ _ _).mp h
  obtain ⟨hnumber,hparams,hcombination,hscore,hnone⟩ := provisionalSample_fields hprovisional
  cases hdue : study.schedule.promotionDue s.trialNumber with
  | false =>
    rw [hdue] at h
    cases hfull : input.promotionFullScore <;> cases hevaluation : input.promotionEvaluation <;>
      simp only [hfull, hevaluation] at h <;> cases h
    refine ⟨hnumber, hparams, hcombination, by rw [hnone, hdue]; rfl, ?_⟩
    rw [← hscore]
    exact .plain hnone
  | true =>
    rw [hdue] at h
    cases hfull : input.promotionFullScore with
    | none => simp only [hfull] at h; cases h
    | some fullScore =>
      cases hevaluation : input.promotionEvaluation with
      | none => simp only [hfull, hevaluation] at h; cases h
      | some evaluation =>
        simp only [hfull, hevaluation] at h
        obtain ⟨⟨promotion,entered⟩,hpromote,h⟩ := (bind_eq_ok _ _ _).mp h
        cases h
        obtain ⟨selected,number,hselected,hsame,htrial,hadded⟩ := promote_ok hpromote
        refine ⟨hnumber, hparams, hcombination, hdue, ?_⟩
        rw [← hscore]
        have hprovisional' : { provisional with promotion := none } = provisional := by
          cases provisional
          cases hnone
          rfl
        exact .promoted promotion selected number entered rfl (by rwa [hprovisional']) hsame htrial
          hadded

omit [StudyHashes] [StudyChecks F] in
theorem replayPromotion_told {samples : List (SampleObservation F)} {trial : Nat}
    {sample : SampleObservation F} (h : Told study samples trial sample optuna optuna') :
    ∃ entered, study.replayPromotion samples sample optuna = .ok entered ∧
      optuna' = entered.tell trial sample.score := by
  unfold replayPromotion
  cases h with
  | plain hnone => exact ⟨optuna, by rw [hnone]; rfl, rfl⟩
  | promoted promotion selected number entered hsome hselected hsame htrial hadded =>
    refine ⟨entered, ?_, rfl⟩
    simp only [hsome, hselected, ok_bind, raiseIf_neg _ _ hsame, hadded,
      raiseIf_neg _ _ (not_not.mpr htrial.symm)]
    rfl

omit [StudyHashes] [DecidableEq F] [StudyChecks F] in
theorem Told.trials {samples : List (SampleObservation F)} {trial : Nat}
    {sample : SampleObservation F} (h : Told study samples trial sample optuna optuna') :
    optuna.trials ≤ optuna'.trials := by
  cases h with
  | plain _ => simp
  | promoted _ _ _ entered _ _ _ _ hadded =>
    rw [AskTell.trials_tell]
    have htrials := (addCompletedTrial_trials hadded).2
    omega

theorem transcript_searchesDemos {t : StudyTranscript F} (h : t.validate = .ok ()) :
    t.demoMode.searchesDemos = t.demoPoolIdentityHashes.isSome := by
  simp only [StudyTranscript.validate, StudyTranscript.validateContract, bind_eq_ok] at h
  obtain ⟨_,_,_,_,_,_,_,_,_,_,_,_,_,⟨_,_,_,_,_,hdemos,_⟩,_⟩ := h
  exact not_not.mp ((raiseIf_eq_ok _ _).mp hdemos)

theorem requireBound_fields {t : StudyTranscript F}
    (h : study.requireBoundTranscript t = .ok ()) :
    t.validate = .ok () ∧ ∃ distribution, study.boundContract t distribution := by
  unfold requireBoundTranscript at h
  cases hvalid : t.validate with
  | error message =>
    rw [hvalid] at h
    cases h
  | ok valid =>
    rw [hvalid] at h
    obtain ⟨distribution,_,h⟩ := (bind_eq_ok _ _ _).mp h
    rw [raiseIf_bind_eq_ok, not_not] at h
    exact ⟨rfl, distribution, h.1⟩

/-- What binds a transcript to the contract of its study: its number of seeds, and its demo
mode where no demos are searched. -/
theorem requireBound_contract {t : StudyTranscript F}
    (h : study.requireBoundTranscript t = .ok ()) :
    t.toStudyContract = study.toStudyContract ↔
      t.validationNumSeeds = study.validationNumSeeds ∧
        (study.demoPoolIdentityHashes = none → t.demoMode = study.demoMode) := by
  constructor
  · intro hcontract
    rw [hcontract]
    exact ⟨rfl, fun _ => rfl⟩
  · rintro ⟨hseeds,hmode⟩
    obtain ⟨hvalid,distribution,hbound⟩ := requireBound_fields h
    obtain ⟨h1,h2,h3,h4,h5,h6,h7,h8,h9,h10,h11,hdemos,_,_,h15⟩ := hbound
    have hmode : t.demoMode = study.demoMode := by
      cases hpools : study.demoPoolIdentityHashes with
      | none => exact hmode hpools
      | some pools =>
        have ht := transcript_searchesDemos hvalid
        have hs := study.searchesDemos_eq
        rw [hdemos, hpools] at ht
        rw [hpools] at hs
        exact (of_decide_eq_true ht).trans (of_decide_eq_true hs).symm
    cases hcontract : t.toStudyContract
    cases hown : study.toStudyContract
    simp_all

end Miprov2Study
end Samples

/-! ### The sampler -/

section Closure

variable {F : Type} [Sampler ParameterName F]

theorem suggestCategories_trials (categories : List (ParameterName × Nat))
    (optuna : AskTell ParameterName F) :
    (suggestCategories categories optuna).2.trials = optuna.trials := by
  induction categories generalizing optuna with
  | nil => rfl
  | cons category rest ih =>
    obtain ⟨name,count⟩ := category
    simp [suggestCategories, ih]

theorem suggestCategories_within (categories : List (ParameterName × Nat))
    (optuna : AskTell ParameterName F) :
    List.Forall₂ (fun param category => param.1 = category.1 ∧ 0 ≤ param.2 ∧
        (0 < category.2 → param.2 < (category.2 : Int)))
      (suggestCategories categories optuna).1 categories := by
  induction categories generalizing optuna with
  | nil => exact .nil
  | cons category rest ih =>
    obtain ⟨name,count⟩ := category
    refine .cons ⟨rfl, Int.natCast_nonneg _, fun hcount => ?_⟩ (ih _)
    exact Int.ofNat_lt.mpr (Sampler.choose_lt _ _ _ _ hcount)

variable [CitedRecords F]

namespace Miprov2Study

variable {study : Miprov2Study F} {optuna optuna' : AskTell ParameterName F}

theorem suggest_ok (study : Miprov2Study F) (optuna : AskTell ParameterName F) :
    ∃ params optuna', study.suggest optuna = .ok (params, optuna') ∧
      study.space.normalize params = .ok params ∧ optuna'.trials = optuna.trials := by
  have hnormalized := Miprov2ParameterSpace.normalize_suggested study.populated
    (suggestCategories_within study.space.categories optuna)
  refine ⟨_, _, ?_, hnormalized, suggestCategories_trials study.space.categories optuna⟩
  unfold suggest
  simp only [hnormalized]
  rfl

variable [StudyHashes]

/- What the suggestion of the next trial holds. -/
structure Suggested (study : Miprov2Study F) (optuna : AskTell ParameterName F)
    (s : StudySuggestion) (optuna' : AskTell ParameterName F) : Prop where
  number : s.trialNumber = optuna.trials
  trials : optuna'.trials = optuna.trials + 1
  suggest : study.suggest optuna.ask.2 = .ok (s.params, optuna')
  normalized : study.space.normalize s.params = .ok s.params
  combination : study.space.combinationIdentityHash s.params =
    .ok s.candidateCombinationIdentityHash

theorem askSuggestion_ok (study : Miprov2Study F) (h : 0 < optuna.trials) :
    ∃ s optuna', study.askSuggestion optuna = .ok (s, optuna') := by
  obtain ⟨params,optuna',hsuggest,hnormalized,_⟩ := study.suggest_ok optuna.ask.2
  obtain ⟨combination,hcombination,hfull⟩ :=
    Miprov2ParameterSpace.combinationIdentityHash_ok study.populated hnormalized
  have hnumber : ¬ ((optuna.ask.1 : Nat) : Int) < 1 := by
    simp only [AskTell.ask]
    omega
  refine ⟨⟨optuna.ask.1, params, combination⟩, optuna', ?_⟩
  unfold askSuggestion suggestion
  have hhash : ¬ isFullHash combination = false := by
    rw [hfull]
    simp
  simp only [hsuggest, ok_bind, hcombination, StudySuggestion.modelValidate,
    raiseIf_neg _ _ hnumber, requireFullHash, raiseIf_neg _ _ hhash]
  rfl

theorem askSuggestion_suggested {s : StudySuggestion}
    (h : study.askSuggestion optuna = .ok (s, optuna')) : Suggested study optuna s optuna' := by
  obtain ⟨params,after,hsuggest,hnormalized,htrials⟩ := study.suggest_ok optuna.ask.2
  unfold askSuggestion suggestion at h
  rw [hsuggest, ok_bind] at h
  obtain ⟨combination,hcombination,h⟩ := (bind_eq_ok _ _ _).mp h
  obtain ⟨validated,hvalidated,h⟩ := (bind_eq_ok _ _ _).mp h
  cases h
  simp only [StudySuggestion.modelValidate, raiseIf_bind_eq_ok, requireFullHash] at hvalidated
  obtain ⟨_,_,hsame⟩ := hvalidated
  cases hsame
  exact ⟨rfl, by rw [htrials, AskTell.trials_ask], hsuggest, hnormalized, hcombination⟩

variable [DecidableEq F] [StudyFloats F] [StudyChecks F]

omit [StudyChecks F] in
/-- A recorded sample replays: the sampler asks the same trial, and takes its promotion and its
score in the order of the recording. -/
theorem replaySample_completed {samples : List (SampleObservation F)} {s : StudySuggestion}
    {sample : SampleObservation F} {asked : AskTell ParameterName F}
    (hasked : Suggested study optuna s asked)
    (h : Completed study samples optuna.ask.1 s sample asked optuna') :
    study.replaySample (optuna, samples) sample = .ok (optuna', samples ++ [sample]) := by
  have hnumber : ((optuna.ask.1 : Nat) : Int) = sample.trialNumber := by
    rw [h.number, hasked.number]
    rfl
  have hdue : study.schedule.promotionDue ((optuna.ask.1 : Nat) : Int) =
      sample.promotion.isSome := by
    rw [hnumber, h.number]
    exact h.due
  obtain ⟨entered,hentered,rfl⟩ := replayPromotion_told h.told
  unfold replaySample
  simp only [hasked.suggest, ok_bind, raiseIf_neg _ _ (not_not.mpr hnumber), h.params,
    hasked.normalized, pure_bind, raiseIf_neg _ _ (not_not.mpr (rfl : s.params = s.params)),
    hasked.combination, raiseIf_neg _ _ (not_not.mpr h.combination),
    raiseIf_neg _ _ (not_not.mpr hdue), hentered]
  rfl

omit [StudyChecks F] in
/-- A recorded sample has the number that the bound transcript expects. -/
theorem boundSample_completed {samples : List (SampleObservation F)} {s : StudySuggestion}
    {sample : SampleObservation F} {asked : AskTell ParameterName F}
    (hasked : Suggested study optuna s asked)
    (h : Completed study samples optuna.ask.1 s sample asked optuna') :
    study.boundSample (optuna.trials, samples) sample =
      .ok (optuna'.trials, samples ++ [sample]) := by
  have hnumber : sample.trialNumber = optuna.trials := h.number.trans hasked.number
  have hdue : study.schedule.promotionDue sample.trialNumber = sample.promotion.isSome := by
    rw [h.number]
    exact h.due
  unfold boundSample
  rw [raiseIf_neg _ _ (not_not.mpr hnumber), ok_bind, raiseIf_neg _ _ (not_not.mpr hdue), ok_bind]
  cases h.told with
  | plain hnone =>
    have hcount : ((asked.tell optuna.ask.1 sample.score).trials : Int) = optuna.trials + 1 := by
      rw [AskTell.trials_tell, hasked.trials]
      omega
    simp only [hnone, hcount]
    rfl
  | promoted promotion selected number entered hsome hselected hsame htrial hadded =>
    obtain ⟨hadded,htrials⟩ := addCompletedTrial_trials hadded
    have hafter : promotion.trialNumber = sample.trialNumber + 1 := by
      rw [htrial, hadded, hasked.trials, hnumber]
      rfl
    have hcount : ((entered.tell optuna.ask.1 sample.score).trials : Int) = optuna.trials + 2 := by
      rw [AskTell.trials_tell, htrials, hasked.trials]
      omega
    simp only [hsome, hselected, ok_bind, raiseIf_neg _ _ (not_not.mpr hafter),
      raiseIf_neg _ _ hsame, hcount]
    rfl

/-! ### Transcripts -/

/-- A transcript that is bound to a study, and the sampler it reconstructs. -/
structure Recorded (study : Miprov2Study F) (t : StudyTranscript F)
    (optuna : AskTell ParameterName F) : Prop where
  contract : t.toStudyContract = study.toStudyContract
  valid : t.validate = .ok ()
  distribution : study.space.distributionIdentityHash = .ok t.distributionIdentityHash
  spaceHash : t.parameterSpaceIdentityHash = study.space.identityHash
  bound : t.samples.foldlM study.boundSample (1, []) = .ok ((optuna.trials : Int), t.samples)
  replayed : ∃ start, study.openStudy t.baseline.score = .ok start ∧
    t.samples.foldlM study.replaySample (start, []) = .ok (optuna, t.samples)
  asked : 0 < optuna.trials

theorem Recorded.requireBound {t : StudyTranscript F} (h : Recorded study t optuna) :
    study.requireBoundTranscript t = .ok () := by
  have hcontract : study.boundContract t t.distributionIdentityHash := by
    unfold boundContract
    rw [h.contract]
    exact ⟨rfl, rfl, rfl, rfl, rfl, rfl, rfl, rfl, rfl, rfl, rfl, rfl, h.spaceHash, rfl, rfl⟩
  unfold requireBoundTranscript
  simp only [h.valid, h.distribution, ok_bind, raiseIf_neg _ _ (not_not.mpr hcontract), h.bound]
  rfl

theorem Recorded.reconstruct {t : StudyTranscript F} (h : Recorded study t optuna) :
    study.reconstruct t = .ok optuna := by
  obtain ⟨start,hstart,hreplayed⟩ := h.replayed
  unfold Miprov2Study.reconstruct
  rw [hstart, ok_bind, hreplayed]
  rfl

theorem initialTranscript_recorded {score : F} {evaluation : EvalObservation F}
    {t : StudyTranscript F} (h : study.initialTranscript score evaluation = .ok t) :
    ∃ optuna, study.openStudy score = .ok optuna ∧ t.samples = [] ∧ Recorded study t optuna := by
  unfold initialTranscript at h
  obtain ⟨combination,hcombination,h⟩ := (bind_eq_ok _ _ _).mp h
  obtain ⟨distribution,hdistribution,h⟩ := (bind_eq_ok _ _ _).mp h
  obtain ⟨_,hvalid,h⟩ := (bind_eq_ok _ _ _).mp h
  cases h
  obtain ⟨baseline,hbaseline,_⟩ := (bind_eq_ok _ _ _).mp hcombination
  have hbaseline := Miprov2ParameterSpace.normalize_self hbaseline
  obtain ⟨distributions,hdistributions,_⟩ := (bind_eq_ok _ _ _).mp hdistribution
  have hopen : study.openStudy score = .ok ((AskTell.create study.seed).addTrial
      study.space.baselineParams distributions score).2 := by
    unfold openStudy addCompletedTrial
    simp only [hbaseline, hdistributions, ok_bind]
    rfl
  refine ⟨_, hopen, rfl, rfl, hvalid, hdistribution, rfl, ?_, ⟨_, hopen, rfl⟩, ?_⟩
  · rw [AskTell.trials_addTrial]
    rfl
  · simp

/-- Recording keeps a transcript recorded, with the sampler that the sample left. -/
theorem recordNext_recorded {t t' : StudyTranscript F} {input : SampleInput F}
    (ht : Recorded study t optuna) (h : study.recordNext t input = .ok t') :
    ∃ optuna', study.liveNext (optuna, t.samples) input = .ok (optuna', t'.samples) ∧
      Recorded study t' optuna' := by
  unfold recordNext recordSample at h
  obtain ⟨s,_,h⟩ := (bind_eq_ok _ _ _).mp h
  obtain ⟨_,_,h⟩ := (bind_eq_ok _ _ _).mp h
  rw [ht.reconstruct, ok_bind] at h
  obtain ⟨⟨reproduced,asked⟩,hasked,h⟩ := (bind_eq_ok _ _ _).mp h
  rw [raiseIf_bind_eq_ok, not_not] at h
  obtain ⟨rfl,h⟩ := h
  obtain ⟨⟨completed,optuna'⟩,hcompleted,h⟩ := (bind_eq_ok _ _ _).mp h
  obtain ⟨_,hvalid,h⟩ := (bind_eq_ok _ _ _).mp h
  cases h
  have hsuggested := askSuggestion_suggested hasked
  have hsample := completeSample_completed hcompleted
  refine ⟨optuna', ?_, ht.contract, hvalid, ht.distribution, ht.spaceHash, ?_, ?_, ?_⟩
  · unfold liveNext
    simp only [hasked, ok_bind, hcompleted]
    rfl
  · rw [List.foldlM_append, ht.bound]
    change study.boundSample (optuna.trials, t.samples) completed >>= _ = _
    rw [boundSample_completed hsuggested hsample]
    rfl
  · obtain ⟨start,hstart,hreplayed⟩ := ht.replayed
    refine ⟨start, hstart, ?_⟩
    rw [List.foldlM_append, hreplayed]
    change study.replaySample (optuna, t.samples) completed >>= _ = _
    rw [replaySample_completed hsuggested hsample]
    rfl
  · have htold := hsample.told.trials
    have htrials := hsuggested.trials
    omega

/-- Every run of recordings, beside the study that is never interrupted. -/
theorem record_recorded {score : F} {evaluation : EvalObservation F}
    {inputs : List (SampleInput F)} {t : StudyTranscript F}
    (h : study.record score evaluation inputs = .ok t) :
    ∃ optuna, study.live score inputs = .ok (optuna, t.samples) ∧ Recorded study t optuna := by
  unfold record at h
  obtain ⟨start,hstart,hrun⟩ := (bind_eq_ok _ _ _).mp h
  obtain ⟨optuna,hopen,hempty,hrecorded⟩ := initialTranscript_recorded hstart
  unfold live
  rw [hopen, ok_bind, ← hempty]
  clear h hstart hopen hempty
  induction inputs generalizing start optuna with
  | nil =>
    cases hrun
    exact ⟨optuna, rfl, hrecorded⟩
  | cons input rest ih =>
    rw [List.foldlM_cons] at hrun ⊢
    obtain ⟨next,hnext,hrun⟩ := (bind_eq_ok _ _ _).mp hrun
    obtain ⟨optuna',hlive,hnext⟩ := recordNext_recorded hrecorded hnext
    obtain ⟨last,hlast,hrecorded⟩ := ih next hrun optuna' hnext
    refine ⟨last, ?_, hrecorded⟩
    rw [hlive]
    exact hlast

end Miprov2Study

variable [StudyHashes] [DecidableEq F] [StudyFloats F] [StudyChecks F]

open Miprov2Study in
/-- The transcripts of a study. However many samples it has recorded, each under the suggestion
it returned: the transcript is bound to the study, it reconstructs the sampler of the study
that was never interrupted, and the next suggestion is that sampler's. A transcript that a
study accepts has the contract of the study if and only if it has its number of seeds and,
where no demos are searched, its demo mode. -/
theorem study_transcripts_closed (study : Miprov2Study F) :
    (∀ score evaluation inputs t, study.record score evaluation inputs = .ok t →
      study.requireBoundTranscript t = .ok () ∧
      ∃ optuna suggestion asked, study.reconstruct t = .ok optuna ∧
        study.live score inputs = .ok (optuna, t.samples) ∧
        study.askSuggestion optuna = .ok (suggestion, asked) ∧
        ((t.samples.length : Int) < study.schedule.numTrials →
          study.suggestNext t = .ok suggestion)) ∧
    ∀ t, study.requireBoundTranscript t = .ok () →
      (t.toStudyContract = study.toStudyContract ↔
        t.validationNumSeeds = study.validationNumSeeds ∧
          (study.demoPoolIdentityHashes = none → t.demoMode = study.demoMode)) := by
  refine ⟨?_, fun t h => requireBound_contract h⟩
  intro score evaluation inputs t h
  obtain ⟨optuna,hlive,hrecorded⟩ := record_recorded h
  obtain ⟨suggestion,asked,hasked⟩ := study.askSuggestion_ok hrecorded.asked
  refine ⟨hrecorded.requireBound, optuna, suggestion, asked, hrecorded.reconstruct, hlive, hasked,
    fun hleft => ?_⟩
  unfold suggestNext
  simp only [hrecorded.requireBound, ok_bind, raiseIf_neg _ _ (Int.not_le.mpr hleft),
    hrecorded.reconstruct, hasked]
  rfl

end Closure

/-! ### Two studies that differ in the number of seeds -/

section Example

def hashOf (c : Char) : String := String.ofList (List.replicate 64 c)

@[reducible] def roundedFloats : StudyFloats Rat where
  toFiniteFloats := exactFiniteFloats
  percent := fun q => (q * 10000 + 1 / 2).floor / 100
  eq_self := fun _ _ => decide_eq_true rfl

@[reducible] def plainRecords : CitedRecords Rat where
  CandidateRef := String
  EvalConfigRef := String
  IdentityRef := String
  RewardRef := Rat
  OptimRunRef := String
  Derivation := Unit
  ComponentSpec := String
  DemoSet := String
  candidateEq := inferInstance
  evalConfigEq := inferInstance
  identityEq := inferInstance
  rewardEq := inferInstance
  runEq := inferInstance
  derivationEq := inferInstance
  specEq := inferInstance
  demoSetEq := inferInstance
  candidateHash := id
  candidateRecordRef := fun candidate => some ⟨"whetstone.candidate", candidate⟩
  candidateBaseRef := fun _ => some ⟨"whetstone.candidate", hashOf 'b'⟩
  recordHash := id
  rewardPolicyHash := fun _ => hashOf 'd'
  rewardValue := id
  runId := id
  runOptimizerConfig := fun _ => hashOf 'c'
  runRewardPolicyHash := fun _ => some (hashOf 'd')
  specComponentId := id
  specPromptFormatHash := fun _ => hashOf 'e'
  demoSetHash := id
  demoSetComponentIds := fun _ => []

attribute [local instance] roundedFloats plainRecords

@[reducible] def plainChecks : StudyChecks Rat where
  validateCandidate := fun _ => .ok ()
  validateReward := fun _ => .ok ()
  validateRun := fun _ => .ok ()
  requireCanonicalEvalConfig := fun _ => .ok ()
  validateSpec := fun _ => .ok ()
  validateDerivation := fun _ => .ok ()
  diffCheck := fun _ _ _ => .ok ()
  candidateFromComponents := fun _ _ _ _ => .ok (hashOf 'a')
  renderingHash := fun _ => hashOf 'f'
  programHash := fun _ => hashOf 'f'

@[reducible] def plainHashes : StudyHashes where
  parameterSpace := fun _ => hashOf '0'
  distributions := fun _ => hashOf '1'
  combination := fun _ => hashOf '2'
  instruction := fun _ => hashOf '3'
  combination_full := fun _ => by decide

@[reducible] def firstCategory : Sampler ParameterName Rat where
  choose := fun _ _ _ _ => 0
  choose_lt := fun _ _ _ _ hcount => hcount

attribute [local instance] plainChecks plainHashes firstCategory

def plainContract (numSeeds : Int) : StudyContract Rat where
  demoMode := .zeroshot
  seed := 7
  runId := "run"
  validationTaskHashes := [hashOf '4']
  validationEvalSource := "source"
  validationNumSeeds := numSeeds
  rewardPolicyHash := hashOf 'd'
  optimizerConfig := hashOf 'c'
  promptAdapterIdentityHash := hashOf 'e'
  expectedBaseCandidate := hashOf 'b'
  programLayout := ⟨"layout", ["generate"]⟩
  run := "run"
  instructionPoolIdentityHashes := [[hashOf '3', hashOf '5']]
  demoPoolIdentityHashes := none
  schedule := ⟨2, true, 1, 1, 1⟩

def singleStudy : Miprov2Study Rat := ⟨plainContract 1, by rfl⟩

def repeatedStudy : Miprov2Study Rat := ⟨plainContract 2, by rfl⟩

def plainEvaluation (numSeeds : Int) (intentId candidate : String) (purpose : EvalPurpose) :
    EvalObservation Rat where
  runId := "run"
  intentId := intentId
  effectIdentityHash := hashOf '6'
  purpose := purpose
  candidate := candidate
  taskBatchHashes := [hashOf '4']
  evalConfig := "config"
  evalBinding := ⟨⟨hashOf 'c', "source", purpose.derivation, hashOf '6', [hashOf '4'], numSeeds⟩, (),
    "config"⟩
  evalRole := .internal
  evalResultRef := ⟨evalEvidenceSchema, hashOf '7'⟩
  expectedRewardPolicyHash := hashOf 'd'
  rewardRef := some (1 / 2 : Rat)
  normalizedScore := 50

def plainInput (numSeeds : Int) : SampleInput Rat where
  score := 50
  evaluation := plainEvaluation numSeeds "sample" (hashOf 'a') .sample
  candidateAssembly :=
    { params := [(.instruction 0, 0)]
      categoricalCombinationIdentityHash := hashOf '2'
      candidate := hashOf 'a'
      programIdentityHash := hashOf 'f'
      rendering := ⟨hashOf 'c', hashOf 'b', hashOf '2',
        [⟨"generate", 0, "text", hashOf '3', none, none, none⟩]⟩
      optimizerConfig := hashOf 'c'
      baseCandidate := hashOf 'b'
      programLayout := ⟨"layout", ["generate"]⟩
      promptAdapterIdentityHash := hashOf 'e'
      run := "run" }
  promotionFullScore := some 50
  promotionEvaluation := some (plainEvaluation numSeeds "promotion" (hashOf 'a') .promotion)

/- The transcript of the study that evaluates every task twice. -/
def repeatedTranscript : Except String (StudyTranscript Rat) :=
  repeatedStudy.record 50 (plainEvaluation 2 "baseline" (hashOf 'b') .baseline) [plainInput 2]

theorem hashOf_full {c : Char} (h : (c.isDigit || ('a' ≤ c && c ≤ 'f')) = true) (field : String) :
    requireFullHash (hashOf c) field = .ok () := by
  have hfull : isFullHash (hashOf c) = true := by
    rw [isFullHash, hashOf, String.toList_ofList]
    refine decide_eq_true ⟨by simp, ?_⟩
    rw [List.all_eq_true]
    intro own hmem
    rw [List.eq_of_mem_replicate hmem]
    exact h
  rw [requireFullHash, hfull]
  rfl

theorem plainEvaluation_valid {intentId : String} (hintent : intentId ≠ "") (candidate : String)
    (purpose : EvalPurpose) :
    (plainEvaluation 2 intentId candidate purpose).validate = .ok () := by
  have hbinding : (plainEvaluation 2 intentId candidate purpose).evalBinding.validate = .ok () := by
    simp only [EvalBinding.validate, EvalBindingRequest.validate, plainEvaluation,
      hashOf_full (c := 'c') rfl, hashOf_full (c := '6') rfl, ok_bind]
    rfl
  have htasks : requireFullHashes [hashOf '4'] "task_batch_hashes" = .ok () := by
    rw [requireFullHashes, forM_eq_ok]
    intro entry hmem
    rw [List.mem_singleton.mp hmem]
    exact hashOf_full rfl _
  have hscore : (plainEvaluation 2 intentId candidate purpose).validateScore = .ok () := by
    have hone : (plainEvaluation 2 "sample" (hashOf 'a') .sample).validateScore = .ok () := by
      decide +kernel
    exact hone
  rw [EvalObservation.validate, hbinding, hscore]
  simp only [plainEvaluation, hashOf_full (c := 'd') rfl, hashOf_full (c := '6') rfl, htasks,
    hintent, or_false, ok_bind]
  rfl

theorem plainAssembly_valid : (plainInput 2).candidateAssembly.validate = .ok () := by
  simp only [Miprov2CandidateAssemblyBinding.validate, Miprov2CandidateRendering.validate, 
    plainInput, hashOf_full (c := 'c') rfl, hashOf_full (c := 'b') rfl, hashOf_full (c := '2') rfl,
    hashOf_full (c := 'f') rfl, hashOf_full (c := 'e') rfl]
  rfl

def openedTranscript : StudyTranscript Rat where
  toStudyContract := plainContract 2
  parameterSpaceIdentityHash := hashOf '0'
  distributionIdentityHash := hashOf '1'
  baseline := ⟨hashOf '2', hashOf 'b', 50, plainEvaluation 2 "baseline" (hashOf 'b') .baseline⟩
  samples := []

def samplePromotion : Promotion Rat where
  trialNumber := 2
  params := [(.instruction 0, 0)]
  candidateCombinationIdentityHash := hashOf '2'
  evaluatedCandidateIdentityHash := hashOf 'a'
  candidateAssembly := (plainInput 2).candidateAssembly
  sourceSampleTrialNumber := 1
  minibatchMean := 50
  fullScore := 50
  evaluation := plainEvaluation 2 "promotion" (hashOf 'a') .promotion

def plainSample (promotion : Option (Promotion Rat)) : SampleObservation Rat where
  trialNumber := 1
  params := [(.instruction 0, 0)]
  candidateCombinationIdentityHash := hashOf '2'
  evaluatedCandidateIdentityHash := hashOf 'a'
  candidateAssembly := (plainInput 2).candidateAssembly
  score := 50
  evaluation := plainEvaluation 2 "sample" (hashOf 'a') .sample
  batchFullEvaluation := true
  promotion := promotion

theorem samplePromotion_valid : samplePromotion.validate = .ok () := by
  have hevaluation := plainEvaluation_valid (by decide : "promotion" ≠ "") (hashOf 'a') .promotion
  simp only [Promotion.validate, samplePromotion, plainAssembly_valid, hevaluation, ok_bind,
    hashOf_full (c := '2') rfl, hashOf_full (c := 'a') rfl]
  rfl

theorem plainSample_valid {promotion : Option (Promotion Rat)}
    (h : promotion.toList.forM Promotion.validate = .ok ()) :
    (plainSample promotion).validate = .ok () := by
  have hevaluation := plainEvaluation_valid (by decide : "sample" ≠ "") (hashOf 'a') .sample
  simp only [SampleObservation.validate, plainSample, plainAssembly_valid, hevaluation, ok_bind,
    hashOf_full (c := '2') rfl, hashOf_full (c := 'a') rfl, h]
  rfl

def grownTranscript : StudyTranscript Rat :=
  { openedTranscript with samples := [plainSample (some samplePromotion)] }

theorem openedTranscript_valid : openedTranscript.validate = .ok () := by
  have hevaluation := plainEvaluation_valid (by decide : "baseline" ≠ "") (hashOf 'b') .baseline
  simp only [StudyTranscript.validate, openedTranscript, BaselineObservation.validate, hevaluation,
     StudyTranscript.validateContract, plainContract, requireRunAuthorities,
    hashOf_full (c := '0') rfl, hashOf_full (c := '1') rfl, hashOf_full (c := '2') rfl,
    hashOf_full (c := 'd') rfl, hashOf_full (c := 'e') rfl]
  rfl

theorem grownTranscript_valid : grownTranscript.validate = .ok () := by
  have hevaluation := plainEvaluation_valid (by decide : "baseline" ≠ "") (hashOf 'b') .baseline
  have hsample : [plainSample (some samplePromotion)].forM SampleObservation.validate = .ok () := by
    rw [forM_eq_ok]
    intro sample hmem
    rw [List.mem_singleton.mp hmem]
    exact plainSample_valid (by
      rw [forM_eq_ok]
      intro promotion hmem
      rw [List.mem_singleton.mp hmem]
      exact samplePromotion_valid)
  simp only [StudyTranscript.validate, grownTranscript, openedTranscript,
    BaselineObservation.validate, hevaluation, hsample, ok_bind,
    StudyTranscript.validateContract, plainContract, requireRunAuthorities,
    hashOf_full (c := '0') rfl, hashOf_full (c := '1') rfl, hashOf_full (c := '2') rfl,
    hashOf_full (c := 'd') rfl, hashOf_full (c := 'e') rfl]
  rfl

theorem repeatedStudy_opens : repeatedStudy.initialTranscript 50
    (plainEvaluation 2 "baseline" (hashOf 'b') .baseline) = .ok openedTranscript := by
  have hcombination : repeatedStudy.space.combinationIdentityHash
      repeatedStudy.space.baselineParams = .ok (hashOf '2') := by rfl
  have hdistribution : repeatedStudy.space.distributionIdentityHash = .ok (hashOf '1') := by
    rfl
  have hopened : StudyTranscript.modelValidate openedTranscript = .ok openedTranscript := by
    rw [StudyTranscript.modelValidate, openedTranscript_valid]
    rfl
  rw [Miprov2Study.initialTranscript, hcombination, ok_bind, hdistribution, ok_bind]
  exact hopened

section Steps

variable {F : Type} [DecidableEq F] [StudyFloats F] [CitedRecords F] [StudyChecks F]
variable [StudyHashes] {study : Miprov2Study F}

theorem provisionalSample_full {suggestion : StudySuggestion} {input : SampleInput F}
    {provisional : SampleObservation F}
    (hassembly : study.requireCandidateAssembly input.candidateAssembly suggestion.params
      suggestion.candidateCombinationIdentityHash = .ok ())
    (hbatch : (input.evaluation.taskBatchHashes.length : Int) = study.schedule.batchSize)
    (hfull : study.schedule.valsetSize ≤ (input.evaluation.taskBatchHashes.length : Int))
    (hbinding : study.validateEvaluationBinding input.evaluation .sample
      study.validationTaskHashes = .ok ())
    (hprovisional : provisional = ⟨suggestion.trialNumber, suggestion.params,
      suggestion.candidateCombinationIdentityHash, candidateHash input.candidateAssembly.candidate,
      input.candidateAssembly, input.score, input.evaluation, true, none⟩)
    (hvalid : provisional.validate = .ok ()) :
    study.provisionalSample suggestion input = .ok provisional := by
  subst hprovisional
  rw [Miprov2Study.provisionalSample, hassembly, ok_bind]
  dsimp only
  rw [raiseIf_neg _ _ (not_not.mpr hbatch), ok_bind, decide_eq_true hfull,
    raiseIf_neg _ _ (by simp), ok_bind, if_pos rfl, hbinding, ok_bind, hvalid]
  rfl

theorem completeSample_promoted (samples : List (SampleObservation F)) (trial : Nat)
    {suggestion : StudySuggestion} {input : SampleInput F} {asked added : AskTell ParameterName F}
    {provisional : SampleObservation F} {promotion : Promotion F} {fullScore : F}
    {evaluation : EvalObservation F}
    (hprovisional : study.provisionalSample suggestion input = .ok provisional)
    (hdue : study.schedule.promotionDue suggestion.trialNumber = true)
    (hscore : input.promotionFullScore = some fullScore)
    (hevaluation : input.promotionEvaluation = some evaluation)
    (hpromote : study.promote samples provisional fullScore evaluation asked =
      .ok (promotion, added)) :
    study.completeSample samples trial suggestion input asked =
      .ok ({ provisional with promotion := some promotion }, added.tell trial input.score) := by
  rw [Miprov2Study.completeSample, hprovisional, ok_bind, hdue, hscore, hevaluation]
  dsimp only
  rw [hpromote]
  rfl

variable [Sampler ParameterName F]

theorem recordNext_completed {t : StudyTranscript F} {suggestion : StudySuggestion}
    {input : SampleInput F} {optuna asked told : AskTell ParameterName F}
    {completed : SampleObservation F} (hnext : study.suggestNext t = .ok suggestion)
    (hvalidated : study.validateNextSuggestion t suggestion = .ok ())
    (hreconstruct : study.reconstruct t = .ok optuna)
    (hasked : study.askSuggestion optuna = .ok (suggestion, asked))
    (hcompleted : study.completeSample t.samples optuna.ask.1 suggestion input asked =
      .ok (completed, told)) :
    study.recordNext t input =
      StudyTranscript.modelValidate { t with samples := t.samples ++ [completed] } := by
  unfold Miprov2Study.recordNext Miprov2Study.recordSample
  rw [hnext, ok_bind, hvalidated, ok_bind, hreconstruct, ok_bind, hasked, ok_bind]
  dsimp only
  rw [raiseIf_neg _ _ (not_not.mpr rfl), ok_bind, hcompleted]
  rfl

end Steps

def firstSuggestion : StudySuggestion := ⟨1, [(.instruction 0, 0)], hashOf '2'⟩

theorem repeatedStudy_provisional :
    repeatedStudy.provisionalSample firstSuggestion (plainInput 2) = .ok (plainSample none) := by
  have hassembly : repeatedStudy.requireCandidateAssembly (plainInput 2).candidateAssembly
      firstSuggestion.params firstSuggestion.candidateCombinationIdentityHash = .ok () := by
    rfl
  have hbinding : repeatedStudy.validateEvaluationBinding (plainInput 2).evaluation .sample
      repeatedStudy.validationTaskHashes = .ok () := by
    rfl
  exact provisionalSample_full hassembly rfl (by decide) hbinding rfl (plainSample_valid rfl)

deriving instance DecidableEq for PromotionCandidate

def selectedSample : PromotionCandidate Rat where
  params := [(.instruction 0, 0)]
  candidateCombinationIdentityHash := hashOf '2'
  evaluatedCandidateIdentityHash := hashOf 'a'
  candidateAssembly := (plainInput 2).candidateAssembly
  sourceSampleTrialNumber := 1
  minibatchMean := 50

theorem plainSample_selected : selectPromotion [plainSample none] = .ok selectedSample := by
  decide +kernel

theorem repeatedStudy_asks :
    (do
      let optuna ← repeatedStudy.openStudy 50
      let (suggestion, asked) ← repeatedStudy.askSuggestion optuna
      let (number, _) ← repeatedStudy.addCompletedTrial asked [(.instruction 0, 0)] 50
      return (suggestion, number)) = .ok (firstSuggestion, 2) := by
  rfl

theorem repeatedStudy_promotes {asked optuna : AskTell ParameterName Rat}
    (h : repeatedStudy.addCompletedTrial asked [(.instruction 0, 0)] 50 = .ok (2, optuna)) :
    repeatedStudy.promote [] (plainSample none) 50
      (plainEvaluation 2 "promotion" (hashOf 'a') .promotion) asked =
        .ok (samplePromotion, optuna) := by
  have hbinding : repeatedStudy.validateEvaluationBinding
      (plainEvaluation 2 "promotion" (hashOf 'a') .promotion) .promotion
      repeatedStudy.validationTaskHashes = .ok () := by
    rfl
  have hbatch : ¬ ((plainEvaluation 2 "promotion" (hashOf 'a')
      .promotion).taskBatchHashes.length : Int) ≠ repeatedStudy.schedule.valsetSize :=
    not_not.mpr rfl
  have hcandidate : ¬ candidateHash (plainEvaluation 2 "promotion" (hashOf 'a')
      .promotion).candidate ≠ selectedSample.evaluatedCandidateIdentityHash := not_not.mpr rfl
  have hadded : repeatedStudy.addCompletedTrial asked selectedSample.params 50 =
      .ok (2, optuna) := h
  rw [Miprov2Study.promote, raiseIf_neg _ _ hbatch, ok_bind, List.nil_append,
    plainSample_selected, ok_bind, hbinding, ok_bind, raiseIf_neg _ _ hcandidate, ok_bind, hadded,
    ok_bind]
  exact congrArg (fun checked => checked >>= fun _ => Except.ok (samplePromotion, optuna))
    samplePromotion_valid

/- One sample is recorded, and its promotion is due with it. -/
theorem repeatedStudy_records :
    repeatedStudy.recordNext openedTranscript (plainInput 2) = .ok grownTranscript := by
  obtain ⟨optuna,hopen,_,hrecorded⟩ := Miprov2Study.initialTranscript_recorded repeatedStudy_opens
  obtain ⟨suggestion,asked,hasked⟩ := repeatedStudy.askSuggestion_ok hrecorded.asked
  have hasks := repeatedStudy_asks
  rw [hopen, ok_bind, hasked, ok_bind] at hasks
  obtain ⟨⟨number,added⟩,hadded,hasks⟩ := (bind_eq_ok _ _ _).mp hasks
  cases hasks
  have hnext : repeatedStudy.suggestNext openedTranscript = .ok firstSuggestion := by
    unfold Miprov2Study.suggestNext
    simp only [hrecorded.requireBound, ok_bind, hrecorded.reconstruct, hasked]
    rfl
  have hvalidated : repeatedStudy.validateNextSuggestion openedTranscript firstSuggestion =
      .ok () := by
    unfold Miprov2Study.validateNextSuggestion
    simp only [hrecorded.requireBound, ok_bind, hnext]
    rfl
  have hcompleted := completeSample_promoted [] optuna.ask.1
    repeatedStudy_provisional rfl rfl rfl (repeatedStudy_promotes hadded)
  have hgrown : StudyTranscript.modelValidate grownTranscript = .ok grownTranscript := by
    rw [StudyTranscript.modelValidate, grownTranscript_valid]
    rfl
  rw [recordNext_completed hnext hvalidated hrecorded.reconstruct hasked hcompleted]
  exact hgrown

/- One sample with its promotion is recorded, and a study of single evaluations accepts it. -/
theorem repeatedTranscript_ok : ∃ t, repeatedTranscript = .ok t ∧ t.samples.length = 1 ∧
    singleStudy.requireBoundTranscript t = .ok () ∧ t.validationNumSeeds = 2 := by
  have hrecorded : repeatedTranscript = .ok grownTranscript := by
    rw [repeatedTranscript, Miprov2Study.record, repeatedStudy_opens, ok_bind, List.foldlM_cons,
      repeatedStudy_records]
    rfl
  refine ⟨grownTranscript, hrecorded, rfl, ?_, rfl⟩
  rw [Miprov2Study.requireBoundTranscript, grownTranscript_valid]
  decide +kernel

/-- A study accepts a transcript with another number of seeds. -/
theorem repeated_transcript_accepted : ∃ t, singleStudy.requireBoundTranscript t = .ok () ∧
    t.toStudyContract ≠ singleStudy.toStudyContract := by
  obtain ⟨t,_,_,hbound,hseeds⟩ := repeatedTranscript_ok
  refine ⟨t, hbound, fun hcontract => ?_⟩
  have hsame : t.validationNumSeeds = 1 := congrArg StudyContract.validationNumSeeds hcontract
  omega

/-- The study that recorded the transcript resumes it. -/
theorem repeated_study_resumes : ∃ t suggestion, repeatedTranscript = .ok t ∧
    t.samples.length = 1 ∧ repeatedStudy.suggestNext t = .ok suggestion := by
  obtain ⟨t,ht,hlength,_,_⟩ := repeatedTranscript_ok
  obtain ⟨_,_,suggestion,_,_,_,_,hnext⟩ := (study_transcripts_closed repeatedStudy).1 _ _ _ t ht
  refine ⟨t, suggestion, ht, hlength, hnext ?_⟩
  rw [hlength]
  decide

end Example
end Whetstone.Optim
