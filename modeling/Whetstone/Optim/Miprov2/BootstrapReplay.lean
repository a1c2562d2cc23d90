import Whetstone.Optim.Miprov2.BootstrapFold

/-! The states that the bootstrap compiler reaches by its own folds. Each is the replay of its
evidence, so that the validation of a state accepts it. -/
namespace Whetstone.Optim.Miprov2
open Whetstone.Core Whetstone.Lib

/-- Identity hashes are 64 digits. -/
class FullHashes [IdentityHasher] : Prop where
  full : ∀ schema version payload field,
    requireFullHash (IdentityHasher.computeIdentityHash schema version payload) field = .ok ()

/-- A finite float is equal to itself, and `1.0` is finite. -/
class LawfulEq (F : Type) [FiniteFloats F] : Prop where
  eq_self : ∀ x : F, FloatOps.isFinite x = true → FiniteFloats.eq x x = true
  one_finite : FloatOps.isFinite (FloatOps.ratio 1 1 : F) = true

/-! ### Records are equal to themselves -/

section Equal

variable {F : Type} [FiniteFloats F] [LawfulEq F]

instance : ReflPyEq (FiniteFloat F) := ⟨fun x => LawfulEq.eq_self x.value x.finite⟩

instance : ReflPyEq (MetricValue F) := ⟨fun score => by
  cases score with
  | flag value => exact decide_eq_true rfl
  | number value => exact LawfulEq.eq_self value.value value.finite⟩

instance : ReflPyEq SourceHashes := ⟨fun _ => decide_eq_true rfl⟩

instance : ReflPyEq Miprov2DurableBindings := ⟨fun _ => decide_eq_true rfl⟩

instance : ReflPyEq BootstrapTerminalFailure := ⟨fun _ => decide_eq_true rfl⟩

instance : ReflPyEq (BootstrapAcceptance F) := ⟨fun acceptance => by
  change (pyEq acceptance.sourceTaskHash acceptance.sourceTaskHash && _ && _ && _ && _ && _) = true
  simp only [pyEq_refl, Bool.and_self]⟩

theorem thresholdEq_self {threshold : Option F}
    (h : ∀ x, threshold = some x → FloatOps.isFinite x = true) :
    thresholdEq threshold threshold = true := by
  cases threshold with
  | none => rfl
  | some x => exact LawfulEq.eq_self x (h x rfl)

variable {objectEq : List (String × Json) → List (String × Json) → Bool}

theorem ObservedTraceStep.eqWith_refl (hobject : ∀ fields, objectEq fields fields = true)
    (step : ObservedTraceStep) : step.eqWith objectEq step = true := by
  simp only [ObservedTraceStep.eqWith, hobject, pyEq_refl, Bool.and_self]

theorem BootstrapGenerationResult.eqWith_refl (hobject : ∀ fields, objectEq fields fields = true)
    (result : BootstrapGenerationResult F) : result.eqWith objectEq result = true := by
  have hsteps : listEq (ObservedTraceStep.eqWith objectEq) result.traceSteps result.traceSteps =
      true := listEq_refl _ fun step _ => step.eqWith_refl hobject
  simp only [BootstrapGenerationResult.eqWith, hsteps, pyEq_refl, Bool.and_self]

theorem ComponentDemo.eqWith_refl (hobject : ∀ fields, objectEq fields fields = true)
    (demo : ComponentDemo F) : demo.eqWith objectEq demo = true := by
  simp only [ComponentDemo.eqWith, hobject, pyEq_refl, decide_true, Bool.and_self]

variable [FloatJson F] [IdentityHasher]

theorem BootstrapFoldEvidence.eqWith_refl (hobject : ∀ fields, objectEq fields fields = true)
    (event : BootstrapFoldEvidence F) (hattempt : pyEq event.attempt event.attempt = true) :
    event.eqWith objectEq event = true := by
  simp only [BootstrapFoldEvidence.eqWith, hattempt,
    BootstrapGenerationResult.eqWith_refl hobject, pyEq_refl, Bool.and_self]

theorem BootstrapCompilerState.eqWith_refl (hobject : ∀ fields, objectEq fields fields = true)
    (state : BootstrapCompilerState F)
    (hattempts : ∀ event ∈ state.evidence, pyEq event.attempt event.attempt = true) :
    state.eqWith objectEq state = true := by
  have hdemos : dictEq (listEq (ComponentDemo.eqWith objectEq)) state.augmentedDemos
      state.augmentedDemos = true :=
    dictEq_refl _ fun demos => listEq_refl demos fun demo _ => demo.eqWith_refl hobject
  have hevidence : listEq (BootstrapFoldEvidence.eqWith objectEq) state.evidence state.evidence =
      true := listEq_refl _ fun event hmem => event.eqWith_refl hobject (hattempts event hmem)
  simp only [BootstrapCompilerState.eqWith, hdemos, hevidence, pyEq_refl, Bool.and_self]

end Equal

/-! ### Values that pass their validation -/

theorem requireFullHash_field {value field : String} (h : requireFullHash value field = .ok ())
    (other : String) : requireFullHash value other = .ok () := by
  rw [requireFullHash, raiseIf_eq_ok] at h ⊢
  exact h

section Valid

variable {F : Type} [FiniteFloats F]

theorem AttemptFields.modelValidate_ok {fields : AttemptFields F} (h : fields.validate = .ok ()) :
    fields.modelValidate = .ok ⟨fields, h⟩ := by
  unfold AttemptFields.modelValidate
  split
  · rfl
  · rename_i hbad
    rw [h] at hbad
    cases hbad

theorem AcceptanceFields.modelValidate_ok {fields : AcceptanceFields F}
    (h : fields.validate = .ok ()) : fields.modelValidate = .ok ⟨fields, h⟩ := by
  unfold AcceptanceFields.modelValidate
  split
  · rfl
  · rename_i hbad
    rw [h] at hbad
    cases hbad

theorem DemoFields.modelValidate_ok {fields : DemoFields F} (h : fields.validate = .ok ()) :
    fields.modelValidate = .ok ⟨fields, h⟩ := by
  unfold DemoFields.modelValidate
  split
  · rfl
  · rename_i hbad
    rw [h] at hbad
    cases hbad

theorem TerminalFields.modelValidate_ok {fields : TerminalFields} (h : fields.validate = .ok ()) :
    fields.modelValidate = .ok ⟨fields, h⟩ := by
  unfold TerminalFields.modelValidate
  split
  · rfl
  · rename_i hbad
    rw [h] at hbad
    cases hbad

theorem EvidenceFields.modelValidate_ok [FloatJson F] [IdentityHasher] {fields : EvidenceFields F}
    (h : fields.validate = .ok ()) : fields.modelValidate = .ok ⟨fields, h⟩ := by
  unfold EvidenceFields.modelValidate
  split
  · rfl
  · rename_i hbad
    rw [h] at hbad
    cases hbad

end Valid

/-! ### Acceptances -/

section Accept

variable {F : Type} [FiniteFloats F]

/- The metric of a result under a threshold. -/
def accepts (threshold : Option F) (result : ResultFields F) : Bool :=
  !result.metricPresent || result.score.any fun score => score.accepted threshold

theorem acceptResult_ok {result : ResultFields F}
    (h : requireScore result.metricPresent result.score = .ok ()) (threshold : Option F) :
    acceptResult result threshold = .ok (accepts threshold result) := by
  simp only [requireScore, raiseIf_bind_eq_ok, raiseIf_eq_ok] at h
  unfold acceptResult accepts
  cases hpresent : result.metricPresent with
  | false => rfl
  | true =>
    cases hscore : result.score with
    | none =>
      rw [hpresent, hscore] at h
      exact absurd ⟨rfl, rfl⟩ h.1
    | some score => rfl

theorem bootstrapAccepts_ok {result : ResultFields F}
    (h : requireScore result.metricPresent result.score = .ok ()) {threshold threshold' : Option F}
    (hsame : thresholdHolds threshold' = thresholdHolds threshold) :
    bootstrapAccepts result.metricPresent result.score threshold' =
      .ok (accepts threshold result) := by
  simp only [requireScore, raiseIf_bind_eq_ok, raiseIf_eq_ok] at h
  unfold bootstrapAccepts accepts
  cases hpresent : result.metricPresent with
  | false => rfl
  | true =>
    cases hscore : result.score with
    | none =>
      rw [hpresent, hscore] at h
      exact absurd ⟨rfl, rfl⟩ h.1
    | some score => simp [MetricValue.accepted, hsame]

variable [LawfulEq F]

/-- The threshold of an acceptance accepts what that of the plan does, and is its own. -/
theorem threshold_created {threshold : Option F}
    (h : ∀ x, threshold = some x → FloatOps.isFinite x = true) :
    ∃ created, threshold.mapM FiniteFloat.create = .ok created ∧
      (created.map FiniteFloat.value).mapM FiniteFloat.create = .ok created ∧
      thresholdHolds (created.map FiniteFloat.value) = thresholdHolds threshold := by
  cases threshold with
  | none => exact ⟨none, rfl, rfl, rfl⟩
  | some x =>
    have hfinite := h x rfl
    have hzero : FiniteFloats.eq (FloatOps.zero : F) FloatOps.zero = true :=
      LawfulEq.eq_self _ FiniteFloats.zero_finite
    by_cases hx : FiniteFloats.eq x (FloatOps.zero : F) = true
    · refine ⟨some ⟨FloatOps.zero, FiniteFloats.zero_finite⟩, ?_, ?_, ?_⟩
      · simp [Option.mapM_some, FiniteFloat.create, hfinite, hx]
      · simp [Option.mapM_some, FiniteFloat.create, FiniteFloats.zero_finite, hzero]
      · simp [thresholdHolds, hx, hzero]
    · refine ⟨some ⟨x, hfinite⟩, ?_, ?_, rfl⟩
      · simp [Option.mapM_some, FiniteFloat.create, hfinite, hx]
      · simp [Option.mapM_some, FiniteFloat.create, hfinite, hx]

/-- A completed result has one acceptance, which its own threshold gives again. -/
theorem acceptanceFor_ok (attempt : BootstrapAttemptPlan F) (result : BootstrapGenerationResult F)
    (herror : result.error = none) {threshold : Option F}
    (hthreshold : ∀ x, threshold = some x → FloatOps.isFinite x = true) :
    ∃ acceptance, acceptanceFor attempt result.toResultFields threshold = .ok acceptance ∧
      acceptance.accepted = accepts threshold result.toResultFields ∧
      acceptanceFor attempt result.toResultFields
        (acceptance.metricThreshold.map FiniteFloat.value) = .ok acceptance := by
  obtain ⟨created,hcreated,hagain,hholds⟩ := threshold_created hthreshold
  have hresult := result.valid
  rw [ResultFields.validate, check_bind_eq_ok, check_bind_eq_ok, ResultFields.requireOutcome,
    herror] at hresult
  obtain ⟨_,hsource,hscore⟩ := hresult
  have hattempt := attempt.valid
  simp only [AttemptFields.validate, check_bind_eq_ok] at hattempt
  have htask := requireFullHash_field hattempt.2.1 "source_task_hash"
  have hagrees : accepts (created.map FiniteFloat.value) result.toResultFields =
      accepts threshold result.toResultFields := by
    simp only [accepts, MetricValue.accepted, hholds]
  let fields : AcceptanceFields F :=
    { toSourceHashes := result.toSourceHashes, sourceTaskHash := attempt.taskHash
      metricPresent := result.metricPresent, score := result.score
      metricThreshold := created, accepted := accepts threshold result.toResultFields }
  have hvalid : fields.validate = .ok () := by
    simp only [AcceptanceFields.validate, check_bind_eq_ok]
    refine ⟨htask, hsource, hscore, ?_⟩
    rw [bootstrapAccepts_ok hscore hholds, ok_bind, raiseIf_eq_ok]
    exact not_not_intro rfl
  refine ⟨⟨fields, hvalid⟩, ?_, rfl, ?_⟩
  · rw [acceptanceFor, acceptResult_ok hscore, ok_bind, hcreated, ok_bind]
    exact AcceptanceFields.modelValidate_ok hvalid
  · rw [acceptanceFor, acceptResult_ok hscore, ok_bind, hagain, ok_bind, hagrees]
    exact AcceptanceFields.modelValidate_ok hvalid

end Accept

/-! ### The attempt at a task and a round -/

section Attempts

variable {F : Type} [FiniteFloats F]

theorem FewshotCandidatePlan.maxRounds_pos (plan : FewshotCandidatePlan F) :
    0 < plan.maxRounds := by
  have h := plan.valid
  simp only [PlanFields.validate, requireCaps, check_bind_eq_ok, raiseIf_eq_ok] at h
  omega

theorem FewshotCandidatePlan.threshold_finite (plan : FewshotCandidatePlan F) (x : F)
    (hx : plan.metricThreshold = some x) : FloatOps.isFinite x = true := by
  have h := plan.valid
  simp only [PlanFields.validate, check_bind_eq_ok, requireThreshold, raiseIf_eq_ok] at h
  simpa [hx] using h.2.2.2.2.1

theorem FewshotCandidatePlan.task_full (plan : FewshotCandidatePlan F) {i : Nat} {taskHash : String}
    (h : plan.trainsetTaskHashes[i]? = some taskHash) (field : String) :
    requireFullHash taskHash field = .ok () := by
  have hvalid := plan.valid
  simp only [PlanFields.validate, check_bind_eq_ok, requireTaskHashes, forM_eq_ok] at hvalid
  have hmem : (taskHash, i) ∈ plan.trainsetTaskHashes.zipIdx := by
    rw [List.mem_zipIdx_iff_getElem?]
    exact h
  exact requireFullHash_field (hvalid.1 _ hmem) field

variable [FloatJson F] [IdentityHasher]

def attemptFields (plan : FewshotCandidatePlan F) (taskHash : String) (i r : Nat) :
    AttemptFields F :=
  let retry : Bool := 0 < r
  { bindings := plan.bindings, planIdentityHash := plan.identityHash
    taskIndex := i, taskHash := taskHash, roundIndex := r
    excludeEqualTaskFromAllTeacherComponents := true, restoreTeacherDemosAfterEffect := true
    copyTaskModel := retry, generationId := if retry then some r else none
    temperature := if retry then some oneFloat else none }

/-- There is no next attempt once enough were accepted or the tasks are over. -/
theorem next_none {plan : FewshotCandidatePlan F} {state : BootstrapCompilerState F}
    (h : plan.maxBootstrappedDemos ≤ state.bootstrappedTaskIndices.length ∨
      plan.trainsetTaskHashes.length ≤ state.taskCursor) :
    nextBootstrapAttemptUnchecked plan state = .ok none := by
  rw [nextBootstrapAttemptUnchecked]
  split
  · rfl
  · rename_i hopen
    have hend : plan.trainsetTaskHashes[state.taskCursor]? = none := by
      rw [List.getElem?_eq_none_iff]
      omega
    rw [hend]

variable [FullHashes] [LawfulEq F]

theorem attemptFields_valid (plan : FewshotCandidatePlan F) {taskHash : String} {i : Nat}
    (h : plan.trainsetTaskHashes[i]? = some taskHash) (r : Nat) :
    (attemptFields plan taskHash i r).validate = .ok () := by
  have hone : FiniteFloats.eq (oneFloat : F) oneFloat = true :=
    LawfulEq.eq_self _ LawfulEq.one_finite
  have hplan : requireFullHash plan.identityHash "plan_identity_hash" = .ok () :=
    FullHashes.full _ _ _ _
  simp only [AttemptFields.validate, attemptFields, check_bind_eq_ok]
  refine ⟨hplan, plan.task_full h _, by simp, by simp, ?_, ?_⟩
  · by_cases hr : 0 < r <;> simp [hr]
  · by_cases hr : 0 < r <;> simp [hr, hone]

def attemptAt (plan : FewshotCandidatePlan F) {taskHash : String} {i : Nat}
    (h : plan.trainsetTaskHashes[i]? = some taskHash) (r : Nat) : BootstrapAttemptPlan F :=
  ⟨attemptFields plan taskHash i r, attemptFields_valid plan h r⟩

theorem attemptAt_self (plan : FewshotCandidatePlan F) {taskHash : String} {i : Nat}
    (h : plan.trainsetTaskHashes[i]? = some taskHash) (r : Nat) :
    pyEq (attemptAt plan h r) (attemptAt plan h r) = true := by
  have htemperature : thresholdEq (attemptAt plan h r).temperature
      (attemptAt plan h r).temperature = true := by
    refine thresholdEq_self fun x hx => ?_
    simp only [attemptAt, attemptFields] at hx
    split at hx
    · cases hx
      exact LawfulEq.one_finite
    · cases hx
  change (_ && _ && _ && _ && _ && _ && _ && _ && _ && thresholdEq _ _) = true
  simp only [htemperature, pyEq_refl, Bool.and_self]

/-- The next attempt is at the cursors, while there are tasks and too few were accepted. -/
theorem next_some {plan : FewshotCandidatePlan F} {state : BootstrapCompilerState F} {i r : Nat}
    (hplan : state.planIdentityHash = plan.identityHash) (hi : state.taskCursor = i)
    (hr : state.roundCursor = r) {taskHash : String}
    (h : plan.trainsetTaskHashes[i]? = some taskHash)
    (hfew : (state.bootstrappedTaskIndices.length : Int) < plan.maxBootstrappedDemos) :
    nextBootstrapAttemptUnchecked plan state = .ok (some (attemptAt plan h r)) := by
  have hrounds := plan.maxRounds_pos
  have hmade := AttemptFields.modelValidate_ok (attemptFields_valid plan h r)
  rw [nextBootstrapAttemptUnchecked, if_neg (by omega), hi, h, hplan, hr]
  exact congrArg (Except.map some) hmade

end Attempts

/-! ### The steps of a component, and its demonstration -/

def stepsOf (componentId : String) (steps : List ObservedTraceStep) : List ObservedTraceStep :=
  steps.filter fun step => step.componentId = some componentId

theorem groupSteps_get? (componentIds : List String) (steps : List ObservedTraceStep)
    (grouped : Dict String (List ObservedTraceStep)) (componentId : String) :
    (groupSteps componentIds steps grouped).get? componentId =
      if componentId ∈ componentIds ∧ stepsOf componentId steps ≠ [] then
        some ((grouped.get? componentId).getD [] ++ stepsOf componentId steps)
      else grouped.get? componentId := by
  induction steps generalizing grouped with
  | nil => simp [groupSteps, stepsOf]
  | cons step rest ih =>
    rw [groupSteps]
    cases hcomponent : step.componentId with
    | none =>
      have hskip : stepsOf componentId (step :: rest) = stepsOf componentId rest := by
        simp [stepsOf, hcomponent]
      rw [hskip]
      exact ih grouped
    | some other =>
      by_cases hsame : other = componentId
      · subst hsame
        have htake : stepsOf other (step :: rest) = step :: stepsOf other rest := by
          simp [stepsOf, hcomponent]
        rw [htake]
        by_cases hknown : other ∈ componentIds
        · simp only [hknown, if_true, ih, Dict.get?_set_self]
          by_cases hrest : stepsOf other rest = []
          · simp [hrest]
          · simp [hrest]
        · simp [hknown, ih]
      · have hskip : stepsOf componentId (step :: rest) = stepsOf componentId rest := by
          simp [stepsOf, hcomponent, hsame]
        rw [hskip]
        by_cases hknown : other ∈ componentIds
        · have hother := Dict.get?_set_ne grouped other componentId
            ((grouped.get? other).getD [] ++ [step]) (Ne.symm hsame)
          simp only [hknown, if_true, ih, hother]
        · simp only [hknown, if_false, ih]

/-- The groups are the steps of the known components that have any. -/
theorem mem_groups {componentIds : List String} {steps : List ObservedTraceStep}
    (componentId : String) (group : List ObservedTraceStep) :
    (componentId, group) ∈ (groupSteps componentIds steps Dict.empty).pairs ↔
      componentId ∈ componentIds ∧ stepsOf componentId steps ≠ [] ∧
        group = stepsOf componentId steps := by
  rw [← Dict.get?_eq_some_iff, groupSteps_get?, Dict.get?_empty, Option.getD_none,
    List.nil_append]
  by_cases hgroup : componentId ∈ componentIds ∧ stepsOf componentId steps ≠ []
  · rw [if_pos hgroup, Option.some_inj, eq_comm]
    exact ⟨fun heq => ⟨hgroup.1, hgroup.2, heq⟩, fun h => h.2.2⟩
  · rw [if_neg hgroup]
    exact ⟨fun h => absurd h (by simp), fun h => absurd ⟨h.1, h.2.1⟩ hgroup⟩

/-! ### The step that a component is shown -/

def reservedName (step : ObservedTraceStep) : Bool :=
  "augmented" ∈ fieldNames (step.inputs ++ step.outputs) ∨
    "self" ∈ fieldNames (step.inputs ++ step.outputs)

/- Several steps, of which one has a field whose name the example takes for itself. -/
def collides (steps : List ObservedTraceStep) : Bool :=
  1 < steps.length ∧ steps.any reservedName

theorem exampleOf_ok {step : ObservedTraceStep} (h : reservedName step = false) :
    exampleOf step = .ok (step.inputs ++ step.outputs) := by
  simp only [reservedName, decide_eq_false_iff_not, not_or] at h
  simp only [exampleOf, raiseIf_bind_eq_ok]
  exact ⟨h.1, h.2, rfl⟩

theorem exampleOf_not_ok {step : ObservedTraceStep} (h : reservedName step = true)
    (fields : List (String × Json)) : exampleOf step ≠ .ok fields := by
  intro hread
  simp only [exampleOf, raiseIf_bind_eq_ok] at hread
  simp only [reservedName, decide_eq_true_eq] at h
  rcases h with haugmented | hself
  · exact hread.1 haugmented
  · exact hread.2.1 hself

section Choice

variable [TraceChoice]

/- The only step, or the one that the draw points at. -/
def chosenStep : List ObservedTraceStep → Option ObservedTraceStep
  | [] => none
  | [step] => some step
  | steps => steps[TraceChoice.position (steps.map fun step => step.inputs ++ step.outputs)]?

/-- Without a reserved name among several steps, one of the steps is chosen. -/
theorem chooseTraceStep_ok {steps : List ObservedTraceStep} (hsteps : steps ≠ [])
    (h : collides steps = false) :
    ∃ chosen ∈ steps, chooseTraceStep steps = .ok chosen ∧ chosenStep steps = some chosen := by
  cases steps with
  | nil => exact absurd rfl hsteps
  | cons first rest =>
    cases rest with
    | nil => exact ⟨first, List.mem_singleton_self first, rfl, rfl⟩
    | cons second rest =>
      have hnames : ∀ step ∈ first :: second :: rest, reservedName step = false := by
        simpa [collides] using h
      have hexamples := mapM_ok exampleOf (fun step => step.inputs ++ step.outputs)
        (first :: second :: rest) fun step hmem => exampleOf_ok (hnames step hmem)
      have hlt := TraceChoice.position_lt
        ((first :: second :: rest).map fun step => step.inputs ++ step.outputs) (by simp)
      rw [List.length_map] at hlt
      have hget := List.getElem?_eq_getElem hlt
      refine ⟨_, List.getElem_mem hlt, ?_, hget⟩
      simp only [chooseTraceStep, hexamples, ok_bind, hget, pure, Except.pure]

/-- With one, the examples cannot be made. -/
theorem chooseTraceStep_not_ok {steps : List ObservedTraceStep} (h : collides steps = true)
    (chosen : ObservedTraceStep) : chooseTraceStep steps ≠ .ok chosen := by
  simp only [collides, decide_eq_true_eq, List.any_eq_true] at h
  obtain ⟨hmany,step,hmem,hname⟩ := h
  intro hchosen
  cases steps with
  | nil => cases hmem
  | cons first rest =>
    cases rest with
    | nil => simp at hmany
    | cons second rest =>
      obtain ⟨examples,hexamples,_⟩ := (bind_eq_ok _ _ _).mp hchosen
      obtain ⟨fields,hfields⟩ := mapM_mem_ok hexamples step hmem
      exact exampleOf_not_ok hname fields hfields

end Choice

section Filed

variable {F : Type} [FiniteFloats F]

/-- Every component of the plan has its demonstrations, and no other has any. -/
structure Filed (componentIds : List String) (augmented : Dict String (List (ComponentDemo F))) :
    Prop where
  keys : ∀ componentId, augmented.get? componentId = none ↔ componentId ∉ componentIds
  own : ∀ componentId demos, augmented.get? componentId = some demos →
    ∀ demo ∈ demos, demo.componentId = componentId

theorem noDemos_get? (componentIds : List String) (componentId : String) :
    (noDemos componentIds : Dict String (List (ComponentDemo F))).get? componentId =
      if componentId ∈ componentIds then some [] else none := by
  have hkeys : (componentIds.map fun componentId =>
      (componentId, ([] : List (ComponentDemo F)))).map Prod.fst = componentIds := by
    rw [List.map_map]
    exact List.map_id _
  cases hget : (noDemos componentIds : Dict String (List (ComponentDemo F))).get? componentId with
  | none =>
    have habsent := (Dict.get?_ofPairs_eq_none_iff _ componentId).mp hget
    rw [hkeys] at habsent
    rw [if_neg habsent]
  | some demos =>
    obtain ⟨known,hknown,hpair⟩ := List.mem_map.mp (Dict.mem_of_get?_ofPairs _ _ _ hget)
    cases hpair
    rw [if_pos hknown]

theorem filed_noDemos (componentIds : List String) :
    Filed componentIds (noDemos componentIds : Dict String (List (ComponentDemo F))) := by
  constructor
  · intro componentId
    rw [noDemos_get?]
    by_cases hknown : componentId ∈ componentIds <;> simp [hknown]
  · intro componentId demos hget
    rw [noDemos_get?] at hget
    split at hget
    · cases hget
      exact fun _ hmem => absurd hmem List.not_mem_nil
    · cases hget

end Filed

section Demos

variable {F : Type} [FiniteFloats F] [FloatJson F] [IdentityHasher]
variable {event : EvidenceFields F} {acceptance : BootstrapAcceptance F}

/-- A step of a completed result is a valid demonstration. -/
theorem bootstrappedDemo_ok [FullHashes] {componentId : String} {chosen : ObservedTraceStep}
    (h : chosen.componentId = some componentId) :
    ∃ demo, bootstrappedDemo event acceptance componentId chosen = .ok demo := by
  have hstep := chosen.valid
  simp only [TraceFields.validate, raiseIf_bind_eq_ok] at hstep
  obtain ⟨hindex,hnamed,hdisjoint⟩ := hstep
  have hattempt := event.attempt.valid
  simp only [AttemptFields.validate, check_bind_eq_ok] at hattempt
  have hresult := event.result.valid
  simp only [ResultFields.validate, check_bind_eq_ok] at hresult
  have hname : componentId ≠ "" := by
    rintro rfl
    exact hnamed h
  have haccepted : requireFullHash acceptance.identityHash "acceptance_identity_hash" = .ok () :=
    FullHashes.full _ _ _ _
  refine ⟨_, DemoFields.modelValidate_ok ?_⟩
  simp only [DemoFields.validate, DemoFields.requireKind, check_bind_eq_ok, raiseIf_eq_ok]
  refine ⟨hname, requireFullHash_field hattempt.2.1 _, hresult.2.1, haccepted, ?_, ?_, hdisjoint⟩
  · simpa using hindex
  · exact ⟨by simp, by simp⟩

variable [TraceChoice]

/- The demonstration that the steps of a component give. -/
def demoFor (event : EvidenceFields F) (acceptance : BootstrapAcceptance F) (componentId : String)
    (steps : List ObservedTraceStep) : Except String (ComponentDemo F) := do
  let chosen ← chooseTraceStep steps
  bootstrappedDemo event acceptance componentId chosen

theorem addDemos_cons (componentId : String) (steps : List ObservedTraceStep)
    (rest : List (String × List ObservedTraceStep))
    (augmented : Dict String (List (ComponentDemo F))) :
    addDemos event acceptance ((componentId, steps) :: rest) augmented = (do
      let demo ← demoFor event acceptance componentId steps
      addDemos event acceptance rest
        (augmented.set componentId ((augmented.get? componentId).getD [] ++ [demo]))) := by
  rw [addDemos, demoFor]
  cases chooseTraceStep steps <;> rfl

theorem addDemos_ok {pairs : List (String × List ObservedTraceStep)}
    (h : ∀ pair ∈ pairs, ∃ demo, demoFor event acceptance pair.1 pair.2 = .ok demo)
    (augmented : Dict String (List (ComponentDemo F))) :
    ∃ next, addDemos event acceptance pairs augmented = .ok next := by
  induction pairs generalizing augmented with
  | nil => exact ⟨augmented, rfl⟩
  | cons pair rest ih =>
    obtain ⟨hfirst,hrest⟩ := List.forall_mem_cons.mp h
    obtain ⟨demo,hdemo⟩ := hfirst
    rw [addDemos_cons, hdemo, ok_bind]
    exact ih hrest _

/-- Each group adds one demonstration under its component. -/
theorem addDemos_get? {pairs : List (String × List ObservedTraceStep)}
    (hnodup : (pairs.map Prod.fst).Nodup) {augmented next : Dict String (List (ComponentDemo F))}
    (h : addDemos event acceptance pairs augmented = .ok next) (componentId : String) :
    (∀ steps, (componentId, steps) ∈ pairs → ∃ demo,
      demoFor event acceptance componentId steps = .ok demo ∧
      next.get? componentId = some ((augmented.get? componentId).getD [] ++ [demo])) ∧
    (componentId ∉ pairs.map Prod.fst → next.get? componentId = augmented.get? componentId) := by
  induction pairs generalizing augmented with
  | nil =>
    cases h
    exact ⟨fun _ hmem => absurd hmem List.not_mem_nil, fun _ => rfl⟩
  | cons pair rest ih =>
    obtain ⟨first,firstSteps⟩ := pair
    rw [addDemos_cons, bind_eq_ok] at h
    obtain ⟨demo,hdemo,h⟩ := h
    rw [List.map_cons, List.nodup_cons] at hnodup
    obtain ⟨hmade,hkept⟩ := ih hnodup.2 h
    constructor
    · intro steps hmem
      rcases List.mem_cons.mp hmem with hfirst | hrest
      · cases hfirst
        refine ⟨demo, hdemo, ?_⟩
        rw [hkept hnodup.1, Dict.get?_set_self]
      · obtain ⟨later,hlater,hnext⟩ := hmade steps hrest
        have hne : componentId ≠ first := fun heq =>
          hnodup.1 (heq ▸ List.mem_map.mpr ⟨_, hrest, rfl⟩)
        rw [Dict.get?_set_ne _ _ _ _ hne] at hnext
        exact ⟨later, hlater, hnext⟩
    · intro habsent
      rw [List.map_cons, List.mem_cons, not_or] at habsent
      rw [hkept habsent.2, Dict.get?_set_ne _ _ _ _ habsent.1]

theorem demoFor_component {componentId : String} {steps : List ObservedTraceStep}
    {demo : ComponentDemo F} (h : demoFor event acceptance componentId steps = .ok demo) :
    demo.componentId = componentId := by
  obtain ⟨chosen,_,hdemo⟩ := (bind_eq_ok _ _ _).mp h
  exact congrArg DemoFields.componentId (DemoFields.modelValidate_eq hdemo)

/-- A component with steps gains its demonstration, every other keeps what it has. -/
theorem addGroups_get? {componentIds : List String} {steps : List ObservedTraceStep}
    {augmented next : Dict String (List (ComponentDemo F))}
    (h : addDemos event acceptance (groupSteps componentIds steps Dict.empty).pairs augmented =
      .ok next) (componentId : String) :
    (componentId ∈ componentIds → stepsOf componentId steps ≠ [] → ∃ demo,
      demoFor event acceptance componentId (stepsOf componentId steps) = .ok demo ∧
      next.get? componentId = some ((augmented.get? componentId).getD [] ++ [demo])) ∧
    (componentId ∉ componentIds ∨ stepsOf componentId steps = [] →
      next.get? componentId = augmented.get? componentId) := by
  obtain ⟨hmade,hkept⟩ := addDemos_get? (Dict.nodup _) h componentId
  constructor
  · intro hknown hsteps
    exact hmade _ ((mem_groups componentId _).mpr ⟨hknown, hsteps, rfl⟩)
  · intro hother
    refine hkept fun hmem => ?_
    obtain ⟨⟨_,group⟩,hpair,rfl⟩ := List.mem_map.mp hmem
    obtain ⟨hknown,hsteps,_⟩ := (mem_groups _ _).mp hpair
    rcases hother with habsent | hempty
    · exact habsent hknown
    · exact hsteps hempty

theorem Filed.addGroups {componentIds : List String} {steps : List ObservedTraceStep}
    {augmented next : Dict String (List (ComponentDemo F))} (hfiled : Filed componentIds augmented)
    (h : addDemos event acceptance (groupSteps componentIds steps Dict.empty).pairs augmented =
      .ok next) : Filed componentIds next := by
  refine ⟨fun componentId => ?_, fun componentId demos hget demo hmem => ?_⟩
  · obtain ⟨hmade,hkept⟩ := addGroups_get? h componentId
    by_cases hadded : componentId ∈ componentIds ∧ stepsOf componentId steps ≠ []
    · obtain ⟨demo,_,hnext⟩ := hmade hadded.1 hadded.2
      rw [hnext]
      exact ⟨fun heq => absurd heq (by simp), fun habsent => absurd hadded.1 habsent⟩
    · rw [hkept (by tauto)]
      exact hfiled.keys componentId
  · obtain ⟨hmade,hkept⟩ := addGroups_get? h componentId
    have hold : ∀ demo ∈ (augmented.get? componentId).getD [], demo.componentId = componentId := by
      cases hprior : augmented.get? componentId with
      | none => exact fun _ hin => absurd hin List.not_mem_nil
      | some prior => exact hfiled.own componentId prior hprior
    by_cases hadded : componentId ∈ componentIds ∧ stepsOf componentId steps ≠ []
    · obtain ⟨added,hadd,hnext⟩ := hmade hadded.1 hadded.2
      rw [hnext, Option.some_inj] at hget
      subst hget
      rcases List.mem_append.mp hmem with hin | hnew
      · exact hold demo hin
      · rw [List.mem_singleton.mp hnew]
        exact demoFor_component hadd
    · rw [hkept (by tauto)] at hget
      exact hfiled.own componentId demos hget demo hmem

theorem demoFor_ok [FullHashes] {componentId : String} {steps : List ObservedTraceStep}
    (hsteps : stepsOf componentId steps ≠ [])
    (hclear : collides (stepsOf componentId steps) = false) :
    ∃ demo, demoFor event acceptance componentId (stepsOf componentId steps) = .ok demo := by
  obtain ⟨chosen,hmem,hchosen,_⟩ := chooseTraceStep_ok hsteps hclear
  have hown : chosen.componentId = some componentId := by
    simpa using (List.mem_filter.mp hmem).2
  rw [demoFor, hchosen, ok_bind]
  exact bootstrappedDemo_ok hown

/-- The groups are added unless one of them collides. -/
theorem addGroups_ok [FullHashes] (event : EvidenceFields F)
    (acceptance : BootstrapAcceptance F) {componentIds : List String}
    {steps : List ObservedTraceStep}
    (h : ∀ componentId ∈ componentIds, collides (stepsOf componentId steps) = false)
    (augmented : Dict String (List (ComponentDemo F))) :
    ∃ next, addDemos event acceptance (groupSteps componentIds steps Dict.empty).pairs augmented =
      .ok next := by
  refine addDemos_ok (fun pair hmem => ?_) augmented
  obtain ⟨componentId,group⟩ := pair
  obtain ⟨hknown,hsteps,rfl⟩ := (mem_groups componentId group).mp hmem
  exact demoFor_ok hsteps (h componentId hknown)

theorem addGroups_not_ok (event : EvidenceFields F) (acceptance : BootstrapAcceptance F)
    {componentIds : List String} {steps : List ObservedTraceStep}
    {componentId : String} (hknown : componentId ∈ componentIds)
    (hcollides : collides (stepsOf componentId steps) = true)
    (augmented next : Dict String (List (ComponentDemo F))) :
    addDemos event acceptance (groupSteps componentIds steps Dict.empty).pairs augmented ≠
      .ok next := by
  intro hadded
  have hsteps : stepsOf componentId steps ≠ [] := by
    rintro hempty
    rw [hempty] at hcollides
    cases hcollides
  obtain ⟨demo,hdemo,_⟩ := (addGroups_get? hadded componentId).1 hknown hsteps
  obtain ⟨chosen,hchosen,_⟩ := (bind_eq_ok _ _ _).mp hdemo
  exact chooseTraceStep_not_ok hcollides chosen hchosen

end Demos

/-! ### What an event does to a state -/

section Events

variable {F : Type} [FiniteFloats F] [FloatJson F] [IdentityHasher]

/- The state after an attempt that failed. -/
def failedState (state : BootstrapCompilerState F) (event : BootstrapFoldEvidence F) :
    BootstrapCompilerState F :=
  { state with
    errorCount := state.errorCount + 1, attemptCount := state.attemptCount + 1
    evidence := state.evidence ++ [event] }

theorem applyError_below {plan : FewshotCandidatePlan F} {state : BootstrapCompilerState F}
    (h : ¬ plan.maxErrors ≤ ((state.errorCount + 1 : Nat) : Int)) (event : BootstrapFoldEvidence F)
    (error : String) : applyError plan state event error =
      .ok (advanceState plan (failedState state event) false) := if_neg h

theorem applyError_limit [FullHashes] {plan : FewshotCandidatePlan F}
    {state : BootstrapCompilerState F} (h : plan.maxErrors ≤ ((state.errorCount + 1 : Nat) : Int))
    {event : BootstrapFoldEvidence F} {error : String} (herror : event.result.error = some error) :
    ∃ failure, applyError plan state event error =
      .ok { failedState state event with terminalFailure := some failure } := by
  have hresult := event.result.valid
  simp only [ResultFields.validate, ResultFields.requireOutcome, herror, check_bind_eq_ok,
    raiseIf_eq_ok] at hresult
  have hvalid : (⟨event.attempt.identityHash, state.errorCount + 1, plan.maxErrors, error⟩ :
      TerminalFields).validate = .ok () := by
    have hfull : requireFullHash event.attempt.identityHash "attempt_identity_hash" = .ok () :=
      FullHashes.full _ _ _ _
    rw [TerminalFields.validate, hfull, ok_bind, raiseIf_eq_ok, not_or]
    exact ⟨by simpa using h, hresult.2.2.1⟩
  refine ⟨⟨_, hvalid⟩, ?_⟩
  simp only [applyError, h, if_true, TerminalFields.modelValidate_ok hvalid, ok_bind]
  rfl

theorem advanceState_eq (plan : FewshotCandidatePlan F) (state : BootstrapCompilerState F)
    (success : Bool) : ∃ task round, advanceState plan state success =
      { state with taskCursor := task, roundCursor := round } := by
  rw [advanceState]
  split
  · exact ⟨state.taskCursor + 1, 0, rfl⟩
  · exact ⟨state.taskCursor, state.roundCursor + 1, rfl⟩

theorem initialCompilerState_ok [FullHashes] {plan : FewshotCandidatePlan F}
    (hkind : plan.kind = .bootstrap) :
    initialCompilerState plan = .ok (emptyCompilerState plan) := by
  have hfull : requireFullHash plan.identityHash "plan_identity_hash" = .ok () :=
    FullHashes.full _ _ _ _
  have hvalid : (emptyCompilerState plan).validate = .ok () := by
    simp [BootstrapCompilerState.validate, emptyCompilerState, hfull]
  simp only [initialCompilerState, hkind, hvalid, ne_eq, not_true_eq_false, raiseIf, if_false,
    ok_bind]
  rfl

/-- The evidence of an attempt and its result, which the plan's threshold accepts or not. -/
theorem evidence_ok [LawfulEq F] {attempt : BootstrapAttemptPlan F}
    {result : BootstrapGenerationResult F} (plan : FewshotCandidatePlan F) (hhash : result.attemptIdentityHash = attempt.identityHash) :
    ∃ event : BootstrapFoldEvidence F, event.attempt = attempt ∧ event.result = result ∧
      (result.error.isSome → event.acceptance = none) ∧
      (result.error = none → ∃ acceptance, event.acceptance = some acceptance ∧
        acceptance.accepted = accepts plan.metricThreshold result.toResultFields ∧
        acceptanceFor attempt result.toResultFields plan.metricThreshold = .ok acceptance) := by
  cases herror : result.error with
  | some error =>
    have hvalid : (⟨attempt, result, none⟩ : EvidenceFields F).validate = .ok () := by
      simp [EvidenceFields.validate, hhash, herror]
    exact ⟨⟨_, hvalid⟩, rfl, rfl, fun _ => rfl, fun h => absurd h (by simp)⟩
  | none =>
    obtain ⟨acceptance,hacceptance,haccepted,hagain⟩ :=
      acceptanceFor_ok attempt result herror plan.threshold_finite
    have hvalid : (⟨attempt, result, some acceptance⟩ : EvidenceFields F).validate = .ok () := by
      simp [EvidenceFields.validate, hhash, herror, hagain, pyEq_refl]
    exact ⟨⟨_, hvalid⟩, rfl, rfl, fun h => absurd h (by simp),
      fun _ => ⟨acceptance, rfl, haccepted, hacceptance⟩⟩

variable [TraceChoice] {plan : FewshotCandidatePlan F} {state next : BootstrapCompilerState F}
variable {event : BootstrapFoldEvidence F}

/-- An event is recorded, and leaves the demonstrations where they are filed. -/
theorem applied_keeps (h : applyBootstrapEventUnchecked plan state event = .ok next) :
    next.planIdentityHash = state.planIdentityHash ∧ next.evidence = state.evidence ++ [event] ∧
      (Filed plan.componentIds state.augmentedDemos →
        Filed plan.componentIds next.augmentedDemos) := by
  unfold applyBootstrapEventUnchecked at h
  split at h
  · simp only [applyError] at h
    split at h
    · simp only [bind_eq_ok, pure, Except.pure, Except.ok.injEq] at h
      obtain ⟨failure,_,rfl⟩ := h
      exact ⟨rfl, rfl, id⟩
    · cases h
      obtain ⟨task,round,heq⟩ := advanceState_eq plan _ false
      rw [heq]
      exact ⟨rfl, rfl, id⟩
  · cases h
  · split at h
    · simp only [applyAcceptance, bind_eq_ok, pure, Except.pure, Except.ok.injEq] at h
      obtain ⟨augmented,hadded,rfl⟩ := h
      obtain ⟨task,round,heq⟩ := advanceState_eq plan _ true
      rw [heq]
      exact ⟨rfl, rfl, fun hfiled => hfiled.addGroups hadded⟩
    · cases h
      obtain ⟨task,round,heq⟩ := advanceState_eq plan _ false
      rw [applyRejection, heq]
      exact ⟨rfl, rfl, id⟩

theorem replayEvidence_append (events : List (BootstrapFoldEvidence F))
    (last : BootstrapFoldEvidence F) (replay : BootstrapCompilerState F) :
    replayEvidence plan (events ++ [last]) replay =
      (do
        let passed ← replayEvidence plan events replay
        replayEvent plan passed last) := by
  induction events generalizing replay with
  | nil =>
    rw [List.nil_append, replayEvidence, replayEvidence, ok_bind]
    cases replayEvent plan replay last <;> rfl
  | cons event rest ih =>
    simp only [List.cons_append, replayEvidence, bind_assoc, ih]

/-- A state that its evidence gives again. -/
structure Replayed (plan : FewshotCandidatePlan F) (state : BootstrapCompilerState F) : Prop where
  plan_hash : state.planIdentityHash = plan.identityHash
  filed : Filed plan.componentIds state.augmentedDemos
  attempts : ∀ event ∈ state.evidence, pyEq event.attempt event.attempt = true
  replays : replayEvidence plan state.evidence (emptyCompilerState plan) = .ok state

theorem replayed_empty : Replayed plan (emptyCompilerState plan) where
  plan_hash := rfl
  filed := filed_noDemos plan.componentIds
  attempts := fun _ hmem => absurd hmem List.not_mem_nil
  replays := rfl

/-- The validation accepts a state that its evidence gives again. -/
theorem Replayed.valid [LawfulEq F] (h : Replayed plan state) (hkind : plan.kind = .bootstrap) :
    validateStateForPlan plan state = .ok () := by
  have hsame := state.eqWith_refl dumpEq_refl h.attempts
  have hkeys : ∀ componentId, componentId ∈ state.augmentedDemos.keys ↔
      componentId ∈ plan.componentIds := by
    intro componentId
    rw [← not_iff_not, ← h.filed.keys componentId, Dict.get?_eq_none_iff]
    exact Iff.rfl
  have hown : ∀ pair ∈ state.augmentedDemos.pairs, ∀ demo ∈ pair.2, demo.componentId = pair.1 :=
    fun pair hmem => h.filed.own pair.1 pair.2 ((Dict.get?_eq_some_iff _ _ _).mpr hmem)
  simp only [validateStateForPlan, raiseIf_bind_eq_ok, h.replays, ok_bind, raiseIf_eq_ok, not_not]
  refine ⟨hkind, h.plan_hash, ?_, ?_, ?_⟩
  · exact ⟨fun c hmem => (hkeys c).mp hmem, fun c hmem => (hkeys c).mpr hmem⟩
  · simpa using hown
  · simp [hsame]

variable [LawfulEq F]

/-- A fold at a state that its evidence gives again: the next state is such a state as well. -/
theorem fold_step {attempt : BootstrapAttemptPlan F} {result : BootstrapGenerationResult F}
    (hkind : plan.kind = .bootstrap) (h : Replayed plan state)
    (hterminal : state.terminalFailure = none)
    (hnext : nextBootstrapAttemptUnchecked plan state = .ok (some attempt))
    (hself : pyEq attempt attempt = true)
    (hhash : result.attemptIdentityHash = attempt.identityHash) :
    ∃ event : BootstrapFoldEvidence F, event.attempt = attempt ∧ event.result = result ∧
      (result.error = none → ∃ acceptance, event.acceptance = some acceptance ∧
        acceptance.accepted = accepts plan.metricThreshold result.toResultFields ∧
        acceptanceFor attempt result.toResultFields plan.metricThreshold = .ok acceptance) ∧
      (∀ next, applyBootstrapEventUnchecked plan state event = .ok next → Replayed plan next ∧
        foldBootstrapResult plan state attempt result plan.metricThreshold plan.componentIds =
          .ok next) ∧
      (∀ message, applyBootstrapEventUnchecked plan state event = .error message →
        foldBootstrapResult plan state attempt result plan.metricThreshold plan.componentIds =
          .error message) := by
  obtain ⟨event,hattempt,hresult,hfailed,haccepted⟩ := evidence_ok plan hhash
  have hthreshold : thresholdEq plan.metricThreshold plan.metricThreshold = true :=
    thresholdEq_self plan.threshold_finite
  have hfold : foldBootstrapResult plan state attempt result plan.metricThreshold
      plan.componentIds = (do
        let advanced ← applyBootstrapEventUnchecked plan state event
        validateStateForPlan plan advanced
        return advanced) := by
    subst hattempt hresult
    have hevent : (⟨event.attempt, event.result, event.acceptance⟩ :
        EvidenceFields F).modelValidate = .ok event :=
      EvidenceFields.modelValidate_ok event.valid
    simp only [foldBootstrapResult, h.valid hkind, ok_bind, raiseIf, ne_eq, not_true_eq_false,
      if_false, hthreshold, hnext, Option.any_some, hself, hhash, Bool.true_eq_false]
    cases herror : event.result.error with
    | some error =>
      rw [hfailed (by rw [herror]; rfl)] at hevent
      simp only [ok_bind, hevent]
    | none =>
      obtain ⟨acceptance,hacceptance,_,hmade⟩ := haccepted herror
      rw [hacceptance] at hevent
      simp only [hmade, Except.map, ok_bind, hevent]
  have hreplay : replayEvent plan state event = applyBootstrapEventUnchecked plan state event := by
    subst hattempt hresult
    simp only [replayEvent, hterminal, Option.isSome_none, Bool.false_eq_true, raiseIf, if_false,
      ok_bind, hnext, hself, hhash, ne_eq, not_true_eq_false, Bool.true_eq_false]
    cases herror : event.result.error with
    | some error =>
      simp only [hfailed (by rw [herror]; rfl), Option.isNone_some, Option.isSome_none,
        Bool.false_eq_true, if_false, ok_bind]
    | none =>
      obtain ⟨acceptance,hacceptance,_,hmade⟩ := haccepted herror
      simp only [hmade, hacceptance, Option.isNone_none, if_true, ok_bind, pyEq_refl,
        Bool.true_eq_false, if_false]
  refine ⟨event, hattempt, hresult, haccepted, fun next happly => ?_, fun message happly => ?_⟩
  · obtain ⟨hplan,hevidence,hfiled⟩ := applied_keeps happly
    have hreplayed : Replayed plan next := by
      refine ⟨hplan.trans h.plan_hash, hfiled h.filed, fun past hmem => ?_, ?_⟩
      · rw [hevidence, List.mem_append, List.mem_singleton] at hmem
        rcases hmem with hold | rfl
        · exact h.attempts past hold
        · rw [hattempt]
          exact hself
      · rw [hevidence, replayEvidence_append, h.replays, ok_bind, hreplay, happly]
    refine ⟨hreplayed, ?_⟩
    rw [hfold, happly, ok_bind, hreplayed.valid hkind]
    rfl
  · rw [hfold, happly]
    rfl

end Events

end Whetstone.Optim.Miprov2
