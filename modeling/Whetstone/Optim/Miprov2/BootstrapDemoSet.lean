import Whetstone.Optim.Miprov2.BootstrapLoop
import Whetstone.Optim.Miprov2.BootstrapTeacher

/-! The demonstrations of a compiled bootstrap candidate, and the whole of its compilation: the
compiler does what the nested loop does unless a result collides. -/
namespace Whetstone.Optim.Miprov2
open Whetstone.Core Whetstone.Lib

/-! ### Drawn items -/

section Draws

variable {α β : Type}

theorem takePositions_map (f : α → β) (items : List α) (positions : List Nat) :
    (takePositions items positions).map f = takePositions (items.map f) positions := by
  rw [takePositions, takePositions, List.map_filterMap]
  congr 1
  funext position
  rw [List.getElem?_map]

theorem takePositions_subset (items : List α) (positions : List Nat) :
    takePositions items positions ⊆ items := by
  intro item hmem
  obtain ⟨position,_,hitem⟩ := List.mem_filterMap.mp hmem
  exact List.mem_of_getElem? hitem

theorem takePositions_nodup {items : List α} (hitems : items.Nodup) {positions : List Nat}
    (h : positions.Nodup) : (takePositions items positions).Nodup := by
  refine h.filterMap fun a b item ha hb => ?_
  have hlt : a < items.length := (List.getElem?_eq_some_iff.mp ha).1
  exact (List.getElem?_inj hlt hitems).mp (ha.trans hb.symm)

variable [RandomDraws]

/-- A sample takes some of the items, each at most once. -/
theorem sampleList_ok {rng : RandomSample.Rng} {items : List α} {count : Nat}
    {sampled : List α × RandomSample.Rng} (h : sampleList rng items count = .ok sampled) :
    sampled.1 ⊆ items ∧ sampled.1.length ≤ count ∧
      ∀ f : α → β, (items.map f).Nodup → (sampled.1.map f).Nodup := by
  simp only [sampleList, bind_eq_ok, pure, Except.pure, Except.ok.injEq] at h
  obtain ⟨drawn,hdrawn,rfl⟩ := h
  have hlength := sampleRange_length hdrawn
  simp only [sampleRange, raiseIf_bind_eq_ok, pure, Except.pure, Except.ok.injEq,
    not_lt] at hdrawn
  obtain ⟨hfits,rfl⟩ := hdrawn
  refine ⟨takePositions_subset _ _, ?_, fun f hitems => ?_⟩
  · exact (List.length_filterMap_le _ _).trans hlength.le
  · rw [takePositions_map]
    exact takePositions_nodup hitems (RandomDraws.sample_nodup rng _ count hfits)

end Draws

/-! ### The demonstrations of a component -/

section Demos

variable {F : Type} [FiniteFloats F] [FloatJson F] [IdentityHasher] [FullHashes] [LawfulEq F]
variable {plan : FewshotCandidatePlan F} {results : ResultsOf F}

theorem MadeOf.task {componentId : String} {demo : ComponentDemo F}
    {shown : (Nat × Nat) × ObservedTraceStep} (h : MadeOf plan results componentId demo shown) :
    plan.trainsetTaskHashes[shown.1.1]? = some demo.sourceTaskHash := by
  obtain ⟨taskHash,htask,acceptance,_,hdemo⟩ := h
  have hsame := congrArg DemoFields.sourceTaskHash (DemoFields.modelValidate_eq hdemo)
  rw [htask, hsame]
  rfl

/-- The demonstrations of a component are of the tasks of its steps, in their order. -/
theorem made_tasks {componentId : String} {demos : List (ComponentDemo F)}
    {shown : List ((Nat × Nat) × ObservedTraceStep)}
    (h : List.Forall₂ (MadeOf plan results componentId) demos shown) :
    demos.map (fun demo => demo.sourceTaskHash) =
      takePositions plan.trainsetTaskHashes (shown.map fun entry => entry.1.1) := by
  induction h with
  | nil => rfl
  | cons hfirst _ ih =>
    rw [List.map_cons, List.map_cons, takePositions, List.filterMap_cons, hfirst.task, ih]
    rfl

variable [TraceChoice]

/- No task that was accepted. -/
def Unused (plan : FewshotCandidatePlan F) (accepted : List Nat) (taskHash : String) : Prop :=
  ∀ i ∈ accepted, plan.trainsetTaskHashes[i]? ≠ some taskHash

theorem Reached.augmented {state : BootstrapCompilerState F} (h : Reached plan results state)
    (hdistinct : plan.trainsetTaskHashes.Nodup) {componentId : String}
    (hknown : componentId ∈ plan.componentIds) :
    (((state.augmentedDemos.get? componentId).getD []).map fun demo =>
        demo.sourceTaskHash).Nodup ∧
      ∀ demo ∈ (state.augmentedDemos.get? componentId).getD [],
        ¬ Unused plan state.bootstrappedTaskIndices demo.sourceTaskHash := by
  obtain ⟨s,hagrees,hordered⟩ := h
  have htasks := made_tasks (hagrees.demos componentId hknown)
  have hsublist := shownSteps_sublist results componentId s.accepted
  constructor
  · rw [htasks]
    refine takePositions_nodup hdistinct (List.Nodup.sublist hsublist ?_)
    exact hordered.ordered.imp fun hlt => Nat.ne_of_lt hlt
  · intro demo hmem hunused
    have hshown : demo.sourceTaskHash ∈ takePositions plan.trainsetTaskHashes
        ((shownSteps results componentId s.accepted).map fun entry => entry.1.1) := by
      rw [← htasks]
      exact List.mem_map_of_mem hmem
    obtain ⟨i,hi,htask⟩ := List.mem_filterMap.mp hshown
    exact hunused i (hagrees.accepted ▸ hsublist.subset hi) htask

end Demos

/-! ### The demonstration set -/

section DemoSet

variable {F : Type} [FiniteFloats F] {plan : FewshotCandidatePlan F}

theorem FewshotCandidatePlan.maxBootstrapped_nonneg (plan : FewshotCandidatePlan F) :
    0 ≤ plan.maxBootstrappedDemos := by
  have h := plan.valid
  simp only [PlanFields.validate, requireCaps, check_bind_eq_ok, raiseIf_eq_ok] at h
  omega

/- What holds of the demonstrations that a component is shown. -/
def Fits (plan : FewshotCandidatePlan F) (sequence : ComponentDemoSequence F) : Prop :=
  (sequence.demos.length : Int) ≤ max plan.maxBootstrappedDemos plan.maxLabeledDemos ∧
    (sequence.demos.map fun demo => demo.sourceTaskHash).Nodup

/-- The labeled tasks that were not accepted are distinct. -/
theorem validationTasks_unused {labeledTrainset : List LabeledTaskDemo}
    (horder : labeledTrainset.map (fun task => task.sourceTaskHash) = plan.trainsetTaskHashes)
    (hdistinct : plan.trainsetTaskHashes.Nodup) (accepted : List Nat) :
    ((validationTasks labeledTrainset accepted).map fun task => task.sourceTaskHash).Nodup ∧
      ∀ task ∈ validationTasks labeledTrainset accepted,
        Unused plan accepted task.sourceTaskHash := by
  constructor
  · have hsublist : (validationTasks labeledTrainset accepted).Sublist labeledTrainset := by
      have hall := (List.filter_sublist (l := labeledTrainset.zipIdx)
        (p := fun entry => decide (entry.2 ∉ accepted))).map Prod.fst
      rwa [List.zipIdx_map_fst] at hall
    refine List.Nodup.sublist (hsublist.map _) ?_
    rw [horder]
    exact hdistinct
  · intro task hmem i hi htask
    obtain ⟨entry,hentry,rfl⟩ := List.mem_map.mp hmem
    obtain ⟨hplace,hfree⟩ := List.mem_filter.mp hentry
    have hindex : plan.trainsetTaskHashes[entry.2]? = some entry.1.sourceTaskHash := by
      rw [← horder, List.getElem?_map, List.mem_zipIdx_iff_getElem?.mp hplace]
      rfl
    have hlt : i < plan.trainsetTaskHashes.length := (List.getElem?_eq_some_iff.mp htask).1
    have hsame : i = entry.2 := (List.getElem?_inj hlt hdistinct).mp (htask.trans hindex.symm)
    subst hsame
    exact of_decide_eq_true hfree hi

variable [IdentityHasher] [FloatJson F] [RandomDraws]

theorem bootstrapSequences_fit {state : BootstrapCompilerState F} {componentIds : List String}
    (haugmented : ∀ componentId ∈ componentIds,
      (((state.augmentedDemos.get? componentId).getD []).map fun demo =>
        demo.sourceTaskHash).Nodup ∧
      ∀ demo ∈ (state.augmentedDemos.get? componentId).getD [],
        ¬ Unused plan state.bootstrappedTaskIndices demo.sourceTaskHash)
    {rawDemos : List LabeledTaskDemo}
    (hdistinct : (rawDemos.map fun task => task.sourceTaskHash).Nodup)
    (hunused : ∀ task ∈ rawDemos, Unused plan state.bootstrappedTaskIndices task.sourceTaskHash)
    {rng : RandomSample.Rng} {sequences : List (ComponentDemoSequence F)}
    (h : bootstrapSequences plan state componentIds rawDemos rng = .ok sequences) :
    ∀ sequence ∈ sequences, Fits plan sequence := by
  induction componentIds generalizing rawDemos rng sequences with
  | nil =>
    cases h
    exact fun _ hmem => absurd hmem List.not_mem_nil
  | cons componentId rest ih =>
    obtain ⟨hfirst,hrest⟩ := List.forall_mem_cons.mp haugmented
    simp only [bootstrapSequences, bind_eq_ok, pure, Except.pure, Except.ok.injEq] at h
    obtain ⟨sampled,hsampled,labeled,hlabeled,sequence,hsequence,others,hothers,rfl⟩ := h
    obtain ⟨hsubset,hlength,hnodup⟩ := sampleList_ok (β := String) hsampled
    refine List.forall_mem_cons.mpr ⟨?_, ih hrest (hnodup _ hdistinct)
      (fun task hmem => hunused task (hsubset hmem)) hothers⟩
    have hdemos := congrArg SequenceFields.demos (SequenceFields.modelValidate_eq hsequence)
    have hlabels : labeled.map (fun demo => demo.sourceTaskHash) =
        sampled.1.map fun task => task.sourceTaskHash := by
      rw [← List.forall₂_eq_eq_eq, List.forall₂_map_left_iff, List.forall₂_map_right_iff]
      exact ((mapM_forall₂ hlabeled).imp fun _ _ => LabeledTaskDemo.forComponent_hash).flip
    have hcount : labeled.length = sampled.1.length := (mapM_forall₂ hlabeled).length_eq.symm
    have hnonneg := plan.maxBootstrapped_nonneg
    let augmented := ((state.augmentedDemos.get? componentId).getD []).take
      plan.maxBootstrappedDemos.toNat
    have hfew : augmented.length ≤ plan.maxBootstrappedDemos.toNat := List.length_take_le _ _
    rw [Fits, hdemos]
    constructor
    · change (((augmented ++ labeled).length : Nat) : Int) ≤ _
      rw [List.length_append, hcount]
      change sampled.1.length ≤
        (max 0 (min (plan.maxLabeledDemos - augmented.length) rawDemos.length)).toNat at hlength
      omega
    · change ((augmented ++ labeled).map fun demo => demo.sourceTaskHash).Nodup
      rw [List.map_append, List.nodup_append, hlabels]
      refine ⟨?_, hnodup _ hdistinct, fun shown hshown hash hhash heq => ?_⟩
      · exact List.Nodup.sublist ((List.take_sublist _ _).map _) hfirst.1
      · obtain ⟨demo,hdemo,rfl⟩ := List.mem_map.mp hshown
        obtain ⟨task,htask,rfl⟩ := List.mem_map.mp hhash
        refine hfirst.2 demo (List.mem_of_mem_take hdemo) ?_
        rw [heq]
        exact hunused task (hsubset htask)

/-- No component is shown more demonstrations than the plan allows, and none shows a task twice. -/
theorem materialized_fit [TraceChoice] [FullHashes] [LawfulEq F] {results : ResultsOf F}
    {state : BootstrapCompilerState F} (h : Reached plan results state)
    {labeledTrainset : List LabeledTaskDemo}
    (hdistinct : (labeledTrainset.map fun task => task.sourceTaskHash).Nodup)
    {set : ComponentDemoSet F}
    (hset : materializeBootstrapDemoSet plan state labeledTrainset plan.componentIds = .ok set) :
    ∀ sequence ∈ set.components, Fits plan sequence := by
  simp only [materializeBootstrapDemoSet, check_bind_eq_ok, requirePlanOrderedLabeledTrainset,
    raiseIf_eq_ok, not_not, ne_eq] at hset
  obtain ⟨_,_,horder,hset⟩ := hset
  obtain ⟨components,hcomponents,hset⟩ := (bind_eq_ok _ _ _).mp hset
  have hsame := congrArg SetFields.components (SetFields.modelValidate_eq hset)
  rw [horder] at hdistinct
  obtain ⟨hnodup,hunused⟩ := validationTasks_unused horder hdistinct state.bootstrappedTaskIndices
  have hperm := shuffleList_perm (RandomSample.seeded 0)
    (validationTasks labeledTrainset state.bootstrappedTaskIndices)
  rw [hsame]
  refine bootstrapSequences_fit (fun componentId hknown => h.augmented hdistinct hknown)
    ((hperm.map _).nodup_iff.mpr hnodup) (fun task hmem => hunused task (hperm.mem_iff.mp hmem))
    hcomponents

end DemoSet

/-! ### The compilation -/

section Compilation

variable {F : Type} [FiniteFloats F] [FloatJson F] [IdentityHasher] [FullHashes] [LawfulEq F]
variable [TraceChoice]

/- The nested loop from its start on. -/
def loopTurns (plan : FewshotCandidatePlan F) (results : ResultsOf F) :
    Turns LoopState LoopStop :=
  (bootstrapLoop plan results).turns ⟨[], 0⟩

/-- A run takes the turns of the loop, each once, through valid states. It ends with what the loop
accepted, or at the last error that the plan allows, and what it accepted fits the plan. -/
structure CompilesAsLoop [RandomDraws] (plan : FewshotCandidatePlan F) (results : ResultsOf F)
    (run : CompilerRun F) : Prop where
  attempts : run.attempts.map position = (loopTurns plan results).1
  once : (run.attempts.map position).Nodup
  valid : ∀ state ∈ run.states, validateStateForPlan plan state = .ok ()
  ends : (∃ state s, run.ending = .finished state ∧ (loopTurns plan results).2 = .ok s ∧
      Agrees plan results state s) ∨
    ∃ state s, run.ending = .errorLimit state ∧
      (loopTurns plan results).2 = .error (.errorLimit s) ∧ Agrees plan results state s ∧
      (state.errorCount : Int) = plan.maxErrors
  fits : ∀ state ∈ run.states, ∀ labeledTrainset set,
    (labeledTrainset.map fun task : LabeledTaskDemo => task.sourceTaskHash).Nodup →
    materializeBootstrapDemoSet plan state labeledTrainset plan.componentIds = .ok set →
    ∀ sequence ∈ set.components, Fits plan sequence

theorem EndsAs.without_collision {plan : FewshotCandidatePlan F} {results : ResultsOf F}
    {ending : RunEnd F} {loopEnd : Except LoopStop LoopState}
    (h : EndsAs plan results ending loopEnd)
    (hclear : ∀ task round, loopEnd ≠ .error (.collision task round)) :
    (∃ state s, ending = .finished state ∧ loopEnd = .ok s ∧ Agrees plan results state s) ∨
      ∃ state s, ending = .errorLimit state ∧ loopEnd = .error (.errorLimit s) ∧
        Agrees plan results state s ∧ (state.errorCount : Int) = plan.maxErrors := by
  cases loopEnd with
  | ok s =>
    cases ending with
    | finished state => exact .inl ⟨state, s, rfl, rfl, h⟩
    | errorLimit state => exact h.elim
    | raised message => exact h.elim
    | unfinished => exact h.elim
  | error reason =>
    cases reason with
    | collision task round => exact absurd rfl (hclear task round)
    | errorLimit s =>
      cases ending with
      | finished state => exact h.elim
      | errorLimit state => exact .inr ⟨state, s, rfl, rfl, h.1, h.2⟩
      | raised message => exact h.elim
      | unfinished => exact h.elim

/-- The compiler does what the nested loop does, unless the loop accepts a result that collides. -/
theorem compiles_as_loop_iff [RandomDraws] {plan : FewshotCandidatePlan F}
    {results : ResultsOf F} (hkind : plan.kind = .bootstrap) (herrors : 1 ≤ plan.maxErrors)
    (hanswers : Answers plan results) :
    ∃ initial, initialCompilerState plan = .ok initial ∧
      ∀ fuel, plan.trainsetTaskHashes.length * plan.maxRounds.toNat + 1 < fuel →
        (CompilesAsLoop plan results (compile plan results fuel initial) ↔
          ∀ task round, (loopTurns plan results).2 ≠ .error (.collision task round)) := by
  refine ⟨_, initialCompilerState_ok hkind, fun fuel hfuel => ?_⟩
  have hbounded : Bounded plan ⟨0, 0, ⟨[], 0⟩⟩ :=
    ⟨⟨plan.maxBootstrapped_nonneg, List.Pairwise.nil⟩, herrors,
      fun _ hmem => absurd hmem List.not_mem_nil⟩
  obtain ⟨left,rfl⟩ : ∃ left, fuel = left + 1 := ⟨fuel - 1, by omega⟩
  have hrun := (bootstrapLoop plan results).run_eq_turns (⟨[], 0⟩ : LoopState)
    (Nat.lt_of_succ_lt_succ hfuel)
  obtain ⟨hattempts,hstates,hends⟩ := compile_run hkind hanswers follows_initial hbounded hrun
  change EndsAs plan results _ (loopTurns plan results).2 at hends
  constructor
  · intro hloop task round hcollision
    rcases hloop.ends with ⟨_,_,_,hok,_⟩ | ⟨_,_,_,hlimit,_⟩
    · rw [hok] at hcollision
      cases hcollision
    · rw [hlimit] at hcollision
      cases hcollision
  · intro hclear
    refine ⟨hattempts, ?_, ?_, ?_, ?_⟩
    · rw [hattempts]
      exact (bootstrapLoop plan results).allTurns_nodup _ _ _
    · intro state hmem
      obtain ⟨s,hagrees,_⟩ := hstates state hmem
      exact hagrees.replayed.valid hkind
    · exact hends.without_collision hclear
    · intro state hmem labeledTrainset set hdistinct hset
      exact materialized_fit (hstates state hmem) hdistinct hset

end Compilation

/-! ### A candidate with two tasks and two rounds -/

section Example

/- The last of the steps. -/
@[reducible] def lastTraceStep : TraceChoice :=
  ⟨fun examples => examples.length - 1, fun _ h => by omega⟩

attribute [local instance] exactFiniteFloats exactNumbers rotatingDraws plainHasher lastTraceStep

theorem plainDigest_full : requireFullHash (digestOf 'b') "hash" = .ok () := by decide +kernel

theorem plainHasher_full : FullHashes where
  full := fun _ _ _ field => requireFullHash_field plainDigest_full field

theorem exactFiniteFloats_lawful : LawfulEq Rat where
  eq_self := fun _ _ => decide_eq_true rfl
  one_finite := rfl

attribute [local instance] plainHasher_full exactFiniteFloats_lawful

theorem unlabeled_teacher : validateTeacher "deepcopy" false none = .ok () := rfl

def twoTasksPlan : FewshotCandidatePlan Rat where
  candidateOrdinal := 2
  candidateSeed := -1
  bindings := shuffledBindings
  kind := .bootstrap
  componentIds := ["generate"]
  trainsetTaskHashes := [digestOf '1', digestOf '3']
  maxBootstrappedDemos := 1
  maxLabeledDemos := 1
  maxRounds := 2
  maxErrors := 2
  metricThreshold := none
  teacher := some ⟨.student, "deepcopy", false, none, unlabeled_teacher⟩
  labelsOnlySelection := none
  traceSelectionProjectionVersion := traceSelectionProjectionVersion
  valid := by decide +kernel

def generationHashes : SourceHashes := ⟨digestOf 'e', digestOf 'e', digestOf 'e', digestOf 'c'⟩

def shownStep (index : Int) (field : String) : TraceFields :=
  ⟨index, some "generate", [(field, .str "1 + 1")], [("answer", .str "2")]⟩

def questionStep : ObservedTraceStep := ⟨shownStep 0 "question", by decide +kernel⟩

def augmentedStep : ObservedTraceStep := ⟨shownStep 1 "augmented", by decide +kernel⟩

def scoredFields (score : Bool) (steps : List ObservedTraceStep) : ResultFields Rat where
  toSourceHashes := generationHashes
  attemptIdentityHash := digestOf 'b'
  metricPresent := true
  score := some (.flag score)
  traceSteps := steps
  error := none

def failedFields : ResultFields Rat where
  toSourceHashes := generationHashes
  attemptIdentityHash := digestOf 'b'
  metricPresent := true
  score := none
  traceSteps := []
  error := some "timeout"

def rejectedResult : BootstrapGenerationResult Rat := ⟨scoredFields false [], by decide +kernel⟩

def failedResult : BootstrapGenerationResult Rat := ⟨failedFields, by decide +kernel⟩

def acceptedResult : BootstrapGenerationResult Rat :=
  ⟨scoredFields true [questionStep], by decide +kernel⟩

def collidingResult : BootstrapGenerationResult Rat :=
  ⟨scoredFields true [questionStep, augmentedStep], by decide +kernel⟩

/- The first task is rejected and then fails, the second is accepted. -/
def mixedResults : ResultsOf Rat
  | 0, 0 => rejectedResult
  | 0, _ => failedResult
  | _, _ => acceptedResult

theorem mixedResults_turns : loopTurns twoTasksPlan mixedResults =
    ([(0, 0), (0, 1), (1, 0)], .ok ⟨[(1, 0)], 1⟩) := rfl

theorem mixedResults_answer : Answers twoTasksPlan mixedResults := by
  intro i r taskHash h
  unfold mixedResults
  split <;> rfl

/-- A run that rejects, fails and accepts. -/
theorem compiles_as_loop_sample : CompilesAsLoop twoTasksPlan mixedResults
    (compile twoTasksPlan mixedResults 6 (emptyCompilerState twoTasksPlan)) := by
  obtain ⟨initial,hinitial,hruns⟩ :=
    compiles_as_loop_iff (F := Rat) rfl (by decide) mixedResults_answer
  cases hinitial.symm.trans (initialCompilerState_ok rfl)
  refine (hruns 6 (by decide)).mpr fun task round hcollision => ?_
  rw [mixedResults_turns] at hcollision
  cases hcollision

/- The first attempt is accepted with two steps, one of which has a field `augmented`. -/
def collidingResults : ResultsOf Rat := fun _ _ => collidingResult

theorem collidingResults_turns : loopTurns twoTasksPlan collidingResults =
    ([(0, 0)], .error (.collision 0 0)) := rfl

theorem firstTask_hash : twoTasksPlan.trainsetTaskHashes[0]? = some (digestOf '1') := rfl

def firstAttempt : BootstrapAttemptPlan Rat := attemptAt twoTasksPlan firstTask_hash 0

theorem firstAttempt_next : nextBootstrapAttempt twoTasksPlan (emptyCompilerState twoTasksPlan) =
    .ok (some firstAttempt) := by
  rw [nextBootstrapAttempt_running rfl replayed_empty rfl,
    next_some rfl rfl rfl firstTask_hash (by decide)]
  rfl

theorem collision_refused : (foldBootstrapResult twoTasksPlan (emptyCompilerState twoTasksPlan)
    firstAttempt collidingResult none ["generate"]).map (fun _ => ()) =
      .error "got multiple values for keyword argument 'augmented'" := by
  decide +kernel

/-- An accepted result with a field that is named like the flag of the example raises, long before
the error limit. -/
theorem collision_raises :
    (compile twoTasksPlan collidingResults 6 (emptyCompilerState twoTasksPlan)).ending =
        .raised "got multiple values for keyword argument 'augmented'" ∧
      ¬ CompilesAsLoop twoTasksPlan collidingResults
        (compile twoTasksPlan collidingResults 6 (emptyCompilerState twoTasksPlan)) := by
  have hfold : foldBootstrapResult twoTasksPlan (emptyCompilerState twoTasksPlan)
      firstAttempt collidingResult none ["generate"] =
        .error "got multiple values for keyword argument 'augmented'" := by
    have hrefused := collision_refused
    cases hfolded : foldBootstrapResult twoTasksPlan (emptyCompilerState twoTasksPlan)
        firstAttempt collidingResult none ["generate"] with
    | ok next =>
      rw [hfolded] at hrefused
      cases hrefused
    | error message =>
      rw [hfolded] at hrefused
      exact congrArg Except.error (Except.error.inj hrefused)
  have hrun := @compile_raised Rat _ _ _ _ twoTasksPlan collidingResults _ _ 5
    firstAttempt_next _ hfold
  rw [hrun]
  refine ⟨rfl, fun hloop => ?_⟩
  rcases hloop.ends with ⟨_,_,hfinished,_⟩ | ⟨_,_,hlimit,_⟩
  · cases hfinished
  · cases hlimit

end Example

end Whetstone.Optim.Miprov2
