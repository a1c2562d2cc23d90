import Mathlib.Data.List.Rotate
import Whetstone.Optim.Codex.Adapter
import Whetstone.Optim.Miprov2.Render
import Whetstone.Optim.Miprov2.StateVerification

/-! The teacher candidate of a bootstrap attempt. Its prompt shows the labeled tasks that the plan
selects, which it reads in the order of the control, while a plan may have shuffled the tasks. -/
namespace Whetstone.Optim.Miprov2
open Whetstone.Core Whetstone.Lib Whetstone.Experiment Whetstone.Eval Whetstone.Tools
open Whetstone.Optim.Step (OptimRun validateShortfallFloor)

section Teacher

variable {F L : Type} [FiniteFloats F] [FloatJson F] [IdentityHasher] [PyIdentifiers]
variable [RandomDraws] [CandidateIdentity]

def instructionHash (instruction : String) : String :=
  IdentityHasher.computeIdentityHash "whetstone.miprov2_instruction" 1
    (.obj [("instruction", .str instruction)])

def labeledExample (inputs outputs : List (String × Json)) : Json :=
  .obj [("inputs", .obj inputs), ("outputs", .obj outputs)]

/- The examples at the indices, without the task of the attempt. -/
def teacherExamples (labeledTrainset : List LabeledTaskDemo) (taskHash componentId : String) :
    List Nat → Except String (List Json)
  | [] => .ok []
  | index :: rest => match labeledTrainset[index]? with
    | none => .error "tuple index out of range"
    | some item =>
      if item.sourceTaskHash = taskHash then
        teacherExamples labeledTrainset taskHash componentId rest
      else do
        let inputs ← item.inputsFor componentId
        let outputs ← item.outputsFor componentId
        let examples ← teacherExamples labeledTrainset taskHash componentId rest
        return labeledExample inputs outputs :: examples

def selectedExamples (state : Miprov2State F L) (selection : Option LabeledSelectionPlan)
    (attempt : BootstrapAttemptPlan F) (componentId : String) (componentIndex : Nat) :
    Except String (List Json) :=
  match selection with
  | none => .ok []
  | some selection => match selection.perComponentTaskIndices[componentIndex]? with
    | none => .error "tuple index out of range"
    | some indices =>
      teacherExamples state.labeledTrainset attempt.taskHash componentId indices

def sourceInstruction (control : ControlFields F) : Except String String :=
  match control.teacherCandidate.payload.lookup control.mutationField with
  | some (.str instruction) => .ok instruction
  | some _ => .error "AssertionError"
  | none => .error control.mutationField

def demoSet : List Json → Json
  | [] => .null
  | examples => .arr examples

def teacherExamplesHash (examples : List Json) : String :=
  IdentityHasher.computeIdentityHash "whetstone.miprov2_teacher_examples" 1 (.arr examples)

def teacherComponent (componentId instruction : String) (componentIndex : Nat)
    (examples : List Json) : Component :=
  [("component_id", .str componentId), ("instruction_index", .int componentIndex),
    ("instruction", .str instruction),
    ("instruction_identity_hash", .str (instructionHash instruction)),
    ("demo_index", if examples.isEmpty then .null else .int componentIndex),
    ("demo_set", demoSet examples),
    ("demo_identity_hash",
      if examples.isEmpty then .null else .str (teacherExamplesHash examples))]

def teacherComponents (state : Miprov2State F L) (selection : Option LabeledSelectionPlan)
    (attempt : BootstrapAttemptPlan F) : Except String (List Component) :=
  state.control.programLayout.componentSpecs.zipIdx.mapM fun entry => do
    let examples ← selectedExamples state selection attempt entry.1.componentId entry.2
    let instruction ← sourceInstruction state.control.toControlFields
    return teacherComponent entry.1.componentId instruction entry.2 examples

variable [JsonDumps] [ToolIdentity]

def candidateFromComponents (run : OptimRun F) (base : Candidate) (candidateId : String)
    (components : List Component) : Except String Candidate := do
  let template ← composeUserPromptTemplate components run.templateRenderContract
  let candidate ← Codex.candidateFromDraft run base candidateId template
  raiseIf (candidate.baseRef ≠ base.recordRef) "canonical candidate did not bind the exact base"
  diffCheck run.mutationField base candidate
  return candidate

/- `_materialize_bootstrap_teacher` -/
def materializeBootstrapTeacher (run : OptimRun F) (state : Miprov2State F L)
    (plan : FewshotCandidatePlan F) (attempt : BootstrapAttemptPlan F) :
    Except String Candidate :=
  match plan.teacher with
  | none => .error "bootstrap plan has no teacher preparation"
  | some teacher => do
    let source := state.control.teacherCandidate
    let components ← teacherComponents state teacher.labeledSelection attempt
    let identity := IdentityHasher.computeIdentityHash
      "whetstone.miprov2_bootstrap_teacher_execution" 2
      (.obj [("source_candidate_identity_hash", .str source.identityHash),
        ("plan_identity_hash", .str plan.identityHash),
        ("attempt_identity_hash", .str attempt.identityHash),
        ("components", .arr (components.map .obj))])
    candidateFromComponents run source ("miprov2-teacher-" ++ identity.take 24) components

/-! ### The tasks of a selection -/

/- The labeled tasks at the indices of an order, without the task of the attempt. -/
def selectedTasks (ordered : List LabeledTaskDemo) (taskHash : String) (indices : List Nat) :
    List LabeledTaskDemo :=
  (takePositions ordered indices).filter fun task => task.sourceTaskHash ≠ taskHash

def Shows (componentId : String) (task : LabeledTaskDemo) (inputs outputs : List (String × Json)) :
    Prop :=
  task.inputsFor componentId = .ok inputs ∧ task.outputsFor componentId = .ok outputs

def ExampleOf (componentId : String) (shown : Json) (task : LabeledTaskDemo) : Prop :=
  ∃ inputs outputs, Shows componentId task inputs outputs ∧
    shown = labeledExample inputs outputs

/-- Two tasks with the same fields for a component. -/
def SameFields (componentId : String) (a b : LabeledTaskDemo) : Prop :=
  ∃ inputs outputs, Shows componentId a inputs outputs ∧ Shows componentId b inputs outputs

/-- A component shows the examples of tasks, in order. -/
def ShowsExamples (componentId : String) (component : Component) (tasks : List LabeledTaskDemo) :
    Prop :=
  ∃ examples, component.get "demo_set" = demoSet examples ∧
    List.Forall₂ (ExampleOf componentId) examples tasks

end Teacher

section Selection

theorem selectedTasks_cons {ordered : List LabeledTaskDemo} {index : Nat} {item : LabeledTaskDemo}
    (hitem : ordered[index]? = some item) (taskHash : String) (rest : List Nat) :
    selectedTasks ordered taskHash (index :: rest) =
      if item.sourceTaskHash = taskHash then selectedTasks ordered taskHash rest
      else item :: selectedTasks ordered taskHash rest := by
  rw [selectedTasks, takePositions, List.filterMap_cons, hitem, List.filter_cons]
  by_cases hown : item.sourceTaskHash = taskHash <;> simp [hown, selectedTasks, takePositions]

theorem teacherExamples_selected {labeledTrainset : List LabeledTaskDemo}
    {taskHash componentId : String} {indices : List Nat} {examples : List Json}
    (h : teacherExamples labeledTrainset taskHash componentId indices = .ok examples) :
    List.Forall₂ (ExampleOf componentId) examples
      (selectedTasks labeledTrainset taskHash indices) := by
  induction indices generalizing examples with
  | nil =>
    cases h
    exact .nil
  | cons index rest ih =>
    rw [teacherExamples] at h
    cases hitem : labeledTrainset[index]? with
    | none =>
      rw [hitem] at h
      cases h
    | some item =>
      rw [hitem] at h
      rw [selectedTasks_cons hitem]
      by_cases hown : item.sourceTaskHash = taskHash
      · simp only [if_pos hown] at h ⊢
        exact ih h
      · simp only [if_neg hown, bind_eq_ok, pure, Except.pure, Except.ok.injEq] at h ⊢
        obtain ⟨inputs,hinputs,outputs,houtputs,others,hothers,rfl⟩ := h
        exact .cons ⟨inputs, outputs, ⟨hinputs, houtputs⟩, rfl⟩ (ih hothers)

theorem labeledExample_injective {inputs outputs inputs' outputs' : List (String × Json)}
    (h : labeledExample inputs outputs = labeledExample inputs' outputs') :
    inputs = inputs' ∧ outputs = outputs' := by
  simpa [labeledExample] using h

theorem demoSet_injective {xs ys : List Json} (h : demoSet xs = demoSet ys) : xs = ys := by
  cases xs <;> cases ys <;> simp_all [demoSet]

/-- Examples of one order are examples of another when the tasks have the same fields. -/
theorem examples_of_others {componentId : String} {examples : List Json}
    {tasks others : List LabeledTaskDemo}
    (h : List.Forall₂ (ExampleOf componentId) examples tasks) :
    List.Forall₂ (ExampleOf componentId) examples others ↔
      List.Forall₂ (SameFields componentId) tasks others := by
  induction h generalizing others with
  | nil =>
    rw [List.forall₂_nil_left_iff, List.forall₂_nil_left_iff]
  | cons hfirst _ ih =>
    rw [List.forall₂_cons_left_iff, List.forall₂_cons_left_iff]
    obtain ⟨inputs,outputs,hshows,rfl⟩ := hfirst
    constructor
    · rintro ⟨other,rest,⟨inputs',outputs',hother,hsame⟩,hrest,rfl⟩
      obtain ⟨rfl,rfl⟩ := labeledExample_injective hsame
      exact ⟨other, rest, ⟨_, _, hshows, hother⟩, ih.mp hrest, rfl⟩
    · rintro ⟨other,rest,⟨inputs',outputs',hfirst,hother⟩,hrest,rfl⟩
      have hinputs := hshows.1.symm.trans hfirst.1
      have houtputs := hshows.2.symm.trans hfirst.2
      cases hinputs
      cases houtputs
      exact ⟨other, rest, ⟨_, _, hother, rfl⟩, ih.mpr hrest, rfl⟩

end Selection

/-! ### Whose tasks a selection denotes -/

section Labels

variable {F : Type} [FiniteFloats F] [IdentityHasher]

/-- The demonstrations of a labels-only candidate are those of the plan's tasks at the indices. -/
def LabelsFollowPlan (plan : FewshotCandidatePlan F) (selection : LabeledSelectionPlan)
    (ordered : List LabeledTaskDemo) (set : ComponentDemoSet F) : Prop :=
  List.Forall₂ (fun entry sequence => sequence.componentId = entry.1 ∧
      List.Forall₂ (fun index demo => ∃ task, ordered[index]? = some task ∧
        plan.trainsetTaskHashes[index]? = some demo.sourceTaskHash ∧
        task.forComponent F entry.1 = .ok demo) entry.2 sequence.demos)
    (selection.componentIds.zip selection.perComponentTaskIndices) set.components

/-- A labels-only candidate shows the tasks that its plan selects. -/
theorem labelsOnly_follows {plan : FewshotCandidatePlan F} {selection : LabeledSelectionPlan}
    {ordered : List LabeledTaskDemo} {set : ComponentDemoSet F}
    (hselection : plan.labelsOnlySelection = some selection)
    (h : materializeLabelsOnlyDemoSet plan ordered = .ok set) :
    LabelsFollowPlan plan selection ordered set := by
  simp only [materializeLabelsOnlyDemoSet, hselection, requirePlanOrderedLabeledTrainset,
    raiseIf_bind_eq_ok, not_not, ne_eq, materializeLabeledSelection] at h
  obtain ⟨_,horder,h⟩ := h
  obtain ⟨components,hcomponents,hset⟩ := (bind_eq_ok _ _ _).mp h
  have hsame := congrArg SetFields.components (SetFields.modelValidate_eq hset)
  rw [LabelsFollowPlan, hsame]
  refine (mapM_forall₂ hcomponents).imp fun entry sequence hsequence => ?_
  obtain ⟨demos,hdemos,hsequence⟩ := (bind_eq_ok _ _ _).mp hsequence
  have hfields := SequenceFields.modelValidate_eq hsequence
  refine ⟨congrArg SequenceFields.componentId hfields, ?_⟩
  rw [congrArg SequenceFields.demos hfields]
  refine (mapM_forall₂ hdemos).imp fun index demo hdemo => ?_
  unfold labeledAt at hdemo
  split at hdemo
  · cases hdemo
  · rename_i task htask
    refine ⟨task, htask, ?_, hdemo⟩
    rw [← horder, List.getElem?_map, htask, Option.map_some,
      LabeledTaskDemo.forComponent_hash hdemo]

end Labels

section Follows

variable {F L : Type} [FiniteFloats F] [FloatJson F] [IdentityHasher] [PyIdentifiers]
variable [RandomDraws]

/-- The components of a teacher show the plan's tasks at the indices, less the attempt's own. -/
def TeacherFollowsPlan (state : Miprov2State F L) (selection : LabeledSelectionPlan)
    (attempt : BootstrapAttemptPlan F) (ordered : List LabeledTaskDemo)
    (components : List Component) : Prop :=
  ∀ (i : Nat) spec indices component,
    state.control.programLayout.componentSpecs[i]? = some spec →
    selection.perComponentTaskIndices[i]? = some indices → components[i]? = some component →
    ShowsExamples spec.componentId component (selectedTasks ordered attempt.taskHash indices)

/-- The order of the control and that of the plan put tasks with the same fields at the indices,
less the attempt's own. -/
def SelectionAgrees (state : Miprov2State F L) (selection : LabeledSelectionPlan)
    (attempt : BootstrapAttemptPlan F) (ordered : List LabeledTaskDemo) : Prop :=
  ∀ (i : Nat) spec indices, state.control.programLayout.componentSpecs[i]? = some spec →
    selection.perComponentTaskIndices[i]? = some indices →
    List.Forall₂ (SameFields spec.componentId)
      (selectedTasks state.labeledTrainset attempt.taskHash indices)
      (selectedTasks ordered attempt.taskHash indices)

/-- A teacher shows the tasks that the order of the control puts at the selected indices. -/
theorem teacherComponents_show {state : Miprov2State F L} {selection : LabeledSelectionPlan}
    {attempt : BootstrapAttemptPlan F} {components : List Component}
    (h : teacherComponents state (some selection) attempt = .ok components) {i : Nat}
    {spec : Miprov2ComponentSpec} {indices : List Nat} {component : Component}
    (hspec : state.control.programLayout.componentSpecs[i]? = some spec)
    (hindices : selection.perComponentTaskIndices[i]? = some indices)
    (hcomponent : components[i]? = some component) :
    ∃ examples, component.get "demo_set" = demoSet examples ∧
      List.Forall₂ (ExampleOf spec.componentId) examples
        (selectedTasks state.labeledTrainset attempt.taskHash indices) := by
  have hentry : state.control.programLayout.componentSpecs.zipIdx[i]? = some (spec, i) := by
    rw [List.getElem?_zipIdx, hspec]
    simp
  have hmade := mapM_getElem?_ok h hentry hcomponent
  simp only [selectedExamples, hindices, bind_eq_ok, pure, Except.pure, Except.ok.injEq] at hmade
  obtain ⟨examples,hexamples,instruction,_,rfl⟩ := hmade
  exact ⟨examples, rfl, teacherExamples_selected hexamples⟩

/-- A teacher shows the plan's tasks exactly when the two orders agree at the indices. -/
theorem teacher_follows_iff {state : Miprov2State F L} {selection : LabeledSelectionPlan}
    {attempt : BootstrapAttemptPlan F} {components : List Component}
    (h : teacherComponents state (some selection) attempt = .ok components)
    (ordered : List LabeledTaskDemo) :
    TeacherFollowsPlan state selection attempt ordered components ↔
      SelectionAgrees state selection attempt ordered := by
  constructor
  · intro hfollows i spec indices hspec hindices
    have hlt : i < components.length := by
      have hlength := (mapM_forall₂ h).length_eq
      rw [List.length_zipIdx] at hlength
      rw [← hlength]
      exact (List.getElem?_eq_some_iff.mp hspec).1
    have hcomponent := List.getElem?_eq_getElem hlt
    obtain ⟨shown,hshown,hexamples⟩ := teacherComponents_show h hspec hindices hcomponent
    obtain ⟨others,hothers,hplan⟩ := hfollows i spec indices _ hspec hindices hcomponent
    cases demoSet_injective (hshown.symm.trans hothers)
    exact (examples_of_others hexamples).mp hplan
  · intro hagrees i spec indices component hspec hindices hcomponent
    obtain ⟨shown,hshown,hexamples⟩ := teacherComponents_show h hspec hindices hcomponent
    have hsame := hagrees i spec indices hspec hindices
    exact ⟨shown, hshown, (examples_of_others hexamples).mpr hsame⟩

/-- The two orders agree for a plan that keeps the order of distinct tasks. -/
theorem selection_agrees_of_unshuffled {state : Miprov2State F L} {plan : FewshotCandidatePlan F}
    {selection : LabeledSelectionPlan} {attempt : BootstrapAttemptPlan F}
    {components : List Component} {ordered : List LabeledTaskDemo}
    (hsame : plan.trainsetTaskHashes = state.labeledTrainset.map fun task => task.sourceTaskHash)
    (hdistinct : plan.trainsetTaskHashes.Nodup)
    (hordered : orderedLabeledForPlan state plan = .ok ordered)
    (h : teacherComponents state (some selection) attempt = .ok components) :
    SelectionAgrees state selection attempt ordered := by
  rw [orderedLabeledForPlan_unshuffled hsame hdistinct] at hordered
  cases hordered
  exact (teacher_follows_iff h _).mp fun _ _ _ _ hspec hindices hcomponent =>
    teacherComponents_show h hspec hindices hcomponent

variable [CandidateIdentity]

/-- The plans of a control order the labeled tasks, each at the place of its hash. -/
theorem orderedLabeled_of_planned {state : Miprov2State F L}
    {planning : List (FewshotCandidatePlan F) × RandomSample.Rng} {plan : FewshotCandidatePlan F}
    (hlabeled : state.labeledTrainset.map (fun task => task.sourceTaskHash) =
      state.control.trainsetTaskHashes)
    (hplanning : expectedPlanning state = .ok planning) (hplan : plan ∈ planning.1) :
    ∃ ordered, orderedLabeledForPlan state plan = .ok ordered := by
  refine orderedLabeledForPlan_ok state plan fun identity hmem => ?_
  obtain ⟨rng,_,hplanned⟩ := (bind_eq_ok _ _ _).mp hplanning
  have hperm := createFewshotCandidatePlans_perm hplanned plan hplan
  rw [hlabeled]
  exact hperm.mem_iff.mp hmem

variable [JsonDumps] [ToolIdentity]

/-- A teacher candidate is its components, composed into the mutation field of its source. -/
theorem materializeBootstrapTeacher_payload {run : OptimRun F} {state : Miprov2State F L}
    {plan : FewshotCandidatePlan F} {teacher : TeacherPreparationPlan}
    {attempt : BootstrapAttemptPlan F} {candidate : Candidate}
    (hteacher : plan.teacher = some teacher)
    (h : materializeBootstrapTeacher run state plan attempt = .ok candidate) :
    ∃ components template,
      teacherComponents state teacher.labeledSelection attempt = .ok components ∧
      composeUserPromptTemplate components run.templateRenderContract = .ok template ∧
      candidate.payload = Codex.setField run.mutationField (.str template)
        state.control.teacherCandidate.payload := by
  simp only [materializeBootstrapTeacher, hteacher, candidateFromComponents,
    Codex.candidateFromDraft, bind_eq_ok, pure, Except.pure, Except.ok.injEq] at h
  obtain ⟨components,hcomponents,template,htemplate,proposed,hproposed,_,_,_,_,rfl⟩ := h
  obtain ⟨_,_,_,_,rfl⟩ := hproposed
  exact ⟨components, template, hcomponents, htemplate, rfl⟩

/-- The tasks of a plan stand in its order, a labels-only candidate shows those at the selected
indices, and a teacher shows them exactly when the order of the control agrees there. -/
theorem selection_denotes_plan_tasks (run : OptimRun F) {state : Miprov2State F L}
    {planning : List (FewshotCandidatePlan F) × RandomSample.Rng} {plan : FewshotCandidatePlan F}
    (hlabeled : state.labeledTrainset.map (fun task => task.sourceTaskHash) =
      state.control.trainsetTaskHashes)
    (hplanning : expectedPlanning state = .ok planning) (hplan : plan ∈ planning.1) :
    ∃ ordered, orderedLabeledForPlan state plan = .ok ordered ∧
      ordered.map (fun task => task.sourceTaskHash) = plan.trainsetTaskHashes ∧
      (∀ selection set, plan.labelsOnlySelection = some selection →
        materializeLabelsOnlyDemoSet plan ordered = .ok set →
        LabelsFollowPlan plan selection ordered set) ∧
      ∀ teacher selection attempt candidate, plan.teacher = some teacher →
        teacher.labeledSelection = some selection →
        materializeBootstrapTeacher run state plan attempt = .ok candidate →
        ∃ components template,
          teacherComponents state teacher.labeledSelection attempt = .ok components ∧
          composeUserPromptTemplate components run.templateRenderContract = .ok template ∧
          candidate.payload = Codex.setField run.mutationField (.str template)
            state.control.teacherCandidate.payload ∧
          (TeacherFollowsPlan state selection attempt ordered components ↔
            SelectionAgrees state selection attempt ordered) := by
  obtain ⟨ordered,hordered⟩ := orderedLabeled_of_planned hlabeled hplanning hplan
  refine ⟨ordered, hordered, orderedLabeledForPlan_hashes hordered, ?_, ?_⟩
  · intro selection set hselection hset
    exact labelsOnly_follows hselection hset
  · intro teacher selection attempt candidate hteacher hselection hcandidate
    obtain ⟨components,template,hcomponents,htemplate,hpayload⟩ :=
      materializeBootstrapTeacher_payload hteacher hcandidate
    refine ⟨components, template, hcomponents, htemplate, hpayload, ?_⟩
    rw [hselection] at hcomponents
    exact teacher_follows_iff hcomponents ordered

end Follows

/-! ### A plan that shuffles three tasks -/

section Example

theorem firstIndices_nodup (rng : firstIndices.Rng) (population count : Nat)
    (_ : count ≤ population) : (firstIndices.sample rng population count).1.Nodup :=
  List.nodup_range

theorem firstIndices_lt (rng : firstIndices.Rng) (population count : Nat)
    (hfits : count ≤ population) : ∀ index ∈ (firstIndices.sample rng population count).1,
      index < population :=
  fun _ hmem => Nat.lt_of_lt_of_le (List.mem_range.mp hmem) hfits

/- Shuffles by moving the first item to the end. -/
@[reducible] def rotatingDraws : RandomDraws where
  toRandomSample := firstIndices
  shuffle := fun _ size => ((List.range size).rotate 1, ())
  randint := fun _ low _ => (low, ())
  shuffle_perm := fun _ _ => List.rotate_perm _ 1
  sample_nodup := firstIndices_nodup
  sample_lt := firstIndices_lt

@[reducible] def plainHasher : IdentityHasher := ⟨fun _ _ _ => digestOf 'b'⟩

/- The run has no tools. -/
@[reducible] def noTools : ToolIdentity :=
  ⟨fun _ => "", fun _ => ⟨"", ""⟩, fun _ _ => "", fun _ => ""⟩

attribute [local instance] exactFiniteFloats namedFields namedPrograms hashedConfigs exactNumbers
  rotatingDraws plainHasher emptyDumps noTools

def threeTasks : List String := [digestOf '1', digestOf '3', digestOf '4']

def shuffledFields : ControlFields Rat :=
  { sampleControl "user_prompt_template" 3 with
    sourceTrainsetTaskHashes := threeTasks, trainsetTaskHashes := threeTasks
    maxBootstrappedDemos := 1, maxLabeledDemos := 1, numCandidates := some 4
    numInstructCandidates := 4, numFewshotCandidates := 4, demoMode := .fewshot }

def shuffledControl : Miprov2Control Rat := ⟨shuffledFields, by decide +kernel⟩

def shuffledBindings : Miprov2DurableBindings :=
  ⟨⟨digestOf 'b', digestOf 'b', digestOf 'b', digestOf 'a', digestOf 'c', digestOf 'e',
    digestOf 'e', digestOf 'd', digestOf 'd'⟩, by decide +kernel⟩

def digitFields (c : Char) : LabeledFields :=
  ⟨digestOf c, [("generate", .obj [("question", .str (String.singleton c))])],
    [("generate", .obj [("answer", .str (String.singleton c))])]⟩

def firstTask : LabeledTaskDemo := ⟨digitFields '1', by decide +kernel⟩

def secondTask : LabeledTaskDemo := ⟨digitFields '3', by decide +kernel⟩

def thirdTask : LabeledTaskDemo := ⟨digitFields '4', by decide +kernel⟩

def shuffledState : Miprov2State Rat Unit where
  runId := "run"
  control := shuffledControl
  bindings := shuffledBindings
  labeledTrainset := [firstTask, secondTask, thirdTask]
  proposalComponents := [⟨"generate", "Solve the task.", ⟨.literalBodyV1, [], []⟩, "", ""⟩]
  proposalTrainset := [⟨digestOf '1', "1"⟩, ⟨digestOf '3', "3"⟩, ⟨digestOf '4', "4"⟩]
  componentFieldOrder := [("generate", .arr [.str "question", .str "answer"])]
  inputDataIdentityHash := digestOf 'b'
  phase := .bootstrap
  bootstrapPlans := []
  bootstrapPlanIndex := 0
  bootstrapState := none
  demoCandidates := []
  bootstrapEvidence := []
  pendingBootstrap := none
  completedEffects := []
  later := ()

theorem no_floor : validateShortfallFloor 1 none = .ok () := rfl

def shuffledRun : OptimRun Rat where
  runId := "run"
  optimizerConfig := ⟨⟨"whetstone.optimizer", "config"⟩, "config"⟩
  adapterKey := "miprov2"
  mode := .proposalOnly
  terminalOutputContract := ⟨1, none, none, false, no_floor⟩
  templateRenderContract := ⟨.literalBodyV1, [], []⟩
  initialCandidateRef := some sampleCandidate
  mutationField := "user_prompt_template"
  rewardPolicy := some samplePolicy
  toolConfigs := []
  valid := by decide

def firstSelection : LabeledSelectionPlan := ⟨["generate"], [[0]], true, by decide⟩

def labeledTeacher : TeacherPreparationPlan :=
  ⟨.student, "deepcopy", true, some firstSelection, by decide⟩

/- The first attempt at the second task of the shuffled plan. -/
def secondAttempt : BootstrapAttemptPlan Rat where
  bindings := shuffledBindings
  planIdentityHash := digestOf 'b'
  taskIndex := 1
  taskHash := digestOf '4'
  roundIndex := 0
  excludeEqualTaskFromAllTeacherComponents := true
  restoreTeacherDemosAfterEffect := true
  copyTaskModel := false
  generationId := none
  temperature := none
  valid := by decide +kernel

def labelsAndTeachers (plans : List (FewshotCandidatePlan Rat)) :
    List (List String × Option LabeledSelectionPlan × Option TeacherPreparationPlan) :=
  plans.map fun plan => (plan.trainsetTaskHashes, plan.labelsOnlySelection, plan.teacher)

theorem shuffled_plans : (expectedPlanning shuffledState).map (fun p => labelsAndTeachers p.1) =
    .ok [(threeTasks, none, none), (threeTasks, some firstSelection, none),
      (threeTasks, none, some labeledTeacher),
      (threeTasks.rotate 1, none, some labeledTeacher)] := by
  decide +kernel

theorem shuffled_plan : ∃ planning, expectedPlanning shuffledState = .ok planning ∧
    ∃ plan ∈ planning.1, plan.trainsetTaskHashes = threeTasks.rotate 1 ∧
      plan.teacher = some labeledTeacher := by
  have hplans := shuffled_plans
  cases hplanning : expectedPlanning shuffledState with
  | error message =>
    rw [hplanning] at hplans
    cases hplans
  | ok planning =>
    rw [hplanning] at hplans
    have hlist : labelsAndTeachers planning.1 = _ := Except.ok.inj hplans
    have hmem : (threeTasks.rotate 1, none, some labeledTeacher) ∈
        labelsAndTeachers planning.1 := by
      rw [hlist]
      simp
    obtain ⟨plan,hplan,heq⟩ := List.mem_map.mp hmem
    simp only [Prod.mk.injEq] at heq
    exact ⟨planning, rfl, plan, hplan, heq.1, heq.2.2⟩

theorem shuffled_order : [digestOf '3', digestOf '4', digestOf '1'].mapM
    (taskByHash shuffledState.labeledTrainset) = .ok [secondTask, thirdTask, firstTask] := rfl

def firstComponent : Component :=
  teacherComponent "generate" "Solve the task." 0
    [labeledExample [("question", .str "1")] [("answer", .str "1")]]

theorem shuffled_components : teacherComponents shuffledState (some firstSelection) secondAttempt =
    .ok [firstComponent] := rfl

theorem shuffled_teacher (plan : FewshotCandidatePlan Rat)
    (h : plan.teacher = some labeledTeacher) : ∃ candidate,
      materializeBootstrapTeacher shuffledRun shuffledState plan secondAttempt =
        .ok candidate := by
  have hbuilt : (candidateFromComponents shuffledRun sampleCandidate
      ("miprov2-teacher-" ++ (digestOf 'b').take 24) [firstComponent]).toOption.isSome = true := by
    decide +kernel
  have hsame : materializeBootstrapTeacher shuffledRun shuffledState plan secondAttempt =
      candidateFromComponents shuffledRun sampleCandidate
        ("miprov2-teacher-" ++ (digestOf 'b').take 24) [firstComponent] := by
    rw [materializeBootstrapTeacher, h]
    rfl
  rw [hsame]
  cases hcandidate : candidateFromComponents shuffledRun sampleCandidate
      ("miprov2-teacher-" ++ (digestOf 'b').take 24) [firstComponent] with
  | error message =>
    rw [hcandidate] at hbuilt
    cases hbuilt
  | ok candidate => exact ⟨candidate, rfl⟩

theorem shuffled_disagrees : ¬ SelectionAgrees shuffledState firstSelection secondAttempt
    [secondTask, thirdTask, firstTask] := by
  intro hagrees
  have hshown := hagrees 0 sampleSpec [0] rfl rfl
  have hcontrol : selectedTasks shuffledState.labeledTrainset secondAttempt.taskHash [0] =
      [firstTask] := rfl
  have hplan : selectedTasks [secondTask, thirdTask, firstTask] secondAttempt.taskHash [0] =
      [secondTask] := rfl
  rw [hcontrol, hplan] at hshown
  cases hshown with
  | cons hsame _ =>
    obtain ⟨inputs,_,⟨hfirst,_⟩,hsecond,_⟩ := hsame
    have hquestion : (.ok [("question", .str "1")] : Except String (List (String × Json))) =
        .ok [("question", .str "3")] := hfirst.trans hsecond.symm
    simp at hquestion

/-- The shuffled plan selects its first task, the control's second, and the teacher of its second
attempt shows the control's first. -/
theorem teacher_shows_other_task : ∃ planning, expectedPlanning shuffledState = .ok planning ∧
    ∃ plan ∈ planning.1, ∃ ordered candidate components,
      plan.teacher = some labeledTeacher ∧
      orderedLabeledForPlan shuffledState plan = .ok ordered ∧
      materializeBootstrapTeacher shuffledRun shuffledState plan secondAttempt = .ok candidate ∧
      teacherComponents shuffledState (some firstSelection) secondAttempt = .ok components ∧
      ¬ TeacherFollowsPlan shuffledState firstSelection secondAttempt ordered components := by
  obtain ⟨planning,hplanning,plan,hplan,hhashes,hteacher⟩ := shuffled_plan
  obtain ⟨candidate,hcandidate⟩ := shuffled_teacher plan hteacher
  have hordered : orderedLabeledForPlan shuffledState plan =
      .ok [secondTask, thirdTask, firstTask] := by
    rw [orderedLabeledForPlan, hhashes]
    exact shuffled_order
  exact ⟨planning, hplanning, plan, hplan, _, candidate, _, hteacher, hordered, hcandidate,
    shuffled_components, fun hfollows =>
      shuffled_disagrees ((teacher_follows_iff shuffled_components _).mp hfollows)⟩

/-- The labeled tasks of the shuffled plan. -/
theorem selection_denotes_plan_tasks_sample :
    ∃ planning, expectedPlanning shuffledState = .ok planning ∧
      ∃ plan ∈ planning.1, ∃ ordered, plan.trainsetTaskHashes = threeTasks.rotate 1 ∧
        orderedLabeledForPlan shuffledState plan = .ok ordered ∧
        ordered.map (fun task => task.sourceTaskHash) = plan.trainsetTaskHashes := by
  obtain ⟨planning,hplanning,plan,hplan,hhashes,_⟩ := shuffled_plan
  obtain ⟨ordered,hordered,hsame,_⟩ :=
    selection_denotes_plan_tasks shuffledRun rfl hplanning hplan
  exact ⟨planning, hplanning, plan, hplan, ordered, hhashes, hordered, hsame⟩

end Example

end Whetstone.Optim.Miprov2
