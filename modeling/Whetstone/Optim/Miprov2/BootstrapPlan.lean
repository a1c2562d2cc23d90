import Whetstone.Optim.Miprov2.Demo

/-! The plans of the few-shot candidates of MIPROv2: which tasks a candidate bootstraps from, in
which order, and which labeled tasks its prompts show. -/
namespace Whetstone.Optim.Miprov2
open Whetstone.Core Whetstone.Lib

def bootstrapPlanSchema : String := "whetstone.miprov2_bootstrap_plan"
def bootstrapAttemptSchema : String := "whetstone.miprov2_bootstrap_attempt"
def bootstrapSchemaVersion : Nat := 1
def traceSelectionProjectionVersion : String := "dspy_example_pickle_protocol4_cpython/v1"
def zeroShotBootstrappedDemosInProposal : Int := 3
def zeroShotLabeledDemosInProposal : Int := 0
def demoBridgeVersion : String := "whetstone_component_demo_bridge/v1"

/-! ### Draws of a generator -/

/-- The draws of `random.Random` on lists. A shuffle and a sample move positions, whatever
stands at them. -/
class RandomDraws extends RandomSample where
  shuffle : Rng → (size : Nat) → List Nat × Rng
  randint : Rng → Int → Int → Int × Rng
  shuffle_perm : ∀ rng size, (shuffle rng size).1.Perm (List.range size)
  sample_nodup : ∀ rng population count, count ≤ population → (sample rng population count).1.Nodup
  sample_lt : ∀ rng population count, count ≤ population →
    ∀ index ∈ (sample rng population count).1, index < population

section Draws

variable [RandomDraws] {α : Type}

def takePositions (items : List α) (positions : List Nat) : List α :=
  positions.filterMap fun position => items[position]?

def shuffleList (rng : RandomSample.Rng) (items : List α) : List α × RandomSample.Rng :=
  let drawn := RandomDraws.shuffle rng items.length
  (takePositions items drawn.1, drawn.2)

def sampleList (rng : RandomSample.Rng) (items : List α) (count : Nat) :
    Except String (List α × RandomSample.Rng) := do
  let drawn ← sampleRange rng items.length count
  return (takePositions items drawn.1, drawn.2)

def randintBetween (rng : RandomSample.Rng) (low high : Int) :
    Except String (Int × RandomSample.Rng) := do
  raiseIf (high < low) "empty range for randrange()"
  return RandomDraws.randint rng low high

end Draws

/-! ### Bindings -/

structure BindingFields where
  controlIdentityHash : String
  promptRouteIdentityHash : String
  taskRouteIdentityHash : String
  executionPolicyIdentityHash : String
  promptAdapterIdentityHash : String
  proposalExecutorPolicyIdentityHash : String
  proposalTransportDurabilityIdentityHash : String
  baseCandidateIdentityHash : String
  teacherCandidateIdentityHash : String
deriving DecidableEq

namespace BindingFields

/- The hashes with their names, in the order of the record. -/
def hashes (bindings : BindingFields) : List (String × String) :=
  [("control_identity_hash", bindings.controlIdentityHash),
    ("prompt_route_identity_hash", bindings.promptRouteIdentityHash),
    ("task_route_identity_hash", bindings.taskRouteIdentityHash),
    ("execution_policy_identity_hash", bindings.executionPolicyIdentityHash),
    ("prompt_adapter_identity_hash", bindings.promptAdapterIdentityHash),
    ("proposal_executor_policy_identity_hash", bindings.proposalExecutorPolicyIdentityHash),
    ("proposal_transport_durability_identity_hash",
      bindings.proposalTransportDurabilityIdentityHash),
    ("base_candidate_identity_hash", bindings.baseCandidateIdentityHash),
    ("teacher_candidate_identity_hash", bindings.teacherCandidateIdentityHash)]

def validate (bindings : BindingFields) : Except String Unit :=
  bindings.hashes.forM fun field => requireFullHash field.2 field.1

end BindingFields

structure Miprov2DurableBindings extends BindingFields where
  valid : toBindingFields.validate = .ok ()
deriving DecidableEq

instance : PyEq Miprov2DurableBindings := ⟨fun a b => decide (a = b)⟩

def Miprov2DurableBindings.modelDump (bindings : Miprov2DurableBindings) : Json :=
  .obj ((bindings.hashes.map fun field => (field.1, .str field.2)) ++
    [("demo_bridge_version", .str demoBridgeVersion)])

/-! ### Selections of labeled tasks -/

def validateSelection (componentIds : List String) (perComponentTaskIndices : List (List Nat)) :
    Except String Unit := do
  raiseIf (componentIds.length ≠ perComponentTaskIndices.length)
    "labeled selections must match the component count"
  raiseIf (¬ componentIds.Nodup) "component_ids must be unique"
  raiseIf ("" ∈ componentIds) "component_ids must be non-empty"

structure LabeledSelectionPlan where
  componentIds : List String
  perComponentTaskIndices : List (List Nat)
  sample : Bool
  valid : validateSelection componentIds perComponentTaskIndices = .ok ()
deriving DecidableEq

def LabeledSelectionPlan.create (componentIds : List String)
    (perComponentTaskIndices : List (List Nat)) (sample : Bool) :
    Except String LabeledSelectionPlan :=
  match h : validateSelection componentIds perComponentTaskIndices with
  | .ok () => .ok ⟨componentIds, perComponentTaskIndices, sample, h⟩
  | .error message => .error message

def LabeledSelectionPlan.modelDump (selection : LabeledSelectionPlan) : Json :=
  .obj [("component_ids", Json.list .str selection.componentIds),
    ("per_component_task_indices", Json.list (Json.list fun index : Nat => .int index)
      selection.perComponentTaskIndices),
    ("sample", .bool selection.sample)]

section Selections

variable [RandomDraws]

/- One generator draws the selections of all components, one after another. -/
def drawSelections (trainsetSize count : Nat) (sample : Bool) :
    List String → RandomSample.Rng → Except String (List (List Nat))
  | [], _ => .ok []
  | _ :: rest, rng => do
    if sample then
      let drawn ← sampleRange rng trainsetSize count
      let others ← drawSelections trainsetSize count sample rest drawn.2
      return drawn.1 :: others
    else
      let others ← drawSelections trainsetSize count sample rest rng
      return (List.range trainsetSize).take count :: others

def planLabeledSelection (componentIds : List String) (trainsetSize k : Nat) (sample : Bool) :
    Except String LabeledSelectionPlan := do
  let selections ← drawSelections trainsetSize (min k trainsetSize) sample componentIds
    (RandomSample.seeded 0)
  LabeledSelectionPlan.create componentIds selections sample

end Selections

/-! ### Teachers -/

inductive TeacherSource where
  | explicit
  | student
deriving DecidableEq

def TeacherSource.value : TeacherSource → String
  | .explicit => "explicit_teacher"
  | .student => "student"

def validateTeacher (initialCopy : String) (resetBeforeLabeledCompile : Bool)
    (labeledSelection : Option LabeledSelectionPlan) : Except String Unit := do
  raiseIf (initialCopy ≠ "deepcopy") "the frozen MIPROv2 teacher uses deepcopy"
  raiseIf (resetBeforeLabeledCompile ≠ labeledSelection.isSome)
    "teacher reset and labeled compilation must occur together"

structure TeacherPreparationPlan where
  source : TeacherSource
  initialCopy : String
  resetBeforeLabeledCompile : Bool
  labeledSelection : Option LabeledSelectionPlan
  valid : validateTeacher initialCopy resetBeforeLabeledCompile labeledSelection = .ok ()
deriving DecidableEq

def TeacherPreparationPlan.create (source : TeacherSource) (resetBeforeLabeledCompile : Bool)
    (labeledSelection : Option LabeledSelectionPlan) : Except String TeacherPreparationPlan :=
  match h : validateTeacher "deepcopy" resetBeforeLabeledCompile labeledSelection with
  | .ok () => .ok ⟨source, "deepcopy", resetBeforeLabeledCompile, labeledSelection, h⟩
  | .error message => .error message

def TeacherPreparationPlan.modelDump (teacher : TeacherPreparationPlan) : Json :=
  .obj [("source", .str teacher.source.value), ("initial_copy", .str teacher.initialCopy),
    ("reset_before_labeled_compile", .bool teacher.resetBeforeLabeledCompile),
    ("labeled_selection", Json.nullable LabeledSelectionPlan.modelDump teacher.labeledSelection)]

/-! ### Candidate plans -/

inductive FewshotSeedKind where
  | reset
  | labelsOnly
  | bootstrap
deriving DecidableEq

def FewshotSeedKind.value : FewshotSeedKind → String
  | .reset => "reset"
  | .labelsOnly => "labels_only"
  | .bootstrap => "bootstrap"

structure PlanFields (F : Type) where
  candidateOrdinal : Nat
  candidateSeed : Int
  bindings : Miprov2DurableBindings
  kind : FewshotSeedKind
  componentIds : List String
  trainsetTaskHashes : List String
  maxBootstrappedDemos : Int
  maxLabeledDemos : Int
  maxRounds : Int
  maxErrors : Int
  metricThreshold : Option F
  teacher : Option TeacherPreparationPlan
  labelsOnlySelection : Option LabeledSelectionPlan
  traceSelectionProjectionVersion : String

section Plans

variable {F : Type} [FiniteFloats F]

def requireTaskHashes (trainsetTaskHashes : List String) : Except String Unit :=
  trainsetTaskHashes.zipIdx.forM fun entry =>
    requireFullHash entry.1 ("trainset_task_hashes[" ++ toString entry.2 ++ "]")

def requireComponentIds (componentIds : List String) : Except String Unit := do
  raiseIf (componentIds = []) "at least one component is required"
  raiseIf (¬ componentIds.Nodup) "component_ids must be unique"

def requireCaps (maxBootstrappedDemos maxLabeledDemos maxErrors maxRounds : Int) :
    Except String Unit := do
  raiseIf (maxBootstrappedDemos < 0) "max_bootstrapped_demos cannot be negative"
  raiseIf (maxLabeledDemos < 0) "max_labeled_demos cannot be negative"
  raiseIf (maxErrors < 0) "max_errors cannot be negative"
  raiseIf (maxRounds ≤ 0) "max_rounds must be positive"

def requireThreshold (metricThreshold : Option F) : Except String Unit :=
  raiseIf (metricThreshold.any fun threshold => FloatOps.isFinite threshold = false)
    "metric_threshold must be finite"

def PlanFields.requireKind (plan : PlanFields F) : Except String Unit :=
  match plan.kind with
  | .reset => raiseIf (plan.teacher.isSome ∨ plan.labelsOnlySelection.isSome)
      "a reset candidate has no teacher or labels"
  | .labelsOnly => raiseIf (plan.teacher.isSome ∨ plan.labelsOnlySelection.isNone)
      "a labels-only candidate needs only label selections"
  | .bootstrap => raiseIf (plan.teacher.isNone ∨ plan.labelsOnlySelection.isSome)
      "a bootstrap candidate needs exactly one teacher"

def PlanFields.validate (plan : PlanFields F) : Except String Unit := do
  requireTaskHashes plan.trainsetTaskHashes
  requireComponentIds plan.componentIds
  raiseIf ("" ∈ plan.componentIds) "component_ids must be non-empty"
  requireCaps plan.maxBootstrappedDemos plan.maxLabeledDemos plan.maxErrors plan.maxRounds
  requireThreshold plan.metricThreshold
  plan.requireKind
  raiseIf (plan.traceSelectionProjectionVersion ≠ Miprov2.traceSelectionProjectionVersion)
    "MIPROv2 trace selection projection is fixed"

structure FewshotCandidatePlan (F : Type) [FiniteFloats F] extends PlanFields F where
  valid : toPlanFields.validate = .ok ()

def PlanFields.modelValidate (plan : PlanFields F) : Except String (FewshotCandidatePlan F) :=
  match h : plan.validate with
  | .ok () => .ok ⟨plan, h⟩
  | .error message => .error message

/- Floats are compared as `==` does. -/
def thresholdEq (a b : Option F) : Bool := optionEq FiniteFloats.eq a b

instance : PyEq (FewshotCandidatePlan F) := ⟨fun a b =>
  pyEq a.candidateOrdinal b.candidateOrdinal && pyEq a.candidateSeed b.candidateSeed &&
    pyEq a.bindings b.bindings && decide (a.kind = b.kind) &&
    pyEq a.componentIds b.componentIds && pyEq a.trainsetTaskHashes b.trainsetTaskHashes &&
    pyEq a.maxBootstrappedDemos b.maxBootstrappedDemos &&
    pyEq a.maxLabeledDemos b.maxLabeledDemos && pyEq a.maxRounds b.maxRounds &&
    pyEq a.maxErrors b.maxErrors && thresholdEq a.metricThreshold b.metricThreshold &&
    decide (a.teacher = b.teacher) && decide (a.labelsOnlySelection = b.labelsOnlySelection) &&
    pyEq a.traceSelectionProjectionVersion b.traceSelectionProjectionVersion⟩

def FewshotCandidatePlan.identityPayload [FloatJson F] (plan : FewshotCandidatePlan F) : Json :=
  .obj [("candidate_ordinal", .int plan.candidateOrdinal),
    ("candidate_seed", .int plan.candidateSeed), ("bindings", plan.bindings.modelDump),
    ("kind", .str plan.kind.value), ("component_ids", Json.list .str plan.componentIds),
    ("trainset_task_hashes", Json.list .str plan.trainsetTaskHashes),
    ("max_bootstrapped_demos", .int plan.maxBootstrappedDemos),
    ("max_labeled_demos", .int plan.maxLabeledDemos), ("max_rounds", .int plan.maxRounds),
    ("max_errors", .int plan.maxErrors),
    ("metric_threshold", Json.nullable FloatJson.number plan.metricThreshold),
    ("teacher", Json.nullable TeacherPreparationPlan.modelDump plan.teacher),
    ("labels_only_selection",
      Json.nullable LabeledSelectionPlan.modelDump plan.labelsOnlySelection),
    ("trace_selection_projection_version", .str plan.traceSelectionProjectionVersion)]

def FewshotCandidatePlan.identityHash [FloatJson F] [IdentityHasher]
    (plan : FewshotCandidatePlan F) : String :=
  IdentityHasher.computeIdentityHash bootstrapPlanSchema bootstrapSchemaVersion
    plan.identityPayload

/-! ### Planning -/

structure FewshotCandidatePlanningInputs (F : Type) where
  bindings : Miprov2DurableBindings
  componentIds : List String
  trainsetTaskHashes : List String
  numCandidateSets : Int
  maxBootstrappedDemos : Int
  maxLabeledDemos : Int
  maxErrors : Int
  maxRounds : Int
  labeledSample : Bool
  minNumSamples : Int
  metricThreshold : Option F
  explicitTeacher : Bool
  teacherCompiled : Bool
  includeNonBootstrapped : Bool
  demoMode : Miprov2DemoMode

namespace FewshotCandidatePlanningInputs

def requireInputs (inputs : FewshotCandidatePlanningInputs F) : Except String Unit := do
  requireComponentIds inputs.componentIds
  raiseIf (inputs.numCandidateSets ≤ 0) "num_candidate_sets must be positive"
  requireCaps inputs.maxBootstrappedDemos inputs.maxLabeledDemos inputs.maxErrors inputs.maxRounds
  raiseIf (inputs.minNumSamples ≤ 0) "min_num_samples must be positive"
  requireThreshold inputs.metricThreshold
  requireTaskHashes inputs.trainsetTaskHashes

/- Zero-shot controls cap the demonstrations at zero and still ground proposals in a few. -/
def caps (inputs : FewshotCandidatePlanningInputs F) : Except String (Int × Int) :=
  if inputs.demoMode = .zeroshot then do
    raiseIf (inputs.maxBootstrappedDemos ≠ 0 ∨ inputs.maxLabeledDemos ≠ 0)
      "zero-shot MIPROv2 requires zero demonstration caps"
    return (zeroShotBootstrappedDemosInProposal, zeroShotLabeledDemosInProposal)
  else .ok (inputs.maxBootstrappedDemos, inputs.maxLabeledDemos)

def isReset (inputs : FewshotCandidatePlanningInputs F) (seed : Int) : Bool :=
  seed = -3 ∧ inputs.includeNonBootstrapped

def isLabelsOnly (inputs : FewshotCandidatePlanningInputs F) (maxLabeledDemos seed : Int) : Bool :=
  seed = -2 ∧ 0 < maxLabeledDemos ∧ inputs.includeNonBootstrapped

def isGeneric (inputs : FewshotCandidatePlanningInputs F) (maxLabeledDemos seed : Int) : Bool :=
  ¬ (inputs.isReset seed ∨ inputs.isLabelsOnly maxLabeledDemos seed ∨ seed = -1)

/- `range(-3, num_candidate_sets - 3)` -/
def candidateSeeds (inputs : FewshotCandidatePlanningInputs F) : List Int :=
  (List.range inputs.numCandidateSets.toNat).map fun (index : Nat) => (index : Int) - 3

def planOf (inputs : FewshotCandidatePlanningInputs F) (ordinal : Nat) (seed : Int)
    (kind : FewshotSeedKind) (trainset : List String) (maxBootstrapped maxLabeled : Int)
    (teacher : Option TeacherPreparationPlan) (labels : Option LabeledSelectionPlan) :
    Except String (FewshotCandidatePlan F) :=
  PlanFields.modelValidate
    { candidateOrdinal := ordinal, candidateSeed := seed, bindings := inputs.bindings, kind := kind
      componentIds := inputs.componentIds, trainsetTaskHashes := trainset
      maxBootstrappedDemos := maxBootstrapped, maxLabeledDemos := maxLabeled
      maxRounds := inputs.maxRounds, maxErrors := inputs.maxErrors
      metricThreshold := inputs.metricThreshold, teacher := teacher, labelsOnlySelection := labels
      traceSelectionProjectionVersion := Miprov2.traceSelectionProjectionVersion }

variable [RandomDraws]

/- The task order and the cap of a bootstrap candidate. The seed -1 draws nothing. -/
def bootstrapDraws (inputs : FewshotCandidatePlanningInputs F) (maxBootstrapped seed : Int)
    (rng : RandomSample.Rng) : Except String (List String × Int × RandomSample.Rng) :=
  if seed = -1 then .ok (inputs.trainsetTaskHashes, maxBootstrapped, rng)
  else do
    let shuffled := shuffleList rng inputs.trainsetTaskHashes
    let drawn ← randintBetween shuffled.2 inputs.minNumSamples maxBootstrapped
    return (shuffled.1, drawn)

def bootstrapTeacher (inputs : FewshotCandidatePlanningInputs F) (maxLabeled : Int)
    (trainset : List String) : Except String TeacherPreparationPlan :=
  let source : TeacherSource := if inputs.explicitTeacher then .explicit else .student
  if maxLabeled ≠ 0 ∧ inputs.teacherCompiled = false then do
    let selection ← planLabeledSelection inputs.componentIds trainset.length maxLabeled.toNat true
    TeacherPreparationPlan.create source true (some selection)
  else TeacherPreparationPlan.create source false none

def planCandidate (inputs : FewshotCandidatePlanningInputs F) (maxBootstrapped maxLabeled : Int)
    (ordinal : Nat) (seed : Int) (rng : RandomSample.Rng) :
    Except String (FewshotCandidatePlan F × RandomSample.Rng) := do
  let trainset := inputs.trainsetTaskHashes
  if inputs.isReset seed then
    let plan ← inputs.planOf ordinal seed .reset trainset maxBootstrapped maxLabeled none none
    return (plan, rng)
  else if inputs.isLabelsOnly maxLabeled seed then
    let labels ← planLabeledSelection inputs.componentIds trainset.length maxLabeled.toNat
      inputs.labeledSample
    let plan ← inputs.planOf ordinal seed .labelsOnly trainset maxBootstrapped maxLabeled none
      (some labels)
    return (plan, rng)
  else
    let drawn ← inputs.bootstrapDraws maxBootstrapped seed rng
    let teacher ← inputs.bootstrapTeacher maxLabeled drawn.1
    let plan ← inputs.planOf ordinal seed .bootstrap drawn.1 drawn.2.1 maxLabeled (some teacher)
      none
    return (plan, drawn.2.2)

def planCandidates (inputs : FewshotCandidatePlanningInputs F) (maxBootstrapped maxLabeled : Int) :
    List Int → Nat → RandomSample.Rng →
    Except String (List (FewshotCandidatePlan F) × RandomSample.Rng)
  | [], _, rng => .ok ([], rng)
  | seed :: rest, ordinal, rng => do
    let first ← inputs.planCandidate maxBootstrapped maxLabeled ordinal seed rng
    let others ← planCandidates inputs maxBootstrapped maxLabeled rest (ordinal + 1) first.2
    return (first.1 :: others.1, others.2)

/- `_build_fewshot_candidate_plans`: the plans, and the generator after their draws. -/
def build (inputs : FewshotCandidatePlanningInputs F) (rng : RandomSample.Rng) :
    Except String (List (FewshotCandidatePlan F) × RandomSample.Rng) := do
  inputs.requireInputs
  let caps ← inputs.caps
  raiseIf ((inputs.candidateSeeds.any (inputs.isGeneric caps.2)) = true ∧
      caps.1 < inputs.minNumSamples)
    ("max_bootstrapped_demos must be at least min_num_samples " ++
      "when a shuffled bootstrap candidate is planned")
  inputs.planCandidates caps.1 caps.2 inputs.candidateSeeds 0 rng

end FewshotCandidatePlanningInputs

/- `create_fewshot_candidate_plans` with its defaults. -/
def createFewshotCandidatePlans [RandomDraws] (bindings : Miprov2DurableBindings)
    (componentIds trainsetTaskHashes : List String)
    (numCandidateSets maxBootstrappedDemos maxLabeledDemos maxErrors : Int)
    (metricThreshold : Option F) (explicitTeacher teacherCompiled : Bool)
    (rng : RandomSample.Rng) (demoMode : Miprov2DemoMode) :
    Except String (List (FewshotCandidatePlan F) × RandomSample.Rng) := do
  let inputs : FewshotCandidatePlanningInputs F :=
    { bindings := bindings, componentIds := componentIds, trainsetTaskHashes := trainsetTaskHashes
      numCandidateSets := numCandidateSets, maxBootstrappedDemos := maxBootstrappedDemos
      maxLabeledDemos := maxLabeledDemos, maxErrors := maxErrors, maxRounds := 1
      labeledSample := true, minNumSamples := 1, metricThreshold := metricThreshold
      explicitTeacher := explicitTeacher, teacherCompiled := teacherCompiled
      includeNonBootstrapped := true, demoMode := demoMode }
  let planned ← inputs.build rng
  raiseIf (demoMode = .zeroshot ∧ planned.1.isEmpty)
    "zero-shot MIPROv2 plans the 3/0 grounding bootstrap"
  return planned

/-! ### Plans have the tasks of their inputs -/

theorem PlanFields.modelValidate_eq {fields : PlanFields F} {plan : FewshotCandidatePlan F}
    (h : fields.modelValidate = .ok plan) : plan.toPlanFields = fields := by
  unfold PlanFields.modelValidate at h
  split at h
  · cases h
    rfl
  · cases h

theorem takePositions_range {α : Type} (items : List α) :
    takePositions items (List.range items.length) = items := by
  induction items with
  | nil => rfl
  | cons item rest ih =>
    rw [takePositions, List.length_cons, List.range_succ_eq_map]
    simpa [takePositions, List.filterMap_map, Function.comp_def] using ih

theorem shuffleList_perm [RandomDraws] {α : Type} (rng : RandomSample.Rng) (items : List α) :
    (shuffleList rng items).1.Perm items := by
  have hmoved := (RandomDraws.shuffle_perm rng items.length).filterMap fun position =>
    items[position]?
  exact hmoved.trans (List.Perm.of_eq (takePositions_range items))

namespace FewshotCandidatePlanningInputs

theorem planOf_trainset {inputs : FewshotCandidatePlanningInputs F} {ordinal : Nat} {seed : Int}
    {kind : FewshotSeedKind} {trainset : List String} {maxBootstrapped maxLabeled : Int}
    {teacher : Option TeacherPreparationPlan} {labels : Option LabeledSelectionPlan}
    {plan : FewshotCandidatePlan F}
    (h : inputs.planOf ordinal seed kind trainset maxBootstrapped maxLabeled teacher labels =
      .ok plan) : plan.trainsetTaskHashes = trainset :=
  congrArg PlanFields.trainsetTaskHashes (PlanFields.modelValidate_eq h)

variable [RandomDraws]

theorem planCandidate_perm {inputs : FewshotCandidatePlanningInputs F}
    {maxBootstrapped maxLabeled : Int} {ordinal : Nat} {seed : Int} {rng : RandomSample.Rng}
    {planned : FewshotCandidatePlan F × RandomSample.Rng}
    (h : inputs.planCandidate maxBootstrapped maxLabeled ordinal seed rng = .ok planned) :
    planned.1.trainsetTaskHashes.Perm inputs.trainsetTaskHashes := by
  unfold planCandidate at h
  split at h
  · simp only [bind_eq_ok, pure, Except.pure, Except.ok.injEq] at h
    obtain ⟨plan,hplan,rfl⟩ := h
    rw [planOf_trainset hplan]
  · split at h
    · simp only [bind_eq_ok, pure, Except.pure, Except.ok.injEq] at h
      obtain ⟨labels,_,plan,hplan,rfl⟩ := h
      rw [planOf_trainset hplan]
    · simp only [bind_eq_ok, pure, Except.pure, Except.ok.injEq] at h
      obtain ⟨drawn,hdrawn,teacher,_,plan,hplan,rfl⟩ := h
      rw [planOf_trainset hplan]
      unfold bootstrapDraws at hdrawn
      split at hdrawn
      · cases hdrawn
        exact List.Perm.refl _
      · simp only [bind_eq_ok, pure, Except.pure, Except.ok.injEq] at hdrawn
        obtain ⟨drawn,_,rfl⟩ := hdrawn
        exact shuffleList_perm rng inputs.trainsetTaskHashes

theorem planCandidates_perm {inputs : FewshotCandidatePlanningInputs F}
    {maxBootstrapped maxLabeled : Int} {seeds : List Int} {ordinal : Nat} {rng : RandomSample.Rng}
    {planned : List (FewshotCandidatePlan F) × RandomSample.Rng}
    (h : inputs.planCandidates maxBootstrapped maxLabeled seeds ordinal rng = .ok planned) :
    ∀ plan ∈ planned.1, plan.trainsetTaskHashes.Perm inputs.trainsetTaskHashes := by
  induction seeds generalizing ordinal rng planned with
  | nil =>
    cases h
    exact fun _ hmem => absurd hmem List.not_mem_nil
  | cons seed rest ih =>
    simp only [planCandidates, bind_eq_ok, pure, Except.pure, Except.ok.injEq] at h
    obtain ⟨first,hfirst,others,hothers,rfl⟩ := h
    exact List.forall_mem_cons.mpr ⟨planCandidate_perm hfirst, ih hothers⟩

end FewshotCandidatePlanningInputs

/-- A plan orders the tasks of the training set. -/
theorem createFewshotCandidatePlans_perm [RandomDraws] {bindings : Miprov2DurableBindings}
    {componentIds trainsetTaskHashes : List String}
    {numCandidateSets maxBootstrappedDemos maxLabeledDemos maxErrors : Int}
    {metricThreshold : Option F} {explicitTeacher teacherCompiled : Bool}
    {rng : RandomSample.Rng} {demoMode : Miprov2DemoMode}
    {planned : List (FewshotCandidatePlan F) × RandomSample.Rng}
    (h : createFewshotCandidatePlans bindings componentIds trainsetTaskHashes numCandidateSets
      maxBootstrappedDemos maxLabeledDemos maxErrors metricThreshold explicitTeacher
      teacherCompiled rng demoMode = .ok planned) :
    ∀ plan ∈ planned.1, plan.trainsetTaskHashes.Perm trainsetTaskHashes := by
  simp only [createFewshotCandidatePlans, FewshotCandidatePlanningInputs.build, bind_eq_ok, pure,
    Except.pure, Except.ok.injEq] at h
  obtain ⟨_,⟨_,_,_,_,_,_,hplanned⟩,_,_,rfl⟩ := h
  exact FewshotCandidatePlanningInputs.planCandidates_perm hplanned

end Plans

end Whetstone.Optim.Miprov2
