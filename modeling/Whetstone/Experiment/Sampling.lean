import Whetstone.Eval.Plan

/-! Evaluation splits: the task set, seed plan and configs derived for one split role, and the
splits of an experiment. -/
namespace Whetstone.Experiment
open Whetstone.Core Whetstone.Lib Whetstone.Eval

def definitionVersion : String := "1"

inductive EvalRole where
  | internal
  | official
  | heldOut
deriving DecidableEq, Inhabited

inductive SplitRole where
  | internalEval
  | official
  | heldOut
deriving DecidableEq, Inhabited

def SplitRole.value : SplitRole → String
  | .internalEval => "internal_eval"
  | .official => "official"
  | .heldOut => "held_out"

def evaluationRoleForSplit : SplitRole → EvalRole
  | .internalEval => .internal
  | .official => .official
  | .heldOut => .heldOut

structure SamplingTask where
  taskId : String
  promptInputs : List (String × String)
deriving DecidableEq, Inhabited

structure EvalSplit where
  splitRole : SplitRole
  tasks : List SamplingTask
  taskSet : TaskSet
  seedPlan : SeedPlan
  samplingConfig : SamplingConfig
  procedureConfig : EvalProcedureConfig
  aggregationConfig : AggregationConfig
  evalConfig : EvalConfig
deriving DecidableEq

section Derive

variable [IdentityHasher]

/- The configs of a split, from its task set and seed plan. -/
def assembleSplit (namespaceName : String) (splitRole : SplitRole) (tasks : List SamplingTask)
    (taskSet : TaskSet) (seedPlan : SeedPlan) (samplingVersion evalVersion : String)
    (procedure : EvalProcedureConfig) (aggregation : AggregationConfig) :
    Except String EvalSplit := do
  let sampling ← materializeSampling (namespaceName ++ "." ++ splitRole.value ++ ".sampling")
    samplingVersion [("task_set_hash", .str taskSet.identityHash),
      ("seed_plan_hash", .str seedPlan.identityHash)]
  let evalConfig := materializeEval (namespaceName ++ ".eval") evalVersion sampling procedure
    aggregation
  return ⟨splitRole, tasks, taskSet, seedPlan, sampling, procedure, aggregation, evalConfig⟩

def deriveEvalSplit (namespaceName datasetRevision : String) (splitRole : SplitRole)
    (tasks : List SamplingTask) (taskHashOf : SamplingTask → String)
    (procedure : EvalProcedureConfig) (aggregation : AggregationConfig) (numSeeds : Nat) :
    Except String EvalSplit := do
  raiseIf (numSeeds < 1) ("num_seeds must be at least 1; got " ++ toString numSeeds)
  let taskHashes := tasks.map taskHashOf
  let taskSet ← TaskSet.create (namespaceName ++ "." ++ splitRole.value) definitionVersion
    datasetRevision taskHashes
  let seedPlan ← SeedPlan.create (namespaceName ++ "." ++ splitRole.value) definitionVersion
    taskHashes numSeeds []
  assembleSplit namespaceName splitRole tasks taskSet seedPlan definitionVersion definitionVersion
    procedure aggregation

end Derive

/-! ### The splits of an experiment -/

def checkRole (expected : SplitRole) (split : EvalSplit) : Except String Unit :=
  raiseIf (split.splitRole ≠ expected) ("eval configs field for '" ++ expected.value ++
    "' carries split role '" ++ split.splitRole.value ++ "'")

def checkProcedure (procedureConfigHash : String) (role : SplitRole) (split : EvalSplit) :
    Except String Unit := do
  raiseIf (split.procedureConfig.configHash ≠ procedureConfigHash) ("split '" ++ role.value ++
    "' derived with evaluation procedure '" ++ split.procedureConfig.configHash ++
    "', not the experiment's shared procedure '" ++ procedureConfigHash ++ "'")
  raiseIf (split.evalConfig.evaluationProcedureConfigHash ≠ procedureConfigHash) ("split '" ++
    role.value ++ "' persists an Eval Config recording evaluation procedure '" ++
    split.evalConfig.evaluationProcedureConfigHash ++
    "', not the experiment's shared procedure '" ++ procedureConfigHash ++ "'")

def sharedHashes (left right : EvalSplit) : List String :=
  left.taskSet.taskHashes.filter (· ∈ right.taskSet.taskHashes)

def checkDisjoint (left right : SplitRole × EvalSplit) : Except String Unit :=
  let shared := sharedHashes left.2 right.2
  let sample := ", ".intercalate ((shared.mergeSort (fun a b => decide (a ≤ b))).take 3)
  raiseIf (shared ≠ []) ("splits '" ++ left.1.value ++ "' and '" ++ right.1.value ++ "' share " ++
    toString shared.length ++ (if left.1 = .heldOut ∨ right.1 = .heldOut then
      " held-out task identities: " else " task identities: ") ++ sample)

def presentSplits (internal official : EvalSplit) (heldOut : Option EvalSplit) :
    List (SplitRole × EvalSplit) :=
  [(.internalEval, internal), (.official, official)] ++
    match heldOut with
    | some split => [(.heldOut, split)]
    | none => []

def checkPairs : List (SplitRole × EvalSplit) → Except String Unit
  | [] => .ok ()
  | left :: rest => do
    rest.forM (checkDisjoint left)
    checkPairs rest

def validateEvalConfigs (procedureConfigHash : String) (internal official : EvalSplit)
    (heldOut : Option EvalSplit) : Except String Unit := do
  let present := presentSplits internal official heldOut
  present.forM fun p => checkRole p.1 p.2
  present.forM fun p => checkProcedure procedureConfigHash p.1 p.2
  checkPairs present

structure EvalConfigs where
  procedureConfigHash : String
  internal : EvalSplit
  official : EvalSplit
  heldOut : Option EvalSplit
  valid : validateEvalConfigs procedureConfigHash internal official heldOut = .ok ()

def EvalConfigs.splitFor (configs : EvalConfigs) (splitRole : SplitRole) :
    Except String EvalSplit :=
  match splitRole, configs.heldOut with
  | .internalEval, _ => .ok configs.internal
  | .official, _ => .ok configs.official
  | .heldOut, some split => .ok split
  | .heldOut, none => .error "no eval split for split role 'held_out'"

/-! ### Derived splits in closed form -/

variable [IdentityHasher]

/- What the splits of one role share. -/
structure SplitFrame where
  namespaceName : String
  datasetRevision : String
  splitRole : SplitRole
  procedure : EvalProcedureConfig
  aggregation : AggregationConfig

def SplitFrame.planId (frame : SplitFrame) : String :=
  frame.namespaceName ++ "." ++ frame.splitRole.value

def SplitFrame.samplingConfig (frame : SplitFrame) (taskSet : TaskSet) (seedPlan : SeedPlan) :
    SamplingConfig :=
  let ref := definitionRef schemaSamplingDefinition (frame.planId ++ ".sampling")
    definitionVersion samplingVariables
  let assignment : Assignment := [("task_set_hash", .str taskSet.identityHash),
    ("seed_plan_hash", .str seedPlan.identityHash)]
  ⟨ref, assignment, identityHashFor schemaSamplingConfig (.obj [
    ("definition_identity", .str ref.identityHash),
    ("assignment", assignmentPayload assignment)])⟩

def SplitFrame.split (frame : SplitFrame) (tasks : List SamplingTask) (taskSet : TaskSet)
    (seedPlan : SeedPlan) : EvalSplit where
  splitRole := frame.splitRole
  tasks := tasks
  taskSet := taskSet
  seedPlan := seedPlan
  samplingConfig := frame.samplingConfig taskSet seedPlan
  procedureConfig := frame.procedure
  aggregationConfig := frame.aggregation
  evalConfig := materializeEval (frame.namespaceName ++ ".eval") definitionVersion
    (frame.samplingConfig taskSet seedPlan) frame.procedure frame.aggregation

theorem assembleSplit_eq (frame : SplitFrame) (tasks : List SamplingTask) (taskSet : TaskSet)
    (seedPlan : SeedPlan) :
    assembleSplit frame.namespaceName frame.splitRole tasks taskSet seedPlan definitionVersion
      definitionVersion frame.procedure frame.aggregation =
      .ok (frame.split tasks taskSet seedPlan) := by
  rw [assembleSplit, materializeSampling, resolveAssignment_sampling]
  rfl

/-- A frame, the tasks and their hashes, and the seeds determine a split. -/
structure FramedSplit (frame : SplitFrame) (tasks : List SamplingTask) (taskHashes : List String)
    (numSeeds : Nat) (rngSeeds : List (String × Int)) (split : EvalSplit) : Prop where
  taskSet : TaskSet.create frame.planId definitionVersion frame.datasetRevision taskHashes =
    .ok split.taskSet
  seedPlan : SeedPlan.create frame.planId definitionVersion taskHashes numSeeds rngSeeds =
    .ok split.seedPlan
  split_eq : split = frame.split tasks split.taskSet split.seedPlan

namespace FramedSplit

variable {frame : SplitFrame} {tasks : List SamplingTask} {taskHashes : List String}
variable {numSeeds : Nat} {rngSeeds : List (String × Int)} {split : EvalSplit}

theorem unique {split' : EvalSplit} (h : FramedSplit frame tasks taskHashes numSeeds rngSeeds split)
    (h' : FramedSplit frame tasks taskHashes numSeeds rngSeeds split') : split = split' := by
  have htask : split.taskSet = split'.taskSet := Except.ok.inj (h.taskSet.symm.trans h'.taskSet)
  have hplan : split.seedPlan = split'.seedPlan :=
    Except.ok.inj (h.seedPlan.symm.trans h'.seedPlan)
  rw [h.split_eq, h'.split_eq, htask, hplan]

theorem tasks_eq (h : FramedSplit frame tasks taskHashes numSeeds rngSeeds split) :
    split.tasks = tasks := by
  rw [h.split_eq]
  rfl

theorem splitRole_eq (h : FramedSplit frame tasks taskHashes numSeeds rngSeeds split) :
    split.splitRole = frame.splitRole := by
  rw [h.split_eq]
  rfl

theorem taskHashes_eq (h : FramedSplit frame tasks taskHashes numSeeds rngSeeds split) :
    split.taskSet.taskHashes = taskHashes :=
  (TaskSet.create_eq_ok h.taskSet).2.2.2.1

theorem numSeeds_eq (h : FramedSplit frame tasks taskHashes numSeeds rngSeeds split) :
    split.seedPlan.numSeeds = numSeeds :=
  (SeedPlan.create_eq_ok h.seedPlan).2.2.2.1

theorem rngSeeds_eq (h : FramedSplit frame tasks taskHashes numSeeds rngSeeds split) :
    split.seedPlan.rngSeeds = rngSeeds :=
  (SeedPlan.create_eq_ok h.seedPlan).2.2.2.2

theorem hashes_nodup (h : FramedSplit frame tasks taskHashes numSeeds rngSeeds split) :
    taskHashes.Nodup := (TaskSet.create_eq_ok h.taskSet).2.2.2.2.2.2

theorem numSeeds_pos (h : FramedSplit frame tasks taskHashes numSeeds rngSeeds split) :
    1 ≤ numSeeds := by
  have hpos := split.seedPlan.numSeeds_pos
  rwa [h.numSeeds_eq] at hpos

theorem records (h : FramedSplit frame tasks taskHashes numSeeds rngSeeds split) :
    split.taskSet.datasetRevision = frame.datasetRevision ∧
      split.taskSet.version = definitionVersion ∧ split.seedPlan.version = definitionVersion ∧
      split.samplingConfig.definitionRef.version = definitionVersion ∧
      split.evalConfig.definitionRef.version = definitionVersion ∧
      split.procedureConfig = frame.procedure ∧ split.aggregationConfig = frame.aggregation := by
  obtain ⟨_,htask,hrevision,_⟩ := TaskSet.create_eq_ok h.taskSet
  obtain ⟨_,hplan,_⟩ := SeedPlan.create_eq_ok h.seedPlan
  refine ⟨hrevision, htask, hplan, ?_⟩
  rw [h.split_eq]
  exact ⟨rfl, rfl, rfl, rfl⟩

/- The seeds are no part of the identity, so they do not show in the configs. -/
theorem samplingConfig_seeds {rngSeeds' : List (String × Int)} {taskSet : TaskSet}
    {plan plan' : SeedPlan}
    (h : SeedPlan.create frame.planId definitionVersion taskHashes numSeeds rngSeeds = .ok plan)
    (h' : SeedPlan.create frame.planId definitionVersion taskHashes numSeeds rngSeeds' = .ok plan') :
    frame.samplingConfig taskSet plan = frame.samplingConfig taskSet plan' := by
  obtain ⟨h1,h2,h3,h4,_⟩ := SeedPlan.create_eq_ok h
  obtain ⟨h1',h2',h3',h4',_⟩ := SeedPlan.create_eq_ok h'
  have hhash : plan.identityHash = plan'.identityHash := by
    simp only [SeedPlan.identityHash, SeedPlan.identityPayload, h1, h2, h3, h4, h1', h2', h3', h4']
  simp only [SplitFrame.samplingConfig, hhash]

theorem evalConfig_eq {rngSeeds' : List (String × Int)} {tasks' : List SamplingTask}
    {split' : EvalSplit} (h : FramedSplit frame tasks taskHashes numSeeds rngSeeds split)
    (h' : FramedSplit frame tasks' taskHashes numSeeds rngSeeds' split') :
    split.evalConfig = split'.evalConfig := by
  have htask : split.taskSet = split'.taskSet := Except.ok.inj (h.taskSet.symm.trans h'.taskSet)
  rw [h.split_eq, h'.split_eq]
  simp only [SplitFrame.split, htask, samplingConfig_seeds h.seedPlan h'.seedPlan]

theorem withSeeds {rngSeeds' : List (String × Int)} {plan : SeedPlan}
    (h : FramedSplit frame tasks taskHashes numSeeds rngSeeds split)
    (hplan : SeedPlan.create frame.planId definitionVersion taskHashes numSeeds rngSeeds' =
      .ok plan) :
    FramedSplit frame tasks taskHashes numSeeds rngSeeds' { split with seedPlan := plan } where
  taskSet := h.taskSet
  seedPlan := hplan
  split_eq := by
    have hconfig : frame.samplingConfig split.taskSet split.seedPlan =
        frame.samplingConfig split.taskSet plan := samplingConfig_seeds h.seedPlan hplan
    rw [h.split_eq]
    simp only [SplitFrame.split, hconfig]

end FramedSplit

theorem deriveEvalSplit_framed {frame : SplitFrame} {tasks : List SamplingTask}
    {taskHashOf : SamplingTask → String} {numSeeds : Nat} {split : EvalSplit}
    (h : deriveEvalSplit frame.namespaceName frame.datasetRevision frame.splitRole tasks
      taskHashOf frame.procedure frame.aggregation numSeeds = .ok split) :
    FramedSplit frame tasks (tasks.map taskHashOf) numSeeds [] split := by
  simp only [deriveEvalSplit, bind_eq_ok, assembleSplit_eq] at h
  obtain ⟨_,_,taskSet,htask,seedPlan,hplan,hsplit⟩ := h
  cases hsplit
  exact ⟨htask, hplan, rfl⟩

theorem deriveEvalSplit_ok (frame : SplitFrame) (tasks : List SamplingTask)
    (taskHashOf : SamplingTask → String) (numSeeds : Nat) (hpos : 1 ≤ numSeeds)
    (hne : tasks ≠ []) (hnodup : (tasks.map taskHashOf).Nodup) :
    ∃ split, deriveEvalSplit frame.namespaceName frame.datasetRevision frame.splitRole tasks
      taskHashOf frame.procedure frame.aggregation numSeeds = .ok split := by
  have hhashes : tasks.map taskHashOf ≠ [] := by simpa using hne
  obtain ⟨taskSet,htask,_⟩ := TaskSet.create_ok frame.planId definitionVersion
    frame.datasetRevision _ hhashes hnodup
  obtain ⟨seedPlan,hplan,_⟩ := SeedPlan.create_ok frame.planId definitionVersion _ numSeeds []
    hpos hhashes hnodup List.nodup_nil (by simp)
  refine ⟨frame.split tasks taskSet seedPlan, ?_⟩
  have hlt : ¬ numSeeds < 1 := by omega
  simp only [SplitFrame.planId] at htask hplan
  simp only [deriveEvalSplit, raiseIf_neg _ _ hlt, ok_bind, htask, hplan, assembleSplit_eq]

end Whetstone.Experiment
