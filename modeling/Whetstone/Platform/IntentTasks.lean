import Whetstone.Eval.DerivedSampling
import Whetstone.Platform.StepExecutor

/-! The tasks of a deferred intent: those of the engine that serves the member, or the subset
whose hashes the intent declares. -/
namespace Whetstone.Platform
open Whetstone.Core Whetstone.Lib Whetstone.Eval Whetstone.Experiment

/- The ids a sampling view exposes; the view pairs the tasks with their hashes. -/
def samplingTaskIds (sampling : EvalSplit) : Except String (List String) := do
  raiseIf (∃ pair ∈ sampling.tasks.zip sampling.taskSet.taskHashes, pair.1.taskId = "")
    "sampling task must expose task_id or id"
  requireAligned sampling
  return sampling.tasks.map SamplingTask.taskId

def idByHash (sampling : EvalSplit) : Dict String String :=
  Dict.ofPairs (sampling.taskSet.taskHashes.zip (sampling.tasks.map SamplingTask.taskId))

def taskIdOfHash (sampling : EvalSplit) (taskHash : String) : Except String String :=
  match (idByHash sampling).get? taskHash with
  | some taskId => .ok taskId
  | none => .error ("engine sampling has no task with hash '" ++ taskHash ++ "'")

variable [IdentityHasher]

/- The sampling view the engine exposes first has paired every hash with its task. -/
def engineForTaskHashes (engine : EngineSampling) (taskHashes : List String) :
    Except String EngineSampling := do
  raiseIf (taskHashes = []) "an Eval Config derivation requires at least one task"
  raiseIf (¬ taskHashes.Nodup) "Eval Config derivation tasks must be unique"
  let taskIds ← taskHashes.mapM (taskIdOfHash engine.sampling)
  engine.forTaskIds taskIds

/- `_task_ids_for_intent`. The seed count of the engine is read from its sampling view before
the tasks of the first intent are. -/
def taskIdsForIntent (engine : EngineSampling) (intent : OptimEvalRequest) :
    Except String (List String) := do
  let taskIds ← samplingTaskIds engine.sampling
  match intent.taskHashes with
  | none => return taskIds
  | some taskHashes =>
    let subset ← engineForTaskHashes engine taskHashes
    samplingTaskIds subset.sampling

/- A member served by an engine. -/
def Runtime.servedBy (runtime : Runtime) (engine : EngineSampling) : Runtime :=
  { runtime with
    taskIds := taskIdsForIntent engine
    numSeeds := engine.sampling.seedPlan.numSeeds }

omit [IdentityHasher] in
theorem samplingTaskIds_ok {sampling : EvalSplit} {taskIds : List String}
    (h : samplingTaskIds sampling = .ok taskIds) :
    taskIds = sampling.tasks.map SamplingTask.taskId ∧ "" ∉ taskIds := by
  unfold samplingTaskIds at h
  rw [raiseIf_bind_eq_ok, check_bind_eq_ok] at h
  obtain ⟨hnamed,haligned,hids⟩ := h
  cases hids
  refine ⟨rfl, ?_⟩
  rw [requireAligned, raiseIf_bind_eq_ok, raiseIf_eq_ok] at haligned
  intro hmem
  obtain ⟨task,htask,hempty⟩ := List.mem_map.mp hmem
  obtain ⟨i,hi,hget⟩ := List.getElem_of_mem htask
  have hj : i < sampling.taskSet.taskHashes.length := by omega
  refine hnamed ⟨(task, sampling.taskSet.taskHashes[i]), ?_, hempty⟩
  rw [← hget, ← List.getElem_zip (h := by rw [List.length_zip]; omega)]
  exact List.getElem_mem _

omit [IdentityHasher] in
theorem sourceById_taskId {source : EvalSplit} {taskId : String} {task : SamplingTask}
    (h : (sourceById source).get? taskId = some task) : task.taskId = taskId := by
  obtain ⟨x,_,hx⟩ := List.mem_map.mp (Dict.mem_of_get?_ofPairs _ _ _ h)
  cases hx
  rfl

omit [IdentityHasher] in
/-- Selecting known tasks keeps their order. -/
theorem selectedTasks_taskIds (source : EvalSplit) (taskIds : List String)
    (h : ∀ taskId ∈ taskIds, (sourceById source).get? taskId ≠ none) :
    (selectedTasks source taskIds).map SamplingTask.taskId = taskIds := by
  induction taskIds with
  | nil => rfl
  | cons taskId rest ih =>
    obtain ⟨hknown,hrest⟩ := List.forall_mem_cons.mp h
    obtain ⟨task,htask⟩ := Option.ne_none_iff_exists'.mp hknown
    have hrest' := ih hrest
    unfold selectedTasks at hrest' ⊢
    rw [List.filterMap_cons, htask]
    simp only [List.map_cons, hrest', sourceById_taskId htask]

theorem deriveEvalSplit_tasks {namespaceName datasetRevision : String} {splitRole : SplitRole}
    {tasks : List SamplingTask} {taskHashOf : SamplingTask → String}
    {procedure : EvalProcedureConfig} {aggregation : AggregationConfig} {numSeeds : Nat}
    {split : EvalSplit} (h : deriveEvalSplit namespaceName datasetRevision splitRole tasks
      taskHashOf procedure aggregation numSeeds = .ok split) : split.tasks = tasks := by
  unfold deriveEvalSplit assembleSplit at h
  rw [raiseIf_bind_eq_ok] at h
  simp only [bind_eq_ok] at h
  obtain ⟨_,_,_,_,_,_,_,hsplit⟩ := h
  cases hsplit
  rfl

/-- A derived sampling has the tasks it was asked for, each once. -/
theorem deriveSampling_taskIds {source derived : EvalSplit} {taskIds : List String}
    (h : deriveSampling source taskIds = .ok derived) :
    derived.tasks.map SamplingTask.taskId = taskIds ∧ taskIds ≠ [] ∧ taskIds.Nodup := by
  unfold deriveSampling at h
  rw [raiseIf_bind_eq_ok, raiseIf_bind_eq_ok, raiseIf_bind_eq_ok, check_bind_eq_ok, not_not,
    not_not] at h
  simp only [bind_eq_ok] at h
  obtain ⟨hne,hnodup,hunknown,_,_,_,_,_,split,hsplit,hderived⟩ := h
  cases hderived
  refine ⟨?_, hne, hnodup⟩
  have htasks := deriveEvalSplit_tasks hsplit
  simp only [htasks]
  apply selectedTasks_taskIds
  intro taskId hmem hnone
  have hin : taskId ∈ taskIds.filter fun taskId =>
      ((sourceById source).get? taskId).isNone := List.mem_filter.mpr ⟨hmem, by simp [hnone]⟩
  rw [hunknown] at hin
  exact List.not_mem_nil hin

theorem forTaskIds_taskIds {engine narrowed : EngineSampling} {taskIds : List String}
    (h : engine.forTaskIds taskIds = .ok narrowed) :
    narrowed.sampling.tasks.map SamplingTask.taskId = taskIds ∧ taskIds ≠ [] ∧
      taskIds.Nodup := by
  unfold EngineSampling.forTaskIds EngineSampling.create at h
  obtain ⟨derived,hderived,hcreate⟩ := (bind_eq_ok _ _ _).mp h
  split at hcreate
  · cases hcreate
    exact deriveSampling_taskIds hderived
  · cases hcreate

/-- A declared subset is evaluated in its own order, each task once. -/
theorem taskIdsForIntent_subset {engine : EngineSampling} {intent : OptimEvalRequest}
    {taskHashes taskIds : List String} (hsubset : intent.taskHashes = some taskHashes)
    (h : taskIdsForIntent engine intent = .ok taskIds) :
    taskHashes.mapM (taskIdOfHash engine.sampling) = .ok taskIds ∧ taskIds ≠ [] ∧
      taskIds.Nodup := by
  unfold taskIdsForIntent at h
  obtain ⟨own,_,hrest⟩ := (bind_eq_ok _ _ _).mp h
  rw [hsubset] at hrest
  obtain ⟨subset,hengine,hids⟩ := (bind_eq_ok _ _ _).mp hrest
  unfold engineForTaskHashes at hengine
  rw [raiseIf_bind_eq_ok, raiseIf_bind_eq_ok, bind_eq_ok] at hengine
  obtain ⟨_,_,named,hnamed,hnarrow⟩ := hengine
  obtain ⟨htasks,hne,hnodup⟩ := forTaskIds_taskIds hnarrow
  obtain ⟨rfl,_⟩ := samplingTaskIds_ok hids
  rw [htasks]
  exact ⟨hnamed, hne, hnodup⟩

/-- The full list is the engine's own. -/
theorem taskIdsForIntent_full {engine : EngineSampling} {intent : OptimEvalRequest}
    {taskIds : List String} (hfull : intent.taskHashes = none)
    (h : taskIdsForIntent engine intent = .ok taskIds) :
    taskIds = engine.sampling.tasks.map SamplingTask.taskId := by
  unfold taskIdsForIntent at h
  obtain ⟨own,hown,hrest⟩ := (bind_eq_ok _ _ _).mp h
  rw [hfull] at hrest
  cases hrest
  exact (samplingTaskIds_ok hown).1

theorem taskIdsForIntent_named {engine : EngineSampling} {intent : OptimEvalRequest}
    {taskIds : List String} (h : taskIdsForIntent engine intent = .ok taskIds) :
    "" ∉ taskIds := by
  unfold taskIdsForIntent at h
  obtain ⟨own,hown,hrest⟩ := (bind_eq_ok _ _ _).mp h
  cases hsubset : intent.taskHashes with
  | none =>
    rw [hsubset] at hrest
    cases hrest
    exact (samplingTaskIds_ok hown).2
  | some taskHashes =>
    rw [hsubset] at hrest
    obtain ⟨subset,_,hids⟩ := (bind_eq_ok _ _ _).mp hrest
    exact (samplingTaskIds_ok hids).2

/-- Where the engine has tasks, so has every intent it serves. -/
theorem taskIdsForIntent_ne_nil {engine : EngineSampling} {intent : OptimEvalRequest}
    {taskIds : List String} (hne : engine.sampling.tasks ≠ [])
    (h : taskIdsForIntent engine intent = .ok taskIds) : taskIds ≠ [] := by
  cases hsubset : intent.taskHashes with
  | none =>
    rw [taskIdsForIntent_full hsubset h]
    exact fun hnil => hne (List.map_eq_nil_iff.mp hnil)
  | some taskHashes => exact (taskIdsForIntent_subset hsubset h).2.1

end Whetstone.Platform
