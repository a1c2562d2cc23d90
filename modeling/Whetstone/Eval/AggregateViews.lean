import Whetstone.Eval.Aggregate
import Mathlib.Algebra.BigOperators.Group.List.Basic
import Mathlib.Data.String.Basic

/-! The aggregate of an evaluation and its per-task vector are two views of the same rows. The
reduction of a plan is one function of a row policy; over rows it is told apart by the kinds
of the rows, over tasks by the scores of the tasks. -/
namespace Whetstone.Eval
open Whetstone.Core Whetstone.Lib

/-! ### The reduction of a plan -/

def meanStatus (policy : RowPolicy) (inputs : List AggregationInput) : AggregationStatus :=
  let applicable := inputs.filter AggregationInput.applicable
  let present := applicable.filterMap AggregationInput.value
  if applicable = [] then .notApplicable
  else if present.length < applicable.length ∧ policy = .propagate then .missingData
  else if present = [] then .zeroDenominator
  else .ok

def presentValues (inputs : List AggregationInput) : List Rat :=
  (inputs.filter AggregationInput.applicable).filterMap AggregationInput.value

/- What `aggregate` returns under the config of a plan. -/
def meanOutput (policy : RowPolicy) (inputs : List AggregationInput) : AggregationOutput where
  status := meanStatus policy inputs
  value := if meanStatus policy inputs = .ok then some (mean (presentValues inputs)) else none
  countTotal := inputs.length
  countApplicable := (inputs.filter AggregationInput.applicable).length
  countPresent := (presentValues inputs).length

theorem present_le_applicable (inputs : List AggregationInput) :
    (presentValues inputs).length ≤ (inputs.filter AggregationInput.applicable).length :=
  List.length_filterMap_le _ _

theorem meanStatus_skip (inputs : List AggregationInput) :
    meanStatus .skip inputs = .ok ↔ presentValues inputs ≠ [] := by
  by_cases happ : inputs.filter AggregationInput.applicable = []
  · simp [meanStatus, presentValues, happ]
  · by_cases hpresent : presentValues inputs = []
    · simp only [presentValues] at hpresent
      simp [meanStatus, presentValues, happ, hpresent]
    · simp only [presentValues] at hpresent
      simp [meanStatus, presentValues, happ, hpresent]

theorem meanStatus_propagate (inputs : List AggregationInput) :
    meanStatus .propagate inputs = .ok ↔ presentValues inputs ≠ [] ∧
      ∀ input ∈ inputs, input.applicable = true → input.value.isSome = true := by
  have hall : (presentValues inputs).length = (inputs.filter AggregationInput.applicable).length ↔
      ∀ input ∈ inputs, input.applicable = true → input.value.isSome = true := by
    rw [presentValues, List.length_filterMap_eq_countP, List.countP_eq_length]
    simp only [List.mem_filter, and_imp]
  have hle := present_le_applicable inputs
  rw [← hall]
  simp only [presentValues] at hle ⊢
  by_cases happ : inputs.filter AggregationInput.applicable = []
  · simp [meanStatus, happ]
  · by_cases hlt : ((inputs.filter AggregationInput.applicable).filterMap
        AggregationInput.value).length < (inputs.filter AggregationInput.applicable).length
    · have hne := Nat.ne_of_lt hlt
      simp [meanStatus, happ, hlt, hne]
    · have heq := Nat.le_antisymm hle (Nat.not_lt.mp hlt)
      by_cases hpresent : (inputs.filter AggregationInput.applicable).filterMap
        AggregationInput.value = []
      · rw [hpresent, List.length_nil, eq_comm, List.length_eq_zero_iff] at heq
        exact absurd heq happ
      · simp [meanStatus, happ, hpresent, heq]

/-! ### Rows of a task -/

def TaskRows.completed (task : TaskRows) (numSeeds : Nat) : List (RowValue Rat) :=
  task.rows ++ List.replicate (numSeeds - task.rows.length) .missing

theorem completedRows_eq_ok (task : TaskRows) (numSeeds : Nat) (rows : List (RowValue Rat)) :
    task.completedRows numSeeds = .ok rows ↔
      task.rows.length ≤ numSeeds ∧ rows = task.completed numSeeds := by
  simp only [TaskRows.completedRows, raiseIf_bind_eq_ok, Nat.not_lt, TaskRows.completed]
  constructor
  · rintro ⟨hle,hrows⟩
    cases hrows
    exact ⟨hle, rfl⟩
  · rintro ⟨hle,rfl⟩
    exact ⟨hle, rfl⟩

theorem completed_length {task : TaskRows} {numSeeds : Nat} (h : task.rows.length ≤ numSeeds) :
    (task.completed numSeeds).length = numSeeds := by
  rw [TaskRows.completed, List.length_append, List.length_replicate]
  omega

/-- Every row stands in one of the four cells. -/
theorem rowCounts_sum (rows : List (RowValue Rat)) :
    (rowCounts rows).1 + (rowCounts rows).2.1 + (rowCounts rows).2.2.1 + (rowCounts rows).2.2.2 =
      rows.length := by
  simp only [rowCounts]
  induction rows with
  | nil => rfl
  | cons row rows ih =>
    cases row <;> simp [List.countP_cons, RowValue.isPresent] <;> omega

def rowInputs (rows : List (RowValue Rat)) : List AggregationInput :=
  rows.map RowValue.toAggregationInput

theorem presentValues_rows (rows : List (RowValue Rat)) :
    presentValues (rowInputs rows) ≠ [] ↔ 0 < rows.countP RowValue.isPresent := by
  induction rows with
  | nil => simp [rowInputs, presentValues]
  | cons row rows ih =>
    cases row <;>
      simp_all [rowInputs, presentValues, RowValue.toAggregationInput, RowValue.isPresent]

theorem rows_complete (rows : List (RowValue Rat)) :
    (∀ input ∈ rowInputs rows, input.applicable = true → input.value.isSome = true) ↔
      ∀ row ∈ rows, row ≠ .failed ∧ row ≠ .missing := by
  induction rows with
  | nil => simp [rowInputs]
  | cons row rows ih =>
    simp only [rowInputs, List.map_cons, List.forall_mem_cons] at ih ⊢
    rw [ih]
    cases row <;> simp [RowValue.toAggregationInput]

/- The score of completed rows; the status that decides it. -/
def rowsScore (policy : RowPolicy) (rows : List (RowValue Rat)) : Option Rat :=
  (meanOutput policy (rowInputs rows)).value

theorem rowsScore_isSome (policy : RowPolicy) (rows : List (RowValue Rat)) :
    (rowsScore policy rows).isSome = true ↔ meanStatus policy (rowInputs rows) = .ok := by
  by_cases h : meanStatus policy (rowInputs rows) = .ok <;> simp [rowsScore, meanOutput, h]

theorem rowsScore_skip (rows : List (RowValue Rat)) :
    (rowsScore .skip rows).isSome = true ↔ 0 < rows.countP RowValue.isPresent := by
  rw [rowsScore_isSome, meanStatus_skip, presentValues_rows]

theorem rowsScore_propagate (rows : List (RowValue Rat)) :
    (rowsScore .propagate rows).isSome = true ↔ 0 < rows.countP RowValue.isPresent ∧
      ∀ row ∈ rows, row ≠ .failed ∧ row ≠ .missing := by
  rw [rowsScore_isSome, meanStatus_propagate, presentValues_rows, rows_complete]

theorem rowsScore_of_no_present {policy : RowPolicy} {rows : List (RowValue Rat)}
    (h : rows.countP RowValue.isPresent = 0) : rowsScore policy rows = none := by
  cases hs : rowsScore policy rows with
  | none => rfl
  | some score =>
    have hsome : (rowsScore policy rows).isSome = true := by rw [hs]; rfl
    cases policy with
    | skip => exact absurd ((rowsScore_skip rows).mp hsome) (by omega)
    | propagate => exact absurd ((rowsScore_propagate rows).mp hsome).1 (by omega)

/-! ### Tasks of an evaluation -/

def rowsInput (policy : RowPolicy) (rows : List (RowValue Rat)) : AggregationInput :=
  taskInput (meanOutput policy (rowInputs rows))

theorem rowsInput_value (policy : RowPolicy) (rows : List (RowValue Rat)) :
    (rowsInput policy rows).value = rowsScore policy rows := by
  simp only [rowsInput, taskInput, rowsScore, meanOutput]
  cases meanStatus policy (rowInputs rows) <;> simp

theorem rowsInput_applicable (policy : RowPolicy) (rows : List (RowValue Rat)) :
    (rowsInput policy rows).applicable = false ↔
      meanStatus policy (rowInputs rows) = .notApplicable := by
  simp only [rowsInput, taskInput, meanOutput]
  cases meanStatus policy (rowInputs rows) <;> simp

theorem meanStatus_notApplicable (policy : RowPolicy) (inputs : List AggregationInput) :
    meanStatus policy inputs = .notApplicable ↔
      inputs.filter AggregationInput.applicable = [] := by
  unfold meanStatus
  by_cases happ : inputs.filter AggregationInput.applicable = []
  · simp [happ]
  · refine iff_of_false ?_ happ
    simp only [if_neg happ]
    split
    · decide
    · split <;> decide

/-- The scores that the mean over the tasks takes are the scores of the tasks. -/
theorem presentValues_tasks (policy : RowPolicy) (tasks : List (List (RowValue Rat))) :
    presentValues (tasks.map (rowsInput policy)) = tasks.filterMap (rowsScore policy) := by
  induction tasks with
  | nil => rfl
  | cons rows tasks ih =>
    simp only [presentValues, List.map_cons] at ih ⊢
    rw [List.filterMap_cons, ← ih, ← rowsInput_value]
    cases happ : (rowsInput policy rows).applicable with
    | true =>
      rw [List.filter_cons_of_pos happ, List.filterMap_cons]
    | false =>
      have hna := (rowsInput_applicable policy rows).mp happ
      have hnone : (rowsInput policy rows).value = none := by
        rw [rowsInput_value, rowsScore, meanOutput, if_neg]
        rw [hna]
        simp
      rw [List.filter_cons_of_neg (by simp [happ]), hnone]

/-- A task withholds its input exactly when it has a failed or missing row. -/
theorem rowsInput_complete (rows : List (RowValue Rat)) :
    ((rowsInput .propagate rows).applicable = true →
        (rowsInput .propagate rows).value.isSome = true) ↔
      ∀ row ∈ rows, row ≠ .failed ∧ row ≠ .missing := by
  rw [rowsInput_value, rowsScore_propagate]
  constructor
  · intro h
    by_cases happ : (rowsInput .propagate rows).applicable = true
    · exact (h happ).2
    · have hempty := (meanStatus_notApplicable .propagate (rowInputs rows)).mp
        ((rowsInput_applicable .propagate rows).mp (by simpa using happ))
      refine (rows_complete rows).mp fun input hinput happlies => ?_
      have hmem : input ∈ (rowInputs rows).filter AggregationInput.applicable :=
        List.mem_filter.mpr ⟨hinput, happlies⟩
      rw [hempty] at hmem
      cases hmem
  · intro h happ
    refine ⟨?_, h⟩
    have hne : (rowInputs rows).filter AggregationInput.applicable ≠ [] := by
      intro he
      rw [(rowsInput_applicable .propagate rows).mpr
        ((meanStatus_notApplicable .propagate _).mpr he)] at happ
      cases happ
    obtain ⟨input,hinput⟩ := List.exists_mem_of_ne_nil _ hne
    obtain ⟨hmem,happlies⟩ := List.mem_filter.mp hinput
    obtain ⟨row,hrow,rfl⟩ := List.mem_map.mp hmem
    refine List.countP_pos_iff.mpr ⟨row, hrow, ?_⟩
    obtain ⟨hfailed,hmissing⟩ := h row hrow
    cases row with
    | scored value => rfl
    | failed => exact absurd rfl hfailed
    | missing => exact absurd rfl hmissing
    | invalid => cases happlies

theorem scores_ne_nil (policy : RowPolicy) (tasks : List (List (RowValue Rat))) :
    tasks.filterMap (rowsScore policy) ≠ [] ↔
      ∃ rows ∈ tasks, (rowsScore policy rows).isSome = true := by
  rw [ne_eq, List.filterMap_eq_nil_iff]
  simp only [not_forall, Option.isSome_iff_ne_none, exists_prop]

theorem tasks_skip (tasks : List (List (RowValue Rat))) :
    meanStatus .skip (tasks.map (rowsInput .skip)) = .ok ↔
      0 < tasks.flatten.countP RowValue.isPresent := by
  rw [meanStatus_skip, presentValues_tasks, scores_ne_nil, List.countP_pos_iff]
  simp only [rowsScore_skip, List.countP_pos_iff, List.mem_flatten]
  constructor
  · rintro ⟨rows,hrows,row,hrow,hpresent⟩
    exact ⟨row, ⟨rows, hrows, hrow⟩, hpresent⟩
  · rintro ⟨row,⟨rows,hrows,hrow⟩,hpresent⟩
    exact ⟨rows, hrows, row, hrow, hpresent⟩

theorem tasks_propagate (tasks : List (List (RowValue Rat))) :
    meanStatus .propagate (tasks.map (rowsInput .propagate)) = .ok ↔
      0 < tasks.flatten.countP RowValue.isPresent ∧
        ∀ row ∈ tasks.flatten, row ≠ .failed ∧ row ≠ .missing := by
  have hcomplete : (∀ input ∈ tasks.map (rowsInput .propagate), input.applicable = true →
      input.value.isSome = true) ↔ ∀ row ∈ tasks.flatten, row ≠ .failed ∧ row ≠ .missing := by
    simp only [List.forall_mem_map, rowsInput_complete, List.mem_flatten]
    constructor
    · rintro h row ⟨rows,hrows,hrow⟩
      exact h rows hrows row hrow
    · intro h rows hrows row hrow
      exact h row ⟨rows, hrows, hrow⟩
  rw [meanStatus_propagate, presentValues_tasks, scores_ne_nil, hcomplete, List.countP_pos_iff]
  constructor
  · rintro ⟨⟨rows,hrows,hscore⟩,hall⟩
    obtain ⟨row,hrow,hpresent⟩ := List.countP_pos_iff.mp ((rowsScore_propagate rows).mp hscore).1
    exact ⟨⟨row, List.mem_flatten.mpr ⟨rows, hrows, hrow⟩, hpresent⟩, hall⟩
  · rintro ⟨⟨row,hrow,hpresent⟩,hall⟩
    obtain ⟨rows,hrows,hmem⟩ := List.mem_flatten.mp hrow
    refine ⟨⟨rows, hrows, (rowsScore_propagate rows).mpr
      ⟨List.countP_pos_iff.mpr ⟨row, hmem, hpresent⟩, fun r hr => ?_⟩⟩, hall⟩
    exact hall r (List.mem_flatten.mpr ⟨rows, hrows, hr⟩)

theorem no_lost_rows (rows : List (RowValue Rat)) :
    (∀ row ∈ rows, row ≠ .failed ∧ row ≠ .missing) ↔
      (rowCounts rows).2.2.1 = 0 ∧ (rowCounts rows).2.1 = 0 := by
  simp only [rowCounts, List.countP_eq_zero, decide_eq_true_eq]
  constructor
  · intro h
    exact ⟨fun row hrow => (h row hrow).1, fun row hrow => (h row hrow).2⟩
  · rintro ⟨hfailed,hmissing⟩ row hrow
    exact ⟨hfailed row hrow, hmissing row hrow⟩

/-! ### The observed tasks -/

def observedTasks (taskRows : List TaskRows) : Dict String TaskRows :=
  Dict.ofPairs (taskRows.map fun task => (task.taskHash, task))

theorem observe_fold (taskRows : List TaskRows) (before : List TaskRows) :
    taskRows.foldlM observeTask (observedTasks before) =
        .ok (observedTasks (before ++ taskRows)) ∧
      (∀ task ∈ taskRows, task.taskHash ∉ before.map TaskRows.taskHash) ∧
      (taskRows.map TaskRows.taskHash).Nodup ∨
    (¬ ((∀ task ∈ taskRows, task.taskHash ∉ before.map TaskRows.taskHash) ∧
      (taskRows.map TaskRows.taskHash).Nodup) ∧
      ∃ error, taskRows.foldlM observeTask (observedTasks before) = .error error) := by
  induction taskRows generalizing before with
  | nil => simp [pure, Except.pure]
  | cons task rest ih =>
    have hseen : ((observedTasks before).get? task.taskHash).isSome = true ↔
        task.taskHash ∈ before.map TaskRows.taskHash := by
      rw [Option.isSome_iff_ne_none, ne_eq, observedTasks, Dict.get?_ofPairs_eq_none_iff]
      simp [List.map_map, Function.comp_def]
    rw [List.foldlM_cons]
    by_cases hmem : task.taskHash ∈ before.map TaskRows.taskHash
    · refine .inr ⟨fun h => h.1 task List.mem_cons_self hmem, ?_⟩
      rw [observeTask, raiseIf_pos _ _ (hseen.mpr hmem)]
      exact ⟨_, rfl⟩
    · have hstep : observeTask (observedTasks before) task = .ok (observedTasks (before ++ [task])) := by
        rw [observeTask, raiseIf_neg _ _ (fun h => hmem (hseen.mp h))]
        simp only [observedTasks, List.map_append, List.map_cons, List.map_nil, Dict.ofPairs,
          List.foldl_append, List.foldl_cons, List.foldl_nil]
        rfl
      rw [hstep, ok_bind]
      have hsplit : ∀ others : List TaskRows,
          ((∀ t ∈ others, t.taskHash ∉ (before ++ [task]).map TaskRows.taskHash) ∧
            (others.map TaskRows.taskHash).Nodup) ↔
          ((∀ t ∈ task :: others, t.taskHash ∉ before.map TaskRows.taskHash) ∧
            ((task :: others).map TaskRows.taskHash).Nodup) := by
        intro others
        simp only [List.map_append, List.map_cons, List.map_nil, List.mem_append, List.mem_singleton,
          not_or, List.forall_mem_cons, List.nodup_cons, List.mem_map, not_exists, not_and]
        constructor
        · rintro ⟨h,hn⟩
          refine ⟨⟨fun t ht he => hmem (List.mem_map.mpr ⟨t, ht, he⟩), fun t ht => (h t ht).1⟩, ?_, hn⟩
          intro t ht he
          exact (h t ht).2 he
        · rintro ⟨⟨_,h⟩,hne,hn⟩
          exact ⟨fun t ht => ⟨h t ht, hne t ht⟩, hn⟩
      rcases ih (before ++ [task]) with ⟨hok,hnew⟩ | ⟨hbad,herror⟩
      · rw [List.append_assoc, List.singleton_append] at hok
        exact .inl ⟨hok, (hsplit rest).mp hnew⟩
      · exact .inr ⟨fun h => hbad ((hsplit rest).mpr h), herror⟩

/-- The observations are taken up exactly when no task is observed twice. -/
theorem observe_eq_ok (taskRows : List TaskRows) (observed : Dict String TaskRows) :
    taskRows.foldlM observeTask Dict.empty = .ok observed ↔
      (taskRows.map TaskRows.taskHash).Nodup ∧ observed = observedTasks taskRows := by
  have hempty : (Dict.empty : Dict String TaskRows) = observedTasks [] := rfl
  rw [hempty]
  rcases observe_fold taskRows [] with ⟨hok,_,hnodup⟩ | ⟨hbad,error,herror⟩
  · rw [hok, Except.ok.injEq, List.nil_append]
    exact ⟨fun h => ⟨hnodup, h.symm⟩, fun h => h.2.symm⟩
  · rw [herror]
    constructor
    · rintro ⟨⟩
    · intro h
      exact absurd ⟨fun _ _ => List.not_mem_nil, h.1⟩ hbad

/-- The mean over permuted values. -/
theorem mean_perm {values values' : List Rat} (h : values.Perm values') :
    mean values = mean values' := by
  rw [mean, mean, h.sum_eq, h.length_eq]

section Plan

variable [FractionText] [IdentityHasher]

theorem policy_of_plan (plan : EvalMatrixPlan) :
    policyFromAggregationConfig plan.aggregationConfig = .ok plan.policy := by
  have h := plan.valid
  simp only [validateMatrixPlan, raiseIf_bind_eq_ok] at h
  exact h.2.2.2.2.2.2

omit [IdentityHasher] in
theorem policy_settings {config : AggregationConfig} {policy : CompletenessPolicy}
    (h : policyFromAggregationConfig config = .ok policy) :
    config.assignmentDict.get? "reduction" = some (.str "mean") ∧
      config.assignmentDict.get? "zero_denominator" = some (.str "not_applicable") ∧
      RowPolicy.ofJson? (config.assignmentDict.get? "missing_data") = some policy.rowPolicy := by
  simp only [policyFromAggregationConfig, raiseIf_bind_eq_ok, ne_eq, not_not] at h
  obtain ⟨hreduction,hzero,h⟩ := h
  refine ⟨hreduction, hzero, ?_⟩
  split at h
  · cases h
  · rename_i rowPolicy token hpolicy _
    obtain ⟨found,hfound,h⟩ := (bind_eq_ok _ _ _).mp h
    simp only [raiseIf_bind_eq_ok] at h
    cases h.2
    unfold CompletenessPolicy.ofToken at hfound
    split at hfound
    · cases hfound
    · split at hfound
      · cases hfound
        exact hpolicy
      · cases hfound
  · cases h

/-- Under the config of a plan, `aggregate` is the mean under the policy of the plan. -/
theorem aggregate_eq (plan : EvalMatrixPlan) (inputs : List AggregationInput) :
    aggregate plan.aggregationConfig inputs = .ok (meanOutput plan.policy.rowPolicy inputs) := by
  obtain ⟨hreduction,hzero,hmissing⟩ := policy_settings (policy_of_plan plan)
  have hpolicy : (plan.aggregationConfig.assignmentDict.get? "missing_data").getD
      (.str "propagate") = .str "propagate" ↔ plan.policy.rowPolicy = .propagate := by
    unfold RowPolicy.ofJson? at hmissing
    split at hmissing
    · rename_i hget
      have hrow := Option.some.inj hmissing
      simp [hget, ← hrow]
    · rename_i hget
      have hrow := Option.some.inj hmissing
      simp [hget, ← hrow]
    · cases hmissing
  have hsum : ¬ (Json.str "mean" = .str "sum") := by decide
  have herror : ¬ (Json.str "not_applicable" = .str "error") := by decide
  simp only [aggregate, hreduction, hzero, hpolicy, Option.getD_some, if_neg hsum, if_neg herror,
    meanOutput, meanStatus, presentValues]
  split
  · simp
  · split
    · simp
    · split
      · simp
      · simp

omit [FractionText] [IdentityHasher] in
theorem observed_get {taskRows : List TaskRows} (hnodup : (taskRows.map TaskRows.taskHash).Nodup)
    {task : TaskRows} (h : task ∈ taskRows) :
    (observedTasks taskRows).get? task.taskHash = some task := by
  refine Dict.get?_ofPairs_of_mem _ ?_ _ _ (List.mem_map.mpr ⟨task, h, rfl⟩)
  rw [List.map_map]
  exact hnodup

omit [FractionText] [IdentityHasher] in
theorem observed_mem {taskRows : List TaskRows} {taskHash : String} {task : TaskRows}
    (h : (observedTasks taskRows).get? taskHash = some task) :
    task ∈ taskRows ∧ task.taskHash = taskHash := by
  obtain ⟨found,hfound,he⟩ := List.mem_map.mp (Dict.mem_of_get?_ofPairs _ _ _ h)
  cases he
  exact ⟨hfound, rfl⟩

/- The rows of a planned task; a task that was not observed has none. -/
def reconcile (taskRows : List TaskRows) (taskHash : String) : TaskRows :=
  ((observedTasks taskRows).get? taskHash).getD ⟨taskHash, []⟩

/- The complete rows of every planned task. -/
def EvalMatrixPlan.matrix (plan : EvalMatrixPlan) (taskRows : List TaskRows) :
    List (List (RowValue Rat)) :=
  plan.seedPlan.taskHashes.map fun taskHash =>
    (reconcile taskRows taskHash).completed plan.seedPlan.numSeeds

def EvalMatrixPlan.output (plan : EvalMatrixPlan) (taskRows : List TaskRows) :
    AggregationOutput :=
  let counts := rowCounts (plan.matrix taskRows).flatten
  enforceSkipTolerance
    (meanOutput plan.policy.rowPolicy
      ((plan.matrix taskRows).map (rowsInput plan.policy.rowPolicy))) plan.policy
    (counts.2.1 + counts.2.2.1 + counts.2.2.2) (plan.matrix taskRows).flatten.length

/- Every observed task is planned, once, with at most the planned number of rows. -/
structure EvalMatrixPlan.Assigned (plan : EvalMatrixPlan) (taskRows : List TaskRows) : Prop where
  nodup : (taskRows.map TaskRows.taskHash).Nodup
  planned : ∀ task ∈ taskRows, task.taskHash ∈ plan.seedPlan.taskHashes
  short : ∀ task ∈ taskRows, task.rows.length ≤ plan.seedPlan.numSeeds

theorem reduceTask_ok {plan : EvalMatrixPlan} {numSeeds : Nat} {task : TaskRows}
    {reduced : List (RowValue Rat) × AggregationInput}
    (h : reduceTask plan.aggregationConfig numSeeds task = .ok reduced) :
    task.rows.length ≤ numSeeds ∧
      reduced = (task.completed numSeeds,
        rowsInput plan.policy.rowPolicy (task.completed numSeeds)) := by
  obtain ⟨completed,hcompleted,h⟩ := (bind_eq_ok _ _ _).mp h
  obtain ⟨hle,rfl⟩ := (completedRows_eq_ok _ _ _).mp hcompleted
  rw [aggregate_eq, ok_bind] at h
  cases h
  exact ⟨hle, rfl⟩

/-- What a mean that returns has been given, and what it returns. -/
theorem unweightedTaskMean_ok {aggregateName graphHash : String} {taskRows : List TaskRows}
    {plan : EvalMatrixPlan} {a : Aggregate}
    (h : unweightedTaskMean aggregateName graphHash taskRows plan = .ok a) :
    plan.Assigned taskRows ∧
      a.aggregationOutput = plan.output taskRows ∧
      (a.rowsPresent, a.rowsMissing, a.rowsFailed, a.rowsInvalid) =
        rowCounts (plan.matrix taskRows).flatten ∧
      a.taskCount = plan.seedPlan.taskHashes.length ∧ a.numSeeds = plan.seedPlan.numSeeds := by
  simp only [unweightedTaskMean, raiseIf_bind_eq_ok] at h
  obtain ⟨_,h⟩ := h
  obtain ⟨observed,hobserved,h⟩ := (bind_eq_ok _ _ _).mp h
  obtain ⟨hnodup,rfl⟩ := (observe_eq_ok _ _).mp hobserved
  simp only [raiseIf_bind_eq_ok, ne_eq, not_not] at h
  obtain ⟨hextras,h⟩ := h
  obtain ⟨reduced,hreduced,h⟩ := (bind_eq_ok _ _ _).mp h
  rw [aggregate_eq, ok_bind] at h
  have hplanned : ∀ task ∈ taskRows, task.taskHash ∈ plan.seedPlan.taskHashes := by
    intro task htask
    by_contra hno
    have hkey : task.taskHash ∈ (observedTasks taskRows).keys := by
      have hget := observed_get hnodup htask
      exact List.mem_map.mpr ⟨(task.taskHash, task), (Dict.get?_eq_some_iff _ _ _).mp hget, rfl⟩
    have hmem : task.taskHash ∈ extraTaskHashes (observedTasks taskRows)
        plan.seedPlan.taskHashes := by
      rw [extraTaskHashes, List.mem_mergeSort]
      exact List.mem_filter.mpr ⟨hkey, by simpa using hno⟩
    rw [hextras] at hmem
    cases hmem
  have hshort : ∀ task ∈ taskRows, task.rows.length ≤ plan.seedPlan.numSeeds := by
    intro task htask
    have hmem : reconcile taskRows task.taskHash ∈
        plan.seedPlan.taskHashes.map (reconcile taskRows) :=
      List.mem_map.mpr ⟨task.taskHash, hplanned task htask, rfl⟩
    obtain ⟨_,hone⟩ := mapM_mem_ok hreduced _ hmem
    have hle := (reduceTask_ok hone).1
    rwa [reconcile, observed_get hnodup htask] at hle
  have hmatrix : reduced = (plan.matrix taskRows).map fun rows =>
      (rows, rowsInput plan.policy.rowPolicy rows) := by
    rw [mapM_ok_eq hreduced _ fun _ _ hone => (reduceTask_ok hone).2, EvalMatrixPlan.matrix,
      List.map_map, List.map_map]
    rfl
  have hrows : reduced.flatMap Prod.fst = (plan.matrix taskRows).flatten := by
    rw [hmatrix, List.flatMap_def, List.map_map]
    simp [Function.comp_def]
  have hinputs : reduced.map Prod.snd =
      (plan.matrix taskRows).map (rowsInput plan.policy.rowPolicy) := by
    rw [hmatrix, List.map_map]
    rfl
  rw [hrows, hinputs] at h
  obtain ⟨_,_,h⟩ := (bind_eq_ok _ _ _).mp h
  obtain ⟨_,_,h⟩ := (bind_eq_ok _ _ _).mp h
  simp only [raiseIf_bind_eq_ok] at h
  cases h.2.2
  exact ⟨⟨hnodup, hplanned, hshort⟩, rfl, rfl, rfl, rfl⟩

namespace EvalMatrixPlan

variable {plan : EvalMatrixPlan} {taskRows : List TaskRows}

theorem numSeeds_pos : 0 < plan.seedPlan.numSeeds := by
  have h := plan.seedPlan.valid
  simp only [validateSlots, raiseIf_bind_eq_ok, Nat.not_lt] at h
  exact h.1

theorem hashes_nodup : plan.seedPlan.taskHashes.Nodup := by
  have h := plan.seedPlan.valid
  simp only [validateSlots, raiseIf_bind_eq_ok, not_not] at h
  exact h.2.2.1

theorem hashes_ne_nil : plan.seedPlan.taskHashes ≠ [] := by
  have h := plan.seedPlan.valid
  simp only [validateSlots, raiseIf_bind_eq_ok] at h
  exact h.2.1

theorem Assigned.reconciled (h : plan.Assigned taskRows) (taskHash : String) :
    (reconcile taskRows taskHash).rows.length ≤ plan.seedPlan.numSeeds := by
  unfold reconcile
  cases hget : (observedTasks taskRows).get? taskHash with
  | none => exact Nat.zero_le _
  | some task => exact h.short task (observed_mem hget).1

theorem Assigned.matrix_length (h : plan.Assigned taskRows) :
    (plan.matrix taskRows).flatten.length =
      plan.seedPlan.taskHashes.length * plan.seedPlan.numSeeds := by
  rw [matrix, List.length_flatten, List.map_map]
  have hconst : plan.seedPlan.taskHashes.map (List.length ∘ fun taskHash =>
        (reconcile taskRows taskHash).completed plan.seedPlan.numSeeds) =
      plan.seedPlan.taskHashes.map fun _ => plan.seedPlan.numSeeds :=
    List.map_congr_left fun taskHash _ => completed_length (h.reconciled taskHash)
  rw [hconst, List.map_const', List.sum_replicate]
  rfl

/-- A task that was not observed has no score. -/
theorem absent_score (taskHash : String) :
    rowsScore plan.policy.rowPolicy
      (TaskRows.completed ⟨taskHash, []⟩ plan.seedPlan.numSeeds) = none := by
  refine rowsScore_of_no_present ?_
  rw [List.countP_eq_zero]
  intro row hrow
  rcases List.mem_append.mp hrow with hrow | hrow
  · cases hrow
  · rw [List.eq_of_mem_replicate hrow]
    decide

/-- The observed tasks, in the order of the plan. -/
theorem Assigned.observed_perm (h : plan.Assigned taskRows) :
    (plan.seedPlan.taskHashes.filterMap (observedTasks taskRows).get?).Perm taskRows := by
  have hrows : taskRows.Nodup := h.nodup.of_map _
  have hplanned : (plan.seedPlan.taskHashes.filterMap (observedTasks taskRows).get?).Nodup := by
    refine List.Nodup.filterMap ?_ hashes_nodup
    intro a b task ha hb
    rw [← (observed_mem ha).2, ← (observed_mem hb).2]
  refine (List.perm_ext_iff_of_nodup hplanned hrows).mpr fun task => ?_
  rw [List.mem_filterMap]
  constructor
  · rintro ⟨taskHash,_,hget⟩
    exact (observed_mem hget).1
  · intro htask
    exact ⟨task.taskHash, h.planned task htask, observed_get h.nodup htask⟩

/-- The scores of the observed tasks are those of the planned ones. -/
theorem Assigned.scores_perm (h : plan.Assigned taskRows) :
    ((plan.matrix taskRows).filterMap (rowsScore plan.policy.rowPolicy)).Perm
      (taskRows.filterMap fun task => rowsScore plan.policy.rowPolicy
        (task.completed plan.seedPlan.numSeeds)) := by
  refine List.Perm.trans (List.Perm.of_eq ?_) (h.observed_perm.filterMap _)
  rw [matrix, List.filterMap_map, List.filterMap_filterMap]
  refine List.filterMap_congr fun taskHash _ => ?_
  simp only [Function.comp_apply, reconcile]
  cases (observedTasks taskRows).get? taskHash with
  | none => exact absent_score taskHash
  | some task => rfl

theorem score_ok {task : TaskRows} (h : task.rows.length ≤ plan.seedPlan.numSeeds) :
    perTaskScore task plan.seedPlan.numSeeds plan.aggregationConfig =
      .ok (rowsScore plan.policy.rowPolicy (task.completed plan.seedPlan.numSeeds)) := by
  have hcompleted := (completedRows_eq_ok task plan.seedPlan.numSeeds _).mpr ⟨h, rfl⟩
  rw [perTaskScore, hcompleted, ok_bind, aggregate_eq, ok_bind]
  change Except.ok (if meanStatus _ (rowInputs _) = .ok then rowsScore _ _ else none) = _
  by_cases hok : meanStatus plan.policy.rowPolicy
      (rowInputs (task.completed plan.seedPlan.numSeeds)) = .ok
  · rw [if_pos hok]
  · rw [if_neg hok, rowsScore, meanOutput, if_neg hok]

omit [FractionText] [IdentityHasher] in
theorem count_ok {task : TaskRows} {numSeeds : Nat} (h : task.rows.length ≤ numSeeds) :
    perTaskCount task numSeeds = .ok ((task.completed numSeeds).countP RowValue.isPresent) := by
  rw [perTaskCount, (completedRows_eq_ok task numSeeds _).mpr ⟨h, rfl⟩, ok_bind]
  rfl

theorem Assigned.scores_ok (h : plan.Assigned taskRows) :
    taskRows.mapM (perTaskScore · plan.seedPlan.numSeeds plan.aggregationConfig) =
      .ok (taskRows.map fun task => rowsScore plan.policy.rowPolicy
        (task.completed plan.seedPlan.numSeeds)) :=
  mapM_ok _ _ _ fun task htask => score_ok (h.short task htask)

end EvalMatrixPlan

/-- The observation of a plan's tasks in another order. -/
theorem unweightedTaskMean_perm {aggregateName graphHash : String}
    {taskRows taskRows' : List TaskRows} {plan : EvalMatrixPlan} (h : taskRows.Perm taskRows')
    (hnodup : (taskRows.map TaskRows.taskHash).Nodup) :
    unweightedTaskMean aggregateName graphHash taskRows plan =
      unweightedTaskMean aggregateName graphHash taskRows' plan := by
  have hnodup' : (taskRows'.map TaskRows.taskHash).Nodup :=
    (h.map TaskRows.taskHash).nodup_iff.mp hnodup
  have hget : (observedTasks taskRows).get? = (observedTasks taskRows').get? := by
    funext taskHash
    cases hfound : (observedTasks taskRows).get? taskHash with
    | some task =>
      obtain ⟨htask,rfl⟩ := observed_mem hfound
      exact (observed_get hnodup' (h.mem_iff.mp htask)).symm
    | none =>
      cases hfound' : (observedTasks taskRows').get? taskHash with
      | none => rfl
      | some task =>
        obtain ⟨htask,rfl⟩ := observed_mem hfound'
        rw [observed_get hnodup (h.mem_iff.mpr htask)] at hfound
        cases hfound
  have hkeys : ∀ {rows : List TaskRows}, (rows.map TaskRows.taskHash).Nodup →
      (observedTasks rows).keys = rows.map TaskRows.taskHash := by
    intro rows hrows
    have hpairs := Dict.pairs_ofPairs (rows.map fun task => (task.taskHash, task))
      (by rw [List.map_map]; exact hrows)
    rw [Dict.keys, observedTasks, hpairs, List.map_map]
    rfl
  have hextras : extraTaskHashes (observedTasks taskRows) plan.seedPlan.taskHashes =
      extraTaskHashes (observedTasks taskRows') plan.seedPlan.taskHashes := by
    have hperm := ((h.map TaskRows.taskHash).filter (· ∉ plan.seedPlan.taskHashes))
    rw [← hkeys hnodup, ← hkeys hnodup'] at hperm
    unfold extraTaskHashes
    refine List.Perm.eq_of_pairwise ?_ (List.pairwise_mergeSort ?_ ?_ _)
      (List.pairwise_mergeSort ?_ ?_ _)
      (((List.mergeSort_perm _ _).trans hperm).trans (List.mergeSort_perm _ _).symm)
    · intro a b _ _ hab hba
      exact le_antisymm (of_decide_eq_true hab) (of_decide_eq_true hba)
    all_goals first
      | exact fun a b c hab hbc => decide_eq_true
          (le_trans (of_decide_eq_true hab) (of_decide_eq_true hbc))
      | exact fun a b => by simpa using le_total a b
  simp only [unweightedTaskMean, (observe_eq_ok taskRows _).mpr ⟨hnodup, rfl⟩,
    (observe_eq_ok taskRows' _).mpr ⟨hnodup', rfl⟩, ok_bind, hextras, hget]

/-- A present row of the matrix is one that was observed. -/
theorem present_observed {plan : EvalMatrixPlan} {taskRows : List TaskRows}
    (h : plan.Assigned taskRows) :
    0 < (plan.matrix taskRows).flatten.countP RowValue.isPresent ↔
      ∃ task ∈ taskRows, ∃ row ∈ task.rows, row.isPresent = true := by
  rw [List.countP_pos_iff]
  constructor
  · rintro ⟨row,hrow,hpresent⟩
    obtain ⟨rows,hrows,hmem⟩ := List.mem_flatten.mp hrow
    obtain ⟨taskHash,_,rfl⟩ := List.mem_map.mp hrows
    rcases List.mem_append.mp hmem with hmem | hmem
    · unfold reconcile at hmem
      cases hget : (observedTasks taskRows).get? taskHash with
      | none =>
        rw [hget] at hmem
        cases hmem
      | some task =>
        rw [hget] at hmem
        exact ⟨task, (observed_mem hget).1, row, hmem, hpresent⟩
    · rw [List.eq_of_mem_replicate hmem] at hpresent
      cases hpresent
  · rintro ⟨task,htask,row,hrow,hpresent⟩
    refine ⟨row, List.mem_flatten.mpr ⟨task.completed plan.seedPlan.numSeeds, ?_,
      List.mem_append_left _ hrow⟩, hpresent⟩
    refine List.mem_map.mpr ⟨task.taskHash, h.planned task htask, ?_⟩
    rw [reconcile, observed_get h.nodup htask]
    rfl

omit [FractionText] [IdentityHasher] in
theorem tolerance_value (output : AggregationOutput) (policy : CompletenessPolicy)
    (skipped planned : Nat) (value : Rat)
    (h : (enforceSkipTolerance output policy skipped planned).value = some value) :
    output.value = some value := by
  unfold enforceSkipTolerance at h
  split at h
  · exact h
  · split at h
    · exact h
    · cases h

end Plan

section Example

@[reducible] def namedHasher : IdentityHasher := ⟨fun schema _ _ => schema⟩

/- The texts of the two fractions that the plan below uses. -/
@[reducible] def halfFractions : FractionText where
  parse := fun token => if token = "0.5" then some (1 / 2) else none
  repr := fun _ => "0.5"

attribute [local instance] namedHasher halfFractions

def graphDigest : String := String.ofList (List.replicate 64 'c')

def twoTaskSet : TaskSet := ⟨"m", "1", "rev", ["a", "b"], none, by rfl⟩

def twoTaskSeeds : SeedPlan := ⟨"p", "1", ["a", "b"], 2, [], by rfl⟩

def skipAggregation : AggregationConfig := ⟨default, [("reduction", .str "mean"),
  ("missing_data", .str "skip"), ("zero_denominator", .str "not_applicable"),
  ("max_skip_fraction", .str "0.5")], "aggregation"⟩

def halfSkip : CompletenessPolicy := ⟨.skip, 1 / 2, by decide +kernel⟩

def skipPlan : EvalMatrixPlan where
  evalConfig := ⟨default, "sampling", "procedure", "aggregation", graphDigest⟩
  samplingConfig := ⟨default, [("task_set_hash", .str schemaTaskSet),
    ("seed_plan_hash", .str schemaSeedPlan)], "sampling"⟩
  taskSet := twoTaskSet
  seedPlan := twoTaskSeeds
  aggregationConfig := skipAggregation
  policy := halfSkip
  valid := by decide +kernel

/- One repeat of the second task is lost. -/
def lostRepeat : List TaskRows := [⟨"b", [.scored 1, .failed]⟩, ⟨"a", [.scored 1, .scored 0]⟩]

def lostAggregate : Aggregate where
  name := "score"
  graphHash := graphDigest
  evalConfigHash := graphDigest
  taskCount := 2
  numSeeds := 2
  aggregationOutput := ⟨.ok, some (3 / 4), 2, 2, 2⟩
  rowsPresent := 3
  rowsMissing := 0
  rowsFailed := 1
  rowsInvalid := 0

end Example

end Whetstone.Eval
