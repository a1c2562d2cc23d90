import Whetstone.Eval.Attribution
import Whetstone.Eval.Plan
import Mathlib.Algebra.Ring.Rat

/-! The mean of a planned evaluation, over the rows of a task and then over the tasks, and the
per-task view of the same rows. Scores are exact rationals. -/
namespace Whetstone.Eval
open Whetstone.Core Whetstone.Lib

/-! ### Aggregation -/

inductive AggregationStatus where
  | ok
  | missingData
  | notApplicable
  | zeroDenominator
deriving DecidableEq

structure AggregationInput where
  value : Option Rat
  applicable : Bool
deriving DecidableEq

structure AggregationOutput where
  status : AggregationStatus
  value : Option Rat
  countTotal : Nat
  countApplicable : Nat
  countPresent : Nat
deriving DecidableEq

def AggregationConfig.assignmentDict (config : AggregationConfig) : Dict String Json :=
  Dict.ofPairs config.assignment

def mean (values : List Rat) : Rat := values.sum / values.length

def aggregate (config : AggregationConfig) (inputs : List AggregationInput) :
    Except String AggregationOutput :=
  match config.assignmentDict.get? "reduction" with
  | none => .error "'reduction'"
  | some reduction =>
    let missingPolicy := (config.assignmentDict.get? "missing_data").getD (.str "propagate")
    let zeroDenominator :=
      (config.assignmentDict.get? "zero_denominator").getD (.str "not_applicable")
    let applicable := inputs.filter AggregationInput.applicable
    let present := applicable.filterMap AggregationInput.value
    let output := fun status value =>
      AggregationOutput.mk status value inputs.length applicable.length present.length
    if applicable = [] then .ok (output .notApplicable none)
    else if present.length < applicable.length ∧ missingPolicy = .str "propagate" then
      .ok (output .missingData none)
    else if reduction = .str "sum" then .ok (output .ok (some present.sum))
    else if present = [] then
      if zeroDenominator = .str "error" then
        .error "mean aggregation has zero contributing values"
      else .ok (output .zeroDenominator none)
    else .ok (output .ok (some (mean present)))

/-! ### Policies and plans -/

inductive RowPolicy where
  | propagate
  | skip
deriving DecidableEq

def RowPolicy.ofJson? : Option Json → Option RowPolicy
  | some (.str "propagate") => some .propagate
  | some (.str "skip") => some .skip
  | _ => none

structure CompletenessPolicy where
  rowPolicy : RowPolicy
  maxSkipFraction : Rat
  valid : 0 ≤ maxSkipFraction ∧ maxSkipFraction ≤ 1
deriving DecidableEq

/-- `float(token)` where it is finite, and `repr`. No property is assumed. -/
class FractionText where
  parse : String → Option Rat
  repr : Rat → String

def withinTolerance (policy : CompletenessPolicy) (skipped planned : Nat) : Bool :=
  planned = 0 ∨ (skipped : Rat) / planned ≤ policy.maxSkipFraction

def skipToleranceVariable : String := "max_skip_fraction"

section Plan

variable [FractionText]

def CompletenessPolicy.skipFractionToken (policy : CompletenessPolicy) : String :=
  if policy.maxSkipFraction = 0 then "0.0" else FractionText.repr policy.maxSkipFraction

def CompletenessPolicy.ofToken (rowPolicy : RowPolicy) (token : String) :
    Except String CompletenessPolicy :=
  match FractionText.parse token with
  | none => .error "aggregation_config max_skip_fraction must be a finite float in [0.0, 1.0]"
  | some fraction =>
    if h : 0 ≤ fraction ∧ fraction ≤ 1 then .ok ⟨rowPolicy, fraction, h⟩
    else .error "aggregation_config max_skip_fraction must be a finite float in [0.0, 1.0]"

def policyFromAggregationConfig (config : AggregationConfig) :
    Except String CompletenessPolicy := do
  let assignment := config.assignmentDict
  raiseIf (assignment.get? "reduction" ≠ some (.str "mean"))
    "aggregation_config reduction must be 'mean'"
  raiseIf (assignment.get? "zero_denominator" ≠ some (.str "not_applicable"))
    "aggregation_config zero_denominator must be 'not_applicable'"
  match RowPolicy.ofJson? (assignment.get? "missing_data"),
    assignment.get? skipToleranceVariable with
  | none, _ => .error "aggregation_config missing_data must be 'propagate' or 'skip'"
  | some rowPolicy, some (.str token) =>
    let policy ← CompletenessPolicy.ofToken rowPolicy token
    raiseIf (token ≠ policy.skipFractionToken)
      "aggregation_config max_skip_fraction must use its exact round-trippable token"
    return policy
  | some _, _ => .error "aggregation_config max_skip_fraction must be a canonical string"

variable [IdentityHasher]

def validateMatrixPlan (evalConfig : EvalConfig) (samplingConfig : SamplingConfig)
    (taskSet : TaskSet) (seedPlan : SeedPlan) (aggregationConfig : AggregationConfig) :
    Except String CompletenessPolicy := do
  raiseIf (evalConfig.samplingConfigHash ≠ samplingConfig.configHash)
    "eval_config sampling_config_hash does not match sampling_config"
  raiseIf (evalConfig.aggregationConfigHash ≠ aggregationConfig.configHash)
    "eval_config aggregation_config_hash does not match aggregation_config"
  let sampling := Dict.ofPairs samplingConfig.assignment
  raiseIf (sampling.get? "task_set_hash" ≠ some (.str taskSet.identityHash))
    "sampling_config task_set_hash does not match task_set"
  raiseIf (sampling.get? "seed_plan_hash" ≠ some (.str seedPlan.identityHash))
    "sampling_config seed_plan_hash does not match seed_plan"
  raiseIf (taskSet.selectionRule ≠ none) "task_set must be an explicit task identity manifest"
  raiseIf (taskSet.taskHashes ≠ seedPlan.taskHashes)
    "task_set and seed_plan task identities do not match"
  policyFromAggregationConfig aggregationConfig

/- `policy` is the property of that name; the plan was built from it. -/
structure EvalMatrixPlan where
  evalConfig : EvalConfig
  samplingConfig : SamplingConfig
  taskSet : TaskSet
  seedPlan : SeedPlan
  aggregationConfig : AggregationConfig
  policy : CompletenessPolicy
  valid : validateMatrixPlan evalConfig samplingConfig taskSet seedPlan aggregationConfig =
    .ok policy

end Plan

/-! ### Rows -/

def RowValue.isPresent {F : Type} : RowValue F → Bool
  | .scored _ => true
  | _ => false

def RowValue.toAggregationInput : RowValue Rat → AggregationInput
  | .scored value => ⟨some value, true⟩
  | .invalid => ⟨none, false⟩
  | _ => ⟨none, true⟩

structure TaskRows where
  taskHash : String
  rows : List (RowValue Rat)
deriving DecidableEq

def TaskRows.completedRows (task : TaskRows) (numSeeds : Nat) :
    Except String (List (RowValue Rat)) := do
  raiseIf (numSeeds < task.rows.length)
    ("task " ++ task.taskHash ++ " has " ++ toString task.rows.length ++
      " rows, more than plan num_seeds " ++ toString numSeeds)
  return task.rows ++ List.replicate (numSeeds - task.rows.length) .missing

structure Aggregate where
  name : String
  graphHash : String
  evalConfigHash : String
  taskCount : Nat
  numSeeds : Nat
  aggregationOutput : AggregationOutput
  rowsPresent : Nat
  rowsMissing : Nat
  rowsFailed : Nat
  rowsInvalid : Nat
deriving DecidableEq

def Aggregate.validate (a : Aggregate) : Except String Aggregate := do
  requireFullHash a.graphHash "graph_hash"
  requireFullHash a.evalConfigHash "eval_config_hash"
  raiseIf (a.numSeeds < 1) "num_seeds must be at least 1"
  let planned := a.taskCount * a.numSeeds
  let accounted := a.rowsPresent + a.rowsMissing + a.rowsFailed + a.rowsInvalid
  raiseIf (accounted ≠ planned)
    ("row accounting does not cover the complete planned matrix: " ++ toString accounted ++
      " != " ++ toString planned)
  return a

def rowCounts (rows : List (RowValue Rat)) : Nat × Nat × Nat × Nat :=
  (rows.countP RowValue.isPresent, rows.countP (· = .missing), rows.countP (· = .failed),
    rows.countP (· = .invalid))

def enforceSkipTolerance (output : AggregationOutput) (policy : CompletenessPolicy)
    (skipped planned : Nat) : AggregationOutput :=
  if policy.rowPolicy ≠ .skip then output
  else if withinTolerance policy skipped planned = true then output
  else { output with value := none, status := .missingData }

/- What a task contributes to the mean over the tasks. -/
def taskInput (output : AggregationOutput) : AggregationInput :=
  match output.status with
  | .ok => ⟨output.value, true⟩
  | .notApplicable => ⟨none, false⟩
  | _ => ⟨none, true⟩

def observeTask (observed : Dict String TaskRows) (task : TaskRows) :
    Except String (Dict String TaskRows) := do
  raiseIf ((observed.get? task.taskHash).isSome = true)
    ("duplicate observed task identity: " ++ task.taskHash)
  return observed.set task.taskHash task

def extraTaskHashes (observed : Dict String TaskRows) (planned : List String) : List String :=
  (observed.keys.filter (· ∉ planned)).mergeSort fun a b => decide (a ≤ b)

/- The rows of one planned task and its input to the mean over the tasks. -/
def reduceTask (config : AggregationConfig) (numSeeds : Nat) (task : TaskRows) :
    Except String (List (RowValue Rat) × AggregationInput) := do
  let completed ← task.completedRows numSeeds
  let output ← aggregate config (completed.map RowValue.toAggregationInput)
  return (completed, taskInput output)

def unweightedTaskMean [FractionText] [IdentityHasher] (aggregateName graphHash : String)
    (taskRows : List TaskRows) (plan : EvalMatrixPlan) : Except String Aggregate := do
  raiseIf (strip aggregateName = "") "aggregate_name must be nonblank"
  let numSeeds := plan.seedPlan.numSeeds
  let planned := plan.seedPlan.taskHashes
  let observed ← taskRows.foldlM observeTask Dict.empty
  let extras := extraTaskHashes observed planned
  raiseIf (extras ≠ []) ("observed unplanned task identities: " ++ ", ".intercalate extras)
  let reconciled := planned.map fun taskHash => (observed.get? taskHash).getD ⟨taskHash, []⟩
  let reduced ← reconciled.mapM (reduceTask plan.aggregationConfig numSeeds)
  let allRows := reduced.flatMap Prod.fst
  let output ← aggregate plan.aggregationConfig (reduced.map Prod.snd)
  let (present, missing, failed, invalid) := rowCounts allRows
  let output := enforceSkipTolerance output plan.policy (missing + failed + invalid) allRows.length
  Aggregate.validate ⟨aggregateName, graphHash, plan.evalConfig.configHash, planned.length,
    numSeeds, output, present, missing, failed, invalid⟩

/-! ### The per-task view -/

def perTaskScore (task : TaskRows) (numSeeds : Nat) (config : AggregationConfig) :
    Except String (Option Rat) := do
  let completed ← task.completedRows numSeeds
  let output ← aggregate config (completed.map RowValue.toAggregationInput)
  return if output.status = .ok then output.value else none

def perTaskCount (task : TaskRows) (numSeeds : Nat) : Except String Nat := do
  let completed ← task.completedRows numSeeds
  return completed.countP RowValue.isPresent

end Whetstone.Eval
