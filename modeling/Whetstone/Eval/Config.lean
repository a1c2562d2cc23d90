import Whetstone.Core.Identity
import Whetstone.Lib.Raise
import Whetstone.Lib.Dict

/-! Evaluation configuration: definitions with variables, and the configs that materialize them.
A config hash covers the definition and the assignment of its variables. -/
namespace Whetstone.Eval
open Whetstone.Core Whetstone.Lib

def schemaVersion : Nat := 1
def schemaSamplingDefinition : String := "whetstone.sampling.definition"
def schemaSamplingConfig : String := "whetstone.sampling.config"
def schemaEvalDefinition : String := "whetstone.eval.definition"
def schemaEvalConfig : String := "whetstone.eval.config"
def schemaTaskSet : String := "whetstone.task_set"
def schemaSeedPlan : String := "whetstone.seed_plan"

def identityHashFor [IdentityHasher] (schema : String) (payload : Json) : String :=
  IdentityHasher.computeIdentityHash schema schemaVersion payload

structure DefinitionRef where
  definitionId : String
  version : String
  schemaName : String
  identityHash : String
deriving DecidableEq, Inhabited

structure VariableSpec where
  name : String
  allowed : Option (List Json)
  default : Option Json
deriving DecidableEq, Inhabited

abbrev Assignment := List (String × Json)

def assignedValue (spec : VariableSpec) (assignment : Assignment) : Except String Json :=
  match (Dict.ofPairs assignment).get? spec.name, spec.default with
  | some value, _ => .ok value
  | none, some value => .ok value
  | none, none => .error ("variable '" ++ spec.name ++ "' is unassigned")

def resolveVariable (assignment : Assignment) (spec : VariableSpec) :
    Except String (String × Json) := do
  let value ← assignedValue spec assignment
  match spec.allowed with
  | none => pure ()
  | some allowed =>
    raiseIf (value ∉ allowed) ("value for '" ++ spec.name ++ "' is not an allowed value")
  return (spec.name, value)

def unknownVariables (specs : List VariableSpec) (assignment : Assignment) : List String :=
  ((assignment.map Prod.fst).dedup.filter (· ∉ specs.map VariableSpec.name)).mergeSort
    (fun a b => decide (a ≤ b))

def resolveAssignment (specs : List VariableSpec) (assignment : Assignment) :
    Except String Assignment := do
  raiseIf (¬ (specs.map VariableSpec.name).Nodup) "variable names must be unique"
  raiseIf (∃ pair ∈ assignment, pair.1 ∉ specs.map VariableSpec.name)
    ("unknown variables: " ++ ", ".intercalate (unknownVariables specs assignment))
  specs.mapM (resolveVariable assignment)

def variablesPayload (specs : List VariableSpec) : Json :=
  .arr (specs.map fun spec => .obj [
    ("name", .str spec.name),
    ("allowed", match spec.allowed with
      | none => .null
      | some allowed => .arr allowed),
    ("has_default", .bool spec.default.isSome),
    ("default", spec.default.getD .null)])

def assignmentPayload (assignment : Assignment) : Json :=
  .arr (assignment.map fun pair => .arr [.str pair.1, pair.2])

section Definitions

variable [IdentityHasher]

def definitionConfigHash (schema definitionId version : String) (specs : List VariableSpec) :
    String :=
  identityHashFor schema (.obj [("definition_id", .str definitionId), ("version", .str version),
    ("variables", variablesPayload specs)])

def definitionRef (schema definitionId version : String) (specs : List VariableSpec) :
    DefinitionRef :=
  ⟨definitionId, version, schema, definitionConfigHash schema definitionId version specs⟩

end Definitions

/-! ### Sampling -/

structure SamplingConfig where
  definitionRef : DefinitionRef
  assignment : Assignment
  configHash : String
deriving DecidableEq, Inhabited

def samplingVariables : List VariableSpec :=
  [⟨"task_set_hash", none, none⟩, ⟨"seed_plan_hash", none, none⟩]

/- `SamplingDefinition(definition_id, version).materialize(assignment)` -/
def materializeSampling [IdentityHasher] (definitionId version : String)
    (assignment : Assignment) : Except String SamplingConfig := do
  let resolved ← resolveAssignment samplingVariables assignment
  let ref := definitionRef schemaSamplingDefinition definitionId version samplingVariables
  return ⟨ref, resolved, identityHashFor schemaSamplingConfig (.obj [
    ("definition_identity", .str ref.identityHash),
    ("assignment", assignmentPayload resolved)])⟩

theorem resolveAssignment_sampling (a b : Json) :
    resolveAssignment samplingVariables [("task_set_hash", a), ("seed_plan_hash", b)] =
      .ok [("task_set_hash", a), ("seed_plan_hash", b)] := by
  have hnames : ¬ ¬ (samplingVariables.map VariableSpec.name).Nodup := by decide
  have hknown : ¬ ∃ pair ∈ [("task_set_hash", a), ("seed_plan_hash", b)],
      pair.1 ∉ samplingVariables.map VariableSpec.name := by
    simp [samplingVariables]
  rw [resolveAssignment, raiseIf_neg _ _ hnames, ok_bind, raiseIf_neg _ _ hknown, ok_bind]
  rfl

/-! ### Procedure, aggregation and the eval config -/

structure EvalProcedureConfig where
  definitionRef : DefinitionRef
  preprocessingConfigHash : String
  metricExtractionConfigHash : String
  assignment : Assignment
  configHash : String
deriving DecidableEq, Inhabited

structure AggregationConfig where
  definitionRef : DefinitionRef
  assignment : Assignment
  configHash : String
deriving DecidableEq, Inhabited

structure EvalConfig where
  definitionRef : DefinitionRef
  samplingConfigHash : String
  evaluationProcedureConfigHash : String
  aggregationConfigHash : String
  configHash : String
deriving DecidableEq, Inhabited

def evalVariables : List VariableSpec :=
  [⟨"sampling_config_hash", none, none⟩, ⟨"evaluation_procedure_config_hash", none, none⟩,
    ⟨"aggregation_config_hash", none, none⟩]

/- `EvalDefinition(definition_id, version).materialize(…)` -/
def materializeEval [IdentityHasher] (definitionId version : String) (sampling : SamplingConfig)
    (evaluationProcedure : EvalProcedureConfig) (aggregation : AggregationConfig) : EvalConfig :=
  let ref := definitionRef schemaEvalDefinition definitionId version evalVariables
  ⟨ref, sampling.configHash, evaluationProcedure.configHash, aggregation.configHash,
    identityHashFor schemaEvalConfig (.obj [
      ("definition_identity", .str ref.identityHash),
      ("sampling_config", .str sampling.configHash),
      ("evaluation_procedure_config", .str evaluationProcedure.configHash),
      ("aggregation_config", .str aggregation.configHash)])⟩

end Whetstone.Eval
