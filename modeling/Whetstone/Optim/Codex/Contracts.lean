import Whetstone.Lib.Prog
import Whetstone.Optim.CostAggregation
import Whetstone.Tools.CallStore
import Whetstone.Tools.Issued

/-! The records of a Codex Step, its exceptions, and the operations its adapter takes: the
runner, the object store, the Tool Call Store and the issued-call ledger. -/
namespace Whetstone.Optim.Codex
open Whetstone.Core Whetstone.Lib Whetstone.Experiment Whetstone.Tools Whetstone.Optim.Step

def outputArtifactSchema : String := "whetstone.codex_output_artifact"

def selectionUnevaluatedCode : String := "codex_selection_unevaluated"
def leaseTokenMismatchCode : String := "codex_lease_token_mismatch"
def artifactRunMismatchCode : String := "codex_artifact_run_mismatch"
def selectionContractCode : String := "codex_selection_contract"
def unreportedEvaluationCode : String := "codex_unreported_evaluation"
def selectionUnscoredCode : String := "codex_selection_unscored"
def seedRetainedCallIdKey : String := "codex_seed_retained_call_id"
def evaluationInterruptedCode : String := "codex_evaluation_interrupted"
def wallBudgetExceededCode : String := "codex_wall_budget_exceeded"
def executionFailedCode : String := "codex_execution_failed"
def recordedCallContractCode : String := "codex_recorded_call_contract"
def mcpHostFailedCode : String := "codex_mcp_host_failed"

structure CodexOutputArtifact where
  runId : String
  evaluatedCallIds : List String
  selectedCallId : Option String
  leaseTokenHash : String
  conversationEvidence : List (String × Json)
  controlCost : List (String × Json)

/- What a runner raises. An `OpaqueStepError` without isolation evidence has an empty one. -/
inductive RunnerError where
  | wallBudget (message : String) (wallSeconds : Rat) (isolation : List (String × Json))
  | mcpHost (message cause : String)
  | opaqueStep (message : String) (isolation : List (String × Json))
  | other (message : String)

/- `value` stands for the ValueErrors of the records and of the handle. -/
inductive CodexError [ToolIdentity] where
  | opaqueStep (message : String)
  | value (message : String)
  | runner (message : String)
  | admission (error : AdmissionError)
  | issued (error : Issued.IssuedError)

/-- The content hash of an output artifact and the hash of a lease token. No property is
assumed. -/
class CodexIdentity where
  artifactHash : CodexOutputArtifact → String
  leaseTokenHash : String → String

def artifactRef [CodexIdentity] (artifact : CodexOutputArtifact) : TypedRef :=
  ⟨outputArtifactSchema, CodexIdentity.artifactHash artifact⟩

/- The handle the harness gives the adapter: the exact config and binding, in front of the
   issued-call ledger. -/
structure GuardedHandle where
  config : ToolConfig
  binding : ToolCapacityBinding
  valid : binding.scope = config.capacity.scope

section Operations

variable [ToolIdentity] (F : Type) [FiniteFloats F] [DecidableEq F] [RewardIdentity F]

inductive CodexOp where
  | mintLeaseToken
  | run (leaseToken : String)
  | putArtifact (artifact : CodexOutputArtifact)
  | acceptedCount (query : ScopeQuery)
  | admittedEntries (query : ScopeQuery)
  | findEntry (key : EntryKey)
  | issue (call : ToolCall)

variable {F}

abbrev CodexOp.Reply : CodexOp → Type
  | .mintLeaseToken => String
  | .run _ => Except RunnerError CodexOutputArtifact
  | .putArtifact _ => TypedRef
  | .acceptedCount _ => Except AdmissionError Nat
  | .admittedEntries _ => Except AdmissionError (List ToolCallStoreEntry)
  | .findEntry _ => Except AdmissionError (Option ToolCallStoreEntry)
  | .issue _ => Except Issued.IssuedError (ToolResult F)

variable (F) in
abbrev CodexProg := Prog CodexOp (CodexOp.Reply (F := F)) CodexError

abbrev perform (o : CodexOp) : CodexProg F (CodexOp.Reply (F := F) o) :=
  @Prog.perform _ (CodexOp.Reply (F := F)) _ o

def refuseIf (bad : Prop) [Decidable bad] (error : CodexError) : CodexProg F Unit :=
  Prog.ofExcept (raiseIf bad error)

def fromValidation {α : Type} : Except String α → CodexProg F α
  | .ok a => .done a
  | .error message => .raise (.value message)

def fromAdmission {α : Type} : Except AdmissionError α → CodexProg F α
  | .ok a => .done a
  | .error error => .raise (.admission error)

def fromIssued {α : Type} : Except Issued.IssuedError α → CodexProg F α
  | .ok a => .done a
  | .error error => .raise (.issued error)

end Operations

/-! ### JSON -/

def refJson (ref : TypedRef) : Json :=
  .obj [("schema_name", .str ref.schemaName), ("content_hash", .str ref.contentHash)]

/- `{**fields, key: value}`: a present key keeps its place. -/
def setField (key : String) (value : Json) : List (String × Json) → List (String × Json)
  | [] => [(key, value)]
  | field :: rest =>
    if field.1 = key then (key, value) :: rest else field :: setField key value rest

/- The details of a failure, which are an object. -/
def detailFields (failure : TerminalFailure) : List (String × Json) :=
  match failure.details with
  | .obj fields => fields
  | _ => []

def withDetail (failure : TerminalFailure) (key : String) (value : Json) : TerminalFailure :=
  { failure with details := .obj (setField key value (detailFields failure)) }

theorem lookup_setField (key : String) (value : Json) (fields : List (String × Json)) :
    (setField key value fields).lookup key = some value := by
  induction fields with
  | nil => simp [setField]
  | cons field rest ih =>
    unfold setField
    split
    · simp
    · rename_i hne
      rw [List.lookup_cons, ih]
      have hbeq : (key == field.1) = false := by simpa using Ne.symm hne
      rw [hbeq]

theorem filter_setField (key : String) (value : Json) (fields : List (String × Json)) :
    (setField key value fields).filter (·.1 ≠ key) = fields.filter (·.1 ≠ key) := by
  induction fields with
  | nil => simp [setField]
  | cons field rest ih =>
    unfold setField
    split
    · rename_i heq
      rw [List.filter_cons, List.filter_cons]
      simp [heq]
    · rw [List.filter_cons, List.filter_cons, ih]

end Whetstone.Optim.Codex
