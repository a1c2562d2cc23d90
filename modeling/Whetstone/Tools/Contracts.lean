import Whetstone.Eval.Config

/-! Tool records. A record that its constructor validates carries the validation as a
field. Strings that the source requires to be non-empty are plain strings, since no
function here branches on emptiness; `args` lists an object's fields in canonical order. -/
namespace Whetstone.Tools
open Whetstone.Core Whetstone.Eval

def globalCapacityScopeId : String := "global"
def runCapacitySubjectSchema : String := "whetstone.optim_run"
def stepCapacitySubjectSchema : String := "whetstone.optim_step_request"
def toolResultSchema : String := "whetstone.tool_result"

inductive RefusalClass where
  | authorization
  | capacity
  | budget
  | validation
deriving DecidableEq, Inhabited

inductive ToolCapacityScope where
  | global
  | run
  | step
deriving DecidableEq, Inhabited

def ToolCapacityScope.value : ToolCapacityScope → String
  | .global => "global"
  | .run => "run"
  | .step => "step"

def validateBinding (scope : ToolCapacityScope) (subjectRef : Option TypedRef) :
    Except String Unit :=
  match scope, subjectRef with
  | .global, none => .ok ()
  | .global, some _ => .error "GLOBAL Tool Capacity requires no subject_ref"
  | .run, none => .error "RUN Tool Capacity requires subject_ref"
  | .step, none => .error "STEP Tool Capacity requires subject_ref"
  | .run, some ref =>
    if ref.schemaName ≠ runCapacitySubjectSchema then
      .error "RUN Tool Capacity subject_ref must use schema 'whetstone.optim_run'"
    else .ok ()
  | .step, some ref =>
    if ref.schemaName ≠ stepCapacitySubjectSchema then
      .error "STEP Tool Capacity subject_ref must use schema 'whetstone.optim_step_request'"
    else .ok ()

structure ToolCapacityBinding where
  scope : ToolCapacityScope
  subjectRef : Option TypedRef
  valid : validateBinding scope subjectRef = .ok ()
deriving DecidableEq

/- The source asserts that a subject is present outside GLOBAL scope, which `valid`
   guarantees; the empty string is never returned. -/
def ToolCapacityBinding.capacityScopeId (binding : ToolCapacityBinding) : String :=
  match binding.scope with
  | .global => globalCapacityScopeId
  | .run | .step => (binding.subjectRef.map TypedRef.contentHash).getD ""

def validateDefinition (version : Nat) (inputFields outputFields : List String)
    (refusalClasses : List RefusalClass) : Except String Unit := do
  if version = 0 then throw "Tool Definition version must be positive"
  if inputFields = [] then throw "a Tool Definition must declare input_fields"
  if outputFields = [] then throw "a Tool Definition must declare output_fields"
  if ¬ inputFields.Nodup then throw "Tool Definition input_fields must be unique"
  if ¬ outputFields.Nodup then throw "Tool Definition output_fields must be unique"
  if ¬ refusalClasses.Nodup then throw "Tool Definition refusal_classes must be unique"
  if refusalClasses = [] then throw "a Tool Definition must declare refusal_classes"

structure ToolDefinition where
  toolName : String
  version : Nat
  inputFields : List String
  outputFields : List String
  refusalClasses : List RefusalClass
  expansionSemantics : Option String
  valid : validateDefinition version inputFields outputFields refusalClasses = .ok ()
deriving DecidableEq

structure ToolCapacity where
  maxAcceptedCalls : Nat
  scope : ToolCapacityScope
deriving DecidableEq

def validateConfig (operationalPolicyRefs : List TypedRef) : Except String Unit :=
  if ¬ operationalPolicyRefs.Nodup then
    .error "Tool Config operational_policy_refs must be unique"
  else .ok ()

structure ToolConfig where
  definition : ToolDefinition
  endpointKey : String
  evalConfig : EvalConfig
  rewardPolicyHash : String
  capacity : ToolCapacity
  timeoutPolicyRef : Option TypedRef
  operationalPolicyRefs : List TypedRef
  storeNamespaceKey : String
  idempotentReplay : Bool
  candidateTemplateField : String
  valid : validateConfig operationalPolicyRefs = .ok ()
deriving DecidableEq

def reprNames (names : List String) : String :=
  "[" ++ ", ".intercalate (names.map fun name => "'" ++ name ++ "'") ++ "]"

def validateCall (config : ToolConfig) (binding : ToolCapacityBinding)
    (args : List (String × Json)) : Except String Unit :=
  if binding.scope ≠ config.capacity.scope then
    .error "Tool Call capacity binding scope must match the exact Tool Config"
  else
    let expected := config.definition.inputFields
    let actual := args.map Prod.fst
    let missing := (expected.filter (· ∉ actual)).mergeSort (fun a b => decide (a ≤ b))
    let unexpected := (actual.filter (· ∉ expected)).mergeSort (fun a b => decide (a ≤ b))
    if ¬ (actual ⊆ expected ∧ expected ⊆ actual) then
      .error ("Tool Call args must exactly match Definition input_fields; missing=" ++
        reprNames missing ++ ", unexpected=" ++ reprNames unexpected)
    else .ok ()

/- The cited Tool Config is determined by its record: the source rejects a citation whose
   record_ref or config_hash does not address that exact record. -/
structure ToolCall where
  callId : String
  toolConfig : ToolConfig
  capacityBinding : ToolCapacityBinding
  args : List (String × Json)
  valid : validateCall toolConfig capacityBinding args = .ok ()
deriving DecidableEq

/-- The hashes computed from Tool records, as functions of the payload they cover.
No property of them is assumed. -/
class ToolIdentity where
  toolConfigHash : ToolConfig → String
  toolCallRef : ToolCall → TypedRef
  effectSemanticKey : (storeNamespaceKey callId : String) → String
  effectRequestHash : ToolCall → String

namespace ToolCall

def toolConfigHash [ToolIdentity] (call : ToolCall) : String :=
  ToolIdentity.toolConfigHash call.toolConfig

def storeNamespaceKey (call : ToolCall) : String := call.toolConfig.storeNamespaceKey

def capacityScope (call : ToolCall) : ToolCapacityScope := call.toolConfig.capacity.scope

def capacityScopeId (call : ToolCall) : String := call.capacityBinding.capacityScopeId

end ToolCall

structure ToolRefusal where
  refusalClass : RefusalClass
  reason : String
deriving DecidableEq

theorem ToolCall.scope_eq (call : ToolCall) :
    call.capacityBinding.scope = call.capacityScope := by
  by_contra hne
  have h := call.valid
  rw [validateCall, if_pos (show call.capacityBinding.scope ≠ call.toolConfig.capacity.scope
    from hne)] at h
  cases h

end Whetstone.Tools
