import Whetstone.Drivers.GraphRow

/-! The JSON payload in which a worker returns its row. Every row the graph projection can
leave comes back from the payload unchanged. -/
namespace Whetstone.Drivers
open Whetstone.Core Whetstone.Lib Whetstone.Eval

variable {F : Type}

abbrev Payload (F : Type) := Dict String (PyValue F)

def optional {α : Type} (encode : α → PyValue F) : Option α → PyValue F
  | none => .json .null
  | some value => encode value

def text (value : String) : PyValue F := .json (.str value)
def integer (value : Int) : PyValue F := .json (.int value)
def object (value : Dict String Json) : PyValue F := .json (.obj value.pairs)

/- `payload[key]` -/
def required (payload : Payload F) (key : String) : Except String (PyValue F) :=
  raised key (payload.get? key)

/- `None if payload.get(key) is None else convert(payload[key])` -/
def unlessNone {α : Type} (convert : PyValue F → Except String α) (payload : Payload F)
    (key : String) : Except String (Option α) :=
  match payload.get? key with
  | none => .ok none
  | some (.json .null) => .ok none
  | some value => do return some (← convert value)

theorem required_ok (payload : Payload F) (key : String) (value : PyValue F)
    (h : payload.get? key = some value) : required payload key = .ok value := by
  rw [required, h]
  rfl

theorem unlessNone_ok {α : Type} (convert : PyValue F → Except String α)
    (encode : α → PyValue F) (payload : Payload F) (key : String) (value : Option α)
    (h : payload.get? key = some (optional encode value))
    (hnull : ∀ a, encode a ≠ .json .null) (hconvert : ∀ a, convert (encode a) = .ok a) :
    unlessNone convert payload key = .ok value := by
  rw [unlessNone, h]
  cases value with
  | none => rfl
  | some a =>
    rw [optional]
    split
    · rename_i h
      cases h
    · rename_i h
      exact absurd (Option.some.inj h) (hnull a)
    · rename_i h
      cases h
      rw [hconvert]
      rfl

section Decode
variable [Conversions F]

/- `payload.get(key) or fallback` -/
def orElse (payload : Payload F) (key : String) (fallback : PyValue F) : PyValue F :=
  match payload.get? key with
  | none => fallback
  | some value => if truthy value then value else fallback

def convertStr (value : PyValue F) : Except String String := .ok (pyStr value)

def convertDict (value : PyValue F) : Except String (Dict String Json) := do
  return Dict.ofPairs (← pyDict value)

theorem unlessNone_text (payload : Payload F) (key : String) (value : Option String)
    (h : payload.get? key = some (optional text value)) :
    unlessNone convertStr payload key = .ok value :=
  unlessNone_ok convertStr text payload key value h (by simp [text]) (fun _ => rfl)

theorem unlessNone_integer (payload : Payload F) (key : String) (value : Option Int)
    (h : payload.get? key = some (optional integer value)) :
    unlessNone pyInt payload key = .ok value :=
  unlessNone_ok pyInt integer payload key value h (by simp [integer]) (fun _ => rfl)

theorem unlessNone_float (payload : Payload F) (key : String) (value : Option F)
    (h : payload.get? key = some (optional .float value)) :
    unlessNone pyFloat payload key = .ok value :=
  unlessNone_ok pyFloat .float payload key value h (by simp) (fun _ => rfl)

theorem unlessNone_object (payload : Payload F) (key : String)
    (value : Option (Dict String Json)) (h : payload.get? key = some (optional object value)) :
    unlessNone convertDict payload key = .ok value := by
  apply unlessNone_ok convertDict object payload key value h (by simp [object])
  intro d
  rw [convertDict, object, pyDict, ok_bind, Dict.ofPairs_pairs]
  rfl

theorem orElse_text (payload : Payload F) (key value : String)
    (h : payload.get? key = some (text value)) : orElse payload key (text "") = text value := by
  rw [orElse, h]
  by_cases hv : value = ""
  · simp [text, truthy, hv]
  · simp [text, truthy, hv]

theorem orElse_integer (payload : Payload F) (key : String) (value fallback : Int)
    (h : payload.get? key = some (integer value)) (hv : value ≠ 0) :
    orElse payload key (integer fallback) = integer value := by
  rw [orElse, h]
  simp [integer, truthy, hv]

end Decode

section Rows
variable [JsonText]

def payloadFields (output : RolloutRowOutput F) (requestIdentities : List String) :
    List (String × PyValue F) :=
  [("candidate_id", text output.candidateId),
    ("task_id", text output.taskId),
    ("task_index", integer output.taskIndex),
    ("seed_index", integer output.seedIndex),
    ("row_state", text output.rowState.value),
    ("trace_steps", .json (.arr (output.traceSteps.map fun step => step.toStepFields.toJson))),
    ("output_text", optional text output.outputText),
    ("score", optional .float output.score),
    ("failure_code", text output.failureCode),
    ("finish_reason", optional text output.finishReason),
    ("provider_error", optional object output.providerError),
    ("prompt_tokens", optional integer output.promptTokens),
    ("completion_tokens", optional integer output.completionTokens),
    ("provider_cost", optional .float output.providerCost),
    ("cache_hit", .json (.bool output.cacheHit)),
    ("error_type", optional text output.errorType),
    ("error_message", optional text output.errorMessage),
    ("failed_node_id", optional text output.failedNodeId),
    ("row_attempts", integer output.rowAttempts),
    ("submission_result", .json output.submissionResult),
    ("request_identities", .json (.arr (requestIdentities.map .str)))]

def rolloutRowOutputToJson (output : RolloutRowOutput F) (requestIdentities : List String) :
    Payload F := Dict.ofPairs (payloadFields output requestIdentities)

theorem get?_toJson (output : RolloutRowOutput F) (identities : List String) (key : String)
    (value : PyValue F) (h : (key, value) ∈ payloadFields output identities) :
    (rolloutRowOutputToJson output identities).get? key = some value := by
  apply Dict.get?_ofPairs_of_mem
  · simp only [payloadFields, List.map_cons, List.map_nil]
    decide
  · exact h

variable [Conversions F]

/- The names are converted one by one, and everything else must already have its type. -/
def stepOfPayload (fields : List (String × Json)) : Except String ExecutedComponentStep := do
  let item := Dict.ofPairs fields
  let known := ["trace_index", "component_id", "input_field_names", "output_field_names",
    "inputs", "outputs"]
  raiseIf (∃ key ∈ item.keys, key ∉ known) "Extra inputs are not permitted"
  match item.get? "trace_index", item.get? "component_id", item.get? "input_field_names",
      item.get? "output_field_names", item.get? "inputs", item.get? "outputs" with
  | some (.int traceIndex), some (.str componentId), some (.arr inputNames),
      some (.arr outputNames), some (.obj inputs), some (.obj outputs) =>
    ExecutedComponentStep.create
      { traceIndex := traceIndex
        componentId := componentId
        inputFieldNames := inputNames.map fun name => pyStr (.json name : PyValue F)
        outputFieldNames := outputNames.map fun name => pyStr (.json name : PyValue F)
        inputs := Dict.ofPairs inputs
        outputs := Dict.ofPairs outputs }
  | _, _, _, _, _, _ => .error "Input should be a valid executed-component step"

def stepsOfPayload : List Json → Except String (List ExecutedComponentStep)
  | [] => .ok []
  | .obj fields :: rest => do
    let step ← stepOfPayload (F := F) fields
    return step :: (← stepsOfPayload rest)
  | _ :: rest => stepsOfPayload rest

def payloadRowState (payload : Payload F) : Except String ExecutedRowState :=
  match payload.get? "row_state" with
  | some (.json (.str value)) => ExecutedRowState.ofValue value
  | _ => .ok .success

def payloadTraceSteps (payload : Payload F) : Except String (List ExecutedComponentStep) :=
  match payload.get? "trace_steps" with
  | some (.json (.arr items)) => stepsOfPayload (F := F) items
  | _ => .ok []

/- `payload.get(key) is True` -/
def isTrue : Option (PyValue F) → Bool
  | some (.json (.bool true)) => true
  | _ => false

/- A submission is a JSON value. -/
def jsonOf : Option (PyValue F) → Json
  | some (.json value) => value
  | _ => .null

def rolloutRowOutputFromWorkerPayload (payload : Payload F) :
    Except String (RolloutRowOutput F) := do
  let rowState ← payloadRowState payload
  let traceSteps ← payloadTraceSteps payload
  let candidateId ← required payload "candidate_id"
  let taskId ← required payload "task_id"
  let taskIndex ← pyInt (← required payload "task_index")
  let seedIndex ← pyInt (← required payload "seed_index")
  let outputText ← unlessNone convertStr payload "output_text"
  let score ← unlessNone pyFloat payload "score"
  let finishReason ← unlessNone convertStr payload "finish_reason"
  let providerError ← unlessNone convertDict payload "provider_error"
  let promptTokens ← unlessNone pyInt payload "prompt_tokens"
  let completionTokens ← unlessNone pyInt payload "completion_tokens"
  let providerCost ← unlessNone pyFloat payload "provider_cost"
  let errorType ← unlessNone convertStr payload "error_type"
  let errorMessage ← unlessNone convertStr payload "error_message"
  let failedNodeId ← unlessNone convertStr payload "failed_node_id"
  let rowAttempts ← pyInt (orElse payload "row_attempts" (integer 1))
  return { candidateId := pyStr candidateId, taskId := pyStr taskId, taskIndex := taskIndex
           seedIndex := seedIndex, rowState := rowState, traceSteps := traceSteps
           outputText := outputText, score := score
           failureCode := pyStr (orElse payload "failure_code" (text ""))
           finishReason := finishReason, providerError := providerError
           promptTokens := promptTokens, completionTokens := completionTokens
           providerCost := providerCost
           cacheHit := isTrue (payload.get? "cache_hit")
           errorType := errorType, errorMessage := errorMessage, failedNodeId := failedNodeId
           rowAttempts := rowAttempts
           submissionResult := jsonOf (payload.get? "submission_result") }

theorem stepOfPayload_toJson (step : ExecutedComponentStep) (fields : List (String × Json))
    (h : step.toStepFields.toJson = .obj fields) :
    stepOfPayload (F := F) fields = .ok step := by
  have hfields : fields = [("trace_index", .int step.traceIndex),
      ("component_id", .str step.componentId),
      ("input_field_names", .arr (step.inputFieldNames.map .str)),
      ("output_field_names", .arr (step.outputFieldNames.map .str)),
      ("inputs", .obj step.inputs.pairs), ("outputs", .obj step.outputs.pairs)] := by
    rw [StepFields.toJson] at h
    exact (Json.obj.inj h).symm
  have hnodup : (fields.map Prod.fst).Nodup := by
    rw [hfields]
    simp only [List.map_cons, List.map_nil]
    decide
  have hget : ∀ key value, (key, value) ∈ fields →
      (Dict.ofPairs fields).get? key = some value := fun key value hmem =>
    Dict.get?_ofPairs_of_mem fields hnodup key value hmem
  have hkeys : (Dict.ofPairs fields).keys = ["trace_index", "component_id",
      "input_field_names", "output_field_names", "inputs", "outputs"] := by
    rw [Dict.keys, Dict.pairs_ofPairs fields hnodup, hfields]
    rfl
  have hnames : ∀ names : List String,
      (names.map Json.str).map (fun name => pyStr (.json name : PyValue F)) = names := by
    intro names
    rw [List.map_map]
    exact List.map_id names
  rw [stepOfPayload, hget "trace_index" (.int step.traceIndex) (by simp [hfields]),
    hget "component_id" (.str step.componentId) (by simp [hfields]),
    hget "input_field_names" (.arr (step.inputFieldNames.map .str)) (by simp [hfields]),
    hget "output_field_names" (.arr (step.outputFieldNames.map .str)) (by simp [hfields]),
    hget "inputs" (.obj step.inputs.pairs) (by simp [hfields]),
    hget "outputs" (.obj step.outputs.pairs) (by simp [hfields]), hkeys,
    raiseIf_neg _ _ (by simp)]
  simp only [hnames, Dict.ofPairs_pairs, ok_bind]
  exact create_toStepFields step

theorem stepsOfPayload_toJson (steps : List ExecutedComponentStep) :
    stepsOfPayload (F := F) (steps.map fun step => step.toStepFields.toJson) = .ok steps := by
  induction steps with
  | nil => rfl
  | cons step rest ih =>
    rw [List.map_cons]
    cases h : step.toStepFields.toJson with
    | obj fields =>
      rw [stepsOfPayload, stepOfPayload_toJson step fields h, ih]
      rfl
    | _ => simp [StepFields.toJson] at h

/-- A row with no budget columns that counts its executions survives the payload. -/
theorem rolloutRowOutput_roundtrip (output : RolloutRowOutput F) (identities : List String)
    (hmax : output.maxBudget = none) (hover : output.overBudget = none)
    (hattempts : output.rowAttempts ≠ 0) :
    rolloutRowOutputFromWorkerPayload (rolloutRowOutputToJson output identities) =
      .ok output := by
  have hget := get?_toJson output identities
  have hstate : payloadRowState (rolloutRowOutputToJson output identities) =
      .ok output.rowState := by
    rw [payloadRowState, hget "row_state" (text output.rowState.value) (by simp [payloadFields])]
    exact ofValue_value output.rowState
  have hsteps : payloadTraceSteps (rolloutRowOutputToJson output identities) =
      .ok output.traceSteps := by
    rw [payloadTraceSteps, hget "trace_steps"
      (.json (.arr (output.traceSteps.map fun step => step.toStepFields.toJson)))
      (by simp [payloadFields])]
    exact stepsOfPayload_toJson output.traceSteps
  have hcache : isTrue ((rolloutRowOutputToJson output identities).get? "cache_hit") =
      output.cacheHit := by
    rw [hget "cache_hit" (.json (.bool output.cacheHit)) (by simp [payloadFields])]
    cases output.cacheHit <;> rfl
  rw [rolloutRowOutputFromWorkerPayload, hstate, hsteps,
    required_ok _ _ _ (hget "candidate_id" (text output.candidateId) (by simp [payloadFields])),
    required_ok _ _ _ (hget "task_id" (text output.taskId) (by simp [payloadFields])),
    required_ok _ _ _ (hget "task_index" (integer output.taskIndex) (by simp [payloadFields])),
    required_ok _ _ _ (hget "seed_index" (integer output.seedIndex) (by simp [payloadFields])),
    unlessNone_text _ _ output.outputText (hget _ _ (by simp [payloadFields])),
    unlessNone_float _ _ output.score (hget _ _ (by simp [payloadFields])),
    unlessNone_text _ _ output.finishReason (hget _ _ (by simp [payloadFields])),
    unlessNone_object _ _ output.providerError (hget _ _ (by simp [payloadFields])),
    unlessNone_integer _ _ output.promptTokens (hget _ _ (by simp [payloadFields])),
    unlessNone_integer _ _ output.completionTokens (hget _ _ (by simp [payloadFields])),
    unlessNone_float _ _ output.providerCost (hget _ _ (by simp [payloadFields])),
    unlessNone_text _ _ output.errorType (hget _ _ (by simp [payloadFields])),
    unlessNone_text _ _ output.errorMessage (hget _ _ (by simp [payloadFields])),
    unlessNone_text _ _ output.failedNodeId (hget _ _ (by simp [payloadFields])),
    orElse_integer _ _ output.rowAttempts 1 (hget _ _ (by simp [payloadFields])) hattempts,
    orElse_text _ _ output.failureCode (hget _ _ (by simp [payloadFields])), hcache,
    hget "submission_result" (.json output.submissionResult) (by simp [payloadFields])]
  cases output
  subst hmax hover
  rfl

end Rows
end Whetstone.Drivers
