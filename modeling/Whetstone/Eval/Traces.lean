import Whetstone.Core.Json
import Whetstone.Lib.Dict
import Whetstone.Lib.Raise
import Whetstone.Lib.Text

/-! Executed components of a row. A step is stored in its normal form: the input and output
objects follow the order of their field names, and the whole step fits the byte bound. -/
namespace Whetstone.Eval
open Whetstone.Core Whetstone.Lib

inductive ExecutedRowState where
  | success
  | failed
  | missing
  | invalid
deriving DecidableEq, Inhabited

def ExecutedRowState.value : ExecutedRowState → String
  | .success => "success"
  | .failed => "failed"
  | .missing => "missing"
  | .invalid => "invalid"

def ExecutedRowState.ofValue (text : String) : Except String ExecutedRowState :=
  if text = "success" then .ok .success
  else if text = "failed" then .ok .failed
  else if text = "missing" then .ok .missing
  else if text = "invalid" then .ok .invalid
  else .error "not a valid ExecutedRowState"

@[simp] theorem ofValue_value (state : ExecutedRowState) :
    ExecutedRowState.ofValue state.value = .ok state := by
  cases state <;> decide

def maxExecutedComponentSteps : Nat := 16
def maxExecutedComponentFields : Nat := 32
def maxExecutedComponentJsonBytes : Nat := 4 * 1024 * 1024
def maxExecutedComponentJsonDepth : Nat := 32

/- The length of a finite float in `json.dumps`. -/
class JsonText where
  floatLength : Rat → Nat

def addBytes (limit total count : Nat) : Except String Nat :=
  if total + count > limit then .error "executed-component JSON exceeds its byte bound"
  else .ok (total + count)

/- Quote, backslash and the short control escapes take two bytes, other control characters
six, and the rest their UTF-8 length. Lone surrogates are no characters here. -/
def jsonCharBytes (c : Char) : Nat :=
  if c.toNat ∈ [34, 92, 8, 12, 10, 13, 9] then 2
  else if c.toNat < 0x20 then 6
  else if c.toNat < 0x80 then 1
  else if c.toNat < 0x800 then 2
  else if c.toNat < 0x10000 then 3
  else 4

def addJsonStringBytes (limit total : Nat) (text : String) : Except String Nat := do
  let total ← addBytes limit total 2
  text.toList.foldlM (fun total c => addBytes limit total (jsonCharBytes c)) total

def checkDepth (depth : Nat) : Except String Unit :=
  raiseIf (depth > maxExecutedComponentJsonDepth) "executed-component JSON exceeds its depth bound"

section Size
variable [JsonText]

mutual
def addValue (limit total depth : Nat) : Json → Except String Nat
  | .null => do checkDepth depth; addBytes limit total 4
  | .bool b => do checkDepth depth; addBytes limit total (if b then 4 else 5)
  | .int n => do checkDepth depth; addBytes limit total (toString n).length
  | .float q => do checkDepth depth; addBytes limit total (JsonText.floatLength q)
  | .str text => do checkDepth depth; addJsonStringBytes limit total text
  | .obj fields => do
    checkDepth depth
    let total ← addBytes limit total 1
    let total ← addFields limit total depth true fields
    addBytes limit total 1
  | .arr items => do
    checkDepth depth
    let total ← addBytes limit total 1
    let total ← addItems limit total depth true items
    addBytes limit total 1
def addItems (limit total depth : Nat) (isFirst : Bool) : List Json → Except String Nat
  | [] => .ok total
  | item :: rest => do
    let total ← if isFirst then pure total else addBytes limit total 1
    let total ← addValue limit total (depth + 1) item
    addItems limit total depth false rest
def addFields (limit total depth : Nat) (isFirst : Bool) :
    List (String × Json) → Except String Nat
  | [] => .ok total
  | (key, nested) :: rest => do
    let total ← if isFirst then pure total else addBytes limit total 1
    let total ← addJsonStringBytes limit total key
    let total ← addBytes limit total 1
    let total ← addValue limit total (depth + 1) nested
    addFields limit total depth false rest
end

def boundedCanonicalJsonSize (value : Json) (maxBytes : Nat) : Except String Nat :=
  addValue maxBytes 0 0 value

end Size

structure StepFields where
  traceIndex : Int
  componentId : String
  inputFieldNames : List String
  outputFieldNames : List String
  inputs : Dict String Json
  outputs : Dict String Json
deriving DecidableEq

def StepFields.toJson (step : StepFields) : Json :=
  .obj [("trace_index", .int step.traceIndex), ("component_id", .str step.componentId),
    ("input_field_names", .arr (step.inputFieldNames.map .str)),
    ("output_field_names", .arr (step.outputFieldNames.map .str)),
    ("inputs", .obj step.inputs.pairs), ("outputs", .obj step.outputs.pairs)]

def sameNames (a b : List String) : Prop := (∀ name ∈ a, name ∈ b) ∧ ∀ name ∈ b, name ∈ a

instance (a b : List String) : Decidable (sameNames a b) := inferInstanceAs (Decidable (_ ∧ _))

def orderedBy (names : List String) (object : Dict String Json) : Dict String Json :=
  Dict.ofPairs (names.map fun name => (name, (object.get? name).getD .null))

def StepFields.ordered (step : StepFields) : StepFields :=
  { step with
    inputs := orderedBy step.inputFieldNames step.inputs
    outputs := orderedBy step.outputFieldNames step.outputs }

def checkNames (step : StepFields) : Except String Unit := do
  let names := step.inputFieldNames ++ step.outputFieldNames
  raiseIf (step.traceIndex < 0) "trace_index must be nonnegative"
  raiseIf (step.componentId = "" ∨ step.componentId ≠ strip step.componentId)
    "component_id must be a nonempty stable identifier"
  raiseIf (names.length > maxExecutedComponentFields)
    "executed-component field count exceeds its bound"
  raiseIf (∃ name ∈ names, name = "" ∨ name ≠ strip name)
    "executed-component field names must be nonempty"
  raiseIf (¬ names.Nodup)
    "executed-component input and output names must be unique and non-overlapping"
  raiseIf (¬ sameNames step.inputs.keys step.inputFieldNames)
    "input field names must exactly match input object keys"
  raiseIf (¬ sameNames step.outputs.keys step.outputFieldNames)
    "output field names must exactly match output object keys"

theorem pairs_orderedBy (names : List String) (object : Dict String Json) (h : names.Nodup) :
    (orderedBy names object).pairs =
      names.map fun name => (name, (object.get? name).getD .null) := by
  apply Dict.pairs_ofPairs
  rw [List.map_map]
  exact (List.map_id names).symm ▸ h

theorem keys_orderedBy (names : List String) (object : Dict String Json) (h : names.Nodup) :
    (orderedBy names object).keys = names := by
  rw [Dict.keys, pairs_orderedBy names object h, List.map_map]
  exact List.map_id names

theorem orderedBy_orderedBy (names : List String) (object : Dict String Json)
    (h : names.Nodup) : orderedBy names (orderedBy names object) = orderedBy names object := by
  have hget : ∀ name ∈ names, ((orderedBy names object).get? name).getD .null =
      (object.get? name).getD .null := by
    intro name hname
    have hmem : (name, (object.get? name).getD Json.null) ∈ (orderedBy names object).pairs := by
      rw [pairs_orderedBy names object h]
      exact List.mem_map.mpr ⟨name, hname, rfl⟩
    rw [(Dict.get?_eq_some_iff _ _ _).mpr hmem]
    rfl
  have hpairs : (names.map fun name =>
      (name, ((orderedBy names object).get? name).getD Json.null)) =
      names.map fun name => (name, (object.get? name).getD .null) := by
    apply List.map_congr_left
    intro name hname
    rw [hget name hname]
  rw [orderedBy, hpairs, ← orderedBy]

theorem sameNames_refl (names : List String) : sameNames names names := by simp [sameNames]

theorem checkNames_nodup (step : StepFields) (h : checkNames step = .ok ()) :
    step.inputFieldNames.Nodup ∧ step.outputFieldNames.Nodup := by
  simp only [checkNames, raiseIf_bind_eq_ok, not_not] at h
  obtain ⟨_,_,_,_,hnodup,_⟩ := h
  have happend := List.nodup_append.mp hnodup
  exact ⟨happend.1, happend.2.1⟩

theorem checkNames_ordered (step : StepFields) (h : checkNames step = .ok ()) :
    checkNames step.ordered = .ok () := by
  obtain ⟨hin,hout⟩ := checkNames_nodup step h
  simp only [checkNames, raiseIf_bind_eq_ok, raiseIf_eq_ok, not_not] at h ⊢
  obtain ⟨h1,h2,h3,h4,h5,_,_⟩ := h
  refine ⟨h1, h2, h3, h4, h5, ?_, ?_⟩
  · rw [StepFields.ordered, keys_orderedBy _ _ hin]
    exact sameNames_refl _
  · rw [StepFields.ordered, keys_orderedBy _ _ hout]
    exact sameNames_refl _

section Steps
variable [JsonText]

/- The fields that a valid step stores, with the byte size it remembers. -/
def validStep (step : StepFields) : Except String (StepFields × Nat) := do
  checkNames step
  let size ← boundedCanonicalJsonSize step.ordered.toJson (maxExecutedComponentJsonBytes - 2)
  return (step.ordered, size)

/-- What a valid step stores is valid as it stands. -/
theorem validStep_idem (step stored : StepFields) (size : Nat)
    (h : validStep step = .ok (stored, size)) : validStep stored = .ok (stored, size) := by
  rw [validStep, bind_eq_ok] at h
  obtain ⟨_,hnames,h⟩ := h
  rw [bind_eq_ok] at h
  obtain ⟨n,hsize,h⟩ := h
  cases h
  obtain ⟨hin,hout⟩ := checkNames_nodup step hnames
  have hordered : step.ordered.ordered = step.ordered := by
    simp only [StepFields.ordered, orderedBy_orderedBy _ _ hin, orderedBy_orderedBy _ _ hout]
  rw [validStep, checkNames_ordered step hnames, hordered, ok_bind, hsize]
  rfl

structure ExecutedComponentStep extends StepFields where
  canonicalJsonBytes : Nat
  valid : validStep toStepFields = .ok (toStepFields, canonicalJsonBytes)
deriving DecidableEq

def ExecutedComponentStep.create (step : StepFields) : Except String ExecutedComponentStep :=
  match h : validStep step with
  | .ok (stored, size) => .ok ⟨stored, size, validStep_idem step stored size h⟩
  | .error message => .error message

@[simp] theorem create_toStepFields (step : ExecutedComponentStep) :
    ExecutedComponentStep.create step.toStepFields = .ok step := by
  have hvalid := step.valid
  rw [ExecutedComponentStep.create]
  split
  · rename_i stored size h
    rw [hvalid] at h
    cases h
    rfl
  · rename_i message h
    rw [hvalid] at h
    cases h

def boundedTraceJsonSize (stepSizes : List Nat) (maxBytes : Nat) : Except String Nat := do
  let total ← addBytes maxBytes 0 2
  let (total, _) ← stepSizes.foldlM (fun (acc : Nat × Bool) stepSize => do
    let total ← if acc.2 then pure acc.1 else addBytes maxBytes acc.1 1
    return (← addBytes maxBytes total stepSize, false)) (total, true)
  return total

def validateTrace (steps : List ExecutedComponentStep) : Except String Unit := do
  raiseIf (steps.length > maxExecutedComponentSteps)
    "executed-component step count exceeds its bound"
  raiseIf (steps.map (fun step => step.traceIndex) ≠ (List.range steps.length).map Int.ofNat)
    "executed-component trace indexes must be contiguous from zero"
  let _ ← boundedTraceJsonSize (steps.map (fun step => step.canonicalJsonBytes))
    maxExecutedComponentJsonBytes

def componentPromptField : String := "prompt"
def providerGenerationOutputField : String := "provider_generation"

def llmComponentStep (traceIndex : Int) (componentId prompt generation : String) :
    Except String ExecutedComponentStep :=
  ExecutedComponentStep.create
    { traceIndex := traceIndex
      componentId := componentId
      inputFieldNames := [componentPromptField]
      outputFieldNames := [providerGenerationOutputField]
      inputs := Dict.ofPairs [(componentPromptField, .str prompt)]
      outputs := Dict.ofPairs [(providerGenerationOutputField, .str generation)] }

end Steps
end Whetstone.Eval
