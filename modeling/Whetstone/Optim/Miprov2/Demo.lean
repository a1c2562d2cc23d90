import Whetstone.Core.PyEq
import Whetstone.Optim.Miprov2.ControlIdentity

/-! Demonstrations of MIPROv2: what a bootstrapped answer was accepted for, the examples that are
shown for a component, and the examples that labeled tasks give. -/
namespace Whetstone.Optim.Miprov2
open Whetstone.Core Whetstone.Lib

def acceptanceSchema : String := "whetstone.miprov2_bootstrap_acceptance"
def componentDemoSchema : String := "whetstone.miprov2_component_demo"
def demoSchemaVersion : Nat := 2

/-! ### Scores -/

/- `StrictBool | FiniteFloat` -/
inductive MetricValue (F : Type) [FiniteFloats F] where
  | flag (value : Bool)
  | number (value : FiniteFloat F)

section Scores

variable {F : Type} [FiniteFloats F]

/- The float that a flag is in arithmetic. -/
def flagFloat (b : Bool) : F := if b then FloatOps.ratio 1 1 else FloatOps.zero

namespace MetricValue

def asFloat : MetricValue F → F
  | .flag b => flagFloat b
  | .number x => x.value

/- `bool(score)` -/
def truthy : MetricValue F → Bool
  | .flag b => b
  | .number x => !FiniteFloats.eq x.value FloatOps.zero

def json [FloatJson F] : MetricValue F → Json
  | .flag b => .bool b
  | .number x => finiteFloatJson x

end MetricValue

instance : PyEq (FiniteFloat F) := ⟨fun x y => FiniteFloats.eq x.value y.value⟩

/- `True == 1.0` -/
instance : PyEq (MetricValue F) := ⟨fun a b => match a, b with
  | .flag a, .flag b => decide (a = b)
  | a, b => FiniteFloats.eq a.asFloat b.asFloat⟩

/- `if metric_threshold:`, which an absent threshold and a zero fail. -/
def thresholdHolds : Option F → Option F
  | some threshold => if FiniteFloats.eq threshold FloatOps.zero then none else some threshold
  | none => none

/- `score >= metric_threshold` under a threshold that holds, else `bool(score)`. -/
def MetricValue.accepted (score : MetricValue F) (metricThreshold : Option F) : Bool :=
  match thresholdHolds metricThreshold with
  | some threshold => FloatOps.le threshold score.asFloat
  | none => score.truthy

def bootstrapAccepts (metricPresent : Bool) (score : Option (MetricValue F))
    (metricThreshold : Option F) : Except String Bool :=
  if metricPresent = false then .ok true
  else match score with
    | none => .error "a present metric must have a score"
    | some score => .ok (score.accepted metricThreshold)

end Scores

/-! ### Acceptances -/

/- The hashes of the records of one generation. -/
structure SourceHashes where
  sourceGenerationHash : String
  sourceTraceHash : String
  sourceOutputHash : String
  sourceScoreHash : String
deriving DecidableEq

def SourceHashes.require (source : SourceHashes) : Except String Unit := do
  requireFullHash source.sourceGenerationHash "source_generation_hash"
  requireFullHash source.sourceTraceHash "source_trace_hash"
  requireFullHash source.sourceOutputHash "source_output_hash"
  requireFullHash source.sourceScoreHash "source_score_hash"

def SourceHashes.payload (source : SourceHashes) : List (String × Json) :=
  [("source_generation_hash", .str source.sourceGenerationHash),
    ("source_trace_hash", .str source.sourceTraceHash),
    ("source_output_hash", .str source.sourceOutputHash),
    ("source_score_hash", .str source.sourceScoreHash)]

instance : PyEq SourceHashes := ⟨fun a b => decide (a = b)⟩

structure AcceptanceFields (F : Type) [FiniteFloats F] extends SourceHashes where
  sourceTaskHash : String
  metricPresent : Bool
  score : Option (MetricValue F)
  metricThreshold : Option (FiniteFloat F)
  accepted : Bool

section Acceptances

variable {F : Type} [FiniteFloats F]

def requireScore (metricPresent : Bool) (score : Option (MetricValue F)) : Except String Unit := do
  raiseIf (metricPresent = true ∧ score.isNone) "a present metric must have a score"
  raiseIf (metricPresent = false ∧ score.isSome) "an absent metric cannot have a score"

def AcceptanceFields.validate (fields : AcceptanceFields F) : Except String Unit := do
  requireFullHash fields.sourceTaskHash "source_task_hash"
  fields.toSourceHashes.require
  requireScore fields.metricPresent fields.score
  let accepts ← bootstrapAccepts fields.metricPresent fields.score
    (fields.metricThreshold.map FiniteFloat.value)
  raiseIf (fields.accepted ≠ accepts) "accepted does not match DSPy's threshold rule"

structure BootstrapAcceptance (F : Type) [FiniteFloats F] extends AcceptanceFields F where
  valid : toAcceptanceFields.validate = .ok ()

def AcceptanceFields.modelValidate (fields : AcceptanceFields F) :
    Except String (BootstrapAcceptance F) :=
  match h : fields.validate with
  | .ok () => .ok ⟨fields, h⟩
  | .error message => .error message

instance : PyEq (BootstrapAcceptance F) := ⟨fun a b =>
  pyEq a.sourceTaskHash b.sourceTaskHash && pyEq a.toSourceHashes b.toSourceHashes &&
    pyEq a.metricPresent b.metricPresent && pyEq a.score b.score &&
    pyEq a.metricThreshold b.metricThreshold && pyEq a.accepted b.accepted⟩

def BootstrapAcceptance.identityPayload [FloatJson F] (acceptance : BootstrapAcceptance F) :
    Json :=
  .obj ([("source_task_hash", .str acceptance.sourceTaskHash)] ++ acceptance.payload ++
    [("metric_present", .bool acceptance.metricPresent),
      ("score", Json.nullable MetricValue.json acceptance.score),
      ("metric_threshold", Json.nullable finiteFloatJson acceptance.metricThreshold),
      ("accepted", .bool acceptance.accepted)])

def BootstrapAcceptance.identityHash [FloatJson F] [IdentityHasher]
    (acceptance : BootstrapAcceptance F) : String :=
  IdentityHasher.computeIdentityHash acceptanceSchema demoSchemaVersion acceptance.identityPayload

end Acceptances

/-! ### Observed steps and demonstrations -/

def fieldNames (fields : List (String × Json)) : List String := fields.map Prod.fst

/- The names that both have, in order. -/
def duplicateFields (inputs outputs : List (String × Json)) : List String :=
  ((fieldNames inputs).filter (· ∈ fieldNames outputs)).insertionSort (· ≤ ·)

def requireDisjointFields (inputs outputs : List (String × Json)) : Except String Unit :=
  raiseIf (duplicateFields inputs outputs ≠ [])
    ("demo input/output fields overlap: " ++ ", ".intercalate (duplicateFields inputs outputs))

structure TraceFields where
  traceIndex : Int
  componentId : Option String
  inputs : List (String × Json)
  outputs : List (String × Json)

def TraceFields.validate (step : TraceFields) : Except String Unit := do
  raiseIf (step.traceIndex < 0) "trace_index cannot be negative"
  raiseIf (step.componentId = some "") "component_id must be non-empty when present"
  requireDisjointFields step.inputs step.outputs

structure ObservedTraceStep extends TraceFields where
  valid : toTraceFields.validate = .ok ()

def ObservedTraceStep.eqWith (objectEq : List (String × Json) → List (String × Json) → Bool)
    (a b : ObservedTraceStep) : Bool :=
  pyEq a.traceIndex b.traceIndex && pyEq a.componentId b.componentId &&
    objectEq a.inputs b.inputs && objectEq a.outputs b.outputs

instance : PyEq ObservedTraceStep := ⟨ObservedTraceStep.eqWith canonicalEq⟩

inductive DemoSourceKind where
  | bootstrapped
  | labeled
deriving DecidableEq

def DemoSourceKind.value : DemoSourceKind → String
  | .bootstrapped => "bootstrapped"
  | .labeled => "labeled"

structure DemoFields (F : Type) [FiniteFloats F] extends SourceHashes where
  componentId : String
  sourceKind : DemoSourceKind
  inputs : List (String × Json)
  outputs : List (String × Json)
  augmented : Bool
  sourceTaskHash : String
  sourceTraceIndex : Option Int
  score : Option (MetricValue F)
  acceptanceIdentityHash : String

section Demos

variable {F : Type} [FiniteFloats F]

def DemoFields.requireKind (demo : DemoFields F) : Except String Unit :=
  match demo.sourceKind with
  | .bootstrapped => do
    raiseIf (demo.augmented = false) "bootstrapped demos must be augmented"
    raiseIf demo.sourceTraceIndex.isNone "bootstrapped demos require a source trace index"
  | .labeled => do
    raiseIf (demo.augmented = true) "labeled demos cannot be augmented"
    raiseIf demo.sourceTraceIndex.isSome "labeled demos cannot have a source trace index"

def DemoFields.validate (demo : DemoFields F) : Except String Unit := do
  raiseIf (demo.componentId = "") "component_id must be non-empty"
  requireFullHash demo.sourceTaskHash "source_task_hash"
  demo.toSourceHashes.require
  requireFullHash demo.acceptanceIdentityHash "acceptance_identity_hash"
  raiseIf (demo.sourceTraceIndex.any (· < 0)) "source_trace_index cannot be negative"
  demo.requireKind
  requireDisjointFields demo.inputs demo.outputs

structure ComponentDemo (F : Type) [FiniteFloats F] extends DemoFields F where
  valid : toDemoFields.validate = .ok ()

def DemoFields.modelValidate (demo : DemoFields F) : Except String (ComponentDemo F) :=
  match h : demo.validate with
  | .ok () => .ok ⟨demo, h⟩
  | .error message => .error message

theorem DemoFields.modelValidate_eq {fields : DemoFields F} {demo : ComponentDemo F}
    (h : fields.modelValidate = .ok demo) : demo.toDemoFields = fields := by
  unfold DemoFields.modelValidate at h
  split at h
  · cases h
    rfl
  · cases h

def ComponentDemo.eqWith (objectEq : List (String × Json) → List (String × Json) → Bool)
    (a b : ComponentDemo F) : Bool :=
  pyEq a.componentId b.componentId && decide (a.sourceKind = b.sourceKind) &&
    objectEq a.inputs b.inputs && objectEq a.outputs b.outputs && pyEq a.augmented b.augmented &&
    pyEq a.sourceTaskHash b.sourceTaskHash && pyEq a.toSourceHashes b.toSourceHashes &&
    pyEq a.sourceTraceIndex b.sourceTraceIndex && pyEq a.score b.score &&
    pyEq a.acceptanceIdentityHash b.acceptanceIdentityHash

instance : PyEq (ComponentDemo F) := ⟨ComponentDemo.eqWith canonicalEq⟩

end Demos

/-! ### Labeled tasks -/

structure LabeledFields where
  sourceTaskHash : String
  inputsByComponent : List (String × Json)
  outputsByComponent : List (String × Json)

def LabeledFields.validate (task : LabeledFields) : Except String Unit := do
  requireFullHash task.sourceTaskHash "source_task_hash"
  raiseIf (¬ (fieldNames task.inputsByComponent ⊆ fieldNames task.outputsByComponent ∧
      fieldNames task.outputsByComponent ⊆ fieldNames task.inputsByComponent))
    "labeled input and output component sets must match"
  raiseIf ("" ∈ fieldNames task.inputsByComponent) "labeled component ids must be non-empty"

structure LabeledTaskDemo extends LabeledFields where
  valid : toLabeledFields.validate = .ok ()

instance : PyEq LabeledTaskDemo := ⟨fun a b =>
  pyEq a.sourceTaskHash b.sourceTaskHash &&
    canonicalEq a.inputsByComponent b.inputsByComponent &&
    canonicalEq a.outputsByComponent b.outputsByComponent⟩

/- `_component_fields` -/
def componentFields (byComponent : List (String × Json)) (componentId field : String) :
    Except String (List (String × Json)) :=
  match byComponent.lookup componentId with
  | none => .error (field ++ " has no component '" ++ componentId ++ "'")
  | some (.obj fields) => .ok fields
  | some _ => .error (field ++ "['" ++ componentId ++ "'] must be a JSON object")

namespace LabeledTaskDemo

def inputsFor (task : LabeledTaskDemo) (componentId : String) :
    Except String (List (String × Json)) :=
  componentFields task.inputsByComponent componentId "inputs_by_component"

def outputsFor (task : LabeledTaskDemo) (componentId : String) :
    Except String (List (String × Json)) :=
  componentFields task.outputsByComponent componentId "outputs_by_component"

variable {F : Type} [FiniteFloats F] [IdentityHasher]

def sourceHash (task : LabeledTaskDemo) (componentId : String)
    (inputs outputs : List (String × Json)) : String :=
  IdentityHasher.computeIdentityHash "whetstone.miprov2_labeled_demo_source" demoSchemaVersion
    (.obj [("source_task_hash", .str task.sourceTaskHash), ("component_id", .str componentId),
      ("inputs", .obj inputs), ("outputs", .obj outputs)])

def acceptanceHash (sourceHash : String) : String :=
  IdentityHasher.computeIdentityHash acceptanceSchema demoSchemaVersion
    (.obj [("source_kind", .str DemoSourceKind.labeled.value), ("source_hash", .str sourceHash),
      ("accepted", .bool true)])

def forComponent (F : Type) [FiniteFloats F] (task : LabeledTaskDemo) (componentId : String) :
    Except String (ComponentDemo F) := do
  raiseIf (componentId ∉ fieldNames task.inputsByComponent)
    ("labeled task has no component '" ++ componentId ++ "'")
  let inputs ← task.inputsFor componentId
  let outputs ← task.outputsFor componentId
  let source := task.sourceHash componentId inputs outputs
  DemoFields.modelValidate
    { toSourceHashes := ⟨source, source, source, source⟩
      componentId := componentId, sourceKind := .labeled, inputs := inputs, outputs := outputs
      augmented := false, sourceTaskHash := task.sourceTaskHash, sourceTraceIndex := none
      score := none, acceptanceIdentityHash := acceptanceHash source }

theorem forComponent_hash {task : LabeledTaskDemo} {componentId : String} {demo : ComponentDemo F}
    (h : task.forComponent F componentId = .ok demo) :
    demo.sourceTaskHash = task.sourceTaskHash := by
  simp only [forComponent, bind_eq_ok] at h
  obtain ⟨_,_,_,_,_,_,hdemo⟩ := h
  exact congrArg DemoFields.sourceTaskHash (DemoFields.modelValidate_eq hdemo)

end LabeledTaskDemo

/-! ### Sets of demonstrations -/

section Sets

variable {F : Type} [FiniteFloats F]

structure SequenceFields (F : Type) [FiniteFloats F] where
  componentId : String
  demos : List (ComponentDemo F)

def SequenceFields.validate (sequence : SequenceFields F) : Except String Unit := do
  raiseIf (sequence.componentId = "") "component_id must be non-empty"
  raiseIf (sequence.demos.any fun demo => demo.componentId ≠ sequence.componentId)
    "all demos must belong to the sequence component"

structure ComponentDemoSequence (F : Type) [FiniteFloats F] extends SequenceFields F where
  valid : toSequenceFields.validate = .ok ()

def SequenceFields.modelValidate (sequence : SequenceFields F) :
    Except String (ComponentDemoSequence F) :=
  match h : sequence.validate with
  | .ok () => .ok ⟨sequence, h⟩
  | .error message => .error message

theorem SequenceFields.modelValidate_eq {fields : SequenceFields F}
    {sequence : ComponentDemoSequence F} (h : fields.modelValidate = .ok sequence) :
    sequence.toSequenceFields = fields := by
  unfold SequenceFields.modelValidate at h
  split at h
  · cases h
    rfl
  · cases h

instance : PyEq (ComponentDemoSequence F) := ⟨fun a b =>
  pyEq a.componentId b.componentId && pyEq a.demos b.demos⟩

structure SetFields (F : Type) [FiniteFloats F] where
  candidateSeed : Int
  components : List (ComponentDemoSequence F)

def SetFields.componentIds (set : SetFields F) : List String :=
  set.components.map fun sequence => sequence.componentId

def SetFields.validate (set : SetFields F) : Except String Unit := do
  raiseIf (set.componentIds = []) "a demo set needs at least one component"
  raiseIf (¬ set.componentIds.Nodup) "demo set components must be unique"

structure ComponentDemoSet (F : Type) [FiniteFloats F] extends SetFields F where
  valid : toSetFields.validate = .ok ()

def SetFields.modelValidate (set : SetFields F) : Except String (ComponentDemoSet F) :=
  match h : set.validate with
  | .ok () => .ok ⟨set, h⟩
  | .error message => .error message

theorem SetFields.modelValidate_eq {fields : SetFields F} {set : ComponentDemoSet F}
    (h : fields.modelValidate = .ok set) : set.toSetFields = fields := by
  unfold SetFields.modelValidate at h
  split at h
  · cases h
    rfl
  · cases h

instance : PyEq (ComponentDemoSet F) := ⟨fun a b =>
  pyEq a.candidateSeed b.candidateSeed && pyEq a.components b.components⟩

end Sets

end Whetstone.Optim.Miprov2
