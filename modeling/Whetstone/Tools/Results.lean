import Whetstone.Experiment.Reward
import Whetstone.Tools.Admission

/-! Tool Results. A result models exactly one of success, refusal before execution, and
terminal failure. -/
namespace Whetstone.Tools
open Whetstone.Core Whetstone.Lib Whetstone.Experiment

variable {F : Type} [FiniteFloats F] [DecidableEq F] [RewardIdentity F]

structure ResultFields (F : Type) [FiniteFloats F] where
  call : ToolCall
  output : Option (List (String × Json)) := none
  refusal : Option ToolRefusal := none
  terminalFailure : Option TerminalFailure := none
  evaluationEvidenceRefs : List TypedRef := []
  reward : Option (Reward F) := none
  provenanceNote : Option String := none
  provenanceOrdinal : Option Nat := none
deriving DecidableEq

namespace ResultFields

def variantCount (r : ResultFields F) : Nat :=
  (if r.output.isSome then 1 else 0) + (if r.refusal.isSome then 1 else 0) +
    (if r.terminalFailure.isSome then 1 else 0)

def validateRefusal (r : ResultFields F) (refusal : ToolRefusal) : Except String Unit := do
  raiseIf (refusal.refusalClass ∉ r.call.toolConfig.definition.refusalClasses)
    "Tool Refusal class is not declared by the exact Tool Definition"
  raiseIf (r.evaluationEvidenceRefs ≠ [] ∨ r.reward ≠ none)
    "a pre-execution refusal carries no evaluation evidence or Reward"

def validateReward (r : ResultFields F) (reward : Reward F) : Except String Unit := do
  raiseIf (reward.rewardPolicyHash ≠ r.call.toolConfig.rewardPolicyHash)
    "Tool Result Reward policy must match the exact Tool Config"
  raiseIf (reward.evidenceRefs ≠ r.evaluationEvidenceRefs)
    "Tool Result Reward evidence_refs must exactly equal evaluation_evidence_refs"

def validateOutput (r : ResultFields F) (output : List (String × Json)) : Except String Unit := do
  let expected := r.call.toolConfig.definition.outputFields
  let actual := output.map Prod.fst
  let missing := (expected.filter (· ∉ actual)).mergeSort (fun a b => decide (a ≤ b))
  let unexpected := (actual.filter (· ∉ expected)).mergeSort (fun a b => decide (a ≤ b))
  raiseIf (¬ (actual ⊆ expected ∧ expected ⊆ actual))
    ("Tool Result output must exactly match Definition output_fields; missing=" ++
      reprNames missing ++ ", unexpected=" ++ reprNames unexpected)

def validateOrdinal (r : ResultFields F) : Except String Unit :=
  if r.refusal.isSome then
    raiseIf (r.provenanceOrdinal ≠ none) "a pre-execution refusal has no provenance ordinal"
  else raiseIf (r.provenanceOrdinal = none ∨ r.provenanceOrdinal = some 0)
    "a non-refused Tool Result requires a positive provenance ordinal"

def validate (r : ResultFields F) : Except String Unit := do
  raiseIf (r.variantCount ≠ 1)
    ("a Tool Result must model exactly success, pre-execution refusal, or terminal failure")
  raiseIf (¬ r.evaluationEvidenceRefs.Nodup) "Tool Result evaluation_evidence_refs must be unique"
  r.refusal.forM r.validateRefusal
  raiseIf (r.terminalFailure ≠ none ∧ r.reward ≠ none) "a failed Tool Result carries no Reward"
  r.reward.forM r.validateReward
  r.output.forM r.validateOutput
  r.validateOrdinal

end ResultFields

structure ToolResult (F : Type) [FiniteFloats F] [DecidableEq F] [RewardIdentity F] extends
    ResultFields F where
  valid : toResultFields.validate = .ok ()

instance : DecidableEq (ToolResult F) := fun a b =>
  decidable_of_iff (a.toResultFields = b.toResultFields)
    ⟨fun h => by cases a; cases b; cases h; rfl, fun h => congrArg ToolResult.toResultFields h⟩

def ResultFields.modelValidate (r : ResultFields F) : Except String (ToolResult F) :=
  match h : r.validate with
  | .ok () => .ok ⟨r, h⟩
  | .error message => .error message

/-- The content hash of a result record. No property is assumed. -/
class ResultIdentity (F : Type) [FiniteFloats F] [DecidableEq F] [RewardIdentity F] where
  resultHash : ToolResult F → String

def toolResultReference [ResultIdentity F] (result : ToolResult F) : TypedRef :=
  ⟨toolResultSchema, ResultIdentity.resultHash result⟩

end Whetstone.Tools
