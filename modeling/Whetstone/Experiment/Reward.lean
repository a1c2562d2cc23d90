import Whetstone.Core.Floats
import Whetstone.Experiment.Sampling

/-! Reward policies and the rewards they scalarize. A validated record carries its
validation; a missing aggregate is one the mapping lacks, holds as `None`, or holds as a
float that is not finite. -/
namespace Whetstone.Experiment
open Whetstone.Core Whetstone.Lib

inductive MissingDataPolicy where
  | fail
  | worst
  | skip
deriving DecidableEq, Inhabited

variable {F : Type} [FiniteFloats F] [DecidableEq F]

structure RewardTerm (F : Type) [FiniteFloats F] where
  name : String
  weight : FiniteFloat F
  maximize : Bool
  worstValue : FiniteFloat F
deriving DecidableEq

def validateRewardPolicy (names : List String) : Except String Unit := do
  raiseIf (names = []) "a Reward Policy must have at least one term"
  raiseIf (¬ names.Nodup) "Reward Policy term names must be unique"

structure RewardPolicy (F : Type) [FiniteFloats F] where
  policyName : String
  rewardName : String
  terms : List (RewardTerm F)
  missingData : MissingDataPolicy
  valid : validateRewardPolicy (terms.map RewardTerm.name) = .ok ()
deriving DecidableEq

structure RewardInputCitation (F : Type) [FiniteFloats F] where
  name : String
  value : Option (FiniteFloat F)
  contributed : FiniteFloat F
  wasMissing : Bool
  valid : wasMissing = value.isNone
deriving DecidableEq

/- The source asserts a value that is not missing, which a citation guarantees. -/
def scalarizeTerm (term : RewardTerm F) (value : Option F) (wasMissing : Bool)
    (missingData : MissingDataPolicy) : Except String F := do
  let signed (used : F) : F :=
    FloatOps.mul term.weight.value (if term.maximize then used else FloatOps.neg used)
  if wasMissing then
    match missingData with
    | .fail => throw "a FAIL Reward Policy cannot produce a Reward from missing input"
    | .skip => return FloatOps.zero
    | .worst => return signed term.worstValue.value
  else match value with
    | none => throw "assertion failed"
    | some used => return signed used

structure RewardFields (F : Type) [FiniteFloats F] where
  rewardName : String
  value : FiniteFloat F
  rewardPolicy : RewardPolicy F
  evidenceRole : EvalRole
  inputCitations : List (RewardInputCitation F)
  evidenceRefs : List TypedRef
  provenanceOrdinal : Option Nat
deriving DecidableEq

/- The scalarized total of the citations, each checked against its term. -/
def citationTotal (missingData : MissingDataPolicy) : F →
    List (RewardTerm F × RewardInputCitation F) → Except String F
  | total, [] => .ok total
  | total, (term, citation) :: rest => do
    let expected ← scalarizeTerm term (citation.value.map FiniteFloat.value) citation.wasMissing
      missingData
    raiseIf (FiniteFloats.eq citation.contributed.value expected = false)
      "Reward citation contribution must exactly apply its Reward Policy term"
    citationTotal missingData (FloatOps.add total expected) rest

def RewardFields.validate (reward : RewardFields F) : Except String Unit := do
  raiseIf (reward.evidenceRole ≠ .internal)
    ("a Reward may only cite evidence with the internal Evaluation Role; " ++
      "official evaluation computes no Reward")
  raiseIf (reward.inputCitations = []) "a Reward must cite at least one input term"
  raiseIf (reward.evidenceRefs = []) "an internal Reward must cite at least one exact evidence ref"
  raiseIf (¬ reward.evidenceRefs.Nodup) "Reward evidence_refs must be unique"
  raiseIf (reward.rewardName ≠ reward.rewardPolicy.rewardName)
    "Reward name must match its exact Reward Policy"
  raiseIf (reward.inputCitations.map RewardInputCitation.name ≠
      reward.rewardPolicy.terms.map RewardTerm.name)
    "Reward input citations must exactly match Reward Policy term names and order"
  let total ← citationTotal reward.rewardPolicy.missingData FloatOps.zero
    (reward.rewardPolicy.terms.zip reward.inputCitations)
  raiseIf (FiniteFloats.eq reward.value.value total = false)
    "Reward value must equal the exact scalarized citation total"

structure Reward (F : Type) [FiniteFloats F] extends RewardFields F where
  valid : toRewardFields.validate = .ok ()

instance : DecidableEq (Reward F) := fun a b =>
  decidable_of_iff (a.toRewardFields = b.toRewardFields)
    ⟨fun h => by cases a; cases b; cases h; rfl, fun h => congrArg Reward.toRewardFields h⟩

def RewardFields.modelValidate (reward : RewardFields F) : Except String (Reward F) :=
  match h : reward.validate with
  | .ok () => .ok ⟨reward, h⟩
  | .error message => .error message

/-- The identity of policies and the references of rewards. No property is assumed. -/
class RewardIdentity (F : Type) [FiniteFloats F] where
  rewardPolicyHash : RewardPolicy F → String
  rewardHash : Reward F → String

def rewardSchema : String := "whetstone.reward"

def rewardReference [RewardIdentity F] (reward : Reward F) : TypedRef :=
  ⟨rewardSchema, RewardIdentity.rewardHash reward⟩

def Reward.rewardPolicyHash [RewardIdentity F] (reward : Reward F) : String :=
  RewardIdentity.rewardPolicyHash reward.rewardPolicy

/- `_finite_or_missing(aggregates.get(name))` -/
def finiteOrMissing (aggregates : Dict String (Option F)) (name : String) : Option F :=
  match aggregates.get? name with
  | some (some value) => if FloatOps.isFinite value then some value else none
  | _ => none

def citeTerm (policy : RewardPolicy F) (aggregates : Dict String (Option F))
    (term : RewardTerm F) : Except String (F × RewardInputCitation F) := do
  let raw := finiteOrMissing aggregates term.name
  raiseIf (raw = none ∧ policy.missingData = .fail)
    ("Reward Policy term '" ++ term.name ++
      "' is missing or invalid and the missing-data policy is FAIL")
  let contribution ← scalarizeTerm term raw raw.isNone policy.missingData
  let value ← raw.mapM FiniteFloat.create
  let contributed ← FiniteFloat.create contribution
  if valid : raw.isNone = value.isNone then
    return (contribution, ⟨term.name, value, contributed, raw.isNone, valid⟩)
  else throw "Reward citation missingness must match its exact value"

def applyRewardPolicy (policy : RewardPolicy F) (aggregates : Dict String (Option F))
    (evidenceRole : EvalRole) (evidenceRefs : List TypedRef) (provenanceOrdinal : Option Nat) :
    Except String (Reward F) := do
  raiseIf (evidenceRole ≠ .internal)
    ("apply_reward_policy refuses official-role evidence: official evaluation computes " ++
      "Objective Vectors/Aggregates, never Reward")
  let cited ← policy.terms.mapM (citeTerm policy aggregates)
  let value ← FiniteFloat.create (cited.foldl (fun total c => FloatOps.add total c.1) FloatOps.zero)
  RewardFields.modelValidate
    { rewardName := policy.rewardName, value := value, rewardPolicy := policy
      evidenceRole := evidenceRole, inputCitations := cited.map Prod.snd
      evidenceRefs := evidenceRefs, provenanceOrdinal := provenanceOrdinal }

end Whetstone.Experiment
