import Whetstone.Optim.Gepa.UpstreamAdapter

/-! The search itself. The upstream optimizer is a parameter: a deterministic program over the
adapter's methods. `runGepaEngine` drives it to the whole budget; `runOneGepaIteration` drives
it again from the seed to one call more than the last checkpoint. -/
namespace Whetstone.Optim.Gepa
open Whetstone.Core Whetstone.Lib Whetstone.Experiment Whetstone.Optim.Step

structure GepaControl (F : Type) [FiniteFloats F] where
  identityHash : String
  resolvedMaxMetricCalls : Nat
  seed : Int
  componentNames : List String
  mutationField : String
  trainsetTaskHashes : List String
  sourceValsetTaskHashes : Option (List String)
  valsetTaskHashes : List String
  upstreamSettings : List (String × Json)
  metricConfigHash : String
  rewardPolicyHash : String
  taskModelIdentityHash : String
  evaluationExecutionPolicyHash : String
  failureScore : FiniteFloat F
  addFormatFailureAsFeedback : Bool
  warnOnScoreMismatch : Bool
  reflectionModelHash : String
  promptBindingIdentityHash : String
  promptFormatIdentityHash : String
  proposalExecutionPolicyHash : String
  proposalPromptAdapterIdentityHash : String
  proposalDurabilityPolicyIdentityHash : String
  gepaSourceManifestHash : String

def gepaUpstreamAdapterIdentityHash : String := "whetstone.gepa.upstream_adapter"

section Engine

variable {F : Type} [FiniteFloats F] [DecidableEq F] [RewardIdentity F] [GepaIdentity F]
variable [PythonRandom]

/-! ### The upstream optimizer -/

inductive AdapterCall (F : Type) [FiniteFloats F] where
  | evaluate (batch : List GepaDataInstance) (candidate : Dict String String)
      (captureTraces : Bool)
  | makeReflectiveDataset (candidate : Dict String String) (evalBatch : EvaluationBatch F)
      (componentsToUpdate : List String)
  | proposeNewTexts (candidate : Dict String String)
      (reflectiveDataset : Dict String (List ReflectiveRecord)) (componentsToUpdate : List String)

abbrev AdapterCall.Value : AdapterCall F → Type
  | .evaluate .. => EvaluationBatch F
  | .makeReflectiveDataset .. => Dict String (List ReflectiveRecord)
  | .proposeNewTexts .. => Dict String String

/- What a call returns or raises. -/
abbrev AdapterCall.Reply (call : AdapterCall F) : Type := Except SearchError call.Value

structure UpstreamResult (F : Type) where
  candidates : List (Dict String String)
  parents : List (List (Option Nat))
  valAggregateScores : List F
  valSubscores : List (Dict Int F)
  perValInstanceBestCandidates : Dict Int (List Nat)
  discoveryEvalCounts : List Nat
  bestOutputsValset : Option (Dict Int (List (Nat × Json)))
  valAggregateSubscores : Option (List (Dict String F))
  perObjectiveBestCandidates : Option (Dict String (List Nat))
  objectiveParetoFront : Option (Dict String F)
  totalMetricCalls : Option Nat
  numFullValEvals : Option Nat
  bestIdx : Int

/- `gepa.optimize`, with its budget as the last argument. -/
abbrev Optimize (F : Type) [FiniteFloats F] : Type :=
  GepaControl F → (seedCandidate : Dict String String) → (trainset : List GepaDataInstance) →
    (valset : Option (List GepaDataInstance)) → (maxMetricCalls : Nat) →
      Prog (AdapterCall F) AdapterCall.Reply SearchError (UpstreamResult F)

/- An optimizer that iterates and checks its budget between iterations only. -/
structure Upstream (F : Type) [FiniteFloats F] where
  State : Type
  start : GepaControl F → (seedCandidate : Dict String String) →
    (trainset : List GepaDataInstance) → (valset : Option (List GepaDataInstance)) →
    Prog (AdapterCall F) AdapterCall.Reply SearchError State
  iterate : State → Prog (AdapterCall F) AdapterCall.Reply SearchError State
  total : State → Nat
  result : State → UpstreamResult F

namespace Upstream

variable (u : Upstream F)

/- The running total grows in every iteration. -/
def Advances : Prop := ∀ s, (u.iterate s).Ensures fun t => u.total s < u.total t

/- A result that names a total names the running one. -/
def Reports : Prop := ∀ s n, (u.result s).totalMetricCalls = some n → n = u.total s

/- The first boundary where the running total has reached the budget. Each iteration adds to
   the total, so the budget bounds their number. -/
def searchUntil (maxMetricCalls : Nat) :
    Nat → u.State → Prog (AdapterCall F) AdapterCall.Reply SearchError u.State
  | 0, s => .done s
  | left + 1, s =>
    if maxMetricCalls ≤ u.total s then .done s
    else (u.iterate s).bind (searchUntil maxMetricCalls left)

def search (control : GepaControl F) (seedCandidate : Dict String String)
    (trainset : List GepaDataInstance) (valset : Option (List GepaDataInstance))
    (maxMetricCalls : Nat) : Prog (AdapterCall F) AdapterCall.Reply SearchError u.State :=
  (u.start control seedCandidate trainset valset).bind
    (u.searchUntil maxMetricCalls maxMetricCalls)

def optimize : Optimize F := fun control seedCandidate trainset valset maxMetricCalls =>
  (u.search control seedCandidate trainset valset maxMetricCalls).bind fun s => .done (u.result s)

end Upstream

namespace WhetstoneGepaAdapter

variable (adapter : WhetstoneGepaAdapter F)

def serve : (call : AdapterCall F) → AdapterM F call.Value
  | .evaluate batch candidate captureTraces => adapter.evaluate batch candidate captureTraces
  | .makeReflectiveDataset candidate evalBatch components =>
    adapter.makeReflectiveDataset candidate evalBatch components
  | .proposeNewTexts candidate dataset components =>
    adapter.proposeNewTexts candidate dataset components

/- A program over the adapter's methods as a program over effects. -/
def drive {α : Type} : Prog (AdapterCall F) AdapterCall.Reply SearchError α → AdapterState F →
    Prog (GepaEffect F) GepaEffect.Result SearchError (α × AdapterState F)
  | .done a, st => .done (a, st)
  | .raise error, _ => .raise error
  | .call call next, st => (adapter.serve call st).bind fun out => drive (next out.1) out.2

end WhetstoneGepaAdapter

/-! ### Results -/

structure DetailedFields (F : Type) where
  candidates : List (Dict String String)
  parents : List (List (Option Nat))
  valAggregateScores : List F
  valSubscores : List (Dict String F)
  perValInstanceBestCandidates : Dict String (List Nat)
  discoveryEvalCounts : List Nat
  bestOutputsValset : Option (Dict String (List (Nat × Json)))
  valAggregateSubscores : Option (List (Dict String F))
  perObjectiveBestCandidates : Option (Dict String (List Nat))
  objectiveParetoFront : Option (Dict String F)
  totalMetricCalls : Option Nat
  numFullValEvals : Option Nat
  seed : Int
  validationNumSeeds : Nat
  bestIdx : Int
  controlIdentityHash : String
deriving DecidableEq

def DetailedFields.validate {F : Type} (detailed : DetailedFields F) : Except String Unit := do
  let count := detailed.candidates.length
  [("parents", detailed.parents.length), ("val_aggregate_scores",
    detailed.valAggregateScores.length), ("val_subscores", detailed.valSubscores.length),
    ("discovery_eval_counts", detailed.discoveryEvalCounts.length)].forM fun field =>
      raiseIf (field.2 ≠ count) (field.1 ++ " must align with upstream candidates")
  raiseIf (detailed.bestIdx < 0 ∨ (count : Int) ≤ detailed.bestIdx)
    "best_idx must identify an upstream candidate"

structure GepaDetailedResult (F : Type) extends DetailedFields F where
  valid : toDetailedFields.validate = .ok ()
deriving DecidableEq

def DetailedFields.create {F : Type} (detailed : DetailedFields F) :
    Except String (GepaDetailedResult F) :=
  match h : detailed.validate with
  | .ok () => .ok ⟨detailed, h⟩
  | .error message => .error message

def valTaskHash (control : GepaControl F) (upstreamId : Int) : Except String String :=
  match upstreamId with
  | .ofNat index =>
    match control.valsetTaskHashes[index]? with
    | some taskHash => .ok taskHash
    | none => .error ("unknown upstream validation id " ++ toString index)
  | .negSucc index => .error ("unknown upstream validation id " ++ toString (Int.negSucc index))

def byTaskHash {α β : Type} (control : GepaControl F) (f : α → β) (d : Dict Int α) :
    Except String (Dict String β) := do
  let pairs ← d.pairs.mapM fun entry => do
    let taskHash ← valTaskHash control entry.1
    return (taskHash, f entry.2)
  return Dict.ofPairs pairs

def sortedPrograms (programs : List Nat) : List Nat := programs.mergeSort

def projectResult (result : UpstreamResult F) (control : GepaControl F)
    (validationNumSeeds : Nat) : Except String (GepaDetailedResult F) := do
  let valSubscores ← result.valSubscores.mapM (byTaskHash control id)
  let perValBest ← byTaskHash control sortedPrograms result.perValInstanceBestCandidates
  let bestOutputs ← result.bestOutputsValset.mapM (byTaskHash control id)
  DetailedFields.create {
    candidates := result.candidates
    parents := result.parents
    valAggregateScores := result.valAggregateScores
    valSubscores := valSubscores
    perValInstanceBestCandidates := perValBest
    discoveryEvalCounts := result.discoveryEvalCounts
    bestOutputsValset := bestOutputs
    valAggregateSubscores := result.valAggregateSubscores
    perObjectiveBestCandidates :=
      result.perObjectiveBestCandidates.map fun best => best.mapValues sortedPrograms
    objectiveParetoFront := result.objectiveParetoFront
    totalMetricCalls := result.totalMetricCalls
    numFullValEvals := result.numFullValEvals
    seed := control.seed
    validationNumSeeds := validationNumSeeds
    bestIdx := result.bestIdx
    controlIdentityHash := control.identityHash }

/-! ### The engine and the step engine -/

def validateAdapterAuthorities (control : GepaControl F) (adapter : WhetstoneGepaAdapter F) :
    Except String Unit := do
  let context := adapter.context
  raiseIf (context.controlIdentityHash ≠ control.identityHash)
    "GEPA adapter effect context conflicts with GepaControl"
  raiseIf (context.sourceManifestIdentityHash ≠ control.gepaSourceManifestHash)
    "GEPA adapter effect context conflicts with frozen source"
  raiseIf (context.adapterIdentityHash ≠ gepaUpstreamAdapterIdentityHash)
    "GEPA adapter effect context conflicts with canonical adapter"
  let evaluation := adapter.evaluationAuthority
  let conflicts := fun field => "GEPA adapter evaluation authority " ++ field ++
    " conflicts with GepaControl"
  raiseIf (evaluation.evaluationConfigHash ≠ control.metricConfigHash)
    (conflicts "evaluation_config_hash")
  raiseIf (evaluation.rewardPolicyIdentityHash ≠ control.rewardPolicyHash)
    (conflicts "reward_policy_identity_hash")
  raiseIf (evaluation.providerRouteIdentityHash ≠ control.taskModelIdentityHash)
    (conflicts "provider_route_identity_hash")
  raiseIf (evaluation.executionPolicyIdentityHash ≠ control.evaluationExecutionPolicyHash)
    (conflicts "execution_policy_identity_hash")
  raiseIf (FiniteFloats.eq evaluation.failureScore.value control.failureScore.value = false)
    (conflicts "failure_score")
  raiseIf (evaluation.addFormatFailureAsFeedback ≠ control.addFormatFailureAsFeedback)
    (conflicts "add_format_failure_as_feedback")
  raiseIf (evaluation.warnOnScoreMismatch ≠ control.warnOnScoreMismatch)
    (conflicts "warn_on_score_mismatch")
  raiseIf (evaluation.selectionSeed ≠ control.seed) (conflicts "selection_seed")
  let proposal := adapter.proposalAuthority
  raiseIf (proposal.proposerConfigHash ≠ control.reflectionModelHash)
    "GEPA adapter proposal authority proposer_config conflicts with GepaControl"
  raiseIf (proposal.promptBindingIdentityHash ≠ control.promptBindingIdentityHash)
    "GEPA adapter proposal authority prompt binding conflicts with GepaControl"
  let conflicts := fun field => "GEPA adapter proposal authority " ++ field ++
    " conflicts with GepaControl"
  raiseIf (proposal.executionPolicyIdentityHash ≠ control.proposalExecutionPolicyHash)
    (conflicts "execution_policy_identity_hash")
  raiseIf (proposal.promptAdapterIdentityHash ≠ control.proposalPromptAdapterIdentityHash)
    (conflicts "prompt_adapter_identity_hash")
  raiseIf (proposal.durabilityPolicyIdentityHash ≠ control.proposalDurabilityPolicyIdentityHash)
    (conflicts "durability_policy_identity_hash")
  raiseIf (adapter.promptServices.formatIdentityHash ≠ control.promptFormatIdentityHash)
    "GEPA adapter prompt format conflicts with GepaControl"

/- What one run of the search is given. -/
structure GepaInputs (F : Type) [FiniteFloats F] where
  control : GepaControl F
  seedCandidate : Dict String String
  trainset : List GepaDataInstance
  valset : Option (List GepaDataInstance)
  adapter : WhetstoneGepaAdapter F
  validationNumSeeds : Nat

/- The checks of the one-shot engine on its inputs. -/
def GepaInputs.validate (inputs : GepaInputs F) : Except String Unit := do
  raiseIf (inputs.seedCandidate.pairs = []) "seed_candidate must contain a component"
  raiseIf (inputs.seedCandidate.keys ≠ inputs.control.componentNames)
    "seed_candidate component order conflicts with GepaControl"
  raiseIf (inputs.trainset.map GepaDataInstance.taskHash ≠ inputs.control.trainsetTaskHashes)
    "trainset order/identity conflicts with GepaControl"
  match inputs.valset with
  | none =>
    raiseIf (inputs.control.sourceValsetTaskHashes ≠ none) "GepaControl binds an explicit valset"
  | some valset => do
    raiseIf (inputs.control.sourceValsetTaskHashes = none)
      "GepaControl binds valset omission to the trainset"
    raiseIf (valset.map GepaDataInstance.taskHash ≠ inputs.control.valsetTaskHashes)
      "valset order/identity conflicts with GepaControl"

structure GepaStepCheckpoint where
  metricCallsConsumed : Nat := 0
  terminal : Bool := false
deriving DecidableEq, Inhabited

def GepaStepCheckpoint.budgetDelta (checkpoint : GepaStepCheckpoint) : BudgetDelta :=
  ⟨Dict.empty.set "metric_calls"
    (if checkpoint.terminal ∧ checkpoint.metricCallsConsumed = 0 then 0 else 1)⟩

section Runs

variable (optimize : Optimize F) (inputs : GepaInputs F)

/- The search to a budget, its result projected, and the adapter's state behind it. -/
def driveTo (maxMetricCalls : Nat) : Prog (GepaEffect F) GepaEffect.Result SearchError
    (GepaDetailedResult F × AdapterState F) :=
  (inputs.adapter.drive (optimize inputs.control inputs.seedCandidate inputs.trainset
    inputs.valset maxMetricCalls) inputs.adapter.resetEffectOrdinal).bind fun out =>
      (Prog.ofExcept (SearchError.ofValue (projectResult out.1 inputs.control
        inputs.validationNumSeeds))).bind fun detailed => .done (detailed, out.2)

def runGepaEngine : Prog (GepaEffect F) GepaEffect.Result SearchError (GepaDetailedResult F) := do
  .ofExcept (SearchError.ofValue (validateAdapterAuthorities inputs.control inputs.adapter))
  .ofExcept (SearchError.ofValue inputs.validate)
  let out ← driveTo optimize inputs inputs.control.resolvedMaxMetricCalls
  return out.1

/- The result of a run without a budget: the seed alone. -/
def emptyDetailed : Except String (GepaDetailedResult F) :=
  DetailedFields.create {
    candidates := [inputs.seedCandidate]
    parents := [[none]]
    valAggregateScores := [FloatOps.zero]
    valSubscores := [.empty]
    perValInstanceBestCandidates := .empty
    discoveryEvalCounts := [0]
    bestOutputsValset := none
    valAggregateSubscores := none
    perObjectiveBestCandidates := none
    objectiveParetoFront := none
    totalMetricCalls := some 0
    numFullValEvals := none
    seed := inputs.control.seed
    validationNumSeeds := inputs.validationNumSeeds
    bestIdx := 0
    controlIdentityHash := inputs.control.identityHash }

def checkpointAfter (nextBudget : Nat) (detailed : GepaDetailedResult F) : GepaStepCheckpoint :=
  let consumed := detailed.totalMetricCalls.getD nextBudget
  ⟨consumed, inputs.control.resolvedMaxMetricCalls ≤ consumed⟩

def runOneGepaIteration (checkpoint : Option GepaStepCheckpoint) :
    Prog (GepaEffect F) GepaEffect.Result SearchError
      (GepaDetailedResult F × GepaStepCheckpoint × AdapterState F) := do
  let current := checkpoint.getD {}
  let exhausted : SearchError := .value "GEPA step budget is already exhausted"
  if inputs.control.resolvedMaxMetricCalls = 0 then
    if current.terminal then .raise exhausted
    else
      let detailed ← .ofExcept (SearchError.ofValue (emptyDetailed inputs))
      return (detailed, ⟨0, true⟩, inputs.adapter.resetEffectOrdinal)
  else
    let nextBudget := min inputs.control.resolvedMaxMetricCalls (current.metricCallsConsumed + 1)
    if nextBudget ≤ current.metricCallsConsumed then .raise exhausted
    else
      .ofExcept (SearchError.ofValue (validateAdapterAuthorities inputs.control inputs.adapter))
      let out ← driveTo optimize inputs nextBudget
      return (out.1, checkpointAfter inputs nextBudget out.1, out.2)

end Runs
end Engine
end Whetstone.Optim.Gepa
