import Whetstone.Lib.Replay
import Whetstone.Optim.Gepa.Contracts

/-! The adapter an upstream search calls: it evaluates batches, builds reflection examples and
drafts replacement texts. Its state and the effects it comes to are explicit; the exceptions
it raises go to its caller. -/
namespace Whetstone.Optim.Gepa
open Whetstone.Core Whetstone.Lib Whetstone.Experiment Whetstone.Optim.Step

/- What a search raises by itself: the adapter's errors and those of the upstream optimizer. -/
inductive SearchError where
  | value (message : String)
  | key (message : String)
  | reflectionFailed (message : String)
  | upstream (message : String)
deriving DecidableEq

def SearchError.ofValue {α : Type} : Except String α → Except SearchError α :=
  Except.mapError SearchError.value

/-- `random.Random(seed)` and `choice` of a list of one item or more. -/
class PythonRandom where
  Rng : Type
  seeded : Int → Rng
  choice : Rng → (more : Nat) → Fin (more + 1) × Rng

def gepaReflectionMaxAttempts : Nat := 2

structure GepaRejectedAttempt where
  rawResponse : String
  rejectionDetail : String
deriving DecidableEq, Inhabited

structure GepaReflectionRequest where
  candidate : Dict String String
  reflectiveDataset : Dict String (List ReflectiveRecord)
  componentsToUpdate : List String
  componentName : String
  priorAttempt : Option GepaRejectedAttempt

def GepaReflectionRequest.validate (request : GepaReflectionRequest) : Except String Unit := do
  raiseIf (request.componentName ∉ request.componentsToUpdate)
    "component_name must be selected by components_to_update"
  raiseIf (request.candidate.get? request.componentName = none)
    "selected component is missing from candidate"
  raiseIf (request.reflectiveDataset.get? request.componentName = none)
    "selected component is missing from reflective dataset"
  raiseIf (request.reflectiveDataset.get? request.componentName = some [])
    "selected component has no reflective examples"

/- The prompt services a run is configured with. -/
structure GepaPromptServices where
  componentNames : List String
  validateReplacement : (componentName text : String) → Except String String
  render : GepaReflectionRequest → Except String GepaRenderedPrompt
  formatIdentityHash : String
  bindingIdentityHash : String

structure GepaSkippedMutation where
  componentName : String
  attemptOrdinal : Nat
  rejectionDetail : String
  rawResponse : String
  providerAttemptRefs : List TypedRef
  exhausted : Bool
deriving DecidableEq, Inhabited

structure GepaScoreMismatchEvidence (F : Type) where
  dataId : String
  componentName : String
  feedbackScore : F
  moduleScore : F
  sourceRefs : List TypedRef

structure EvaluationBatch (F : Type) [FiniteFloats F] where
  outputs : List Json
  scores : List F
  trajectories : Option (List (GepaTrajectoryProjection F))
  objectiveScores : Option (List (Dict String F))

structure WhetstoneGepaAdapter (F : Type) [FiniteFloats F] where
  context : GepaEffectContext
  evaluationAuthority : GepaEvalAuthorityBinding F
  proposalAuthority : GepaProposalAuthorityBinding
  promptServices : GepaPromptServices

structure AdapterState (F : Type) [PythonRandom] where
  nextInvocationOrdinal : Nat
  rng : PythonRandom.Rng
  scoreMismatchWarned : Bool
  scoreMismatchEvidence : List (GepaScoreMismatchEvidence F)
  skippedMutations : List GepaSkippedMutation

/- A method of the adapter. Its state stays as it is when it raises. -/
def AdapterM (F : Type) [FiniteFloats F] [RewardIdentity F] [PythonRandom] (α : Type) : Type :=
  AdapterState F →
    Prog (GepaEffect F) GepaEffect.Result SearchError (Except SearchError α × AdapterState F)

section Methods

variable {F : Type} [FiniteFloats F] [DecidableEq F] [RewardIdentity F] [GepaIdentity F]
variable [PythonRandom] {α β : Type}

namespace AdapterM

def bind (m : AdapterM F α) (k : α → AdapterM F β) : AdapterM F β := fun st =>
  (m st).bind fun
    | (.ok a, st') => k a st'
    | (.error error, st') => .done (.error error, st')

instance : Monad (AdapterM F) where
  pure a := fun st => .done (.ok a, st)
  bind := bind

def raise (error : SearchError) : AdapterM F α := fun st => .done (.error error, st)
def ofExcept (x : Except String α) : AdapterM F α := fun st => .done (SearchError.ofValue x, st)
def get : AdapterM F (AdapterState F) := fun st => .done (.ok st, st)
def modify (f : AdapterState F → AdapterState F) : AdapterM F Unit := fun st => .done (.ok (), f st)

def effect (e : GepaEffect F) : AdapterM F e.Result := fun st => .call e fun r => .done (.ok r, st)

def refuseIf (bad : Prop) [Decidable bad] (message : String) : AdapterM F Unit :=
  ofExcept (raiseIf bad message)

end AdapterM

namespace WhetstoneGepaAdapter

open AdapterM

variable (adapter : WhetstoneGepaAdapter F)

def resetEffectOrdinal : AdapterState F where
  nextInvocationOrdinal := 0
  rng := PythonRandom.seeded adapter.evaluationAuthority.selectionSeed
  scoreMismatchWarned := false
  scoreMismatchEvidence := []
  skippedMutations := []

def slot : AdapterM F GepaEffectSlot := do
  let state ← get
  modify fun state => { state with nextInvocationOrdinal := state.nextInvocationOrdinal + 1 }
  return ⟨adapter.context, state.nextInvocationOrdinal⟩

def candidateComponents (candidate : Dict String String) : List GepaCandidateComponent :=
  candidate.pairs.map fun entry => ⟨entry.1, entry.2⟩

def reprNames (names : List String) : String :=
  match names with
  | [name] => "(" ++ quoted name ++ ",)"
  | names => "(" ++ joined (names.map quoted) ++ ")"

def validateCandidate (candidate : Dict String String) : Except String Unit := do
  raiseIf (candidate.keys ≠ adapter.promptServices.componentNames)
    ("GEPA candidate component order does not match its bound prompt format: expected " ++
      reprNames adapter.promptServices.componentNames ++ ", got " ++ reprNames candidate.keys)
  candidate.pairs.forM fun entry => do
    let _ ← adapter.promptServices.validateReplacement entry.1 entry.2

/-! ### Evaluations -/

/- A batch as its distinct instances, and the place of each of its rows among them. -/
structure CollapsedBatch where
  unique : List GepaDataInstance
  seen : Dict Nat Nat
  expansion : List Nat

def CollapsedBatch.add (batch : CollapsedBatch) (item : GepaDataInstance) :
    Except String CollapsedBatch :=
  match batch.seen.get? item.upstreamPosition with
  | none => .ok ⟨batch.unique ++ [item], batch.seen.set item.upstreamPosition batch.unique.length,
      batch.expansion ++ [batch.unique.length]⟩
  | some index => do
    raiseIf (batch.unique[index]? ≠ some item)
      "GEPA evaluation batch repeats an upstream position with a different instance"
    return ⟨batch.unique, batch.seen, batch.expansion ++ [index]⟩

def projectTrajectories (captureTraces : Bool) (rows : List (GepaEvaluationRow F)) :
    Except String (Option (List (GepaTrajectoryProjection F))) :=
  if captureTraces then do
    raiseIf (rows.any (fun row => row.trajectory.isNone) = true)
      "GEPA trace-capturing evaluation omitted a trajectory"
    return some (rows.filterMap fun row => row.trajectory)
  else do
    raiseIf (rows.any (fun row => row.trajectory.isSome) = true)
      "GEPA non-tracing evaluation returned trajectories"
    return none

def projectObjectives (rows : List (GepaEvaluationRow F)) :
    Except String (Option (List (Dict String F))) := do
  let every := rows.all fun row => row.objectiveScores.isSome
  raiseIf (rows.any (fun row => row.objectiveScores.isSome) = true ∧ every = false)
    "GEPA objective scores must be present for every row or none"
  return if every then some (rows.filterMap fun row => row.objectiveScores) else none

def projectBatch (captureTraces : Bool) (rows : List (GepaEvaluationRow F)) :
    Except String (EvaluationBatch F) := do
  let trajectories ← projectTrajectories captureTraces rows
  let objectiveScores ← projectObjectives rows
  return {
    outputs := rows.map fun row => row.output
    scores := rows.map fun row =>
      if row.failureRef.isSome then adapter.evaluationAuthority.failureScore.value
      else row.score.value
    trajectories := trajectories
    objectiveScores := objectiveScores }

def evaluate (batch : List GepaDataInstance) (candidate : Dict String String)
    (captureTraces : Bool) : AdapterM F (EvaluationBatch F) := do
  ofExcept (adapter.validateCandidate candidate)
  let collapsed ← ofExcept (batch.foldlM CollapsedBatch.add ⟨[], .empty, []⟩)
  let slot ← adapter.slot
  let request ← ofExcept (EvaluationRequestFields.create {
    slot := slot
    candidate := candidateComponents candidate
    upstreamCandidateIndex := none
    data := collapsed.unique
    captureTraces := captureTraces
    authority := adapter.evaluationAuthority })
  let result ← effect (.evaluate request)
  refuseIf (result.requestHash ≠ GepaIdentity.evaluationHash request)
    "GEPA evaluation result belongs to another effect request"
  refuseIf (result.rows.length ≠ collapsed.unique.length)
    "GEPA evaluation result row count does not match the batch"
  refuseIf (result.rows.map (fun row => row.data) ≠ collapsed.unique)
    "GEPA evaluation rows are not in requested data order"
  -- every index of the expansion is the place of a row
  ofExcept (adapter.projectBatch captureTraces
    (collapsed.expansion.filterMap fun index => result.rows[index]?))

/-! ### Reflection examples -/

/- The first difference between a component's score and the module's is kept as evidence. -/
def noteMismatch (componentName : String) (trajectory : GepaTrajectoryProjection F)
    (selected : GepaComponentTraceProjection F) : AdapterM F Unit := do
  let state ← get
  match selected.feedbackScore, trajectory.moduleScore with
  | some feedback, some score =>
    if FiniteFloats.eq feedback.value score = false ∧
        adapter.evaluationAuthority.warnOnScoreMismatch = true ∧
        state.scoreMismatchWarned = false then do
      refuseIf (FloatOps.isFinite score = false) "module_score must be a finite number"
      modify fun state => { state with
        scoreMismatchWarned := true
        scoreMismatchEvidence := state.scoreMismatchEvidence ++
          [⟨trajectory.dataId, componentName, feedback.value, score, selected.sourceRefs⟩] }
    else pure ()
  | _, _ => pure ()

def chooseTrace (first : GepaComponentTraceProjection F)
    (rest : List (GepaComponentTraceProjection F)) :
    AdapterM F (GepaComponentTraceProjection F) := do
  let state ← get
  let drawn := PythonRandom.choice state.rng rest.length
  modify fun state => { state with rng := drawn.2 }
  return (first :: rest).get drawn.1

def reflectiveItem (componentName : String) (trajectory : GepaTrajectoryProjection F) :
    AdapterM F (Option ReflectiveRecord) := do
  let records := trajectory.records componentName
  let candidates := if adapter.evaluationAuthority.addFormatFailureAsFeedback then records
    else records.filter fun trace => trace.formatFailure = false
  match candidates with
  | [] => return if records.isEmpty then some (trajectory.reflectiveRecord componentName) else none
  | first :: rest =>
    match candidates.find? fun trace => trace.formatFailure with
    | some selected =>
      adapter.noteMismatch componentName trajectory selected
      return some selected.reflectiveRecord
    | none =>
      if trajectory.predictionFailed then return none
      else
        let selected ← chooseTrace first rest
        adapter.noteMismatch componentName trajectory selected
        return some selected.reflectiveRecord

def reflectiveItems (componentName : String) :
    List (GepaTrajectoryProjection F) → AdapterM F (List ReflectiveRecord)
  | [] => return []
  | trajectory :: rest => do
    let item ← adapter.reflectiveItem componentName trajectory
    let items ← reflectiveItems componentName rest
    return item.toList ++ items

def reflectiveComponents (trajectories : List (GepaTrajectoryProjection F)) :
    List String → Dict String (List ReflectiveRecord) →
      AdapterM F (Dict String (List ReflectiveRecord))
  | [], reflective => return reflective
  | componentName :: rest, reflective => do
    if componentName ∉ adapter.promptServices.componentNames then
      raise (.key ("unknown GEPA prompt component " ++ quoted componentName))
    else
      let items ← adapter.reflectiveItems componentName trajectories
      reflectiveComponents trajectories rest
        (if items.isEmpty then reflective else reflective.set componentName items)

def makeReflectiveDataset (candidate : Dict String String) (evalBatch : EvaluationBatch F)
    (componentsToUpdate : List String) : AdapterM F (Dict String (List ReflectiveRecord)) := do
  ofExcept (adapter.validateCandidate candidate)
  refuseIf (¬ componentsToUpdate.Nodup) "GEPA reflection component selection contains duplicates"
  match evalBatch.trajectories with
  | none => raise (.value "GEPA reflective dataset requires captured trajectories")
  | some trajectories =>
    let reflective ← adapter.reflectiveComponents trajectories componentsToUpdate .empty
    refuseIf (reflective.pairs = []) "No valid predictions found for any GEPA component."
    return reflective

/-! ### Replacement texts -/

/- A response the parser rejected: the skip it leaves and the attempt a retry is told of. -/
def rejected (componentName : String) (attempt : Nat) (result : GepaProposalEffectResult F) :
    GepaRejectedAttempt × GepaSkippedMutation :=
  let detail := if result.detailed then result.failureDetail.getD ""
    else "GEPA reflection response was rejected"
  (⟨result.rawResponse, detail⟩,
    ⟨componentName, attempt, detail, result.rawResponse, result.providerAttemptRefs,
      attempt = gepaReflectionMaxAttempts - 1⟩)

/- The parsed text of a response, which the format of the component takes as it is. -/
def parsedReplacement (componentName : String) (result : GepaProposalEffectResult F) :
    Except String String :=
  match result.parsedComponents with
  | [component] => do
    raiseIf (component.name ≠ componentName)
      ("GEPA proposal result must contain exactly the requested component " ++
        reprNames [componentName] ++ ", got " ++ reprNames [component.name])
    let validated ← adapter.promptServices.validateReplacement componentName component.text
    raiseIf (validated ≠ component.text) "GEPA proposal authority and adapter parser disagree"
    return component.text
  | components => throw ("GEPA proposal result must contain exactly the requested component " ++
      reprNames [componentName] ++ ", got " ++
      reprNames (components.map GepaCandidateComponent.name))

def proposeOneComponent (candidate : Dict String String)
    (dataset : Dict String (List ReflectiveRecord)) (selected : List String)
    (componentName : String) :
    (left attempt : Nat) → Option GepaRejectedAttempt → AdapterM F (Option String)
  | 0, _, _ => return none
  | left + 1, attempt, priorAttempt => do
    let reflection : GepaReflectionRequest :=
      ⟨candidate, dataset, selected, componentName, priorAttempt⟩
    ofExcept reflection.validate
    let rendered ← ofExcept (adapter.promptServices.render reflection)
    let slot ← adapter.slot
    let request ← ofExcept (ProposalRequestFields.create {
      slot := slot
      candidate := candidateComponents candidate
      upstreamCandidateIndex := none
      componentsToUpdate := selected
      componentName := componentName
      renderedPrompt := rendered
      authority := adapter.proposalAuthority })
    let result ← effect (.propose request : GepaEffect F)
    refuseIf (result.requestHash ≠ GepaIdentity.proposalHash (F := F) request)
      "GEPA proposal result belongs to another effect request"
    if result.failed then
      if result.rejectedByParser then
        let (retried, skipped) := rejected componentName attempt result
        modify fun state => { state with
          skippedMutations := state.skippedMutations ++ [skipped] }
        proposeOneComponent candidate dataset selected componentName left (attempt + 1)
          (some retried)
      else raise (.reflectionFailed (result.failureDetail.getD "GEPA proposal effect failed"))
    else
      let replacement ← ofExcept (adapter.parsedReplacement componentName result)
      return some replacement

def proposeComponents (candidate : Dict String String)
    (dataset : Dict String (List ReflectiveRecord)) (selected : List String) :
    List String → Dict String String → AdapterM F (Dict String String)
  | [], replacements => return replacements
  | componentName :: rest, replacements => do
    if ((dataset.get? componentName).getD []).isEmpty then
      proposeComponents candidate dataset selected rest replacements
    else
      let replacement ← adapter.proposeOneComponent candidate dataset selected componentName
        gepaReflectionMaxAttempts 0 none
      proposeComponents candidate dataset selected rest (match replacement with
        | some text => replacements.set componentName text
        | none => replacements)

def proposeNewTexts (candidate : Dict String String)
    (reflectiveDataset : Dict String (List ReflectiveRecord)) (componentsToUpdate : List String) :
    AdapterM F (Dict String String) := do
  ofExcept (adapter.validateCandidate candidate)
  adapter.proposeComponents candidate reflectiveDataset componentsToUpdate componentsToUpdate .empty

end WhetstoneGepaAdapter
end Methods
end Whetstone.Optim.Gepa
