import Whetstone.Core.Leasing
import Whetstone.Lib.Prog
import Whetstone.Optim.StepChecks

/-! The optimization harness: one step of a run, with inline evaluation, and the terminal
result of the run, as programs over single operations. The adapter, the evaluation service and
the tool executor answer as the environment chooses.

A record is never removed or replaced, so a sequence of reads that raises at the first record
it misses reads the store once, where its last read stands. -/
namespace Whetstone.Optim.Step
open Whetstone.Core Whetstone.Lib Whetstone.Experiment Whetstone.Eval Whetstone.Tools

inductive StepError where
  | value (message : String)
  | runtime (message : String)
  | store (message : String)
  | lease (message : String)
  | adapter (message : String)
  | service (message : String)
  | busy (semanticKey : String)
  | requestConflict (semanticKey : String)
  | recoveryRequired (semanticKey : String) (failure : TerminalFailure)
  | collision (ref : TypedRef)
  | stepConflict (existing requested : TypedRef)
  | resultConflict (existing requested : TypedRef)
deriving DecidableEq

inductive BindStatus where
  | created
  | idempotent
  | conflict (existing : TypedRef)
deriving DecidableEq

/- Whose effect a terminal is published for. -/
inductive EffectSubject where
  | adapter
  | intent
deriving DecidableEq

structure RegisteredAdapter where
  key : String
  mode : StepMode
  requiredReplayPolicy : ReplayPolicy
deriving DecidableEq

section Operations

variable [PyIdentifiers] [CandidateIdentity] [ToolIdentity]

/- A harness after `bind_run`. The policy of its evaluation service is `none` if it has none. -/
structure OptimHarness (F : Type) [FiniteFloats F] where
  boundRun : OptimRun F
  ownerId : String
  adapterRegistry : Dict String RegisteredAdapter
  adapterReplayPolicy : ReplayPolicy
  evaluationReplayPolicy : Option ReplayPolicy
  hasToolExecutor : Bool

/- `invoke` is the adapter's invocation with the guarded handles of the step, up to the check
   that a recovered adapter has replayed every issued call; `ledger` reads the slots of the
   issued-call ledger, where a slot without a terminal is `none`. -/
inductive StepOp (F : Type) [FiniteFloats F] [DecidableEq F] [RewardIdentity F]
    [ResultIdentity F] [RequestIdentity F] [StepResultIdentity F] where
  | enter
  | leave (result : OptimStepResult F) (ref : TypedRef)
  | resolve (key : BindingKey)
  | get (ref : TypedRef)
  | objects
  | put (record : Record F)
  | bind (key : BindingKey) (ref : TypedRef)
  | acquire (effect : EffectRequest) (ownerId : String)
  | publish (subject : EffectSubject) (lease : Lease) (outcome : TerminalOutcome)
      (resultRef : TypedRef) (failure : Option TerminalFailure)
  | runtimeHandle (config : ToolConfig) (binding : ToolCapacityBinding)
  | invoke (request : OptimStepRequest F)
  | ledger (request : OptimStepRequest F)
  | resolveIntent (intent : OptimEvalRequest)
  | validateGraph (resolution : IntentResolution F)

variable {F : Type} [FiniteFloats F] [DecidableEq F] [RewardIdentity F] [ResultIdentity F]
variable [RequestIdentity F] [StepResultIdentity F]

abbrev StepOp.Reply : StepOp F → Type
  | .enter => Unit
  | .leave _ _ => Unit
  | .resolve _ => Option TypedRef
  | .get _ => Option (Record F)
  | .objects => Objects F
  | .put _ => Bool
  | .bind _ _ => BindStatus
  | .acquire _ _ => Except String (Acquired EffectTerminal)
  | .publish _ _ _ _ _ => Except String EffectTerminal
  | .runtimeHandle _ _ => Except String (ToolConfig × ToolCapacityBinding)
  | .invoke _ => Except String (AdapterOutput F)
  | .ledger _ => List (Option (ToolEvidence F))
  | .resolveIntent _ => Except String (IntentResolution F)
  | .validateGraph _ => Except String Unit

abbrev StepProg (F : Type) [FiniteFloats F] [DecidableEq F] [RewardIdentity F]
    [ResultIdentity F] [RequestIdentity F] [StepResultIdentity F] :=
  Prog (StepOp F) StepOp.Reply StepError

end Operations

section Programs

variable [PyIdentifiers] [CandidateIdentity] [ToolIdentity]
variable {F : Type} [FiniteFloats F] [DecidableEq F] [RewardIdentity F] [ResultIdentity F]
variable [RequestIdentity F] [StepResultIdentity F] [HarnessIdentity F]

abbrev perform (o : StepOp F) : StepProg F o.Reply := Prog.perform o

/- A check of the harness, whose message becomes a ValueError. -/
def check {α : Type} (x : Except String α) : StepProg F α := Prog.ofExcept (x.mapError .value)

def refuseIf (bad : Prop) [Decidable bad] (error : StepError) : StepProg F Unit :=
  Prog.ofExcept (raiseIf bad error)

/- An answer of another component, whose exceptions pass through. -/
def answered {α : Type} (error : String → StepError) (x : Except String α) : StepProg F α :=
  Prog.ofExcept (x.mapError error)

/-! ### Loading and persisting records -/

/- `_load_*`: the record of a reference, of the wanted kind and exactly under that reference. -/
def load {α : Type} (schema wrongSchema notExact : String) (pick : Record F → Option α)
    (ref : TypedRef) : StepProg F α := do
  refuseIf (ref.schemaName ≠ schema) (.value wrongSchema)
  match ← perform (.get ref) with
  | none => .raise (.store "no object is stored under the reference")
  | some record =>
    match pick record with
    | none => .raise (.value "the stored record does not validate")
    | some found =>
      refuseIf (record.ref ≠ ref) (.value notExact)
      return found

def loadRun : TypedRef → StepProg F (OptimRun F) :=
  load optimRunSchema "bound run ref has the wrong schema"
    "bound Optimization Run ref is not exact" fun
      | .run found => some found
      | _ => none

def loadResult : TypedRef → StepProg F (OptimStepResult F) :=
  load stepResultSchema "Step Result ref has the wrong schema"
    "persisted Step Result ref is not exact" fun
      | .result found => some found
      | _ => none

def loadCheckpoint : TypedRef → StepProg F (AdapterCheckpoint F) :=
  load adapterCheckpointSchema "Adapter Checkpoint ref has the wrong schema"
    "persisted Adapter Checkpoint ref is not exact" fun
      | .checkpoint found => some found
      | _ => none

def loadIntentResolution : TypedRef → StepProg F (IntentResolution F) :=
  load intentResolutionSchema "Intent Resolution ref has the wrong schema"
    "persisted Intent Resolution ref is not exact" fun
      | .resolution found => some found
      | _ => none

def loadTerminal : TypedRef → StepProg F (OptimResult F) :=
  load optimResultSchema "Optimization Result ref has the wrong schema"
    "persisted Optimization Result ref is not exact" fun
      | .optimResult found => some found
      | _ => none

/- The store addresses a record by the hash of its content, so the reference it returns is the
   expected one. A put fails when the hash is taken by another record. -/
def persist (record : Record F) : StepProg F Unit := do
  let stored ← perform (.put record)
  refuseIf (stored = false) (.collision record.ref)

def persistCandidates : List Candidate → StepProg F Unit
  | [] => return
  | candidate :: rest => do
    persist (.candidate candidate)
    persistCandidates rest

def persistSnapshot (schema : String) (delta : List (String × Json)) :
    StepProg F (Option TypedRef) := do
  if delta = [] then return none
  persist (.snapshot schema delta)
  return some (Record.ref (.snapshot schema delta : Record F))

/-! ### The request against the durable chain -/

def validateBoundRun (h : OptimHarness F) (request : OptimStepRequest F) : StepProg F Unit := do
  refuseIf (request.run ≠ h.boundRun)
    (.value "Step Request belongs to a different exact Optimization Run")
  match ← perform (.resolve (.run request.runId)) with
  | none => .raise (.value "Optimization Run binding is absent")
  | some actual =>
    refuseIf (actual ≠ request.run.recordRef)
      (.value "Step Request run is not the durably bound exact run")
    let found ← loadRun actual
    refuseIf (found ≠ request.run) (.value "Step Request run ref is not exact")

/- The request against the step result before it. -/
def validatePreceding (request : OptimStepRequest F) (preceding : OptimStepResult F) :
    Except String Unit := do
  raiseIf (preceding.runId ≠ request.runId) "preceding Step Result belongs to another run"
  raiseIf (preceding.request.run ≠ request.run)
    "preceding Step Result belongs to another exact Optimization Run"
  raiseIf (preceding.stepIndex ≠ request.stepIndex - 1)
    "preceding Step Result has the wrong step index"
  raiseIf (preceding.status ≠ .continuing) "a new Step may follow only a continuing Step Result"
  raiseIf (request.budget.same preceding.fields.budget = false)
    "a new Step must carry forward the preceding durable budget"
  raiseIf (request.priorStateRef ≠ preceding.fields.stateRef)
    "a new Step must cite the preceding exact state, including its absence"
  raiseIf (request.priorHistoryRef ≠ preceding.fields.historyRef)
    "a new Step must cite the preceding exact history, including its absence"

def validateInitial (request : OptimStepRequest F) : Except String Unit := do
  raiseIf (request.priorStepResultRef ≠ none) "initial Step Request carries no prior Step Result"
  raiseIf (request.priorStateRef ≠ none) "initial Step Request carries no prior state"
  raiseIf (request.priorHistoryRef ≠ none) "initial Step Request carries no prior history"

def validatePriorBinding (request : OptimStepRequest F) : StepProg F Unit := do
  if request.stepIndex = 0 then check (validateInitial request)
  else
    match ← perform (.resolve (.stepResult request.runId (request.stepIndex - 1))) with
    | none => .raise (.value
        "noninitial Step Request references no durably bound preceding Step Result")
    | some actual =>
      refuseIf (some actual ≠ request.priorStepResultRef) (.value
        "prior_step_result_ref does not match the actual preceding Step Result binding")
      let preceding ← loadResult actual
      check (validatePreceding request preceding)

/- `_resolve_compatible_adapter`, up to the replay policy it returns. -/
def resolveCompatibleAdapter (h : OptimHarness F) (request : OptimStepRequest F) :
    Except String ReplayPolicy :=
  match h.adapterRegistry.get? request.adapterKey with
  | none => .error ("no optimizer adapter registered for " ++ quoted request.adapterKey)
  | some adapter => do
    raiseIf (adapter.key ≠ request.adapterKey) "registry returned an adapter under the wrong key"
    raiseIf (adapter.mode ≠ request.mode) "adapter mode does not match request mode"
    raiseIf (adapter.requiredReplayPolicy ≠ h.adapterReplayPolicy)
      ("adapter " ++ quoted request.adapterKey ++ " requires another replay policy")
    return adapter.requiredReplayPolicy

/-! ### Effects -/

/- A lease on the effect, or the terminal that an earlier attempt published, with the record
   it refers to. -/
def acquireEffect (h : OptimHarness F) (effect : EffectRequest) (missing : String) :
    StepProg F (Lease ⊕ EffectTerminal × TypedRef) := do
  match ← answered .lease (← perform (.acquire effect h.ownerId)) with
  | .lease lease => return .inl lease
  | .busy => .raise (.busy effect.semanticKey)
  | .requestConflict => .raise (.requestConflict effect.semanticKey)
  | .terminal terminal =>
    match terminal.outcome, terminal.resultRef, terminal.failure with
    | .recoveryRequired, _, none =>
      .raise (.runtime "recovery-required effect has no terminal failure")
    | .recoveryRequired, _, some failure =>
      .raise (.recoveryRequired effect.semanticKey failure)
    | _, none, _ => .raise (.runtime missing)
    | _, some ref, _ => return .inr (terminal, ref)

/- The failure of a replayed terminal against that of the record it refers to. -/
def matchesFailure (terminal : EffectTerminal) (failure : Option TerminalFailure)
    (failedMessage succeededMessage : String) : Except String Unit :=
  if terminal.outcome = .failed then
    raiseIf (failure = none ∨ terminal.failure ≠ failure) failedMessage
  else raiseIf (failure ≠ none) succeededMessage

/- `maintenance.succeed` or `maintenance.fail` -/
def publishEffect (subject : EffectSubject) (lease : Lease) (ref : TypedRef)
    (failure : Option TerminalFailure) : StepProg F Unit := do
  let outcome := if failure.isNone then TerminalOutcome.succeeded else .failed
  let _ ← answered .lease (← perform (.publish subject lease outcome ref failure))

def adapterEffectRequest (request : OptimStepRequest F) (policy : ReplayPolicy) : EffectRequest where
  semanticKey := HarnessIdentity.adapterEffectKey F request.recordRef request.adapterKey
  requestHash := HarnessIdentity.adapterEffectHash F request.recordRef request.adapterKey
  replayPolicy := policy

def intentEffectRequest (request : OptimStepRequest F) (intent : OptimEvalRequest)
    (policy : ReplayPolicy) : EffectRequest where
  semanticKey := HarnessIdentity.intentEffectKey F request.recordRef intent.evalRequest.requestId
  requestHash := HarnessIdentity.intentEffectHash F intent
  replayPolicy := policy

/-! ### The adapter's output -/

/- `ledger.budget_delta` -/
def ledgerBudgetDelta (request : OptimStepRequest F) (delta : BudgetDelta) (issued : Nat) :
    BudgetDelta :=
  let consumed := delta.consumed.erase toolCallsLabel
  if (request.budget.remaining.get? toolCallsLabel).isSome then
    ⟨consumed.set toolCallsLabel issued⟩
  else ⟨consumed⟩

def AdapterOutput.withBudgetDelta (output : AdapterOutput F) (delta : BudgetDelta) :
    AdapterOutput F :=
  ⟨{ output.toOutputFields with budgetDelta := delta }, output.valid⟩

/- `ledger.evidence()` -/
def ledgerEvidence (request : OptimStepRequest F) : StepProg F (List (ToolEvidence F)) := do
  match (← perform (.ledger request)).mapM id with
  | some evidence => return evidence
  | none => .raise (.value
      "Issued Tool Call has no durable terminal result; adapter recovery is required")

omit [CandidateIdentity] [DecidableEq F] [RewardIdentity F] [ResultIdentity F]
  [StepResultIdentity F] [HarnessIdentity F] in
theorem validateBinding_capacitySubject (request : OptimStepRequest F) (scope : ToolCapacityScope) :
    validateBinding scope (StepResultFields.capacitySubject request scope) = .ok () := by
  cases scope <;> rfl

/- `_tool_capacity_binding` -/
def toolCapacityBinding (request : OptimStepRequest F) (config : ToolConfig) :
    ToolCapacityBinding :=
  ⟨config.capacity.scope, StepResultFields.capacitySubject request config.capacity.scope,
    validateBinding_capacitySubject request config.capacity.scope⟩

def prepareHandles (request : OptimStepRequest F) : List ToolConfig → StepProg F Unit
  | [] => return
  | config :: rest => do
    let binding := toolCapacityBinding request config
    let handle ← answered .adapter (← perform (.runtimeHandle config binding))
    refuseIf (handle.1 ≠ config) (.value
      "ToolExecutor returned a Runtime Tool Handle for another exact Tool Config")
    refuseIf (handle.2 ≠ binding) (.value
      "ToolExecutor returned a Runtime Tool Handle with another capacity binding")
    prepareHandles request rest

def prepareToolHandles (h : OptimHarness F) (request : OptimStepRequest F) : StepProg F Unit := do
  refuseIf (h.hasToolExecutor = false) (.value "tool-using Step requires a ToolExecutor")
  prepareHandles request request.toolConfigs

def invokePure (request : OptimStepRequest F) : StepProg F (AdapterOutput F) := do
  let output ← answered .adapter (← perform (.invoke request))
  refuseIf (output.optimEvalRequests ≠ []) (.value "a pure Step emits no measurement requests")
  return output

/- The output of a fresh invocation, with the tool calls it issued on its budget. -/
def invokeEffectful (request : OptimStepRequest F) : StepProg F (AdapterOutput F) := do
  let output ← answered .adapter (← perform (.invoke request))
  if request.mode = .toolUsing then
    refuseIf (output.optimEvalRequests ≠ []) (.value
      "tool-using Steps carry measurement in Tool Results")
    let evidence ← ledgerEvidence request
    return output.withBudgetDelta (ledgerBudgetDelta request output.budgetDelta evidence.length)
  else return output

def invokeAndPersistAdapter (request : OptimStepRequest F) :
    StepProg F (AdapterOutput F × TypedRef) := do
  let output ← invokeEffectful request
  check (checkOutput (← perform .objects) request output)
  let checkpoint : AdapterCheckpoint F := ⟨request.recordRef, request.adapterKey, output⟩
  persist (.checkpoint checkpoint)
  return (output, Record.ref (.checkpoint checkpoint : Record F))

def validateCheckpoint (objects : Objects F) (request : OptimStepRequest F)
    (checkpoint : AdapterCheckpoint F) : Except String Unit := do
  raiseIf (checkpoint.requestRef ≠ request.recordRef)
    "durable adapter checkpoint belongs to another request"
  raiseIf (checkpoint.adapterKey ≠ request.adapterKey)
    "durable adapter checkpoint belongs to another adapter"
  checkOutput objects request checkpoint.output

def effectfulOutput (h : OptimHarness F) (request : OptimStepRequest F) (policy : ReplayPolicy) :
    StepProg F (AdapterOutput F) := do
  match ← acquireEffect h (adapterEffectRequest request policy)
      "terminal Adapter effect has no exact checkpoint ref" with
  | .inr (terminal, ref) =>
    let checkpoint ← loadCheckpoint ref
    check (validateCheckpoint (← perform .objects) request checkpoint)
    check (matchesFailure terminal checkpoint.output.terminalFailure
      "failed Adapter effect does not match its exact checkpoint failure"
      "successful Adapter effect references a failed checkpoint")
    return checkpoint.output
  | .inl lease =>
    let (output, ref) ← invokeAndPersistAdapter request
    publishEffect .adapter lease ref output.terminalFailure
    return output

/-! ### The intents -/

def validateStoredRef (objects : Objects F) (ref : TypedRef) : Except String Unit :=
  raiseIf (objects.get? ref).isNone "no object is stored under the reference"

def validateResolution (objects : Objects F) (intent : OptimEvalRequest)
    (resolution : IntentResolution F) : Except String Unit := do
  raiseIf (resolution.optimEvalRequest ≠ intent)
    "EvalService resolved another exact Optim Eval Request"
  resolution.evalResultRef.forM (validateStoredRef objects)
  resolution.rewardEvidenceRefs.forM (validateStoredRef objects)

def resolveOneIntent (h : OptimHarness F) (policy : ReplayPolicy) (request : OptimStepRequest F)
    (intent : OptimEvalRequest) : StepProg F (IntentResolution F) := do
  match ← acquireEffect h (intentEffectRequest request intent policy)
      "terminal Intent effect has no exact resolution ref" with
  | .inr (terminal, ref) =>
    let resolution ← loadIntentResolution ref
    check (validateResolution (← perform .objects) intent resolution)
    check (matchesFailure terminal resolution.terminalFailure
      "failed Intent effect does not match its exact resolution failure"
      "successful Intent effect references a failed resolution")
    answered .service (← perform (.validateGraph resolution))
    return resolution
  | .inl lease =>
    let resolution ← answered .service (← perform (.resolveIntent intent))
    check (validateResolution (← perform .objects) intent resolution)
    answered .service (← perform (.validateGraph resolution))
    persist (.resolution resolution)
    publishEffect .intent lease (Record.ref (.resolution resolution : Record F))
      resolution.terminalFailure
    return resolution

def resolveEach (h : OptimHarness F) (policy : ReplayPolicy) (request : OptimStepRequest F)
    (allowed : Dict String Candidate) : List OptimEvalRequest →
    StepProg F (List (IntentResolution F))
  | [] => return []
  | intent :: rest => do
    check (requireEvalRequestOnStep (← perform .objects) request allowed intent)
    persist (.candidate intent.evalRequest.candidate)
    let resolution ← resolveOneIntent h policy request intent
    let resolutions ← resolveEach h policy request allowed rest
    return resolution :: resolutions

def resolveIntents (h : OptimHarness F) (request : OptimStepRequest F)
    (output : AdapterOutput F) : StepProg F (List (IntentResolution F)) := do
  if output.optimEvalRequests = [] then return []
  check (validateOutputIntents (← perform .objects) request output)
  match h.evaluationReplayPolicy with
  | none => .raise (.value "proposal-only Step with Optim Eval Requests requires EvalService")
  | some policy =>
    resolveEach h policy request (allowedCandidates (stepCandidates request output))
      output.optimEvalRequests

/-! ### The step -/

def stepOutput (h : OptimHarness F) (request : OptimStepRequest F) (policy : ReplayPolicy) :
    StepProg F (AdapterOutput F) := do
  match request.mode with
  | .pure => invokePure request
  | .proposalOnly => effectfulOutput h request policy
  | .toolUsing =>
    prepareToolHandles h request
    effectfulOutput h request policy

/- The evidence of the issued calls, whose number the output must have on its budget. -/
def toolEvidence (request : OptimStepRequest F) (output : AdapterOutput F) :
    StepProg F (List (ToolEvidence F)) := do
  if request.mode = .toolUsing then
    let evidence ← ledgerEvidence request
    let expected := ledgerBudgetDelta request output.budgetDelta evidence.length
    refuseIf (output.budgetDelta.consumed.sameItems expected.consumed = false) (.value
      ("Adapter checkpoint tool_calls budget does not match the durable issued-call ledger"))
    return evidence
  else return []

def stepResultFields (request : OptimStepRequest F) (output : AdapterOutput F)
    (evidence : List (ToolEvidence F)) (budget : BudgetState)
    (resolutions : List (IntentResolution F)) (stateRef historyRef : Option TypedRef) :
    StepResultFields F where
  request := request
  proposedCandidates := output.proposedCandidates
  acceptedCandidates := output.acceptedCandidates
  resolvedIntents := resolutions
  searchEvidence := output.searchEvidence
  toolEvidence := evidence
  proposerUsage := output.proposerUsage
  stateRef := stateRef
  historyRef := historyRef
  budgetDelta := output.budgetDelta
  budget := budget
  status := output.proposedStatus
  terminalFailure := output.terminalFailure
  seedRetained := output.seedRetained
  retainedCandidateRef := output.retainedCandidate
  provenanceNote := none
  provenanceOrdinal := none

def bindResult (request : OptimStepRequest F) (result : OptimStepResult F) :
    StepProg F (OptimStepResult F × TypedRef) := do
  persist (.result result)
  match ← perform (.bind (.stepResult request.runId request.stepIndex) result.recordRef) with
  | .created => return (result, result.recordRef)
  | .idempotent =>
    let bound ← loadResult result.recordRef
    return (bound, result.recordRef)
  | .conflict existing => .raise (.stepConflict existing result.recordRef)

def stepResolutions (h : OptimHarness F) (request : OptimStepRequest F)
    (output : AdapterOutput F) : StepProg F (List (IntentResolution F)) :=
  if request.mode = .proposalOnly then resolveIntents h request output else return []

def finishStep (h : OptimHarness F) (request : OptimStepRequest F) (output : AdapterOutput F) :
    StepProg F (OptimStepResult F × TypedRef) := do
  check (checkOutput (← perform .objects) request output)
  let evidence ← toolEvidence request output
  let budget ← check (request.budget.debit output.budgetDelta)
  persistCandidates output.proposedCandidates
  persistCandidates output.acceptedCandidates
  let resolutions ← stepResolutions h request output
  let stateRef ← persistSnapshot stateSnapshotSchema output.stateDelta
  let historyRef ← persistSnapshot historySnapshotSchema output.historyDelta
  persistCandidates output.retainedCandidate.toList
  let result ← check (stepResultFields request output evidence budget resolutions stateRef
    historyRef).modelValidate
  bindResult request result

/- A position that holds a result already. -/
def replayResult (request : OptimStepRequest F) (existingRef : TypedRef) :
    StepProg F (OptimStepResult F × TypedRef) := do
  let existing ← loadResult existingRef
  refuseIf (existing.runId ≠ request.runId ∨ existing.stepIndex ≠ request.stepIndex) (.value
    "bound Step Result belongs to another run or position")
  refuseIf (existing.request ≠ request) (.stepConflict existingRef request.recordRef)
  return (existing, existingRef)

def runStep (h : OptimHarness F) (request : OptimStepRequest F) :
    StepProg F (OptimStepResult F × TypedRef) := do
  check request.validate
  validateBoundRun h request
  check (request.candidates.forM fun candidate => validateCandidateTemplate candidate request.run)
  validatePriorBinding request
  match ← perform (.resolve (.stepResult request.runId request.stepIndex)) with
  | some existingRef => replayResult request existingRef
  | none =>
    let policy ← check (resolveCompatibleAdapter h request)
    persist (.request request)
    persistCandidates request.candidates
    let output ← stepOutput h request policy
    finishStep h request output

/-! ### The terminal result of the run -/

/- A supplied step result against its durable binding. -/
def loadTerminalStep (run : OptimRun F) (last : Nat) (index : Nat) (exact : OptimStepResult F) :
    StepProg F Unit := do
  let actual ← perform (.resolve (.stepResult run.runId index))
  refuseIf (actual ≠ some exact.recordRef) (.value
    "terminal Step Result refs must match ordered bindings")
  let result ← loadResult exact.recordRef
  refuseIf (result ≠ exact) (.value "terminal Step Result is not the exact supplied result")
  refuseIf (result.runId ≠ run.runId ∨ result.stepIndex ≠ index) (.value
    "terminal Step Result belongs to another run or position")
  refuseIf (result.request.run ≠ run) (.value
    "terminal Step Result request belongs to another exact run")
  refuseIf (index < last ∧ result.status ≠ .continuing) (.value
    "only the final terminal Step Result may stop the run")

def loadTerminalSteps (run : OptimRun F) (last : Nat) : Nat → List (OptimStepResult F) →
    StepProg F Unit
  | _, [] => return
  | index, exact :: rest => do
    loadTerminalStep run last index exact
    loadTerminalSteps run last (index + 1) rest

def assembleTerminal (run : OptimRun F) (results : List (OptimStepResult F))
    (last : OptimStepResult F) : StepProg F (OptimResult F) := do
  loadTerminalSteps run (results.length - 1) 0 results
  let later ← perform (.resolve (.stepResult run.runId results.length))
  refuseIf (later ≠ none) (.value "terminal Step Result refs omit a later bound Step Result")
  refuseIf (last.status = .continuing) (.value "cannot terminalize a continuing Step Result")
  let proposals := if last.status = .failed then [] else last.fields.acceptedCandidates
  let objects ← perform .objects
  let cost ← answered .store (aggregateRunCost (readForeign objects) results)
  let fields : OptimResultFields F :=
    { run := run, proposals := proposals, stepResults := results, cost := cost
      terminalFailure := last.fields.terminalFailure, seedRetained := last.fields.seedRetained
      provenanceNote := none, provenanceOrdinal := none }
  check fields.modelValidate

def OptimResult.recordRef (result : OptimResult F) : TypedRef :=
  Record.ref (.optimResult result : Record F)

/- A terminal result that the run is bound to already. -/
def replayTerminal (result : OptimResult F) (existingRef : TypedRef) :
    StepProg F (OptimResult F × TypedRef) := do
  let existing ← loadTerminal existingRef
  refuseIf (existingRef ≠ result.recordRef ∨ existing ≠ result)
    (.resultConflict existingRef result.recordRef)
  return (existing, existingRef)

def bindTerminal (run : OptimRun F) (result : OptimResult F) :
    StepProg F (OptimResult F × TypedRef) := do
  persist (.optimResult result)
  match ← perform (.bind (.optimResult run.runId) result.recordRef) with
  | .created => return (result, result.recordRef)
  | .conflict existing => .raise (.resultConflict existing result.recordRef)
  | .idempotent =>
    match ← perform (.resolve (.optimResult run.runId)) with
    | none => .raise (.runtime "idempotent Optimization Result binding disappeared")
    | some bound => replayTerminal result bound

def terminalize (h : OptimHarness F) (run : OptimRun F) (results : List (OptimStepResult F)) :
    StepProg F (OptimResult F × TypedRef) := do
  refuseIf (run ≠ h.boundRun) (.value "terminalize run differs from the bound exact run")
  match results.getLast? with
  | none => .raise (.value "terminalize requires at least one Step Result")
  | some last =>
    let result ← assembleTerminal run results last
    match ← perform (.resolve (.optimResult run.runId)) with
    | some existingRef => replayTerminal result existingRef
    | none => bindTerminal run result

end Programs
end Whetstone.Optim.Step
