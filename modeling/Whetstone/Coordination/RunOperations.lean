import Whetstone.Coordination.RunBindings
import Whetstone.Lib.Isolation
import Whetstone.Optim.Harness

/-! The operations on one run: its launch is bound and loaded, the run is bound, stepped and
terminalized. They meet other runs in the bindings of the store. An object is addressed by its
content, so the objects, the leases and the components that answer a step are the environment,
which answers an operation as it chooses. -/
namespace Whetstone.Runs
open Whetstone.Core Whetstone.Lib Whetstone.Experiment Whetstone.Tools Whetstone.Optim.Step

def runLaunchSchema : String := "whetstone.optim_run_launch"

/- `control` is the control as it is dumped. -/
structure LaunchPayload where
  runId : String
  initialCandidate : Candidate
  control : Option Json
  extraPools : Option (List (String × Json))
deriving DecidableEq

inductive LaunchRecord where
  | toolDefinition (definition : ToolDefinition)
  | toolConfig (config : ToolConfig)
  | control (schema : String) (control : Json)
  | payload (payload : LaunchPayload)
deriving DecidableEq

/-- The content hash of a launch payload, and how the step contracts of an adapter read its
control. No property is assumed. -/
class LaunchContracts where
  payloadHash : LaunchPayload → String
  parseControl : (adapterKey : String) → Json → Except String Json

inductive LaunchOp where
  | resolve (key : RunKey)
  | bind (key : RunKey) (ref : TypedRef)
  | put (record : LaunchRecord)
  | get (ref : TypedRef)

inductive RunError where
  | step (error : StepError)
  | bindingConflict (existing : TypedRef)
  | runConflict (existing requested : TypedRef)
deriving DecidableEq

section Operations

variable [PyIdentifiers] [CandidateIdentity] [ToolIdentity]
variable {F : Type} [FiniteFloats F] [DecidableEq F] [RewardIdentity F] [ResultIdentity F]
variable [RequestIdentity F] [StepResultIdentity F]

structure OptimRunLaunch (F : Type) [FiniteFloats F] where
  run : OptimRun F
  initialCandidate : Candidate
  control : Option Json
  extraPools : Option (List (String × Json))
deriving DecidableEq

def OptimRunLaunch.payload (launch : OptimRunLaunch F) : LaunchPayload :=
  ⟨launch.run.runId, launch.initialCandidate, launch.control, launch.extraPools⟩

inductive RunOp (F : Type) [FiniteFloats F] [DecidableEq F] [RewardIdentity F]
    [ResultIdentity F] [RequestIdentity F] [StepResultIdentity F] where
  | harness (o : StepOp F)
  | launch (o : LaunchOp)

abbrev RunOp.Reply : RunOp F → Type
  | .harness o => o.Reply
  | .launch (.resolve _) => Option TypedRef
  | .launch (.bind _ _) => BindStatus
  | .launch (.put _) => Bool
  | .launch (.get _) => Option (Record F ⊕ LaunchRecord)

abbrev RunProg (F : Type) [FiniteFloats F] [DecidableEq F] [RewardIdentity F]
    [ResultIdentity F] [RequestIdentity F] [StepResultIdentity F] :=
  Prog (RunOp F) RunOp.Reply RunError

/- The binding that an operation reads or writes. -/
def RunOp.key : RunOp F → Option RunKey
  | .harness (.resolve key) => some (.harness key)
  | .harness (.bind key _) => some (.harness key)
  | .launch (.resolve key) => some key
  | .launch (.bind key _) => some key
  | _ => none

/- First writer wins; binding the bound reference again is idempotent. -/
def bindText (bindings : Dict String TypedRef) (text : String) (ref : TypedRef) :
    BindStatus × Dict String TypedRef :=
  match bindings.get? text with
  | none => (.created, bindings.set text ref)
  | some bound => (if bound = ref then .idempotent else .conflict bound, bindings)

/- What the environment answers to an operation, should it be taken next. -/
abbrev RunAnswer (F : Type) [FiniteFloats F] [DecidableEq F] [RewardIdentity F]
    [ResultIdentity F] [RequestIdentity F] [StepResultIdentity F] := (o : RunOp F) → o.Reply

def execRun (o : RunOp F) (answer : RunAnswer F) (bindings : Dict String TypedRef) :
    o.Reply × Dict String TypedRef :=
  match o with
  | .harness (.resolve key) => (bindings.get? (RunKey.harness key).text, bindings)
  | .harness (.bind key ref) => bindText bindings (RunKey.harness key).text ref
  | .launch (.resolve key) => (bindings.get? key.text, bindings)
  | .launch (.bind key ref) => bindText bindings key.text ref
  | o => (answer o, bindings)

/- A program of the harness. -/
def ofStep {α : Type} (p : StepProg F α) : RunProg F α := p.embed .harness (fun _ r => r) .step

end Operations

section Programs

variable [PyIdentifiers] [CandidateIdentity] [ToolIdentity] [LaunchContracts]
variable {F : Type} [FiniteFloats F] [DecidableEq F] [RewardIdentity F] [ResultIdentity F]
variable [RequestIdentity F] [StepResultIdentity F] [HarnessIdentity F]

abbrev performLaunch (o : LaunchOp) : RunProg F (RunOp.Reply (F := F) (.launch o)) :=
  @Prog.perform _ RunOp.Reply _ (RunOp.launch o)

def invalid {α : Type} (message : String) : RunProg F α := .raise (.step (.value message))

/-! ### Launch -/

def LaunchPayload.ref (payload : LaunchPayload) : TypedRef :=
  ⟨runLaunchSchema, LaunchContracts.payloadHash payload⟩

/- `store.bind` of a launch, whose conflict is raised as it is. -/
def bindExact (key : RunKey) (ref : TypedRef) : RunProg F Unit := do
  match ← performLaunch (.bind key ref) with
  | .conflict existing => .raise (.bindingConflict existing)
  | _ => return ()

def persistControl (schema : String) : Option Json → RunProg F Unit
  | none => .done ()
  | some control => do
    let _ ← performLaunch (.put (.control schema control))
    return ()

def bindLaunch (launch : OptimRunLaunch F) : RunProg F TypedRef := do
  if launch.run.initialCandidateRef.any (· ≠ launch.initialCandidate) then
    invalid "run initial_candidate_ref must address the exact launch initial candidate"
  else
    let _ ← ofStep (perform (.put (.run launch.run)))
    persistControl launch.run.optimizerConfig.recordRef.schemaName launch.control
    let _ ← performLaunch (.put (.payload launch.payload))
    bindExact (.launch launch.run.runId) launch.run.recordRef
    bindExact (.launchPayload launch.run.runId) launch.payload.ref
    return launch.run.recordRef

/- The stored object under a reference, read as one kind of record. -/
def loadStored {α : Type} (pick : Record F ⊕ LaunchRecord → Option α) (ref : TypedRef) :
    RunProg F α := do
  match ← performLaunch (.get ref) with
  | none => .raise (.step (.store "no object is stored under the reference"))
  | some record =>
    match pick record with
    | none => invalid "the stored record does not validate"
    | some found => return found

def pickRun : Record F ⊕ LaunchRecord → Option (OptimRun F)
  | .inl (.run run) => some run
  | _ => none

def pickPayload : Record F ⊕ LaunchRecord → Option LaunchPayload
  | .inr (.payload payload) => some payload
  | _ => none

def parsedControl (run : OptimRun F) : Option Json → RunProg F (Option Json)
  | none => .done none
  | some control =>
    match LaunchContracts.parseControl run.adapterKey control with
    | .ok parsed => .done (some parsed)
    | .error message => invalid message

def loadLaunch (runId : String) : RunProg F (OptimRunLaunch F) := do
  match ← performLaunch (.resolve (.launch runId)) with
  | none => invalid ("optimization run launch is not bound: " ++ quoted runId)
  | some runBinding =>
    let run ← loadStored pickRun runBinding
    match ← performLaunch (.resolve (.launchPayload runId)) with
    | none => invalid ("optimization run launch payload is not bound: " ++ quoted runId)
    | some payloadBinding =>
      let payload ← loadStored pickPayload payloadBinding
      let control ← parsedControl run payload.control
      return ⟨run, payload.initialCandidate, control, payload.extraPools⟩

/-! ### The run record -/

/- The reference a put returns against the expected one. -/
def requireStored (failed : String) : Bool → RunProg F Unit
  | true => .done ()
  | false => invalid failed

def persistToolConfigs : List ToolConfig → RunProg F Unit
  | [] => .done ()
  | config :: rest => do
    requireStored "persisted Tool Definition ref failed validation"
      (← performLaunch (.put (.toolDefinition config.definition)))
    requireStored "persisted Tool Config ref failed validation"
      (← performLaunch (.put (.toolConfig config)))
    persistToolConfigs rest

/- What the run's binding holds after it was written. -/
def verifyBoundRun (run : OptimRun F) : RunProg F (OptimRun F) := do
  match ← ofStep (perform (.resolve (.run run.runId))) with
  | none => .raise (.step (.runtime "Optimization Run binding disappeared"))
  | some existing =>
    if existing ≠ run.recordRef then .raise (.runConflict existing run.recordRef)
    else
      let loaded ← ofStep (loadRun existing)
      if loaded ≠ run then invalid "bound Optimization Run is not its exact record"
      else return run

def bindRun (run : OptimRun F) : RunProg F (OptimRun F) := do
  requireStored "persisted Optimization Run ref failed content validation"
    (← ofStep (perform (.put (.run run))))
  persistToolConfigs run.toolConfigs
  match ← ofStep (perform (.bind (.run run.runId) run.recordRef)) with
  | .conflict existing =>
    if existing = run.recordRef then return run
    else .raise (.runConflict existing run.recordRef)
  | _ => verifyBoundRun run

/-! ### The operations on a run -/

inductive RunCall (F : Type) [FiniteFloats F] [DecidableEq F] [RewardIdentity F]
    [ResultIdentity F] [RequestIdentity F] where
  | bindLaunch (launch : OptimRunLaunch F)
  | loadLaunch (runId : String)
  | bindRun (run : OptimRun F)
  | runStep (harness : OptimHarness F) (request : OptimStepRequest F)
  | terminalize (harness : OptimHarness F) (run : OptimRun F)
      (stepResults : List (OptimStepResult F))

inductive RunOutcome (F : Type) [FiniteFloats F] [DecidableEq F] [RewardIdentity F]
    [ResultIdentity F] [RequestIdentity F] [StepResultIdentity F] where
  | launched (ref : TypedRef)
  | loaded (launch : OptimRunLaunch F)
  | bound (run : OptimRun F)
  | stepped (result : OptimStepResult F) (ref : TypedRef)
  | terminalized (result : OptimResult F) (ref : TypedRef)

def RunCall.runId : RunCall F → String
  | .bindLaunch launch => launch.run.runId
  | .loadLaunch runId => runId
  | .bindRun run => run.runId
  | .runStep _ request => request.runId
  | .terminalize _ run _ => run.runId

def RunCall.prog : RunCall F → RunProg F (RunOutcome F)
  | .bindLaunch launch => do return .launched (← Runs.bindLaunch launch)
  | .loadLaunch runId => do return .loaded (← Runs.loadLaunch runId)
  | .bindRun run => do return .bound (← Runs.bindRun run)
  | .runStep harness request => do
    let (result, ref) ← ofStep (Optim.Step.runStep harness request)
    return .stepped result ref
  | .terminalize harness run stepResults => do
    let (result, ref) ← ofStep (Optim.Step.terminalize harness run stepResults)
    return .terminalized result ref

end Programs
end Whetstone.Runs
