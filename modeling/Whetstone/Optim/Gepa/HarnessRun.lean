import Whetstone.Optim.Gepa.Authorities

/-! A harness run of the search. An attempt of a step drives the search behind `begin_step` and
reports what the step caused; its output may be lost, stored or bound as the next Step Result.
The output of an attempt that was deferred is a placeholder, which the same step discards when
it resumes. Between attempts the platform resolves deferred intents. -/
namespace Whetstone.Optim.Gepa
open Whetstone.Core Whetstone.Lib Whetstone.Experiment Whetstone.Optim.Step

section Harness

variable {F : Type} [FiniteFloats F] [DecidableEq F] [RewardIdentity F] [GepaIdentity F]
variable [PythonRandom] [GepaResultIdentity F]

structure GepaHarness (F : Type) [FiniteFloats F] where
  optimize : Optimize F
  inputs : GepaInputs F
  authority : CanonicalGepaEvalAuthority F

def GepaHarness.runId (h : GepaHarness F) : String := h.inputs.adapter.context.runId

structure GepaOutput (F : Type) [FiniteFloats F] where
  status : StepStatus
  optimEvalRequests : List OptimEvalRequest
  searchEvidence : List (SearchEvidence F)
  proposerUsage : List (ProposerCallUsage F)
  checkpoint : Option GepaStepCheckpoint

/- How an invocation of the adapter ends. `unreported` is an exception of `search_evidence`. -/
inductive GepaInvocation (F : Type) [FiniteFloats F] where
  | crashed
  | raised (error : GepaError)
  | unreported (message : String)
  | output (output : GepaOutput F)

structure GepaRun (F : Type) [FiniteFloats F] [RewardIdentity F] where
  store : GepaState F
  results : Dict TypedRef (GepaStepResult F)
  head : Option TypedRef
  stepIndex : Nat
  checkpoint : GepaStepCheckpoint
  status : StepStatus
  log : List (List (GepaOp F × GepaState F) × GepaInvocation F)

inductive OutputFate where
  | lost
  | stored
  | bound
deriving DecidableEq, Inhabited

/-! ### Invocations -/

/- The search of one step, as the adapter drives it. -/
def GepaHarness.search (h : GepaHarness F) (checkpoint : GepaStepCheckpoint) :
    Prog (GepaEffect F) GepaEffect.Result SearchError
      (GepaDetailedResult F × GepaStepCheckpoint × AdapterState F) :=
  runOneGepaIteration h.optimize h.inputs (some checkpoint)

def GepaHarness.drive (h : GepaHarness F) (run : GepaRun F) (answers : List (GepaAnswer F)) :
    Attempt (GepaOp F) (GepaState F) GepaError
      (GepaDetailedResult F × GepaStepCheckpoint × AdapterState F) :=
  (brokered (h.authority.began run.stepIndex) (h.search run.checkpoint)).attempt execOp answers
    run.store.beginStep

def GepaHarness.evidence (h : GepaHarness F) (run : GepaRun F) (s : GepaState F) :
    Except String (List (SearchEvidence F)) := do
  let recorded ← recordedEvidenceIds run.results run.results.pairs.length [] run.head
  searchEvidence recorded h.runId run.stepIndex s.collected []

def GepaHarness.report (h : GepaHarness F) (run : GepaRun F) (s : GepaState F)
    (status : StepStatus) (optimEvalRequests : List OptimEvalRequest)
    (checkpoint : Option GepaStepCheckpoint) : GepaInvocation F :=
  match h.evidence run s with
  | .error message => .unreported message
  | .ok evidence => .output ⟨status, optimEvalRequests, evidence, s.spent, checkpoint⟩

def GepaHarness.invoke (h : GepaHarness F) (run : GepaRun F) (answers : List (GepaAnswer F)) :
    GepaInvocation F :=
  let made := h.drive run answers
  match made.outcome with
  | .crashed => .crashed
  | .returned (_, checkpoint, _) =>
    h.report run made.state (if checkpoint.terminal then .complete else .continuing) []
      (some checkpoint)
  | .raised (.deferred intent) =>
    h.report run made.state .continuing [intent] (some run.checkpoint)
  | .raised (.search (.reflectionFailed _)) => h.report run made.state .failed [] none
  | .raised error => .raised error

/-! ### Runs -/

def GepaOutput.result (output : GepaOutput F) (h : GepaHarness F) (run : GepaRun F) :
    GepaStepResult F where
  runId := h.runId
  stepIndex := run.stepIndex
  priorStepResultRef := run.head
  status := output.status
  searchEvidence := output.searchEvidence
  proposerUsage := output.proposerUsage
  checkpoint := output.checkpoint

def GepaRun.put (run : GepaRun F) (result : GepaStepResult F) : Bool × GepaRun F :=
  match run.results.get? result.ref with
  | some old => (decide (old = result), run)
  | none => (true, { run with results := run.results.set result.ref result })

/- An output as the next Step Result. A placeholder is never on the chain. -/
def GepaRun.settle (run : GepaRun F) (h : GepaHarness F) (output : GepaOutput F) :
    OutputFate → GepaRun F
  | .lost => run
  | .stored => (run.put (output.result h run)).2
  | .bound =>
    let put := run.put (output.result h run)
    if put.1 ∧ output.optimEvalRequests = [] then
      { put.2 with
        head := some (output.result h run).ref
        stepIndex := run.stepIndex + 1
        checkpoint := output.checkpoint.getD run.checkpoint
        status := output.status }
    else put.2

def GepaRun.attempt (run : GepaRun F) (h : GepaHarness F) (answers : List (GepaAnswer F))
    (fate : OutputFate) : GepaRun F :=
  let invocation := h.invoke run answers
  let driven := { run with
    store := (h.drive run answers).state
    log := run.log ++ [((h.drive run answers).events, invocation)] }
  match invocation with
  | .output output => driven.settle h output fate
  | _ => driven

/- The evaluation stages bind the resolution of a deferred intent and evict its key. -/
def GepaState.fanin (s : GepaState F) (intentHash : String) (resolution : IntentResolution F) :
    GepaState F :=
  match (s.bindings.get? (.platformIntent intentHash)).bind s.objects.get? with
  | some (.intent intent) =>
    if GepaIdentity.intentHash F intent = intentHash ∧ resolution.optimEvalRequest = intent ∧
        s.intents.get? intentHash = none then
      { s with
        intents := s.intents.set intentHash resolution
        bindings := s.bindings.erase (.platformIntent intentHash) }
    else s
  | _ => s

inductive RunEvent (F : Type) [FiniteFloats F] [RewardIdentity F] where
  | attempt (answers : List (GepaAnswer F)) (fate : OutputFate)
  | fanin (intentHash : String) (resolution : IntentResolution F)

def GepaRun.step (h : GepaHarness F) (run : GepaRun F) : RunEvent F → GepaRun F
  | .attempt answers fate =>
    if run.status = .continuing then run.attempt h answers fate else run
  | .fanin intentHash resolution => { run with store := run.store.fanin intentHash resolution }

def GepaRun.start (s : GepaState F) (results : Dict TypedRef (GepaStepResult F)) : GepaRun F :=
  ⟨s, results, none, 0, {}, .continuing, []⟩

def gepaRun (h : GepaHarness F) (s : GepaState F) (results : Dict TypedRef (GepaStepResult F))
    (events : List (RunEvent F)) : GepaRun F :=
  events.foldl (GepaRun.step h) (.start s results)

/- The Step Results of a run, the last one first. -/
def chainFrom (results : Dict TypedRef (GepaStepResult F)) :
    Nat → Option TypedRef → List (GepaStepResult F)
  | 0, _ => []
  | _ + 1, none => []
  | n + 1, some ref =>
    match results.get? ref with
    | none => []
    | some result => result :: chainFrom results n result.priorStepResultRef

def GepaRun.chain (run : GepaRun F) : List (GepaStepResult F) :=
  chainFrom run.results run.stepIndex run.head

end Harness
end Whetstone.Optim.Gepa
