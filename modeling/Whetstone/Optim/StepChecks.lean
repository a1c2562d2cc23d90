import Whetstone.Optim.CostAggregation

/-! The records of the harness's object store, and what the harness checks of an adapter
output: its cardinality, its candidates, its search evidence and its intents. The checks that
read the store take the objects they find in it. -/
namespace Whetstone.Optim.Step
open Whetstone.Core Whetstone.Lib Whetstone.Experiment Whetstone.Eval Whetstone.Tools

def adapterCheckpointSchema : String := "whetstone.optim_adapter_checkpoint"
def intentResolutionSchema : String := "whetstone.optim_intent_resolution"
def stateSnapshotSchema : String := "whetstone.optim_state_snapshot"
def historySnapshotSchema : String := "whetstone.optim_history_snapshot"
def optimResultSchema : String := "whetstone.optim_result"
def gepaAdapterKey : String := "gepa"
def toolCallsLabel : String := "tool_calls"

/- `body` stands for the other fields of the control, which its constructor checks. -/
structure GepaControl where
  componentNames : List String
  body : Json
deriving DecidableEq, Inhabited

inductive BindingKey where
  | run (runId : String)
  | stepResult (runId : String) (stepIndex : Nat)
  | optimResult (runId : String)
deriving DecidableEq

/- A record of another component has the reference it is stored under. -/
inductive RecordOf (Run Request Checkpoint Resolution Result Optim Foreign : Type) where
  | run (run : Run)
  | request (request : Request)
  | candidate (candidate : Candidate)
  | checkpoint (checkpoint : Checkpoint)
  | resolution (resolution : Resolution)
  | snapshot (schema : String) (content : List (String × Json))
  | result (result : Result)
  | optimResult (result : Optim)
  | gepaControl (ref : TypedRef) (control : GepaControl)
  | foreign (ref : TypedRef) (record : Foreign)
deriving DecidableEq

variable [PyIdentifiers] [CandidateIdentity] [ToolIdentity]
variable {F : Type} [FiniteFloats F] [DecidableEq F] [RewardIdentity F] [ResultIdentity F]
variable [RequestIdentity F] [StepResultIdentity F]

abbrev Record (F : Type) [FiniteFloats F] [DecidableEq F] [RewardIdentity F]
    [ResultIdentity F] [RequestIdentity F] [StepResultIdentity F] :=
  RecordOf (OptimRun F) (OptimStepRequest F) (AdapterCheckpoint F) (IntentResolution F)
    (OptimStepResult F) (OptimResult F) (ForeignRecord F)

/-- The content hashes of the harness's own records, the keys and hashes of its effects, and
the hashes of GEPA. No property is assumed. -/
class HarnessIdentity (F : Type) [FiniteFloats F] [DecidableEq F] [RewardIdentity F]
    [ResultIdentity F] [RequestIdentity F] [StepResultIdentity F] where
  checkpointHash : AdapterCheckpoint F → String
  resolutionHash : IntentResolution F → String
  snapshotHash : (schema : String) → List (String × Json) → String
  optimResultHash : OptimResult F → String
  adapterEffectKey : (requestRef : TypedRef) → (adapterKey : String) → String
  adapterEffectHash : (requestRef : TypedRef) → (adapterKey : String) → String
  intentEffectKey : (requestRef : TypedRef) → (evalRequestId : String) → String
  intentEffectHash : OptimEvalRequest → String
  gepaControlHash : GepaControl → String
  gepaCandidateHash : Candidate → List (String × String) → List (String × String) → String

variable [HarnessIdentity F]

def Record.ref : Record F → TypedRef
  | .run r => r.recordRef
  | .request r => r.recordRef
  | .candidate r => r.recordRef
  | .checkpoint r => ⟨adapterCheckpointSchema, HarnessIdentity.checkpointHash r⟩
  | .resolution r => ⟨intentResolutionSchema, HarnessIdentity.resolutionHash r⟩
  | .snapshot schema r => ⟨schema, HarnessIdentity.snapshotHash (F := F) schema r⟩
  | .result r => r.recordRef
  | .optimResult r => ⟨optimResultSchema, HarnessIdentity.optimResultHash r⟩
  | .gepaControl stored _ => stored
  | .foreign stored _ => stored

abbrev Objects (F : Type) [FiniteFloats F] [DecidableEq F] [RewardIdentity F]
    [ResultIdentity F] [RequestIdentity F] [StepResultIdentity F] := Dict TypedRef (Record F)

/- The harness's own records carry none of the fields that cost aggregation reads. -/
def readForeign (objects : Objects F) (ref : TypedRef) : Option (ForeignRecord F) :=
  (objects.get? ref).map fun
    | .foreign _ record => record
    | _ => ⟨none, none⟩

/-! ### The checks of an adapter output -/

def validateSeedClaim (request : OptimStepRequest F) (output : AdapterOutput F) :
    Except String Unit :=
  if output.seedRetained then do
    raiseIf (request.stepOutputContract.terminalProposalCount = none)
      ("only a Step whose output contract sets terminal_proposal_count -- a search-dependent " ++
        "terminal cardinality -- may retain the seed; this contract binds terminal " ++
        "cardinality unconditionally")
    raiseIf (request.run.initialCandidateRef = none)
      "a seed-retaining Step requires the run to name its initial_candidate_ref"
    raiseIf (output.retainedCandidate ≠ request.run.initialCandidateRef)
      "a seed-retaining Step must retain the exact run initial candidate"
  else .ok ()

def allowedCounts (contract : OutputContract) (status : StepStatus) : String :=
  let expected := toString (contract.acceptedCountFor status)
  match contract.minReturnedProposalCount, status with
  | some floor, .continuing => toString floor ++ ".." ++ expected
  | _, _ => expected

def validateAcceptedCount (request : OptimStepRequest F) (output : AdapterOutput F) :
    Except String Unit :=
  let accepted := output.acceptedCandidates.length
  let contract := request.stepOutputContract
  let violated := "adapter violated returned proposal cardinality: expected "
  if output.seedRetained then
    raiseIf (accepted ≠ 0) (violated ++ "0, got " ++ toString accepted)
  else raiseIf (contract.admitsAcceptedCount output.proposedStatus accepted = false)
    (violated ++ allowedCounts contract output.proposedStatus ++ ", got " ++ toString accepted)

def validateOutput (request : OptimStepRequest F) (output : AdapterOutput F) :
    Except String Unit := do
  raiseIf (¬ (output.optimEvalRequests.map fun intent => intent.evalRequest.requestId).Nodup)
    "Optim Eval Request IDs must be unique within a Step"
  validateSeedClaim request output
  validateAcceptedCount request output
  raiseIf (request.stepOutputContract.requireDistinctBases ∧
      ¬ (output.proposedCandidates.map Candidate.baseRef).Nodup)
    "adapter violated the distinct-base output contract"
  raiseIf (exceeds (output.acceptedCandidates.map Candidate.identityHash)
      (output.proposedCandidates.map Candidate.identityHash))
    "accepted candidate multiset must be contained in proposed candidate multiset"
  raiseIf (output.proposedStatus = .complete ∧
      request.stepOutputContract.honorsTerminal request.run.terminalOutputContract = false)
    "a COMPLETE Step must honor the run terminal output contract"

def validateOutputCandidate (request : OptimStepRequest F) (label : String)
    (candidate : Candidate) : Except String Unit := do
  (validateCandidateTemplate candidate request.run).mapError fun error =>
    "every " ++ label ++ " candidate must satisfy the exact run template contract: " ++ error
  if request.mode ≠ .pure then
    match (requestBases request).get? candidate.baseRef with
    | none => throw ("every " ++ label ++ " candidate must bind an exact request candidate as " ++
        "its base")
    | some base =>
      (diffCheck request.run.mutationField base candidate).mapError fun error =>
        "every " ++ label ++ " candidate must satisfy the canonical run mutation diff: " ++ error

def validateOutputCandidates (request : OptimStepRequest F) (output : AdapterOutput F) :
    Except String Unit := do
  output.proposedCandidates.forM (validateOutputCandidate request "proposed")
  output.acceptedCandidates.forM (validateOutputCandidate request "accepted")

/- The schema an evaluation result of an outcome is cited under. -/
def requireResolvableEvidence (objects : Objects F) (evidence : SearchEvidence F) :
    Except String Unit :=
  match expectedResultSchema evidence.outcome, evidence.evalResultRef with
  | some expected, some ref => do
    raiseIf (ref.schemaName ≠ expected)
      (evidence.outcome.value ++ " search evidence eval_result_ref must use schema " ++
        quoted expected)
    -- A RewardRef has the Reward schema by construction.
    evidence.evidenceRefs.forM fun item => raiseIf (objects.get? item).isNone
      ("search evidence must cite records the store resolves: " ++ item.schemaName)
  | _, _ => .ok ()

/-! ### GEPA's lineage check -/

def gepaFields (control : GepaControl) (mutationField : String) : List (String × String) :=
  control.componentNames.map fun name =>
    (name, if control.componentNames.length = 1 then mutationField else name)

/- `payload[field] = value` on fields in canonical order. -/
def setField (field : String) (value : Json) : List (String × Json) → List (String × Json)
  | [] => [(field, value)]
  | (name, held) :: rest =>
    if name = field then (field, value) :: rest
    else if field < name then (field, value) :: (name, held) :: rest
    else (name, held) :: setField field value rest

def gepaComponents (candidate : Candidate) : List (String × String) →
    Except String (List (String × String))
  | [] => .ok []
  | (name, field) :: rest => do
    match candidate.payload.lookup field with
    | some (.str text) => return (name, text) :: (← gepaComponents candidate rest)
    | some _ => throw "text must be a strict string"
    | none => throw ("Optim Eval Request candidate is not assembled from the run base and " ++
        "control component_names")

/- `CanonicalGepaCandidateAssembler(base, fields).assemble(components)` -/
def assembleGepa (F : Type) [FiniteFloats F] [DecidableEq F] [RewardIdentity F]
    [ResultIdentity F] [RequestIdentity F] [StepResultIdentity F] [HarnessIdentity F]
    (base : Candidate) (fields components : List (String × String)) :
    Except String Candidate := do
  raiseIf (fields = []) "GEPA candidate assembler needs a component"
  raiseIf (¬ (fields.map Prod.fst).Nodup) "GEPA component field bindings must be unique"
  raiseIf (¬ (fields.map Prod.snd).Nodup) "GEPA candidate payload fields must be unique"
  let payload := (fields.zip components).foldl
    (fun payload bound => setField bound.1.2 (.str bound.2.2) payload) base.payload
  let hash := HarnessIdentity.gepaCandidateHash (F := F) base fields components
  return ⟨"gepa-" ++ String.ofList (hash.toList.take 24), base.baseRef, payload⟩

def requireGepaAssembledEvalCandidate (objects : Objects F) (request : OptimStepRequest F)
    (intent : OptimEvalRequest) : Except String Unit := do
  match request.candidates with
  | [] => throw "GEPA step must carry the run seed candidate"
  | seed :: _ =>
    match objects.get? request.run.optimizerConfig.recordRef with
    | some (.gepaControl _ control) =>
      raiseIf (HarnessIdentity.gepaControlHash (F := F) control ≠
          request.run.optimizerConfig.recordHash)
        "GEPA control identity hash does not match the run optimizer config"
      let fields := gepaFields control request.run.mutationField
      let components ← gepaComponents intent.evalRequest.candidate fields
      let assembled ← assembleGepa F seed fields components
      raiseIf (intent.evalRequest.candidate ≠ assembled)
        ("Optim Eval Request candidate is not assembled from the run base and control " ++
          "component_names")
    | _ => throw "the run optimizer config is not a stored GEPA control"

/-! ### The checks of the intents -/

/- The candidates an intent may cite, by identity hash; a later one overwrites an earlier. -/
def allowedCandidates (candidates : List Candidate) : Dict String Candidate :=
  Dict.ofPairs (candidates.map fun candidate => (candidate.identityHash, candidate))

def requireEvalRequestOnStep (objects : Objects F) (request : OptimStepRequest F)
    (allowed : Dict String Candidate) (intent : OptimEvalRequest) : Except String Unit := do
  raiseIf (intent.optimRunId ≠ request.runId)
    "Optim Eval Request belongs to another optimization run"
  raiseIf (intent.optimStepIndex ≠ request.stepIndex)
    "Optim Eval Request belongs to another optimization step"
  if request.adapterKey = gepaAdapterKey then
    requireGepaAssembledEvalCandidate objects request intent
  else
    raiseIf (allowed.get? intent.evalRequest.candidate.identityHash ≠
        some intent.evalRequest.candidate)
      "Optim Eval Request candidate is not an exact Step output candidate"

def requireExpectedPolicy (request : OptimStepRequest F) (intent : OptimEvalRequest) :
    Except String Unit :=
  match intent.expectedRewardPolicyHash with
  | none => .ok ()
  | some hash =>
    raiseIf (request.run.rewardPolicy.map RewardIdentity.rewardPolicyHash ≠ some hash)
      "Optim Eval Request must expect the exact run Reward Policy"

def validateSearchEvidence (objects : Objects F) (request : OptimStepRequest F)
    (evidence : SearchEvidence F) : Except String Unit := do
  raiseIf (evidence.optimRunId ≠ request.runId) "search evidence belongs to another optimization run"
  raiseIf (evidence.optimStepIndex ≠ request.stepIndex)
    "search evidence belongs to another optimization step"
  requireResolvableEvidence objects evidence

def stepCandidates (request : OptimStepRequest F) (output : AdapterOutput F) : List Candidate :=
  request.candidates ++ output.proposedCandidates ++ output.acceptedCandidates

def validateOutputIntents (objects : Objects F) (request : OptimStepRequest F)
    (output : AdapterOutput F) : Except String Unit := do
  let allowed := allowedCandidates (stepCandidates request output)
  output.searchEvidence.forM (validateSearchEvidence objects request)
  output.optimEvalRequests.forM fun intent => do
    requireEvalRequestOnStep objects request allowed intent
    requireExpectedPolicy request intent

/- The three checks of an output, as they stand before and behind a checkpoint. -/
def checkOutput (objects : Objects F) (request : OptimStepRequest F) (output : AdapterOutput F) :
    Except String Unit := do
  validateOutput request output
  validateOutputCandidates request output
  validateOutputIntents objects request output

end Whetstone.Optim.Step
