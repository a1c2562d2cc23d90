import Whetstone.Optim.Codex.Contracts

/-! The Codex adapter: the calls an artifact reports, the selection it makes among them, and
the one path a failing Step leaves by. -/
namespace Whetstone.Optim.Codex
open Whetstone.Core Whetstone.Lib Whetstone.Experiment Whetstone.Tools Whetstone.Optim.Step

section Outputs

variable {F : Type} [FiniteFloats F]

/- An output that carries nothing but a status. -/
def plainFields (status : StepStatus) (stateDelta : List (String × Json)) : OutputFields F where
  proposedCandidates := []
  acceptedCandidates := []
  optimEvalRequests := []
  searchEvidence := []
  budgetDelta := ⟨Dict.empty⟩
  proposedStatus := status
  terminalFailure := none
  seedRetained := false
  retainedCandidate := none
  proposerUsage := []
  stateDelta := stateDelta
  historyDelta := []

/- `_failed`. -/
def failedOutput (stateDelta : List (String × Json)) (failure : TerminalFailure) :
    AdapterOutput F where
  toOutputFields := { plainFields .failed stateDelta with terminalFailure := some failure }
  valid := by simp [OutputFields.validate, OutputFields.validateSeed, plainFields]

def seedRetainedOutput (stateDelta : List (String × Json)) (seed : Candidate) :
    AdapterOutput F where
  toOutputFields := { plainFields .complete stateDelta with
    seedRetained := true, retainedCandidate := some seed }
  valid := by simp [OutputFields.validate, OutputFields.validateSeed, plainFields]

def acceptedOutput (stateDelta : List (String × Json)) (candidate : Candidate) :
    AdapterOutput F where
  toOutputFields := { plainFields .complete stateDelta with
    proposedCandidates := [candidate], acceptedCandidates := [candidate] }
  valid := by simp [OutputFields.validate, OutputFields.validateSeed, plainFields]

end Outputs

section Adapter

variable [PyIdentifiers] [CandidateIdentity] [ToolIdentity] [CodexIdentity]
variable {F : Type} [FiniteFloats F] [DecidableEq F] [RewardIdentity F]

/- One Tool Call this Step admitted, with its durable terminal. -/
structure AdmittedCall (F : Type) [FiniteFloats F] [DecidableEq F] [RewardIdentity F] where
  callId : String
  result : ToolResult F
  template : String
  baseRef : TypedRef

/-! ### The Tool Call Store and the handle -/

def scopeQuery (config : ToolConfig) (binding : ToolCapacityBinding) :
    Except String ScopeQuery := do
  raiseIf (binding.scope ≠ config.capacity.scope)
    "Tool Capacity binding scope must match the exact Tool Config"
  return ⟨config.storeNamespaceKey, ToolIdentity.toolConfigHash config, binding.scope,
    binding.capacityScopeId⟩

def acceptedCount (handle : GuardedHandle) : CodexProg F Nat := do
  let query ← fromValidation (scopeQuery handle.config handle.binding)
  fromAdmission (← perform (.acceptedCount query))

def admittedEntries (handle : GuardedHandle) : CodexProg F (List ToolCallStoreEntry) := do
  let query ← fromValidation (scopeQuery handle.config handle.binding)
  fromAdmission (← perform (.admittedEntries query))

/- `handle(call)`. -/
def issueCall (handle : GuardedHandle) (call : ToolCall) : CodexProg F (ToolResult F) := do
  refuseIf (call.toolConfig ≠ handle.config)
    (.value "Tool Call config must match the Runtime Tool Handle")
  refuseIf (call.capacityBinding ≠ handle.binding)
    (.value "Tool Call capacity binding must match the Runtime Tool Handle")
  fromIssued (← perform (.issue call))

/- The template and the raw base of a call, where they have the types the adapter needs. -/
def recordedArgs (call : ToolCall) : Option (String × List (String × Json)) :=
  match call.args.lookup "template", call.args.lookup "base_ref" with
  | some (.str template), some (.obj rawBase) => some (template, rawBase)
  | _, _ => none

/- The text of the library's validation error is not modelled. -/
def typedRefMessage : String := "validation error for TypedRef"

/-! ### The failing path -/

def sharedFailure (admitted : List (AdmittedCall F)) (fallback : TerminalFailure)
    (alwaysSupersede : Bool) : TerminalFailure :=
  match admitted.filterMap fun call => call.result.terminalFailure with
  | [] => fallback
  | first :: rest =>
    if alwaysSupersede = false ∧ ∀ failure ∈ rest, failure = first then first
    else withDetail fallback supersededFailureCodesKey (.arr
      ((((first :: rest).map TerminalFailure.code).mergeSort fun a b => decide (a ≤ b)).map .str))

def unusableEntryFailure (callId : String) : TerminalFailure where
  code := recordedCallContractCode
  message := "a durable admitted Tool Call does not carry the recorded template and base_ref " ++
    "this Step must reconcile it from"
  details := .obj [("call_id", .str callId)]

/- The reference of a base is validated behind the issue of its call. -/
def issueCompleted (handle : GuardedHandle) : List ToolCallStoreEntry →
    CodexProg F (Except TerminalFailure (List (AdmittedCall F)))
  | [] => return .ok []
  | entry :: rest =>
    match recordedArgs entry.toolCall with
    | none => return .error (unusableEntryFailure entry.toolCall.callId)
    | some (template, rawBase) => do
      let result ← issueCall handle entry.toolCall
      let baseRef ← fromValidation ((typedRefOf rawBase).elim (.error typedRefMessage) .ok)
      let issued ← issueCompleted handle rest
      return issued.map fun calls => ⟨entry.toolCall.callId, result, template, baseRef⟩ :: calls

def acceptedCallCountKey : String := "harness_store_accepted_call_count"

def interruptedFailure (fallback : TerminalFailure) (interrupted : List String) :
    TerminalFailure where
  code := evaluationInterruptedCode
  message := "whetstone's evaluation server admitted a paid evaluation and never reached a " ++
    "terminal for it, so this Step's ledger cannot be made total"
  details := .obj (setField "interrupted_call_ids" (.arr (interrupted.map .str))
    (detailFields fallback))

/- The failure of a Step whose outstanding completed calls are issued. -/
def reconciledFailure (outstanding : List ToolCallStoreEntry) (reconciled : List (AdmittedCall F))
    (fallback : TerminalFailure) (adoptable : Bool) : TerminalFailure :=
  let interrupted := (outstanding.filter fun entry => entry.state = .accepted).map
    fun entry => entry.toolCall.callId
  if interrupted ≠ [] then sharedFailure reconciled (interruptedFailure fallback interrupted) true
  else sharedFailure reconciled fallback (!adoptable)

def terminalize (handle : GuardedHandle) (stateDelta : List (String × Json))
    (fallback : TerminalFailure) (alreadyIssued : List (AdmittedCall F)) (adoptable : Bool) :
    CodexProg F (AdapterOutput F) := do
  let entries ← admittedEntries handle
  let count ← acceptedCount handle
  let stateDelta := setField acceptedCallCountKey (.int count) stateDelta
  let outstanding := entries.filter fun entry =>
    entry.toolCall.callId ∉ alreadyIssued.map AdmittedCall.callId
  let issued ← issueCompleted handle (outstanding.filter fun entry => entry.state = .completed)
  return failedOutput stateDelta (match issued with
    | .error failure => failure
    | .ok calls => reconciledFailure outstanding (alreadyIssued ++ calls) fallback adoptable)

/-! ### The reported calls -/

/- What a reported id turns out to be. -/
inductive ReportedCall where
  | rejected (failure : TerminalFailure)
  | malformed (message : String)
  | recorded (call : ToolCall) (template : String) (baseRef : TypedRef)

def unevaluatedFailure (message callId : String) : TerminalFailure :=
  ⟨selectionUnevaluatedCode, message, .obj [("call_id", .str callId)]⟩

def unrecordedFailure (callId : String) : TerminalFailure :=
  ⟨recordedCallContractCode,
    "a recorded Codex Tool Call does not carry an exact base_ref and template",
    .obj [("call_id", .str callId)]⟩

def foreignBaseFailure (callId : String) (rawBase : List (String × Json)) : TerminalFailure :=
  ⟨recordedCallContractCode,
    "a recorded Codex Tool Call binds a base that is not a candidate on this Step Request",
    .obj [("call_id", .str callId), ("base_ref", .obj rawBase)]⟩

def reportedCall (request : OptimStepRequest F) (handle : GuardedHandle) (callId : String) :
    Option ToolCallStoreEntry → ReportedCall
  | none => .rejected (unevaluatedFailure
      "Codex reported a Tool Call with no durable completed admission entry" callId)
  | some entry =>
    if entry.state ≠ .completed then .rejected (unevaluatedFailure
      "Codex reported a Tool Call with no durable completed admission entry" callId)
    else if entry.toolCall.toolConfig ≠ handle.config ∨
        entry.toolCall.capacityBinding ≠ handle.binding then .rejected (unevaluatedFailure
      "Codex reported a Tool Call bound to another exact Tool Config or capacity binding" callId)
    else match recordedArgs entry.toolCall with
      | none => .rejected (unrecordedFailure callId)
      | some (template, rawBase) =>
        match typedRefOf rawBase with
        | none => .malformed typedRefMessage
        | some baseRef =>
          if baseRef ∉ request.candidates.map Candidate.recordRef then
            .rejected (foreignBaseFailure callId rawBase)
          else .recorded entry.toolCall template baseRef

/- The two exceptions of `_admitted_calls`, with the calls on the ledger by then. -/
structure Rejection (F : Type) [FiniteFloats F] [DecidableEq F] [RewardIdentity F] where
  failure : TerminalFailure
  issued : List (AdmittedCall F)

def admittedCalls (request : OptimStepRequest F) (handle : GuardedHandle) :
    (callIds seen : List String) → List (AdmittedCall F) →
      CodexProg F (Except (Rejection F) (List (AdmittedCall F)))
  | [], _, admitted => return .ok admitted
  | callId :: rest, seen, admitted =>
    if callId ∈ seen then return .error ⟨unevaluatedFailure
      "Codex reported one Tool Call id more than once" callId, admitted⟩
    else do
      let entry ← fromAdmission
        (← perform (.findEntry (handle.config.storeNamespaceKey, callId)))
      match reportedCall request handle callId entry with
      | .rejected failure => return .error ⟨failure, admitted⟩
      | .malformed message => .raise (.value message)
      | .recorded call template baseRef =>
        let result ← issueCall handle call
        admittedCalls request handle rest (callId :: seen)
          (admitted ++ [⟨callId, result, template, baseRef⟩])

/-! ### The selection -/

def seedCandidate (request : OptimStepRequest F) : Except String Candidate :=
  match request.run.initialCandidateRef with
  | none => .error
      "a seed-retaining Codex Step requires the run to name its initial candidate"
  | some seed =>
    if seed ∈ request.candidates then .ok seed
    else .error "the run seed candidate is not on the Codex Step Request"

/- The seed, when the selected call names the seed's own content. -/
def seedContentCandidate (request : OptimStepRequest F) (selected : AdmittedCall F) :
    Except String (Option Candidate) :=
  match request.run.initialCandidateRef with
  | none => .ok none
  | some seed =>
    if selected.baseRef ≠ seed.recordRef then .ok none
    else (seedCandidate request).map fun seed =>
      if seed.payload.lookup request.run.mutationField ≠ some (.str selected.template) then none
      else some seed

/- `candidate_from_draft`, for a draft that carries a template. -/
def candidateFromDraft (run : OptimRun F) (base : Candidate) (candidateId template : String) :
    Except String Candidate := do
  let _ ← (run.templateRenderContract.validateTemplate (some (.str template))).mapError
    fun error => "proposal template violates its render contract: " ++ error
  let proposed : Candidate :=
    ⟨candidateId, base.recordRef, setField run.mutationField (.str template) base.payload⟩
  diffCheck run.mutationField base proposed
  return proposed

/- The request candidates by their references, where the last one of a reference counts. -/
def baseOf (request : OptimStepRequest F) (ref : TypedRef) : Option Candidate :=
  request.candidates.reverse.find? fun candidate => candidate.recordRef = ref

def contractFailure (message callId : String) (rest : List (String × Json)) : TerminalFailure :=
  ⟨selectionContractCode, message, .obj (("call_id", .str callId) :: rest)⟩

/- The candidate, or the failure of `_SelectionContractError`. A draft takes no empty template,
   and that exception is not one of the two. -/
def candidateFromCall (request : OptimStepRequest F) (selected : AdmittedCall F) :
    CodexProg F (Except TerminalFailure Candidate) :=
  match baseOf request selected.baseRef with
  | none => return .error (contractFailure
      ("the selected Codex Tool Call does not bind an exact Step Request candidate as its " ++
        "base") selected.callId [])
  | some base =>
    if selected.template = "" then
      .raise (.value "a successful ProposalDraft requires a non-empty template")
    else
      let diffFailure (error : String) : TerminalFailure := contractFailure
        ("the candidate rebuilt from the selected Codex Tool Call violates the run mutation " ++
          "diff") selected.callId [("error", .str error)]
      return (candidateFromDraft request.run base selected.callId selected.template).mapError
        diffFailure

def fromSeed {α : Type} : Except String α → CodexProg F α
  | .ok a => .done a
  | .error message => .raise (.opaqueStep message)

def unscoredFailure (callId : String) : TerminalFailure :=
  ⟨selectionUnscoredCode, "Codex selected a Tool Call whose durable result carries no score",
    .obj [("selected_call_id", .str callId)]⟩

def acceptSelected (request : OptimStepRequest F) (handle : GuardedHandle)
    (stateDelta : List (String × Json)) (admitted : List (AdmittedCall F))
    (selected : AdmittedCall F) : CodexProg F (AdapterOutput F) := do
  if selected.result.output.isNone ∨ selected.result.reward.isNone then
    terminalize handle stateDelta (unscoredFailure selected.callId) admitted true
  else
    match ← fromSeed (seedContentCandidate request selected) with
    | some seed =>
      return seedRetainedOutput
        (setField seedRetainedCallIdKey (.str selected.callId) stateDelta) seed
    | none =>
      match ← candidateFromCall request selected with
      | .ok candidate => return acceptedOutput stateDelta candidate
      | .error failure => terminalize handle stateDelta failure admitted false

def unreportedFailure (artifact : CodexOutputArtifact) (acceptedCount reported : Nat) :
    TerminalFailure where
  code := unreportedEvaluationCode
  message := "Codex admitted more paid evaluations than it reported, so the Issued Tool Call " ++
    "ledger is not total over this Step's admitted calls"
  details := .obj [("admitted_call_count", .int acceptedCount),
    ("reported_call_count", .int reported),
    ("evaluated_call_ids", .arr (artifact.evaluatedCallIds.map .str))]

def unknownSelectionFailure (artifact : CodexOutputArtifact) (selectedCallId : String) :
    TerminalFailure where
  code := selectionUnevaluatedCode
  message := "Codex selected a candidate that was never evaluated through an admitted Tool Call"
  details := .obj [("selected_call_id", .str selectedCallId),
    ("evaluated_call_ids", .arr (artifact.evaluatedCallIds.map .str))]

def selectCandidate (request : OptimStepRequest F) (handle : GuardedHandle)
    (artifact : CodexOutputArtifact) (stateDelta : List (String × Json))
    (admitted : List (AdmittedCall F)) : CodexProg F (AdapterOutput F) :=
  match artifact.selectedCallId with
  | none => do
    let seed ← fromSeed (seedCandidate request)
    return seedRetainedOutput stateDelta seed
  | some selectedCallId =>
    match admitted.find? fun call => call.callId = selectedCallId with
    | none =>
      terminalize handle stateDelta (unknownSelectionFailure artifact selectedCallId) admitted
        false
    | some selected => acceptSelected request handle stateDelta admitted selected

/-! ### The Step -/

def runMismatchFailure (request : OptimStepRequest F) (artifact : CodexOutputArtifact) :
    TerminalFailure :=
  ⟨artifactRunMismatchCode, "Codex output artifact belongs to another run",
    .obj [("run_id", .str request.runId), ("artifact_run_id", .str artifact.runId)]⟩

def tokenMismatchFailure (request : OptimStepRequest F) : TerminalFailure :=
  ⟨leaseTokenMismatchCode,
    "Codex output artifact does not carry this Step's exact run lease token",
    .obj [("run_id", .str request.runId)]⟩

def settleReported (request : OptimStepRequest F) (handle : GuardedHandle)
    (artifact : CodexOutputArtifact) (stateDelta : List (String × Json)) (count : Nat) :
    Except (Rejection F) (List (AdmittedCall F)) → CodexProg F (AdapterOutput F)
  | .error rejection => terminalize handle stateDelta rejection.failure rejection.issued false
  | .ok admitted =>
    if admitted.length < count then
      terminalize handle stateDelta (unreportedFailure artifact count admitted.length) admitted
        false
    else selectCandidate request handle artifact stateDelta admitted

def settleArtifact (request : OptimStepRequest F) (handle : GuardedHandle) (leaseToken : String)
    (artifact : CodexOutputArtifact) : CodexProg F (AdapterOutput F) := do
  let ref ← perform (.putArtifact artifact)
  let count ← acceptedCount handle
  let stateDelta : List (String × Json) := [("codex_output_artifact_ref", refJson ref),
    ("tool_namespace", .str handle.config.storeNamespaceKey), (acceptedCallCountKey, .int count)]
  if artifact.runId ≠ request.runId then
    terminalize handle stateDelta (runMismatchFailure request artifact) [] false
  else if artifact.leaseTokenHash ≠ CodexIdentity.leaseTokenHash leaseToken then
    terminalize handle stateDelta (tokenMismatchFailure request) [] false
  else
    let reported ← admittedCalls request handle artifact.evaluatedCallIds [] []
    settleReported request handle artifact stateDelta count reported

/- `TerminalFailure(...)`, whose message is an identifier. -/
def terminalFailure (code message : String) (details : List (String × Json)) :
    Except CodexError TerminalFailure := do
  raiseIf (message = "") (.value "ID must be non-empty")
  return ⟨code, message, .obj details⟩

/- The state delta and the failure of a runner that raised, unless its exception passes. -/
def runnerFailure (request : OptimStepRequest F) (handle : GuardedHandle) :
    RunnerError → Except CodexError (List (String × Json) × TerminalFailure)
  | .wallBudget message wallSeconds isolation => do
    let failure ← terminalFailure wallBudgetExceededCode message
      [("run_id", .str request.runId), ("wall_seconds", .float wallSeconds)]
    return (delta isolation, failure)
  | .mcpHost message cause => do
    let failure ← terminalFailure mcpHostFailedCode (message ++ ": " ++ cause)
      [("run_id", .str request.runId)]
    return (delta [], failure)
  | .opaqueStep message isolation => do
    let failure ← terminalFailure executionFailedCode message [("run_id", .str request.runId)]
    return (delta isolation, failure)
  | .other message => .error (.runner message)
where
  delta (isolation : List (String × Json)) : List (String × Json) :=
    [("tool_namespace", .str handle.config.storeNamespaceKey), ("codex_isolation", .obj isolation)]

def invokeHandle (request : OptimStepRequest F) (handle : GuardedHandle) :
    CodexProg F (AdapterOutput F) := do
  refuseIf (handle.config.endpointKey.startsWith "mcp" = false)
    (.opaqueStep "Codex evaluation must be external MCP")
  let leaseToken ← perform .mintLeaseToken
  match ← perform (.run leaseToken) with
  | .ok artifact => settleArtifact request handle leaseToken artifact
  | .error error =>
    let (stateDelta, fallback) ← Prog.ofExcept (runnerFailure request handle error)
    terminalize handle stateDelta fallback [] false

def invoke (request : OptimStepRequest F) (handles : List GuardedHandle) :
    CodexProg F (AdapterOutput F) := do
  refuseIf (request.stepIndex ≠ 0) (.opaqueStep "Codex runs exactly one opaque step")
  match handles with
  | [handle] => invokeHandle request handle
  | _ => .raise (.opaqueStep
      "Codex requires exactly one Runtime Tool Handle for its external MCP evaluation Tool")

end Adapter
end Whetstone.Optim.Codex
