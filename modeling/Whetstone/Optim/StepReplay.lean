import Whetstone.Optim.StepSafety

/-! Step execution is crash-idempotent: what the invocations of one request return, when the
adapter is invoked, and what the intents of a published output are resolved to. -/
namespace Whetstone.Optim.Step
open Whetstone.Core Whetstone.Lib Whetstone.Experiment Whetstone.Eval Whetstone.Tools

section Replay

variable [PyIdentifiers] [CandidateIdentity] [ToolIdentity] [LeaseText]
variable {F : Type} [FiniteFloats F] [DecidableEq F] [RewardIdentity F] [ResultIdentity F]
variable [RequestIdentity F] [StepResultIdentity F] [HarnessIdentity F]
variable {authority : LeaseAuthority} {run : OptimRun F} {s t : StepState F authority}

abbrev StepPool (F : Type) [FiniteFloats F] [DecidableEq F] [RewardIdentity F]
    [ResultIdentity F] [RequestIdentity F] [StepResultIdentity F] [HarnessIdentity F]
    (authority : LeaseAuthority) :=
  Pool (Invocation F) (StepState F authority) (StepOp F) StepOp.Reply StepError

theorem step_moves {c c' : StepPool F authority} {i : Nat} {answer : StepAnswer F authority}
    (h : (stepMachine F authority).step c i answer = some c') :
    ∃ l o, Moves l o c.state c'.state := by
  obtain ⟨l,o,_,_,_,he,_⟩ := Machine.step_some _ c c' i answer h
  exact ⟨l, o, execOp_moves he⟩

theorem run_evolves (c : StepPool F authority) (schedule : List (Nat × StepAnswer F authority)) :
    Evolves c.state ((stepMachine F authority).run c schedule).state := by
  induction schedule generalizing c with
  | nil => exact .refl _
  | cons x rest ih =>
    refine Evolves.trans ?_ (ih _)
    cases hstep : (stepMachine F authority).step c x.1 x.2 with
    | none => exact .refl _
    | some c' =>
      obtain ⟨l,o,hmoves⟩ := step_moves hstep
      exact hmoves.evolves

/-- Whoever enters after the terminal notes it. -/
theorem run_entered (c : StepPool F authority) (schedule : List (Nat × StepAnswer F authority))
    (invocation : Invocation F) (settled : Bool)
    (hsettled : adapterSettled c.state invocation.request = true)
    (hmem : .entered invocation settled ∈ ((stepMachine F authority).run c schedule).state.history) :
    .entered invocation settled ∈ c.state.history ∨ settled = true := by
  induction schedule generalizing c with
  | nil => exact .inl hmem
  | cons x rest ih =>
    rw [Machine.run] at hmem
    cases hstep : (stepMachine F authority).step c x.1 x.2 with
    | none =>
      rw [hstep] at hmem
      exact ih c hsettled hmem
    | some c' =>
      obtain ⟨l,o,hmoves⟩ := step_moves hstep
      rw [hstep] at hmem
      rcases ih c' (adapterSettled_evolves hsettled hmoves.evolves) hmem with hmem | htrue
      · rcases hmoves.history hmem with hold | ⟨_,hevent⟩ | ⟨_,_,hevent⟩ | ⟨_,_,_,hevent⟩
        · exact .inl hold
        · cases hevent
          exact .inr hsettled
        · cases hevent
        · cases hevent
      · exact .inr htrue

/- The state after the first `k` steps of a run of the pool. -/
def stepAfter (authority : LeaseAuthority) (run : OptimRun F) (stored : Objects F)
    (calls : List (OptimHarness F × OptimStepRequest F))
    (schedule : List (Nat × StepAnswer F authority)) (k : Nat) : StepState F authority :=
  ((stepMachine F authority).run (stepPool authority run stored calls) (schedule.take k)).state

/- The effect's terminal refers to the record. -/
def RefersTo (s : StepState F authority) (effect : EffectRequest) (record : Record F) : Prop :=
  ∃ terminal, authority.published s.leases effect = some terminal ∧
    terminal.resultRef = some record.ref ∧ Stored s record

theorem Refers.refersTo {effect : EffectRequest} {record : Record F}
    {failure : Option TerminalFailure} (h : Refers s effect record failure) :
    RefersTo s effect record := by
  obtain ⟨⟨terminal,hpublished,href,_⟩,hstored⟩ := h
  exact ⟨terminal, hpublished, href, hstored⟩

/-- Effects of one key refer to one record. -/
theorem RefersTo.unique {effect effect' : EffectRequest} {record record' : Record F}
    (laws : EffectLaws authority) (h : RefersTo s effect record) (h' : RefersTo s effect' record')
    (hkey : effect.semanticKey = effect'.semanticKey) : record = record' := by
  obtain ⟨terminal,hpublished,href,hstored⟩ := h
  obtain ⟨terminal',hpublished',href',hstored'⟩ := h'
  have heffect := laws.published_keyed _ _ _ _ _ hpublished hpublished' hkey
  subst heffect
  have hterminal : terminal = terminal' := Option.some.inj (hpublished.symm.trans hpublished')
  refine hstored.unique hstored' ?_
  rw [← Option.some.injEq, ← href, ← href', hterminal]

/-- The result of an effectful request carries the resolutions of the intents of the output
that the request's adapter effect was published with. -/
theorem Backed.resolved (laws : EffectLaws authority) {result : OptimStepResult F}
    (h : Backed s result) (hmode : result.request.mode ≠ .pure) {policy : ReplayPolicy}
    {output : AdapterOutput F}
    (hrefers : RefersTo s (adapterEffectRequest result.request policy)
      (checkpointOf result.request output)) :
    ResolvedAll s result.request output.optimEvalRequests result.fields.resolvedIntents := by
  obtain ⟨policy',output',_,_,resolutions,_,_,hrefers',_,hfields,hresolved⟩ := h hmode
  have hrecord := hrefers.unique laws hrefers'.refersTo rfl
  cases hrecord
  rw [hfields]
  exact hresolved

end Replay

/-! ### A step whose first owner stops after its publication -/

section Example

@[reducible] def plainNames : PyIdentifiers := ⟨fun name => name ≠ ""⟩

@[reducible] def namedCandidates : CandidateIdentity :=
  ⟨Candidate.candidateId, Candidate.candidateId⟩

@[reducible] def namedTools : ToolIdentity where
  toolConfigHash := fun config => config.endpointKey
  toolCallRef := fun call => ⟨"whetstone.tool_call", call.callId⟩
  effectSemanticKey := fun storeNamespaceKey callId => storeNamespaceKey ++ ":" ++ callId
  effectRequestHash := fun call => call.callId

@[reducible] def keptFailures : LeaseText where
  LeaseFailure := TerminalFailure
  toLease := fun failure => failure
  fromLease := fun failure => .ok failure

attribute [local instance] plainNames namedCandidates namedTools keptFailures exactFiniteFloats

@[reducible] def namedRewards : RewardIdentity Rat :=
  ⟨RewardPolicy.policyName, fun reward => reward.rewardName⟩

attribute [local instance] namedRewards

@[reducible] def namedResults : ResultIdentity Rat := ⟨fun result => result.call.callId⟩

@[reducible] def namedRequests : RequestIdentity Rat :=
  ⟨fun run => run.runId, OptimStepRequest.stepId⟩

attribute [local instance] namedResults namedRequests

@[reducible] def namedStepResults : StepResultIdentity Rat :=
  ⟨fun result => result.request.stepId⟩

attribute [local instance] namedStepResults

@[reducible] def namedHarness : HarnessIdentity Rat where
  checkpointHash := fun checkpoint => checkpoint.requestRef.contentHash
  resolutionHash := fun resolution => resolution.optimEvalRequest.evalRequest.requestId
  snapshotHash := fun _ _ => "snapshot"
  optimResultHash := fun result => result.fields.run.runId
  adapterEffectKey := fun requestRef _ => "adapter:" ++ requestRef.contentHash
  adapterEffectHash := fun requestRef adapterKey => adapterKey ++ requestRef.contentHash
  intentEffectKey := fun requestRef id => "intent:" ++ requestRef.contentHash ++ ":" ++ id
  intentEffectHash := fun intent => intent.evalRequest.requestId
  gepaControlHash := fun control => joined control.componentNames
  gepaCandidateHash := fun candidate _ _ => candidate.candidateId

attribute [local instance] namedHarness

def oneProposal : OutputContract := ⟨1, none, none, false, rfl⟩

def seedCandidate : Candidate :=
  ⟨"seed", ⟨candidateRecordSchema, "seed"⟩, [("template", .str "a")]⟩

def childCandidate : Candidate :=
  ⟨"child", ⟨candidateRecordSchema, "seed"⟩, [("template", .str "b")]⟩

def searchPolicy : RewardPolicy Rat where
  policyName := "policy"
  rewardName := "reward"
  terms := [⟨"accuracy", ⟨1, rational_finite 1⟩, true, ⟨0, rational_finite 0⟩⟩]
  missingData := .fail
  valid := by decide

def searchRun : OptimRun Rat where
  runId := "run"
  optimizerConfig := ⟨⟨"whetstone.optimizer", "config"⟩, "config"⟩
  adapterKey := "search"
  mode := .proposalOnly
  terminalOutputContract := oneProposal
  templateRenderContract := ⟨.literalBodyV1, [], []⟩
  initialCandidateRef := none
  mutationField := "template"
  rewardPolicy := some searchPolicy
  toolConfigs := []
  valid := by decide

def searchRequest : OptimStepRequest Rat where
  run := searchRun
  stepId := "step"
  kind := .proposal
  kindLabel := none
  stepIndex := 0
  priorStepResultRef := none
  priorStateRef := none
  priorHistoryRef := none
  candidates := [seedCandidate]
  pools := []
  hyperparameters := []
  budget := ⟨Dict.empty, Dict.ofPairs [("llm_calls", 4)]⟩
  stepOutputContract := oneProposal

def searchIntent : OptimEvalRequest where
  optimRunId := "run"
  optimStepIndex := 0
  evalRequest := ⟨"first", childCandidate, []⟩
  expectedRewardPolicyHash := some "policy"
  taskHashes := none
  valid := rfl

/- An output that consumes calls of a budget label. -/
def searchOutput (label : String) : AdapterOutput Rat where
  proposedCandidates := [childCandidate]
  acceptedCandidates := [childCandidate]
  optimEvalRequests := [searchIntent]
  searchEvidence := []
  budgetDelta := ⟨Dict.ofPairs [(label, 1)]⟩
  proposedStatus := .continuing
  terminalFailure := none
  seedRetained := false
  retainedCandidate := none
  proposerUsage := []
  stateDelta := []
  historyDelta := []
  valid := rfl

def searchResolution : IntentResolution Rat where
  optimEvalRequest := searchIntent
  outcome := .rejected
  detail := ⟨.unscorable, "no task is scorable"⟩
  evalResultRef := none
  rewardEvidenceRefs := []
  resolvedEvalConfig := default
  rewardRef := none
  terminalFailure := none
  valid := by decide

def searchHarness (ownerId : String) : OptimHarness Rat where
  boundRun := searchRun
  ownerId := ownerId
  adapterRegistry := Dict.ofPairs [("search", ⟨"search", .proposalOnly, .idempotent⟩)]
  adapterReplayPolicy := .idempotent
  evaluationReplayPolicy := some .idempotent
  hasToolExecutor := false

def searchStored : Objects Rat := Dict.empty.set searchRun.recordRef (.run searchRun)

def searchCalls : List (OptimHarness Rat × OptimStepRequest Rat) :=
  [(searchHarness "first", searchRequest), (searchHarness "second", searchRequest),
    (searchHarness "third", searchRequest)]

def leasedAt (attemptId : String) (time : Nat) : StepAnswer Rat keyedLeases :=
  .lease attemptId time

/- The first owner is never scheduled again after it has published its output; the others
   replay it. -/
def searchSchedule : List (Nat × StepAnswer Rat keyedLeases) :=
  let silent (n i : Nat) := List.replicate n ((i, .silent) : Nat × StepAnswer Rat keyedLeases)
  silent 6 0 ++ [(0, leasedAt "a" 0), (0, .adapter (.ok (searchOutput "llm_calls")) [] [])] ++
  silent 2 0 ++ [(0, leasedAt "a" 1)] ++
  silent 6 1 ++ [(1, leasedAt "b" 2)] ++ silent 8 1 ++
  [(1, leasedAt "b" 2), (1, .service (.ok searchResolution) []), (1, .silent),
    (1, .graph (.ok ())), (1, .silent), (1, leasedAt "b" 3)] ++ silent 3 1 ++ silent 6 2

def StepEvent.isReturned : StepEvent Rat → Bool
  | .returned _ _ _ => true
  | _ => false

def StepEvent.isInvoked : StepEvent Rat → Bool
  | .invoked _ => true
  | _ => false

theorem searchStored_holdsRun : HoldsRun searchRun searchStored := by
  refine ⟨fun ref record hget => ?_, Dict.get?_set_self _ _ _⟩
  simp only [searchStored, Dict.get?_set] at hget
  split at hget
  · rename_i href
    cases hget
    exact href.symm
  · cases hget

def thirdCall : Invocation Rat := ⟨2, searchHarness "third", searchRequest⟩

end Example
end Whetstone.Optim.Step
