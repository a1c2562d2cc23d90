import Whetstone.Optim.StepMachine

/-! What the invocations of `run_step` keep together. Records, bindings and terminals stay; a
terminal refers to a checkpoint or a resolution that was checked before; and every bound step
result follows the one before it and was built from the published output of its request. -/
namespace Whetstone.Optim.Step
open Whetstone.Core Whetstone.Lib Whetstone.Experiment Whetstone.Eval Whetstone.Tools

variable [PyIdentifiers] [CandidateIdentity] [ToolIdentity]
variable {F : Type} [FiniteFloats F] [DecidableEq F] [RewardIdentity F] [ResultIdentity F]
variable [RequestIdentity F] [StepResultIdentity F]

/-! ### Checks that read the store, in a store that has grown -/

section Growth

variable [HarnessIdentity F] {objects later : Objects F}
variable (hgrow : ∀ ref record, objects.get? ref = some record → later.get? ref = some record)

include hgrow

omit [HarnessIdentity F] in
theorem requireResolvableEvidence_grow (evidence : SearchEvidence F)
    (h : requireResolvableEvidence objects evidence = .ok ()) :
    requireResolvableEvidence later evidence = .ok () := by
  unfold requireResolvableEvidence at h ⊢
  split at h
  · simp only [check_bind_eq_ok, raiseIf_eq_ok, forM_eq_ok] at h ⊢
    refine ⟨h.1, fun item hitem => ?_⟩
    have hitem := h.2 item hitem
    rw [Bool.not_eq_true, Option.isNone_eq_false_iff, Option.isSome_iff_exists] at hitem ⊢
    obtain ⟨record,hrecord⟩ := hitem
    exact ⟨record, hgrow item record hrecord⟩
  · rfl

theorem requireGepaAssembledEvalCandidate_grow (request : OptimStepRequest F)
    (intent : OptimEvalRequest)
    (h : requireGepaAssembledEvalCandidate objects request intent = .ok ()) :
    requireGepaAssembledEvalCandidate later request intent = .ok () := by
  unfold requireGepaAssembledEvalCandidate at h ⊢
  split at h
  · cases h
  · split at h
    · rename_i hcontrol
      rw [hgrow _ _ hcontrol]
      exact h
    · cases h

theorem requireEvalRequestOnStep_grow (request : OptimStepRequest F)
    (allowed : Dict String Candidate) (intent : OptimEvalRequest)
    (h : requireEvalRequestOnStep objects request allowed intent = .ok ()) :
    requireEvalRequestOnStep later request allowed intent = .ok () := by
  unfold requireEvalRequestOnStep at h ⊢
  rw [raiseIf_bind_eq_ok, raiseIf_bind_eq_ok] at h ⊢
  refine ⟨h.1, h.2.1, ?_⟩
  have hcandidate := h.2.2
  split at hcandidate
  · rename_i hgepa
    rw [if_pos hgepa]
    exact requireGepaAssembledEvalCandidate_grow hgrow request intent hcandidate
  · rename_i hgepa
    rw [if_neg hgepa]
    exact hcandidate

theorem validateOutputIntents_grow (request : OptimStepRequest F) (output : AdapterOutput F)
    (h : validateOutputIntents objects request output = .ok ()) :
    validateOutputIntents later request output = .ok () := by
  simp only [validateOutputIntents, validateSearchEvidence, check_bind_eq_ok, raiseIf_eq_ok,
    forM_eq_ok] at h ⊢
  refine ⟨fun evidence hmem => ?_, fun intent hmem => ?_⟩
  · obtain ⟨hrun,hstep,hresolves⟩ := h.1 evidence hmem
    exact ⟨hrun, hstep, requireResolvableEvidence_grow hgrow evidence hresolves⟩
  · obtain ⟨hon,hpolicy⟩ := h.2 intent hmem
    exact ⟨requireEvalRequestOnStep_grow hgrow request _ intent hon, hpolicy⟩

theorem checkOutput_grow (request : OptimStepRequest F) (output : AdapterOutput F)
    (h : checkOutput objects request output = .ok ()) :
    checkOutput later request output = .ok () := by
  simp only [checkOutput, check_bind_eq_ok] at h ⊢
  exact ⟨h.1, h.2.1, validateOutputIntents_grow hgrow request output h.2.2⟩

end Growth

variable [LeaseText] {authority : LeaseAuthority} {s t u : StepState F authority}

/- What every operation keeps. -/
structure Evolves (s t : StepState F authority) : Prop where
  objects : ∀ ref record, s.objects.get? ref = some record → t.objects.get? ref = some record
  bindings : ∀ key ref, s.bindings.get? key = some ref → t.bindings.get? key = some ref
  published : ∀ effect terminal, authority.published s.leases effect = some terminal →
    authority.published t.leases effect = some terminal
  history : ∃ later, t.history = s.history ++ later

theorem Evolves.refl (s : StepState F authority) : Evolves s s :=
  ⟨fun _ _ h => h, fun _ _ h => h, fun _ _ h => h, [], (List.append_nil _).symm⟩

theorem Evolves.trans (h : Evolves s t) (h' : Evolves t u) : Evolves s u where
  objects := fun ref record hget => h'.objects ref record (h.objects ref record hget)
  bindings := fun key ref hget => h'.bindings key ref (h.bindings key ref hget)
  published := fun effect terminal hp => h'.published effect terminal (h.published _ _ hp)
  history := by
    obtain ⟨later,hlater⟩ := h.history
    obtain ⟨later',hlater'⟩ := h'.history
    exact ⟨later ++ later', by rw [hlater', hlater, List.append_assoc]⟩

theorem Evolves.recorded (h : Evolves s t) {event : StepEvent F} (hmem : event ∈ s.history) :
    event ∈ t.history := by
  obtain ⟨later,hlater⟩ := h.history
  rw [hlater]
  exact List.mem_append_left later hmem

/-! ### Records and bindings -/

variable [HarnessIdentity F]

def Stored (s : StepState F authority) (record : Record F) : Prop :=
  s.objects.get? record.ref = some record

theorem Stored.evolves {record : Record F} (h : Stored s record) (hst : Evolves s t) :
    Stored t record := hst.objects _ _ h

theorem Stored.unique {record record' : Record F} (h : Stored s record) (h' : Stored s record')
    (href : record.ref = record'.ref) : record = record' := by
  unfold Stored at h h'
  rw [← href, h, Option.some.injEq] at h'
  exact h'

variable (run : OptimRun F)

/- The step result that the run is bound to at an index. -/
def BoundAt (s : StepState F authority) (index : Nat) (result : OptimStepResult F) : Prop :=
  s.bindings.get? (.stepResult run.runId index) = some result.recordRef ∧
    Stored s (.result result)

variable {run}

theorem BoundAt.evolves {index : Nat} {result : OptimStepResult F} (h : BoundAt run s index result)
    (hst : Evolves s t) : BoundAt run t index result :=
  ⟨hst.bindings _ _ h.1, h.2.evolves hst⟩

theorem BoundAt.unique {index : Nat} {result result' : OptimStepResult F}
    (h : BoundAt run s index result) (h' : BoundAt run s index result') : result = result' := by
  have href : result.recordRef = result'.recordRef := Option.some.inj (h.1.symm.trans h'.1)
  have hrecord := h.2.unique h'.2 href
  cases hrecord
  rfl

variable (run)

/- The request belongs to the run and passes the checks against the durable chain. -/
structure Follows (s : StepState F authority) (request : OptimStepRequest F) : Prop where
  valid : request.validate = .ok ()
  ofRun : request.run = run
  prior : (request.stepIndex = 0 ∧ validateInitial request = .ok ()) ∨
    0 < request.stepIndex ∧ ∃ prior, BoundAt run s (request.stepIndex - 1) prior ∧
      request.priorStepResultRef = some prior.recordRef ∧
      validatePreceding request prior = .ok ()

variable {run}

theorem Follows.evolves {request : OptimStepRequest F} (h : Follows run s request)
    (hst : Evolves s t) : Follows run t request := by
  refine ⟨h.valid, h.ofRun, ?_⟩
  rcases h.prior with hinitial | ⟨hpos,prior,hbound,hrest⟩
  · exact .inl hinitial
  · exact .inr ⟨hpos, prior, hbound.evolves hst, hrest⟩

/-! ### Terminals -/

def terminalOutcome (failure : Option TerminalFailure) : TerminalOutcome :=
  if failure.isNone then .succeeded else .failed

def checkpointOf (request : OptimStepRequest F) (output : AdapterOutput F) : Record F :=
  .checkpoint ⟨request.recordRef, request.adapterKey, output⟩

/- The effect's terminal refers to the record, and has its failure. -/
structure Refers (s : StepState F authority) (effect : EffectRequest) (record : Record F)
    (failure : Option TerminalFailure) : Prop where
  terminal : ∃ terminal, authority.published s.leases effect = some terminal ∧
    terminal.resultRef = some record.ref ∧ terminal.outcome = terminalOutcome failure ∧
    terminal.failure = failure.map LeaseText.toLease
  stored : Stored s record

theorem Refers.evolves {effect : EffectRequest} {record : Record F}
    {failure : Option TerminalFailure} (h : Refers s effect record failure) (hst : Evolves s t) :
    Refers t effect record failure := by
  obtain ⟨⟨terminal,hpublished,hfields⟩,hstored⟩ := h
  exact ⟨⟨terminal, hst.published _ _ hpublished, hfields⟩, hstored.evolves hst⟩

/- An output of the request that passed the checks before its checkpoint. -/
structure Checked (s : StepState F authority) (request : OptimStepRequest F)
    (output : AdapterOutput F) : Prop where
  stored : Stored s (.request request)
  effectful : request.mode ≠ .pure
  passed : checkOutput s.objects request output = .ok ()
  tools : request.mode = .toolUsing → output.optimEvalRequests = []

theorem Checked.evolves {request : OptimStepRequest F} {output : AdapterOutput F}
    (h : Checked s request output) (hst : Evolves s t) : Checked t request output :=
  ⟨h.stored.evolves hst, h.effectful, checkOutput_grow hst.objects request output h.passed,
    h.tools⟩

variable (run)

/- What an adapter effect may end in. -/
def AdapterTerminal (s : StepState F authority) (effect : EffectRequest) : Prop :=
  ∃ request policy output, effect = adapterEffectRequest request policy ∧
    Follows run s request ∧ Checked s request output ∧
    Refers s effect (checkpointOf request output) output.terminalFailure

/- What an intent effect may end in. -/
def IntentTerminal (s : StepState F authority) (effect : EffectRequest) : Prop :=
  ∃ (request : OptimStepRequest F) (policy : ReplayPolicy) (resolution : IntentResolution F),
    effect = intentEffectRequest request resolution.optimEvalRequest policy ∧
    Refers s effect (.resolution resolution) resolution.terminalFailure

/- The resolutions are those of the intents, in order, each the one that its own effect ended
   in. -/
def ResolvedAll (s : StepState F authority) (request : OptimStepRequest F)
    (intents : List OptimEvalRequest) (resolutions : List (IntentResolution F)) : Prop :=
  resolutions.map (fun resolution => resolution.optimEvalRequest) = intents ∧
    ∀ resolution ∈ resolutions, ∃ policy,
      Refers s (intentEffectRequest request resolution.optimEvalRequest policy)
        (.resolution resolution) resolution.terminalFailure

/- The result of an effectful step was built from the published output of its request. -/
def Backed (s : StepState F authority) (result : OptimStepResult F) : Prop :=
  result.request.mode ≠ .pure → ∃ policy output evidence budget resolutions stateRef historyRef,
    Refers s (adapterEffectRequest result.request policy) (checkpointOf result.request output)
      output.terminalFailure ∧
    Checked s result.request output ∧
    result.fields = stepResultFields result.request output evidence budget resolutions stateRef
      historyRef ∧
    ResolvedAll s result.request output.optimEvalRequests resolutions

/- A step result in its place. -/
structure Linked (s : StepState F authority) (index : Nat) (result : OptimStepResult F) :
    Prop where
  index : result.request.stepIndex = index
  stored : Stored s (.result result)
  follows : Follows run s result.request
  backed : Backed s result

variable {run}

theorem AdapterTerminal.evolves {effect : EffectRequest} (h : AdapterTerminal run s effect)
    (hst : Evolves s t) : AdapterTerminal run t effect := by
  obtain ⟨request,policy,output,heffect,hfollows,hchecked,hrefers⟩ := h
  exact ⟨request, policy, output, heffect, hfollows.evolves hst, hchecked.evolves hst,
    hrefers.evolves hst⟩

theorem IntentTerminal.evolves {effect : EffectRequest} (h : IntentTerminal s effect)
    (hst : Evolves s t) : IntentTerminal t effect := by
  obtain ⟨request,policy,resolution,heffect,hrefers⟩ := h
  exact ⟨request, policy, resolution, heffect, hrefers.evolves hst⟩

theorem ResolvedAll.evolves {request : OptimStepRequest F} {intents : List OptimEvalRequest}
    {resolutions : List (IntentResolution F)} (h : ResolvedAll s request intents resolutions)
    (hst : Evolves s t) : ResolvedAll t request intents resolutions := by
  refine ⟨h.1, fun resolution hmem => ?_⟩
  obtain ⟨policy,hrefers⟩ := h.2 resolution hmem
  exact ⟨policy, hrefers.evolves hst⟩

theorem Backed.evolves {result : OptimStepResult F} (h : Backed s result) (hst : Evolves s t) :
    Backed t result := by
  intro hmode
  obtain ⟨policy,output,evidence,budget,resolutions,stateRef,historyRef,hrefers,hchecked,hfields,
    hresolved⟩ := h hmode
  exact ⟨policy, output, evidence, budget, resolutions, stateRef, historyRef,
    hrefers.evolves hst, hchecked.evolves hst, hfields, hresolved.evolves hst⟩

theorem Linked.evolves {index : Nat} {result : OptimStepResult F}
    (h : Linked run s index result) (hst : Evolves s t) : Linked run t index result :=
  ⟨h.index, h.stored.evolves hst, h.follows.evolves hst, h.backed.evolves hst⟩

/-! ### The invariant -/

def StepEvent.invocation : StepEvent F → Invocation F
  | .entered invocation _ => invocation
  | .invoked invocation => invocation
  | .returned invocation _ _ => invocation

/- The slots of a ledger are calls that were made through the handles of its request. -/
def Handled (s : StepState F authority) (ref : TypedRef)
    (slots : List (Option (ToolEvidence F))) : Prop :=
  ∃ request : OptimStepRequest F, Stored s (.request request) ∧ request.recordRef = ref ∧
    ∀ slot ∈ slots, slot.all (throughHandle request) = true

theorem Handled.evolves {ref : TypedRef} {slots : List (Option (ToolEvidence F))}
    (h : Handled s ref slots) (hst : Evolves s t) : Handled t ref slots := by
  obtain ⟨request,hstored,hrest⟩ := h
  exact ⟨request, hstored.evolves hst, hrest⟩

variable (run)

/- What stands behind an event of the history. -/
def Accounted (s : StepState F authority) : StepEvent F → Prop
  | .entered _ _ => True
  | .invoked invocation => invocation.request.mode ≠ .pure →
      .entered invocation false ∈ s.history
  | .returned invocation result ref => result.request = invocation.request ∧
      ref = result.recordRef ∧ BoundAt run s invocation.request.stepIndex result

structure StepInv (s : StepState F authority) : Prop where
  addressed : ∀ ref record, s.objects.get? ref = some record → record.ref = ref
  runStored : Stored s (.run run)
  runs : ∀ runId ref, s.bindings.get? (.run runId) = some ref →
    runId = run.runId ∧ ref = run.recordRef
  runBound : s.bindings.get? (.run run.runId) = some run.recordRef
  chain : ∀ index ref, s.bindings.get? (.stepResult run.runId index) = some ref →
    ∃ result, ref = result.recordRef ∧ Linked run s index result
  unterminated : ∀ runId, s.bindings.get? (.optimResult runId) = none
  published : ∀ effect terminal, authority.published s.leases effect = some terminal →
    terminal.outcome ≠ .recoveryRequired → AdapterTerminal run s effect ∨ IntentTerminal s effect
  ledgers : ∀ ref slots, s.ledgers.get? ref = some slots → Handled s ref slots
  history : ∀ event ∈ s.history, Accounted run s event

variable {run}

theorem Accounted.evolves {event : StepEvent F} (h : Accounted run s event)
    (hst : Evolves s t) : Accounted run t event := by
  cases event with
  | entered invocation settled => trivial
  | invoked invocation => exact fun hmode => hst.recorded (h hmode)
  | returned invocation result ref =>
    obtain ⟨hrequest,href,hbound⟩ := h
    exact ⟨hrequest, href, hbound.evolves hst⟩

/-- A step that adds records under their own references, and whose other news are accounted
for, keeps the invariant. -/
theorem StepInv.evolve (h : StepInv run s) (hst : Evolves s t)
    (haddressed : ∀ ref record, t.objects.get? ref = some record → record.ref = ref)
    (hbindings : ∀ key ref, t.bindings.get? key = some ref → s.bindings.get? key = some ref ∨
      ∃ runId index result, key = .stepResult runId index ∧ ref = result.recordRef ∧
        Linked run t index result)
    (hpublished : ∀ effect terminal, authority.published t.leases effect = some terminal →
      authority.published s.leases effect = some terminal ∨
        terminal.outcome = .recoveryRequired ∨ AdapterTerminal run t effect ∨
        IntentTerminal t effect)
    (hledgers : ∀ ref slots, t.ledgers.get? ref = some slots →
      s.ledgers.get? ref = some slots ∨ Handled t ref slots)
    (hhistory : ∀ event ∈ t.history, event ∈ s.history ∨ Accounted run t event) :
    StepInv run t where
  addressed := haddressed
  runStored := h.runStored.evolves hst
  runs := by
    intro runId ref hget
    rcases hbindings _ _ hget with hold | ⟨_,_,_,hkey,_⟩
    · exact h.runs runId ref hold
    · cases hkey
  runBound := hst.bindings _ _ h.runBound
  chain := by
    intro index ref hget
    rcases hbindings _ _ hget with hold | ⟨_,_,result,hkey,href,hlinked⟩
    · obtain ⟨result,href,hlinked⟩ := h.chain index ref hold
      exact ⟨result, href, hlinked.evolves hst⟩
    · cases hkey
      exact ⟨result, href, hlinked⟩
  unterminated := by
    intro runId
    cases hget : t.bindings.get? (.optimResult runId) with
    | none => rfl
    | some ref =>
      rcases hbindings _ _ hget with hold | ⟨_,_,_,hkey,_⟩
      · rw [h.unterminated] at hold
        cases hold
      · cases hkey
  published := by
    intro effect terminal hget houtcome
    rcases hpublished effect terminal hget with hold | hrecovery | hnew
    · rcases h.published effect terminal hold houtcome with hadapter | hintent
      · exact .inl (hadapter.evolves hst)
      · exact .inr (hintent.evolves hst)
    · exact absurd hrecovery houtcome
    · exact hnew
  ledgers := by
    intro ref slots hget
    rcases hledgers ref slots hget with hold | hnew
    · exact (h.ledgers ref slots hold).evolves hst
    · exact hnew
  history := by
    intro event hmem
    rcases hhistory event hmem with hold | hnew
    · exact (h.history event hold).evolves hst
    · exact hnew

end Whetstone.Optim.Step
