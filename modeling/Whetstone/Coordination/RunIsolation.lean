import Whetstone.Coordination.RunOperations
import Whetstone.Optim.StepReplay

/-! Every operation on a run stays within the bindings of the run, so runs whose keys are
disjoint do not see each other. -/
namespace Whetstone.Runs
open Whetstone.Core Whetstone.Lib Whetstone.Experiment Whetstone.Tools Whetstone.Optim.Step
open Whetstone.Lib.Prog

section Harness

variable [PyIdentifiers] [CandidateIdentity] [ToolIdentity]
variable {F : Type} [FiniteFloats F] [DecidableEq F] [RewardIdentity F] [ResultIdentity F]
variable [RequestIdentity F] [StepResultIdentity F] [HarnessIdentity F]

/- An operation of the harness that touches no binding but those of the run. -/
def StepOnRun (runId : String) : StepOp F → Prop
  | .resolve key => bindingRunId key = runId
  | .bind key _ => bindingRunId key = runId
  | _ => True

variable {runId : String} (h : OptimHarness F) (request : OptimStepRequest F)

theorem load_onRun {α : Type} (schema wrongSchema notExact : String) (pick : Record F → Option α)
    (ref : TypedRef) : (load schema wrongSchema notExact pick ref).Only (StepOnRun runId) := by
  refine only_bind (only_ofExcept _) fun _ => ?_
  refine only_bind (only_perform trivial) fun found => ?_
  cases found with
  | none => trivial
  | some record =>
    cases hpick : pick record with
    | none => simp only [hpick]; trivial
    | some found =>
      simp only [hpick]
      exact only_bind (only_ofExcept _) fun _ => trivial

theorem persist_onRun (record : Record F) : (persist record).Only (StepOnRun runId) :=
  only_bind (only_perform trivial) fun _ => only_ofExcept _

theorem persistCandidates_onRun (candidates : List Candidate) :
    (persistCandidates candidates : StepProg F Unit).Only (StepOnRun runId) := by
  induction candidates with
  | nil => trivial
  | cons candidate rest ih => exact only_bind (persist_onRun _) fun _ => ih

theorem persistSnapshot_onRun (schema : String) (delta : List (String × Json)) :
    (persistSnapshot schema delta : StepProg F _).Only (StepOnRun runId) := by
  unfold persistSnapshot
  split
  · trivial
  · exact only_bind (persist_onRun _) fun _ => trivial

theorem validateBoundRun_onRun :
    (validateBoundRun h request).Only (StepOnRun request.runId) := by
  refine only_bind (only_ofExcept _) fun _ => ?_
  refine only_bind (only_perform rfl) fun found => ?_
  cases found with
  | none => trivial
  | some actual =>
    refine only_bind (only_ofExcept _) fun _ => ?_
    exact only_bind (load_onRun _ _ _ _ _) fun _ => only_ofExcept _

theorem validatePriorBinding_onRun :
    (validatePriorBinding request).Only (StepOnRun request.runId) := by
  unfold validatePriorBinding
  split
  · exact only_ofExcept _
  · refine only_bind (only_perform rfl) fun found => ?_
    cases found with
    | none => trivial
    | some actual =>
      refine only_bind (only_ofExcept _) fun _ => ?_
      exact only_bind (load_onRun _ _ _ _ _) fun _ => only_ofExcept _

omit [HarnessIdentity F] in
theorem acquireEffect_onRun (effect : EffectRequest) (missing : String) :
    (acquireEffect h effect missing).Only (StepOnRun runId) := by
  refine only_bind (only_perform trivial) fun reply => ?_
  refine only_bind (only_ofExcept _) fun acquired => ?_
  cases acquired with
  | lease lease => trivial
  | busy => trivial
  | requestConflict => trivial
  | terminal terminal =>
    dsimp only
    split <;> trivial

omit [HarnessIdentity F] in
theorem publishEffect_onRun (subject : EffectSubject) (lease : Lease) (ref : TypedRef)
    (failure : Option TerminalFailure) :
    (publishEffect subject lease ref failure : StepProg F Unit).Only (StepOnRun runId) :=
  only_bind (only_perform trivial) fun _ => only_bind (only_ofExcept _) fun _ => trivial

omit [HarnessIdentity F] in
theorem ledgerEvidence_onRun : (ledgerEvidence request).Only (StepOnRun runId) := by
  unfold ledgerEvidence
  refine only_bind (only_perform trivial) fun slots => ?_
  split <;> trivial

omit [HarnessIdentity F] in
theorem prepareHandles_onRun (configs : List ToolConfig) :
    (prepareHandles request configs).Only (StepOnRun runId) := by
  induction configs with
  | nil => trivial
  | cons config rest ih =>
    refine only_bind (only_perform trivial) fun _ => ?_
    refine only_bind (only_ofExcept _) fun handle => ?_
    refine only_bind (only_ofExcept _) fun _ => ?_
    exact only_bind (only_ofExcept _) fun _ => ih

omit [HarnessIdentity F] in
theorem prepareToolHandles_onRun : (prepareToolHandles h request).Only (StepOnRun runId) :=
  only_bind (only_ofExcept _) fun _ => prepareHandles_onRun _ _

omit [HarnessIdentity F] in
theorem invokePure_onRun : (invokePure request).Only (StepOnRun runId) := by
  refine only_bind (only_perform trivial) fun _ => ?_
  refine only_bind (only_ofExcept _) fun output => ?_
  exact only_bind (only_ofExcept _) fun _ => trivial

omit [HarnessIdentity F] in
theorem invokeEffectful_onRun : (invokeEffectful request).Only (StepOnRun runId) := by
  refine only_bind (only_perform trivial) fun _ => ?_
  refine only_bind (only_ofExcept _) fun output => ?_
  split
  · refine only_bind (only_ofExcept _) fun _ => ?_
    exact only_bind (ledgerEvidence_onRun _) fun _ => trivial
  · trivial

theorem invokeAndPersistAdapter_onRun :
    (invokeAndPersistAdapter request).Only (StepOnRun runId) := by
  refine only_bind (invokeEffectful_onRun _) fun output => ?_
  refine only_bind (only_perform trivial) fun _ => ?_
  refine only_bind (only_ofExcept _) fun _ => ?_
  exact only_bind (persist_onRun _) fun _ => trivial

theorem effectfulOutput_onRun (policy : ReplayPolicy) :
    (effectfulOutput h request policy).Only (StepOnRun runId) := by
  refine only_bind (acquireEffect_onRun _ _ _) fun acquired => ?_
  cases acquired with
  | inr found =>
    refine only_bind (load_onRun _ _ _ _ _) fun checkpoint => ?_
    refine only_bind (only_perform trivial) fun _ => ?_
    refine only_bind (only_ofExcept _) fun _ => ?_
    exact only_bind (only_ofExcept _) fun _ => trivial
  | inl lease =>
    refine only_bind (invokeAndPersistAdapter_onRun _) fun output => ?_
    exact only_bind (publishEffect_onRun _ _ _ _) fun _ => trivial

theorem resolveOneIntent_onRun (policy : ReplayPolicy) (intent : OptimEvalRequest) :
    (resolveOneIntent h policy request intent).Only (StepOnRun runId) := by
  refine only_bind (acquireEffect_onRun _ _ _) fun acquired => ?_
  cases acquired with
  | inr found =>
    refine only_bind (load_onRun _ _ _ _ _) fun resolution => ?_
    refine only_bind (only_perform trivial) fun _ => ?_
    refine only_bind (only_ofExcept _) fun _ => ?_
    refine only_bind (only_ofExcept _) fun _ => ?_
    refine only_bind (only_perform trivial) fun _ => ?_
    exact only_bind (only_ofExcept _) fun _ => trivial
  | inl lease =>
    refine only_bind (only_perform trivial) fun _ => ?_
    refine only_bind (only_ofExcept _) fun resolution => ?_
    refine only_bind (only_perform trivial) fun _ => ?_
    refine only_bind (only_ofExcept _) fun _ => ?_
    refine only_bind (only_perform trivial) fun _ => ?_
    refine only_bind (only_ofExcept _) fun _ => ?_
    refine only_bind (persist_onRun _) fun _ => ?_
    exact only_bind (publishEffect_onRun _ _ _ _) fun _ => trivial

theorem resolveEach_onRun (policy : ReplayPolicy) (allowed : Dict String Candidate)
    (intents : List OptimEvalRequest) :
    (resolveEach h policy request allowed intents).Only (StepOnRun runId) := by
  induction intents with
  | nil => trivial
  | cons intent rest ih =>
    refine only_bind (only_perform trivial) fun _ => ?_
    refine only_bind (only_ofExcept _) fun _ => ?_
    refine only_bind (persist_onRun _) fun _ => ?_
    refine only_bind (resolveOneIntent_onRun _ _ _ _) fun resolution => ?_
    exact only_bind ih fun _ => trivial

theorem resolveIntents_onRun (output : AdapterOutput F) :
    (resolveIntents h request output).Only (StepOnRun runId) := by
  unfold resolveIntents
  split
  · trivial
  · refine only_bind (only_perform trivial) fun _ => ?_
    refine only_bind (only_ofExcept _) fun _ => ?_
    cases h.evaluationReplayPolicy with
    | none => trivial
    | some policy => exact resolveEach_onRun _ _ _ _ _

theorem stepOutput_onRun (policy : ReplayPolicy) :
    (stepOutput h request policy).Only (StepOnRun runId) := by
  unfold stepOutput
  cases request.mode with
  | pure => exact invokePure_onRun _
  | proposalOnly => exact effectfulOutput_onRun _ _ _
  | toolUsing =>
    exact only_bind (prepareToolHandles_onRun _ _) fun _ => effectfulOutput_onRun _ _ _

omit [HarnessIdentity F] in
theorem toolEvidence_onRun (output : AdapterOutput F) :
    (toolEvidence request output).Only (StepOnRun runId) := by
  unfold toolEvidence
  split
  · refine only_bind (ledgerEvidence_onRun _) fun evidence => ?_
    exact only_bind (only_ofExcept _) fun _ => trivial
  · trivial

theorem bindResult_onRun (result : OptimStepResult F) :
    (bindResult request result).Only (StepOnRun request.runId) := by
  refine only_bind (persist_onRun _) fun _ => ?_
  refine only_bind (only_perform rfl) fun status => ?_
  cases status with
  | created => trivial
  | idempotent => exact only_bind (load_onRun _ _ _ _ _) fun _ => trivial
  | conflict existing => trivial

theorem finishStep_onRun (output : AdapterOutput F) :
    (finishStep h request output).Only (StepOnRun request.runId) := by
  refine only_bind (only_perform trivial) fun _ => ?_
  refine only_bind (only_ofExcept _) fun _ => ?_
  refine only_bind (toolEvidence_onRun _ _) fun evidence => ?_
  refine only_bind (only_ofExcept _) fun budget => ?_
  refine only_bind (persistCandidates_onRun _) fun _ => ?_
  refine only_bind (persistCandidates_onRun _) fun _ => ?_
  refine only_bind ?_ fun resolutions => ?_
  · unfold stepResolutions
    split
    · exact resolveIntents_onRun _ _ _
    · trivial
  refine only_bind (persistSnapshot_onRun _ _) fun _ => ?_
  refine only_bind (persistSnapshot_onRun _ _) fun _ => ?_
  refine only_bind (persistCandidates_onRun _) fun _ => ?_
  exact only_bind (only_ofExcept _) fun result => bindResult_onRun _ _

theorem replayResult_onRun (existingRef : TypedRef) :
    (replayResult request existingRef).Only (StepOnRun runId) := by
  refine only_bind (load_onRun _ _ _ _ _) fun existing => ?_
  refine only_bind (only_ofExcept _) fun _ => ?_
  exact only_bind (only_ofExcept _) fun _ => trivial

/-- A step touches no binding but those of its run. -/
theorem runStep_onRun : (runStep h request).Only (StepOnRun request.runId) := by
  refine only_bind (only_ofExcept _) fun _ => ?_
  refine only_bind (validateBoundRun_onRun _ _) fun _ => ?_
  refine only_bind (only_ofExcept _) fun _ => ?_
  refine only_bind (validatePriorBinding_onRun _) fun _ => ?_
  refine only_bind (only_perform rfl) fun found => ?_
  cases found with
  | some existingRef => exact replayResult_onRun _ _
  | none =>
    refine only_bind (only_ofExcept _) fun policy => ?_
    refine only_bind (persist_onRun _) fun _ => ?_
    refine only_bind (persistCandidates_onRun _) fun _ => ?_
    exact only_bind (stepOutput_onRun _ _ _) fun output => finishStep_onRun _ _ _

variable (run : OptimRun F)

theorem loadTerminalSteps_onRun (last index : Nat) (results : List (OptimStepResult F)) :
    (loadTerminalSteps run last index results).Only (StepOnRun run.runId) := by
  induction results generalizing index with
  | nil => trivial
  | cons exact rest ih =>
    refine only_bind ?_ fun _ => ih _
    refine only_bind (only_perform rfl) fun actual => ?_
    refine only_bind (only_ofExcept _) fun _ => ?_
    refine only_bind (load_onRun _ _ _ _ _) fun result => ?_
    refine only_bind (only_ofExcept _) fun _ => ?_
    refine only_bind (only_ofExcept _) fun _ => ?_
    exact only_bind (only_ofExcept _) fun _ => only_ofExcept _

theorem assembleTerminal_onRun (results : List (OptimStepResult F)) (last : OptimStepResult F) :
    (assembleTerminal run results last).Only (StepOnRun run.runId) := by
  refine only_bind (loadTerminalSteps_onRun _ _ _ _) fun _ => ?_
  refine only_bind (only_perform rfl) fun later => ?_
  refine only_bind (only_ofExcept _) fun _ => ?_
  refine only_bind (only_ofExcept _) fun _ => ?_
  refine only_bind (only_perform trivial) fun objects => ?_
  exact only_bind (only_ofExcept _) fun cost => only_ofExcept _

theorem replayTerminal_onRun (result : OptimResult F) (existingRef : TypedRef) :
    (replayTerminal result existingRef).Only (StepOnRun runId) := by
  refine only_bind (load_onRun _ _ _ _ _) fun existing => ?_
  exact only_bind (only_ofExcept _) fun _ => trivial

theorem bindTerminal_onRun (result : OptimResult F) :
    (bindTerminal run result).Only (StepOnRun run.runId) := by
  refine only_bind (persist_onRun _) fun _ => ?_
  refine only_bind (only_perform rfl) fun status => ?_
  cases status with
  | created => trivial
  | conflict existing => trivial
  | idempotent =>
    refine only_bind (only_perform rfl) fun found => ?_
    cases found with
    | none => trivial
    | some bound => exact replayTerminal_onRun _ _

/-- Terminalizing touches no binding but those of the run. -/
theorem terminalize_onRun (results : List (OptimStepResult F)) :
    (terminalize h run results).Only (StepOnRun run.runId) := by
  refine only_bind (only_ofExcept _) fun _ => ?_
  cases results.getLast? with
  | none => trivial
  | some last =>
    refine only_bind (assembleTerminal_onRun _ _ _) fun result => ?_
    refine only_bind (only_perform rfl) fun found => ?_
    cases found with
    | some existingRef => exact replayTerminal_onRun _ _
    | none => exact bindTerminal_onRun _ _

end Harness

section Operations

variable [PyIdentifiers] [CandidateIdentity] [ToolIdentity]
variable {F : Type} [FiniteFloats F] [DecidableEq F] [RewardIdentity F] [ResultIdentity F]
variable [RequestIdentity F] [StepResultIdentity F]

def OnRun (runId : String) (o : RunOp F) : Prop := ∀ key, o.key = some key → key.runId = runId

theorem onRun_key {runId : String} {o : RunOp F} {key : RunKey} (hkey : o.key = some key)
    (h : key.runId = runId) : OnRun runId o := by
  intro key' hkey'
  rw [hkey, Option.some.injEq] at hkey'
  exact hkey' ▸ h

theorem onRun_none {runId : String} {o : RunOp F} (hkey : o.key = none) : OnRun runId o := by
  intro key h
  rw [hkey] at h
  cases h

theorem ofStep_onRun {runId : String} {α : Type} {p : StepProg F α}
    (hp : p.Only (StepOnRun runId)) : (ofStep p).Only (OnRun runId) := by
  refine only_embed ?_
  induction p with
  | done a => trivial
  | raise error => trivial
  | call o next ih =>
    refine ⟨?_, fun r => ih r (hp.2 r)⟩
    have ho := hp.1
    cases o
    case resolve key => exact onRun_key rfl ho
    case bind key ref => exact onRun_key rfl ho
    all_goals exact onRun_none rfl

/-- What a run's operations see of the bindings is decided by those under its own keys. -/
theorem execRun_separates {r s : String} (hrs : r ≠ s) (h : Unambiguous r s) :
    Crowd.Separates (execRun (F := F)) (OnRun r) (OnRun s)
      (fun bindings (key : { key : RunKey // key.runId = r }) => bindings.get? key.1.text) where
  mine := by
    intro o answer b c ho hview
    have hbind : ∀ (key : RunKey) (ref : TypedRef), key.runId = r →
        (bindText b key.text ref).1 = (bindText c key.text ref).1 ∧
          (fun key' : { key : RunKey // key.runId = r } =>
            (bindText b key.text ref).2.get? key'.1.text) =
          fun key' => (bindText c key.text ref).2.get? key'.1.text := by
      intro key ref hkey
      have hsame : b.get? key.text = c.get? key.text := congrFun hview ⟨key, hkey⟩
      unfold bindText
      rw [← hsame]
      cases b.get? key.text with
      | some bound => exact ⟨rfl, hview⟩
      | none =>
        refine ⟨rfl, ?_⟩
        funext key'
        have hother : b.get? key'.1.text = c.get? key'.1.text := congrFun hview key'
        simp only [Dict.get?_set, hother]
    rcases o with (_ | _ | key | _ | _ | _ | ⟨key,ref⟩ | _ | _ | _ | _ | _ | _ | _) |
      (key | ⟨key,ref⟩ | _ | _)
    case harness.resolve => exact ⟨congrFun hview ⟨.harness key, ho _ rfl⟩, hview⟩
    case harness.bind => exact hbind _ ref (ho _ rfl)
    case launch.resolve => exact ⟨congrFun hview ⟨key, ho _ rfl⟩, hview⟩
    case launch.bind => exact hbind _ ref (ho _ rfl)
    all_goals exact ⟨rfl, hview⟩
  theirs := by
    intro o answer b ho
    have hbind : ∀ (key : RunKey) (ref : TypedRef), key.runId = s →
        (fun key' : { key : RunKey // key.runId = r } =>
            (bindText b key.text ref).2.get? key'.1.text) =
          fun key' => b.get? key'.1.text := by
      intro key ref hkey
      funext key'
      have hne := h.text_ne hrs key'.2 hkey
      unfold bindText
      cases b.get? key.text with
      | some bound => rfl
      | none => simp only [Dict.get?_set, if_neg hne]
    rcases o with (_ | _ | key | _ | _ | _ | ⟨key,ref⟩ | _ | _ | _ | _ | _ | _ | _) |
      (key | ⟨key,ref⟩ | _ | _)
    case harness.bind => exact hbind _ ref (ho _ rfl)
    case launch.bind => exact hbind _ ref (ho _ rfl)
    all_goals rfl

end Operations

section Calls

variable [PyIdentifiers] [CandidateIdentity] [ToolIdentity] [LaunchContracts]
variable {F : Type} [FiniteFloats F] [DecidableEq F] [RewardIdentity F] [ResultIdentity F]
variable [RequestIdentity F] [StepResultIdentity F] [HarnessIdentity F]
variable {runId : String}

omit [LaunchContracts] [HarnessIdentity F] in
theorem bindExact_onRun (key : RunKey) (ref : TypedRef) :
    (bindExact key ref : RunProg F Unit).Only (OnRun key.runId) := by
  refine only_bind (only_perform (onRun_key rfl rfl)) fun status => ?_
  cases status <;> trivial

omit [LaunchContracts] [HarnessIdentity F] in
theorem loadStored_onRun {α : Type} (pick : Record F ⊕ LaunchRecord → Option α)
    (ref : TypedRef) : (loadStored pick ref).Only (OnRun runId) := by
  refine only_bind (only_perform (onRun_none rfl)) fun found => ?_
  cases found with
  | none => trivial
  | some record =>
    dsimp only
    split <;> trivial

omit [LaunchContracts] [HarnessIdentity F] in
theorem persistControl_onRun (schema : String) (control : Option Json) :
    (persistControl schema control : RunProg F Unit).Only (OnRun runId) := by
  cases control with
  | none => trivial
  | some control => exact only_bind (only_perform (onRun_none rfl)) fun _ => trivial

omit [HarnessIdentity F] in
theorem bindLaunch_onRun (launch : OptimRunLaunch F) :
    (bindLaunch launch).Only (OnRun launch.run.runId) := by
  unfold bindLaunch
  split
  · trivial
  · refine only_bind (ofStep_onRun (only_perform trivial)) fun _ => ?_
    refine only_bind (persistControl_onRun _ _) fun _ => ?_
    refine only_bind (only_perform (onRun_none rfl)) fun _ => ?_
    refine only_bind (bindExact_onRun (.launch launch.run.runId) _) fun _ => ?_
    exact only_bind (bindExact_onRun (.launchPayload launch.run.runId) _) fun _ => trivial

omit [HarnessIdentity F] in
theorem loadLaunch_onRun : (loadLaunch runId : RunProg F _).Only (OnRun runId) := by
  refine only_bind (only_perform (onRun_key rfl rfl)) fun found => ?_
  cases found with
  | none => trivial
  | some runBinding =>
    refine only_bind (loadStored_onRun _ _) fun run => ?_
    refine only_bind (only_perform (onRun_key rfl rfl)) fun found => ?_
    cases found with
    | none => trivial
    | some payloadBinding =>
      refine only_bind (loadStored_onRun _ _) fun payload => ?_
      refine only_bind ?_ fun _ => trivial
      cases payload.control with
      | none => trivial
      | some control =>
        unfold parsedControl
        dsimp only
        split <;> trivial

omit [LaunchContracts] [HarnessIdentity F] in
theorem requireStored_onRun (failed : String) (stored : Bool) :
    (requireStored failed stored : RunProg F Unit).Only (OnRun runId) := by
  cases stored <;> trivial

omit [LaunchContracts] [HarnessIdentity F] in
theorem persistToolConfigs_onRun (configs : List ToolConfig) :
    (persistToolConfigs configs : RunProg F Unit).Only (OnRun runId) := by
  induction configs with
  | nil => trivial
  | cons config rest ih =>
    refine only_bind (only_perform (onRun_none rfl)) fun _ => ?_
    refine only_bind (requireStored_onRun _ _) fun _ => ?_
    refine only_bind (only_perform (onRun_none rfl)) fun _ => ?_
    exact only_bind (requireStored_onRun _ _) fun _ => ih

omit [LaunchContracts] in
theorem bindRun_onRun (run : OptimRun F) : (bindRun run).Only (OnRun run.runId) := by
  refine only_bind (ofStep_onRun (only_perform trivial)) fun _ => ?_
  refine only_bind (requireStored_onRun _ _) fun _ => ?_
  refine only_bind (persistToolConfigs_onRun _) fun _ => ?_
  refine only_bind (ofStep_onRun (only_perform rfl)) fun status => ?_
  have hverify : (verifyBoundRun run).Only (OnRun run.runId) := by
    refine only_bind (ofStep_onRun (only_perform rfl)) fun found => ?_
    cases found with
    | none => trivial
    | some existing =>
      dsimp only
      split
      · trivial
      · refine only_bind (ofStep_onRun (load_onRun _ _ _ _ _)) fun loaded => ?_
        split <;> trivial
  cases status with
  | created => exact hverify
  | idempotent => exact hverify
  | conflict existing =>
    dsimp only
    split <;> trivial

/-- Every operation on a run stays within the bindings of the run. -/
theorem RunCall.prog_onRun (call : RunCall F) : call.prog.Only (OnRun call.runId) := by
  cases call with
  | bindLaunch launch => exact only_bind (bindLaunch_onRun _) fun _ => trivial
  | loadLaunch runId => exact only_bind loadLaunch_onRun fun _ => trivial
  | bindRun run => exact only_bind (bindRun_onRun _) fun _ => trivial
  | runStep harness request =>
    exact only_bind (ofStep_onRun (runStep_onRun _ _)) fun _ => trivial
  | terminalize harness run stepResults =>
    exact only_bind (ofStep_onRun (terminalize_onRun _ _ _)) fun _ => trivial

/- Operations that start together over the same bindings. -/
def callCrowd (calls : List (RunCall F)) (bindings : Dict String TypedRef) :
    Crowd (Dict String TypedRef) (RunOp F) RunOp.Reply RunError (RunOutcome F) :=
  ⟨bindings, calls.map RunCall.prog⟩

def ownedBy (calls : List (RunCall F)) (runId : String) (i : Nat) : Bool :=
  calls[i]?.any fun call => call.runId = runId

variable (F) in
/- The operations on `r`, run among operations on `s` in any order, end as they do alone: where
the schedule keeps only their own steps, with what the environment answers to them. -/
def Isolated (r s : String) : Prop :=
  ∀ calls : List (RunCall F), (∀ call ∈ calls, call.runId = r ∨ call.runId = s) →
    ∀ (bindings : Dict String TypedRef) (schedule : List (Nat × RunAnswer F)) (i : Nat),
      ownedBy calls r i = true →
      (Crowd.run execRun (callCrowd calls bindings) schedule).progs[i]? =
        (Crowd.run execRun (callCrowd calls bindings)
          (schedule.filter fun x => ownedBy calls r x.1)).progs[i]?

theorem Unambiguous.isolated {r s : String} (hrs : r ≠ s) (h : Unambiguous r s) :
    Isolated F r s := by
  intro calls hcalls bindings schedule i hi
  have hparties : Crowd.Parties (ownedBy calls r) (OnRun r) (OnRun s)
      (callCrowd calls bindings) := by
    intro j p hp
    rw [callCrowd, List.getElem?_map] at hp
    obtain ⟨call,hcall,rfl⟩ := Option.map_eq_some_iff.mp hp
    have honly := call.prog_onRun
    rcases hcalls call (List.mem_of_getElem? hcall) with hr | hs
    · rw [if_pos (by simp [ownedBy, hcall, hr]), ← hr]
      exact honly
    · rw [if_neg (by simp [ownedBy, hcall, hs, hrs.symm]), ← hs]
      exact honly
  exact (Crowd.run_isolated (execRun_separates hrs h) hparties ⟨rfl, fun _ _ => rfl⟩
    schedule).progs i hi

end Calls

/-! ### A launch whose key is another launch's payload key -/

section Example

attribute [local instance] plainNames namedCandidates namedTools exactFiniteFloats namedRewards
attribute [local instance] namedResults namedRequests namedStepResults namedHarness

@[reducible] def plainLaunches : LaunchContracts where
  payloadHash := fun payload => payload.runId
  parseControl := fun _ control => .ok control

attribute [local instance] plainLaunches

def namedRun (runId : String) : OptimRun Rat where
  runId := runId
  optimizerConfig := ⟨⟨"whetstone.optimizer", "config"⟩, "config"⟩
  adapterKey := "search"
  mode := .pure
  terminalOutputContract := oneProposal
  templateRenderContract := ⟨.literalBodyV1, [], []⟩
  initialCandidateRef := none
  mutationField := "template"
  rewardPolicy := none
  toolConfigs := []
  valid := rfl

def namedLaunch (runId : String) : RunCall Rat :=
  .bindLaunch ⟨namedRun runId, seedCandidate, none, none⟩

/- Every put stores its record, and no other component is asked. -/
def storing : RunAnswer Rat
  | .harness .enter => ()
  | .harness (.leave _ _) => ()
  | .harness (.resolve _) => none
  | .harness (.get _) => none
  | .harness .objects => Dict.empty
  | .harness (.put _) => true
  | .harness (.bind _ _) => .created
  | .harness (.acquire _ _) => .error ""
  | .harness (.publish _ _ _ _ _) => .error ""
  | .harness (.runtimeHandle _ _) => .error ""
  | .harness (.invoke _) => .error ""
  | .harness (.ledger _) => []
  | .harness (.resolveIntent _) => .error ""
  | .harness (.validateGraph _) => .error ""
  | .launch (.resolve _) => none
  | .launch (.bind _ _) => .created
  | .launch (.put _) => true
  | .launch (.get _) => none

/- The first launch to its end, then the second. -/
def launchBoth : List (Nat × RunAnswer Rat) :=
  (List.replicate 4 0 ++ List.replicate 4 1).map fun i => (i, storing)

def launchesOf (r s : String) : Crowd (Dict String TypedRef) (RunOp Rat) RunOp.Reply RunError
    (RunOutcome Rat) :=
  Crowd.run execRun (callCrowd [namedLaunch r, namedLaunch s] Dict.empty) launchBoth

def launched : Option (RunProg Rat (RunOutcome Rat)) → Option Bool
  | some (.done _) => some true
  | some (.raise (.bindingConflict _)) => some false
  | _ => none

end Example

end Whetstone.Runs
