import Whetstone.Optim.Gepa.EvidenceChain
import Whetstone.Optim.Gepa.SteppedRun

/-! Evidence over whole runs: what a run keeps through attempts that stop anywhere, deferrals,
resolutions by the platform and outputs that are lost. -/
namespace Whetstone.Optim.Gepa
open Whetstone.Core Whetstone.Lib Whetstone.Experiment Whetstone.Optim.Step

section Runs

variable {F : Type} [FiniteFloats F] [RewardIdentity F]

/-! ### The search of a step -/

theorem increasing_ofExcept {α : Type} (context : GepaEffectContext) (lo : Nat)
    (x : Except SearchError α) : Increasing context (fun hi _ => hi = lo) lo
      (.ofExcept x : Prog (GepaEffect F) GepaEffect.Result SearchError α) := by
  cases x with
  | ok a => exact rfl
  | error error => trivial

variable [GepaIdentity F]

/-! ### Sound stores between attempts -/

variable {context : GepaEffectContext} {k : Nat} {ids : List String} {γ : Type}
variable {search : Prog (GepaEffect F) GepaEffect.Result SearchError γ} {s : GepaState F}

theorem Sound.begin (h : Sound context k ids search s) : Sound context k ids search s.beginStep :=
  { h with collected := fun entry hmem => by cases hmem }

theorem beginStep_recorded (s : GepaState F) : recordedResult s.beginStep = recordedResult s := rfl

/-- A recorded result answers every request with its hash. -/
theorem recordedResult_hash {request request' : GepaEvaluationEffectRequest F}
    (h : GepaIdentity.evaluationHash request = GepaIdentity.evaluationHash request') :
    recordedResult s (.evaluate request) = recordedResult s (.evaluate request') := by
  have hpick : pickResult (.evaluate request) = pickResult (.evaluate request' : GepaEffect F) := by
    funext record
    cases record <;> rfl
  unfold recordedResult
  simp only [resultKey, GepaEffect.identityHash, h, resultSchema, resultHash, hpick]
  cases s.bindings.get? (.result (GepaIdentity.evaluationHash request')) with
  | none => rfl
  | some ref =>
    dsimp only
    cases (s.objects.get? ref).bind (pickResult (.evaluate request')) with
    | none => rfl
    | some result =>
      by_cases hhash : result.requestHash = GepaIdentity.evaluationHash request'
      · simp [hhash]
      · simp [hhash]

theorem evalRequestId_inj {runId a b : String} (h : evalRequestId runId a = evalRequestId runId b) :
    a = b := by
  unfold evalRequestId at h
  exact (String.append_right_inj _).mp h

theorem fanin_recorded (s : GepaState F) (intentHash : String) (resolution : IntentResolution F) :
    recordedResult (s.fanin intentHash resolution) = recordedResult s := by
  have hbindings : ∀ hash, (s.fanin intentHash resolution).bindings.get? (.result hash) =
      s.bindings.get? (.result hash) := by
    intro hash
    unfold GepaState.fanin
    split
    · split
      · simp [Dict.get?_erase]
      · rfl
    · rfl
  have hobjects : (s.fanin intentHash resolution).objects = s.objects := by
    unfold GepaState.fanin
    split
    · split <;> rfl
    · rfl
  funext e
  unfold recordedResult
  simp only [resultKey, hbindings, hobjects]

theorem fanin_beginStep (s : GepaState F) (intentHash : String)
    (resolution : IntentResolution F) :
    (s.fanin intentHash resolution).beginStep = s.beginStep.fanin intentHash resolution := by
  have hbindings : s.beginStep.bindings = s.bindings := rfl
  have hobjects : s.beginStep.objects = s.objects := rfl
  have hintents : s.beginStep.intents = s.intents := rfl
  unfold GepaState.fanin
  rw [hbindings, hobjects, hintents]
  cases (s.bindings.get? (.platformIntent intentHash)).bind s.objects.get? with
  | none => rfl
  | some record =>
    cases record with
    | intent intent =>
      dsimp only
      split <;> rfl
    | request _ | evaluation _ | proposal _ => rfl

/-- What the platform binds is the resolution of an intent that was stored. -/
theorem Sound.fanin (h : Sound context k ids search s) (intentHash : String)
    (resolution : IntentResolution F) :
    Sound context k ids search (s.fanin intentHash resolution) := by
  have hrecorded := fanin_recorded s intentHash resolution
  unfold GepaState.fanin at hrecorded ⊢
  split
  · rename_i intent hbound
    simp only [hbound] at hrecorded
    split
    · rename_i hok
      rw [if_pos hok] at hrecorded
      obtain ⟨ref,_,hstored⟩ := Option.bind_eq_some_iff.mp hbound
      refine ⟨fun e ref' hcontext hbound' => ?_, fun ref' intent' hobj hrun => ?_,
        fun hash resolution' hres hrun => ?_, fun hash ref' hbound' => ?_,
        fun request hcontext hid => ?_, h.collected⟩
      · simp only [resultKey, Dict.get?_erase] at hbound'
        exact h.results e ref' hcontext (by simpa [resultKey] using hbound')
      · rw [hrecorded]
        exact h.stored ref' intent' hobj hrun
      · rw [hrecorded]
        by_cases hhash : hash = intentHash
        · subst hhash
          simp only [Dict.get?_set_self, Option.some.injEq] at hres
          subst hres
          rw [hok.2.1] at hrun ⊢
          exact h.stored ref intent hstored hrun
        · simp only [Dict.get?_set_ne _ _ _ _ hhash] at hres
          exact h.resolved hash resolution' hres hrun
      · simp only [Dict.get?_erase] at hbound'
        exact h.aliases hash ref' (by simpa using hbound')
      · rw [hrecorded]
        exact h.reported request hcontext hid
    · exact h
  · exact h

/-! ### A step that is bound -/

/-- Where a step has ended and its evidence is bound, the store is sound for the next step. -/
theorem Sound.next (h : Sound context k ids search s) (hcomplete : Complete context search s)
    {runId : String} {evidence : List (SearchEvidence F)}
    (hreport : StepReport ids [] runId k s.collected evidence)
    (search' : Prog (GepaEffect F) GepaEffect.Result SearchError γ) :
    Sound context (k + 1) (evidence.map (fun e => e.evalRequestId) ++ ids) search' s.beginStep := by
  have htraced : ∀ intent, Traced context k ids search (recordedResult s) intent →
      Traced context (k + 1) (evidence.map (fun e => e.evalRequestId) ++ ids) search'
        (recordedResult s.beginStep) intent := by
    rintro intent ⟨request,hcontext,hid,hplace⟩
    refine ⟨request, hcontext, hid, .inl ?_⟩
    rcases hplace with ⟨hlt,hmem⟩ | ⟨hnow,n,he⟩
    · exact ⟨by omega, List.mem_append_right _ hmem⟩
    · obtain ⟨entry,hentry,hsame⟩ := hcomplete.covered he
      refine ⟨by omega, ?_⟩
      rw [hid, ← hsame]
      rcases hreport.covers entry hentry with hold | hnone | ⟨e,hemem,heq⟩
      · exact List.mem_append_right _ hold
      · cases hnone
      · exact List.mem_append_left _ (List.mem_map.mpr ⟨e, hemem, heq⟩)
  refine ⟨h.results, fun ref intent hobj hrun => htraced _ (h.stored ref intent hobj hrun),
    fun hash resolution hres hrun => htraced _ (h.resolved hash resolution hres hrun), h.aliases,
    fun request hcontext hid => ?_, fun entry hmem => by cases hmem⟩
  rw [beginStep_recorded]
  rcases List.mem_append.mp hid with hnew | hold
  · obtain ⟨e,hemem,heq⟩ := List.mem_map.mp hnew
    obtain ⟨entry,hentry,hsame⟩ := hreport.collected e hemem
    obtain ⟨_,_,_,_,hreached⟩ := hcomplete
    obtain ⟨request',_,hid',r,hr⟩ := hreached.recorded entry hentry
    have hhash : GepaIdentity.evaluationHash request = GepaIdentity.evaluationHash request' :=
      evalRequestId_inj (by rw [← heq, ← hsame, hid'])
    exact ⟨r, by rw [recordedResult_hash hhash, hr]⟩
  · exact h.reported request hcontext hold

variable [PythonRandom]

theorem increasing_search (h : GepaHarness F) (checkpoint : GepaStepCheckpoint) :
    Increasing h.inputs.adapter.context (fun _ _ => True) 0 (h.search checkpoint) := by
  unfold GepaHarness.search runOneGepaIteration
  dsimp only
  split
  · split
    · trivial
    · exact (increasing_ofExcept _ _ _).bind fun _ _ _ => trivial
  · split
    · trivial
    · refine (increasing_ofExcept _ _ _).bind fun lo _ hlo => ?_
      subst hlo
      refine Increasing.bind (Q := fun _ _ => True) ?_ fun _ _ _ => trivial
      refine (h.inputs.adapter.increasing_drive _ _ _ (Nat.zero_le _)).bind fun lo _ _ => ?_
      exact (increasing_ofExcept _ _ _).bind fun _ _ _ => trivial

/-! ### Attempts -/

variable [DecidableEq F]

/-- An attempt leaves a sound store wherever it stops; where its search has ended, every
evaluation of the search is collected. -/
theorem drive_keeps [GepaResultIdentity F] (h : GepaHarness F) (run : GepaRun F)
    (answers : List (GepaAnswer F))
    (hs : Sound h.inputs.adapter.context run.stepIndex ids (h.search run.checkpoint)
      run.store.beginStep) :
    let made := h.drive run answers
    Sound h.inputs.adapter.context run.stepIndex ids (h.search run.checkpoint) made.state ∧
      (∀ out, made.outcome = .returned out →
        Complete h.inputs.adapter.context (h.search run.checkpoint) made.state) ∧
      ∀ error, made.outcome = .raised (.search error) →
        Complete h.inputs.adapter.context (h.search run.checkpoint) made.state := by
  obtain ⟨hsound,_,hraised,hreturned⟩ := (drives_search h.authority
    (increasing_search h run.checkpoint) hs rfl).reified answers
  refine ⟨hsound, fun out hout => (hreturned out hout).2, fun error herror => ?_⟩
  obtain hforeign | ⟨_,hcomplete⟩ := (hraised _ herror).2
  · exact hforeign.elim
  · exact hcomplete

end Runs

section Chains

variable {F : Type} [FiniteFloats F] [DecidableEq F] [RewardIdentity F] [GepaIdentity F]
variable [PythonRandom] [GepaResultIdentity F]

/- What a run keeps between its events: each request of its chain stands there once, and the
   store is sound for the step the run is at. -/
structure Kept (h : GepaHarness F) (chain : List (GepaStepResult F)) (run : GepaRun F) : Prop where
  linked : Linked run.results chain run.head
  length : chain.length = run.stepIndex
  sound : Sound h.inputs.adapter.context run.stepIndex (chain.flatMap GepaStepResult.evidenceIds)
    (h.search run.checkpoint) run.store.beginStep
  once : (chain.flatMap GepaStepResult.evidenceIds).Nodup
  bound : ∀ result ∈ chain, ∀ e ∈ result.searchEvidence,
    e.optimRunId = result.runId ∧ e.optimStepIndex = result.stepIndex ∧ result.runId = h.runId
  reported : ∀ entry ∈ run.log, ∀ message, entry.2 ≠ .unreported message

variable {h : GepaHarness F} {run : GepaRun F} {chain : List (GepaStepResult F)}

/-- The evidence of an attempt is reported: each request it collected that no ancestor has
recorded, once. -/
theorem Kept.evidence (hkept : Kept h chain run) (answers : List (GepaAnswer F)) :
    ∃ evidence, h.evidence run (h.drive run answers).state = .ok evidence ∧
      StepReport (chain.flatMap GepaStepResult.evidenceIds) [] h.runId run.stepIndex
        (h.drive run answers).state.collected evidence := by
  obtain ⟨hsound,_⟩ := drive_keeps h run answers hkept.sound
  obtain ⟨evidence,hok,hreport⟩ := searchEvidence_reports
    (chain.flatMap GepaStepResult.evidenceIds) (h.drive run answers).state.collected []
    hsound.collected
  refine ⟨evidence, ?_, hreport⟩
  have hwalk := hkept.linked.recordedEvidenceIds run.results.pairs.length hkept.linked.length_le []
    (by simp)
  unfold GepaHarness.evidence
  rw [hwalk]
  exact hok

/-- An invocation reports its evidence whenever it has an output, and a result that is no
placeholder is that of a search that ended. -/
theorem Kept.invoke (hkept : Kept h chain run) (answers : List (GepaAnswer F)) :
    (∀ message, h.invoke run answers ≠ .unreported message) ∧
      ∀ output, h.invoke run answers = .output output →
        StepReport (chain.flatMap GepaStepResult.evidenceIds) [] h.runId run.stepIndex
          (h.drive run answers).state.collected output.searchEvidence ∧
        (output.optimEvalRequests = [] →
          Complete h.inputs.adapter.context (h.search run.checkpoint)
            (h.drive run answers).state) := by
  obtain ⟨_,hreturned,hraised⟩ := drive_keeps h run answers hkept.sound
  obtain ⟨evidence,hok,hreport⟩ := hkept.evidence answers
  unfold GepaHarness.invoke GepaHarness.report
  dsimp only
  rw [hok]
  cases houtcome : (h.drive run answers).outcome with
  | crashed => simp
  | returned out =>
    refine ⟨fun message heq => (by cases heq), fun output heq => ?_⟩
    cases heq
    exact ⟨hreport, fun _ => hreturned out houtcome⟩
  | raised error =>
    cases error with
    | search own =>
      cases own with
      | reflectionFailed _ =>
        refine ⟨fun message heq => (by cases heq), fun output heq => ?_⟩
        cases heq
        exact ⟨hreport, fun _ => hraised _ houtcome⟩
      | value _ | key _ | upstream _ => simp
    | deferred intent =>
      refine ⟨fun message heq => (by cases heq), fun output heq => ?_⟩
      cases heq
      exact ⟨hreport, fun hnone => by cases hnone⟩
    | value _ | effectConflict _ | assertion _ | store _ | authority _ => simp

omit [GepaIdentity F] [PythonRandom] in
theorem putResult_grows (run : GepaRun F) (result : GepaStepResult F) (ref : TypedRef)
    (old : GepaStepResult F) (hold : run.results.get? ref = some old) :
    (run.put result).2.results.get? ref = some old := by
  unfold GepaRun.put
  cases hget : run.results.get? result.ref with
  | some other => exact hold
  | none =>
    have hne : ref ≠ result.ref := by
      rintro rfl
      simp [hget] at hold
    simp only [Dict.get?_set_ne _ _ _ _ hne]
    exact hold

omit [GepaIdentity F] [PythonRandom] in
theorem putResult_stored {result : GepaStepResult F} (hput : (run.put result).1 = true) :
    (run.put result).2.results.get? result.ref = some result := by
  unfold GepaRun.put at hput ⊢
  cases hget : run.results.get? result.ref with
  | some old =>
    simp only [hget, decide_eq_true_eq] at hput ⊢
    rw [hput]
  | none => simp

/-- A result that is stored and not bound changes nothing on the chain. -/
theorem Kept.put (hkept : Kept h chain run) (result : GepaStepResult F) :
    Kept h chain (run.put result).2 := by
  have hgrows := putResult_grows run result
  unfold GepaRun.put at hgrows ⊢
  split
  · exact hkept
  · rename_i hnone
    simp only [hnone] at hgrows
    exact { hkept with linked := hkept.linked.grow hgrows }

/-- A result that is bound records what its step resolved. -/
theorem Kept.bind (hkept : Kept h chain run) (result : GepaStepResult F)
    (hput : (run.put result).1 = true) (hprior : result.priorStepResultRef = run.head)
    (hindex : result.stepIndex = run.stepIndex) (hrun : result.runId = h.runId)
    (hreport : StepReport (chain.flatMap GepaStepResult.evidenceIds) [] h.runId run.stepIndex
      run.store.collected result.searchEvidence)
    (hcomplete : Complete h.inputs.adapter.context (h.search run.checkpoint) run.store)
    (hsound : Sound h.inputs.adapter.context run.stepIndex
      (chain.flatMap GepaStepResult.evidenceIds) (h.search run.checkpoint) run.store)
    (checkpoint : GepaStepCheckpoint) (status : StepStatus) :
    Kept h (result :: chain) { (run.put result).2 with
      head := some result.ref
      stepIndex := run.stepIndex + 1
      checkpoint := checkpoint
      status := status } := by
  have hstore : (run.put result).2.store = run.store := by
    unfold GepaRun.put
    split <;> rfl
  have hlog : (run.put result).2.log = run.log := by
    unfold GepaRun.put
    split <;> rfl
  refine ⟨⟨rfl, putResult_stored hput, ?_, ?_⟩, ?_, ?_, ?_, ?_, ?_⟩
  · rw [hindex, hkept.length]
  · rw [hprior]
    exact hkept.linked.grow (putResult_grows run result)
  · simp [hkept.length]
  · rw [hstore, List.flatMap_cons]
    exact hsound.next hcomplete hreport _
  · rw [List.flatMap_cons, List.nodup_append]
    refine ⟨hreport.nodup, hkept.once, fun id hmem other hother heq => ?_⟩
    obtain ⟨e,hemem,rfl⟩ := List.mem_map.mp hmem
    subst heq
    exact (hreport.fresh e hemem).1 hother
  · intro other hmem e hemem
    rcases List.mem_cons.mp hmem with rfl | hmem
    · obtain ⟨hrunId,hstep⟩ := hreport.bound e hemem
      exact ⟨hrunId.trans hrun.symm, hstep.trans hindex.symm, hrun⟩
    · exact hkept.bound other hmem e hemem
  · rw [hlog]
    exact hkept.reported

/-- An output keeps the run, whatever becomes of it. -/
theorem Kept.settle (hkept : Kept h chain run) (output : GepaOutput F) (fate : OutputFate)
    (hreport : StepReport (chain.flatMap GepaStepResult.evidenceIds) [] h.runId run.stepIndex
      run.store.collected output.searchEvidence)
    (hcomplete : output.optimEvalRequests = [] →
      Complete h.inputs.adapter.context (h.search run.checkpoint) run.store)
    (hsound : Sound h.inputs.adapter.context run.stepIndex
      (chain.flatMap GepaStepResult.evidenceIds) (h.search run.checkpoint) run.store) :
    Kept h (if fate = .bound ∧ (run.put (output.result h run)).1 = true ∧
        output.optimEvalRequests = [] then output.result h run :: chain else chain)
      (run.settle h output fate) := by
  cases fate with
  | lost => exact hkept
  | stored => exact hkept.put _
  | bound =>
    unfold GepaRun.settle
    dsimp only
    by_cases hfinal : (run.put (output.result h run)).1 = true ∧ output.optimEvalRequests = []
    · rw [if_pos ⟨rfl, hfinal⟩, if_pos hfinal]
      exact hkept.bind (output.result h run) hfinal.1 rfl rfl rfl hreport (hcomplete hfinal.2)
        hsound _ _
    · rw [if_neg fun hbound => hfinal hbound.2, if_neg hfinal]
      exact hkept.put _

/- Whether the store takes a result: it holds the same one or none under the reference. -/
def accepts (results : Dict TypedRef (GepaStepResult F)) (result : GepaStepResult F) : Bool :=
  match results.get? result.ref with
  | some old => decide (old = result)
  | none => true

omit [GepaIdentity F] [PythonRandom] in
theorem put_accepts (run : GepaRun F) (result : GepaStepResult F) :
    (run.put result).1 = accepts run.results result := by
  unfold GepaRun.put accepts
  cases run.results.get? result.ref <;> rfl

/- The chain behind an attempt. -/
def GepaHarness.chained (h : GepaHarness F) (run : GepaRun F) (answers : List (GepaAnswer F))
    (fate : OutputFate) (chain : List (GepaStepResult F)) : List (GepaStepResult F) :=
  match h.invoke run answers with
  | .output output =>
    if fate = .bound ∧ accepts run.results (output.result h run) = true ∧
        output.optimEvalRequests = [] then output.result h run :: chain
    else chain
  | _ => chain

/-- An attempt keeps the run, wherever it stops and whatever becomes of its output. -/
theorem Kept.attempt (hkept : Kept h chain run) (answers : List (GepaAnswer F))
    (fate : OutputFate) :
    Kept h (h.chained run answers fate chain) (run.attempt h answers fate) := by
  obtain ⟨hsound,_⟩ := drive_keeps h run answers hkept.sound
  obtain ⟨hreported,houtput⟩ := hkept.invoke answers
  have hdriven : Kept h chain { run with
      store := (h.drive run answers).state
      log := run.log ++ [((h.drive run answers).events, h.invoke run answers)] } := by
    refine { hkept with sound := hsound.begin, reported := fun entry hmem message => ?_ }
    rcases List.mem_append.mp hmem with hold | hnew
    · exact hkept.reported entry hold message
    · rw [List.mem_singleton.mp hnew]
      exact hreported message
  unfold GepaRun.attempt GepaHarness.chained
  dsimp only
  cases hinvoke : h.invoke run answers with
  | crashed | raised _ | unreported _ =>
    rw [hinvoke] at hdriven
    exact hdriven
  | output output =>
    rw [hinvoke] at hdriven
    obtain ⟨hreport,hcomplete⟩ := houtput output hinvoke
    have hsettled := hdriven.settle output fate hreport hcomplete hsound
    rw [put_accepts] at hsettled
    exact hsettled

omit [DecidableEq F] in
theorem Kept.fanin (hkept : Kept h chain run) (intentHash : String)
    (resolution : IntentResolution F) :
    Kept h chain { run with store := run.store.fanin intentHash resolution } := by
  have hfanin := hkept.sound.fanin intentHash resolution
  rw [← fanin_beginStep] at hfanin
  exact { hkept with sound := hfanin }

theorem Kept.step (hkept : Kept h chain run) (event : RunEvent F) :
    ∃ chain', Kept h chain' (GepaRun.step h run event) := by
  cases event with
  | attempt answers fate =>
    unfold GepaRun.step
    dsimp only
    split
    · exact ⟨_, hkept.attempt answers fate⟩
    · exact ⟨chain, hkept⟩
  | fanin intentHash resolution => exact ⟨chain, hkept.fanin intentHash resolution⟩

omit [DecidableEq F] in
theorem Kept.chain_eq (hkept : Kept h chain run) : run.chain = chain := by
  rw [GepaRun.chain, ← hkept.length]
  exact hkept.linked.chainFrom

/- A store in which nothing of a run stands. -/
structure Unstarted (context : GepaEffectContext) (s : GepaState F) : Prop where
  results : ∀ e : GepaEffect F, e.slot.context = context → s.bindings.get? (resultKey e) = none
  stored : ∀ ref intent, s.objects.get? ref = some (.intent intent) →
    intent.optimRunId ≠ context.runId
  resolved : ∀ hash resolution, s.intents.get? hash = some resolution →
    resolution.optimEvalRequest.optimRunId ≠ context.runId
  aliases : ∀ hash, s.bindings.get? (.alias context.runId hash) = none

omit [DecidableEq F] in
theorem Kept.start {s : GepaState F} (hs : Unstarted h.inputs.adapter.context s)
    (results : Dict TypedRef (GepaStepResult F)) : Kept h [] (.start s results) where
  linked := rfl
  length := rfl
  sound := {
    results := fun e ref hcontext hbound => by
      change s.bindings.get? (resultKey e) = some ref at hbound
      rw [hs.results e hcontext] at hbound
      cases hbound
    stored := fun ref intent hobj hrun => absurd hrun (hs.stored ref intent hobj)
    resolved := fun hash resolution hres hrun => absurd hrun (hs.resolved hash resolution hres)
    aliases := fun hash ref hbound => by
      change s.bindings.get? _ = some ref at hbound
      rw [hs.aliases hash] at hbound
      cases hbound
    reported := fun request hcontext hmem => by cases hmem
    collected := fun entry hmem => by cases hmem }
  once := List.nodup_nil
  bound result hmem := by cases hmem
  reported entry hmem := by cases hmem

theorem gepaRun_kept {s : GepaState F} (hs : Unstarted h.inputs.adapter.context s)
    (results : Dict TypedRef (GepaStepResult F)) (events : List (RunEvent F)) :
    ∃ chain, Kept h chain (gepaRun h s results events) := by
  unfold gepaRun
  have hstart : ∃ chain, Kept h chain (.start s results) := ⟨[], Kept.start hs results⟩
  generalize (GepaRun.start s results : GepaRun F) = run at hstart
  induction events generalizing run with
  | nil => exact hstart
  | cons event rest ih =>
    obtain ⟨chain,hkept⟩ := hstart
    exact ih _ (hkept.step event)

/-- In a run of the search with any upstream optimizer, with attempts that stop anywhere, with
outputs that are lost and with any deferrals, the evidence of a step is always reported; what a
Step Result reports is bound to its run and its step; and each request that was resolved in a
step of the chain stands in the evidence of the chain exactly once. -/
theorem gepaRun_evidence (h : GepaHarness F) (s : GepaState F)
    (hs : Unstarted h.inputs.adapter.context s) (results : Dict TypedRef (GepaStepResult F))
    (events : List (RunEvent F)) :
    let run := gepaRun h s results events
    (∀ entry ∈ run.log, ∀ message, entry.2 ≠ .unreported message) ∧
      (∀ result ∈ run.chain, ∀ e ∈ result.searchEvidence,
        e.optimRunId = result.runId ∧ e.optimStepIndex = result.stepIndex ∧
          result.runId = h.runId) ∧
      ∀ hash resolution, run.store.intents.get? hash = some resolution →
        resolution.optimEvalRequest.optimRunId = h.runId →
        resolution.optimEvalRequest.optimStepIndex < run.stepIndex →
        (run.chain.flatMap GepaStepResult.evidenceIds).count
          resolution.optimEvalRequest.evalRequest.requestId = 1 := by
  dsimp only
  obtain ⟨chain,hkept⟩ := gepaRun_kept (h := h) hs results events
  rw [hkept.chain_eq]
  refine ⟨hkept.reported, hkept.bound, fun hash resolution hres hrun hlt => ?_⟩
  obtain ⟨_,_,_,⟨_,hmem⟩ | ⟨hnow,_⟩⟩ := hkept.sound.resolved hash resolution hres hrun
  · exact List.count_eq_one_of_mem hkept.once hmem
  · omega

end Chains

/-! ### A search whose evaluations are deferred -/

section Example

attribute [local instance] exactFiniteFloats titledRewards firstChoice ordinalHashes

@[reducible] def countedResults : GepaResultIdentity Rat where
  resultHash result := marked 'k' result.stepIndex ++ marked 'v' result.searchEvidence.length

attribute [local instance] countedResults

def retainedSeed (total : Nat) : UpstreamResult Rat := perfectSearch.result total

abbrev UpstreamProg (α : Type) : Type := Prog (AdapterCall Rat) AdapterCall.Reply SearchError α

def reply {α : Type} (call : AdapterCall Rat) (next : call.Value → UpstreamProg α) :
    UpstreamProg α :=
  .call call fun
    | .ok value => next value
    | .error error => .raise error

/- The seed on the task, then once more with traces, a reflection on them and the text it
   proposes, unless the budget ends behind the seed. -/
def mutatingSearch : Optimize Rat := fun _ seed _ _ maxMetricCalls =>
  reply (.evaluate [oneTask] seed false) fun _ =>
    if maxMetricCalls ≤ 1 then .done (retainedSeed 1)
    else reply (.evaluate [oneTask] seed true) fun batch =>
      reply (.makeReflectiveDataset seed batch ["instruction"]) fun dataset =>
        reply (.proposeNewTexts seed dataset ["instruction"]) fun texts =>
          reply (.evaluate [oneTask] texts false) fun _ => .done (retainedSeed 3)

def assembled (text : String) : Candidate :=
  ⟨"candidate", ⟨"whetstone.candidate", "base"⟩, [("instruction", .str text)]⟩

def platformAuthority : CanonicalGepaEvalAuthority Rat where
  binding := toyAdapter.evaluationAuthority
  controlIdentityHash := "control"
  rewardPolicyHash := "policy"
  requireExact _ := .ok ()
  assemble components := .ok (assembled ((components.map GepaCandidateComponent.text).headD ""))
  dispatchMode := .platform

def platformHarness : GepaHarness Rat := ⟨mutatingSearch, toyInputs 3, platformAuthority⟩

theorem oneTask_known : validateTaskHashes (some ["task-hash"]) = .ok () := by decide

def deferredIntent (ordinal stepIndex : Nat) (text : String) : OptimEvalRequest where
  optimRunId := "run"
  optimStepIndex := stepIndex
  evalRequest := ⟨evalRequestId "run" (marked 'e' ordinal), assembled text,
    [("purpose", .str "gepa_metric")]⟩
  expectedRewardPolicyHash := some "policy"
  taskHashes := some ["task-hash"]
  valid := oneTask_known

theorem accuracy_known : validateRewardPolicy ["accuracy"] = .ok () := by decide

def accuracyPolicy : RewardPolicy Rat where
  policyName := "policy"
  rewardName := "accuracy"
  terms := [⟨"accuracy", exactFinite 1, true, exactFinite 0⟩]
  missingData := .fail
  valid := accuracy_known

def noReward : Reward Rat where
  rewardName := "accuracy"
  value := exactFinite 0
  rewardPolicy := accuracyPolicy
  evidenceRole := .internal
  inputCitations := [⟨"accuracy", some (exactFinite 0), exactFinite 0, false, rfl⟩]
  evidenceRefs := [⟨"whetstone.evidence", "aggregate"⟩]
  provenanceOrdinal := none
  valid := by decide +kernel

def resolvedFields (intent : OptimEvalRequest) : ResolutionFields Rat where
  optimEvalRequest := intent
  outcome := .completed
  detail := ⟨.measured, "measured"⟩
  evalResultRef := some ⟨Step.evalEvidenceSchema, "evidence"⟩
  rewardEvidenceRefs := [⟨"whetstone.evidence", "aggregate"⟩]
  resolvedEvalConfig := default
  rewardRef := some noReward
  terminalFailure := none

def resolvedIntent (ordinal stepIndex : Nat) (text : String) : IntentResolution Rat :=
  ⟨resolvedFields (deferredIntent ordinal stepIndex text), rfl⟩

def missedRow (captureTraces : Bool) : GepaEvaluationRow Rat where
  data := oneTask
  output := .str "answer"
  score := exactFinite 0
  objectiveScores := none
  trajectory := if captureTraces then
      some ⟨"task", .null, .null, "wrong", .empty, false, some 0, []⟩ else none
  evidenceRefs := [⟨"whetstone.evidence", "row"⟩]
  providerAttemptRefs := []
  failureRef := none
  valid := by cases captureTraces <;> decide

def proposedText : GepaProposalEffectResult Rat where
  requestHash := marked 'p' 2
  rawResponse := "Think first."
  parsedComponents := [⟨"instruction", "Think first."⟩]
  requestEvidence := [("request", .null)]
  responseEvidence := [("response", .null)]
  providerAttemptRefs := [⟨"whetstone.attempt", "reflection"⟩]
  usage := [("prompt_tokens", .int 7), ("completion_tokens", .int 5)]
  cost := some (exactFinite 1)
  failed := false
  failureDetail := none
  rejectedByParser := false
  valid := by decide

/- The answers to an evaluation that is deferred, one whose deferral is resolved, one on record,
   and a reflection that is asked for. -/
def deferringAnswers : List (GepaAnswer Rat) := List.replicate 9 .goesOn

def resumedAnswers (captureTraces : Bool) : List (GepaAnswer Rat) :=
  List.replicate 8 .goesOn ++ [.projected (.ok [missedRow captureTraces])] ++
    List.replicate 4 .goesOn

def recordedAnswers : List (GepaAnswer Rat) := List.replicate 6 .goesOn

def proposingAnswers : List (GepaAnswer Rat) :=
  List.replicate 4 .goesOn ++ [.proposed (.ok proposedText)] ++ List.replicate 5 .goesOn

def resolvedBy (ordinal stepIndex : Nat) (text : String) : RunEvent Rat :=
  .fanin (evalRequestId "run" (marked 'e' ordinal)) (resolvedIntent ordinal stepIndex text)

/- Two steps, with a process that stops behind the first recorded result and an output that is
   lost. -/
def interruptedRun : List (RunEvent Rat) :=
  [.attempt deferringAnswers .lost, resolvedBy 0 0 "Answer.",
    .attempt ((resumedAnswers false).take 11) .bound, .attempt recordedAnswers .bound,
    .attempt (recordedAnswers ++ deferringAnswers) .bound, resolvedBy 1 1 "Answer.",
    .attempt (recordedAnswers ++ resumedAnswers true ++ proposingAnswers ++ deferringAnswers) .bound,
    resolvedBy 3 1 "Think first.",
    .attempt (recordedAnswers ++ recordedAnswers ++ recordedAnswers.take 5 ++ resumedAnswers false)
      .lost,
    .attempt (recordedAnswers ++ recordedAnswers ++ recordedAnswers.take 5 ++ recordedAnswers)
      .bound]

theorem emptyStore_unstarted : Unstarted toyAdapter.context emptyStore where
  results _ _ := rfl
  stored _ _ h := by cases h
  resolved _ _ h := by cases h
  aliases _ := rfl

theorem gepaRun_evidence_deferred :
    let run := gepaRun platformHarness emptyStore .empty interruptedRun
    run.status = .complete ∧
      run.chain.flatMap GepaStepResult.evidenceIds = ["run:gepa:ei", "run:gepa:eiii", "run:gepa:e"] ∧
      (∀ entry ∈ run.log, ∀ message, entry.2 ≠ .unreported message) ∧
      ∀ hash resolution, run.store.intents.get? hash = some resolution →
        resolution.optimEvalRequest.optimRunId = "run" →
        resolution.optimEvalRequest.optimStepIndex < run.stepIndex →
        (run.chain.flatMap GepaStepResult.evidenceIds).count
          resolution.optimEvalRequest.evalRequest.requestId = 1 := by
  obtain ⟨hreported,_,honce⟩ := gepaRun_evidence platformHarness emptyStore emptyStore_unstarted
    .empty interruptedRun
  exact ⟨by decide +kernel, by decide +kernel, hreported, honce⟩

end Example

end Whetstone.Optim.Gepa
