import Whetstone.Optim.Gepa.HarnessRun
import Whetstone.Optim.Gepa.EffectReplay

/-! What an attempt of a step keeps, wherever it stops, so that its evidence can be reported:
each intent of the run is traced to a place of the step's search or to a recorded Step Result,
each recorded evaluation carries the resolution of its request, and what was collected names
the run and, where it was executed, the step. -/
namespace Whetstone.Optim.Gepa
open Whetstone.Core Whetstone.Lib Whetstone.Experiment Whetstone.Optim.Step

section Sound

variable {F : Type} [FiniteFloats F] [RewardIdentity F] [GepaIdentity F] {γ : Type}

/- A resolution of the run's request for an effect. -/
structure Owned (context : GepaEffectContext) (effectHash : String)
    (resolution : IntentResolution F) : Prop where
  run : resolution.optimEvalRequest.optimRunId = context.runId
  request : resolution.optimEvalRequest.evalRequest.requestId =
    evalRequestId context.runId effectHash

/- An intent of the current step stands at a place of its search; one of an earlier step is
   recorded. -/
def Traced (context : GepaEffectContext) (stepIndex : Nat) (ids : List String)
    (search : Prog (GepaEffect F) GepaEffect.Result SearchError γ)
    (record : (e : GepaEffect F) → Option e.Result) (intent : OptimEvalRequest) : Prop :=
  ∃ request : GepaEvaluationEffectRequest F, request.slot.context = context ∧
    intent.evalRequest.requestId =
      evalRequestId context.runId (GepaIdentity.evaluationHash request) ∧
    ((intent.optimStepIndex < stepIndex ∧ intent.evalRequest.requestId ∈ ids) ∨
      (intent.optimStepIndex = stepIndex ∧
        ∃ n, search.requested record n = some (.evaluate request)))

structure Sound (context : GepaEffectContext) (stepIndex : Nat) (ids : List String)
    (search : Prog (GepaEffect F) GepaEffect.Result SearchError γ) (s : GepaState F) : Prop where
  results : ∀ (e : GepaEffect F) ref, e.slot.context = context →
    s.bindings.get? (resultKey e) = some ref → ∃ record, s.objects.get? ref = some record ∧
      ∀ result, record = .evaluation result → result.requestHash = e.identityHash →
        ∃ resolution, result.resolution = some resolution ∧
          Owned context e.identityHash resolution
  stored : ∀ ref intent, s.objects.get? ref = some (.intent intent) →
    intent.optimRunId = context.runId →
    Traced context stepIndex ids search (recordedResult s) intent
  resolved : ∀ hash resolution, s.intents.get? hash = some resolution →
    resolution.optimEvalRequest.optimRunId = context.runId →
    Traced context stepIndex ids search (recordedResult s) resolution.optimEvalRequest
  aliases : ∀ hash ref, s.bindings.get? (.alias context.runId hash) = some ref →
    ∃ intent, s.objects.get? ref = some (.intent intent) ∧
      intent.optimRunId = context.runId ∧
      intent.evalRequest.requestId = evalRequestId context.runId hash
  reported : ∀ request : GepaEvaluationEffectRequest F, request.slot.context = context →
    evalRequestId context.runId (GepaIdentity.evaluationHash request) ∈ ids →
    ∃ r, recordedResult s (.evaluate request) = some r
  collected : ∀ entry ∈ s.collected,
    entry.1.optimEvalRequest.optimRunId = context.runId ∧
      (entry.2 = false → entry.1.optimEvalRequest.optimStepIndex = stepIndex)

variable {context : GepaEffectContext} {k : Nat} {ids : List String}
variable {search : Prog (GepaEffect F) GepaEffect.Result SearchError γ} {s t : GepaState F}

theorem Traced.mono {record record' : (e : GepaEffect F) → Option e.Result}
    (h : Extends record record') {intent : OptimEvalRequest}
    (ht : Traced context k ids search record intent) :
    Traced context k ids search record' intent := by
  obtain ⟨request,hcontext,hid,hstep⟩ := ht
  refine ⟨request, hcontext, hid, ?_⟩
  rcases hstep with hearlier | ⟨hnow,n,hn⟩
  · exact .inl hearlier
  · exact .inr ⟨hnow, n, Prog.requested_mono h hn⟩

/-- What leaves the intents, the results, the aliases and what was collected as they are. -/
theorem Sound.frame (h : Sound context k ids search s) (hgrows : Grows s t)
    (hobjects : ∀ ref intent, t.objects.get? ref = some (.intent intent) →
      s.objects.get? ref = some (.intent intent))
    (hresults : ∀ hash, t.bindings.get? (.result hash) = s.bindings.get? (.result hash))
    (haliases : ∀ run hash, t.bindings.get? (.alias run hash) = s.bindings.get? (.alias run hash))
    (hintents : t.intents = s.intents) (hcollected : t.collected = s.collected) :
    Sound context k ids search t where
  results e ref hcontext hbound := by
    rw [resultKey, hresults] at hbound
    obtain ⟨record,hrecord,howned⟩ := h.results e ref hcontext hbound
    exact ⟨record, hgrows.objects _ _ hrecord, howned⟩
  stored ref intent hstored hrun := (h.stored ref intent (hobjects _ _ hstored) hrun).mono
    hgrows.extends
  resolved hash resolution hresolved hrun := by
    rw [hintents] at hresolved
    exact (h.resolved hash resolution hresolved hrun).mono hgrows.extends
  aliases hash ref hbound := by
    rw [haliases] at hbound
    obtain ⟨intent,hintent,hrun,hid⟩ := h.aliases hash ref hbound
    exact ⟨intent, hgrows.objects _ _ hintent, hrun, hid⟩
  reported request hcontext hid := by
    obtain ⟨r,hr⟩ := h.reported request hcontext hid
    exact ⟨r, hgrows.extends _ _ hr⟩
  collected := by
    rw [hcollected]
    exact h.collected

/-- A recorded evaluation carries the resolution of its request. -/
theorem Sound.recorded (h : Sound context k ids search s)
    {request : GepaEvaluationEffectRequest F} (hcontext : request.slot.context = context)
    {r : GepaEvaluationEffectResult F} (hr : recordedResult s (.evaluate request) = some r) :
    ∃ resolution, r.resolution = some resolution ∧
      Owned context (GepaIdentity.evaluationHash request) resolution := by
  unfold recordedResult at hr
  cases hbound : s.bindings.get? (resultKey (.evaluate request)) with
  | none => simp [hbound] at hr
  | some ref =>
    obtain ⟨record,hrecord,howned⟩ := h.results (.evaluate request) ref hcontext hbound
    by_cases hschema : ref.schemaName = resultSchema (.evaluate request)
    · cases record with
      | evaluation result =>
        by_cases hhash : result.requestHash = GepaIdentity.evaluationHash request
        · have heq : result = r := by
            simpa [hbound, hschema, hrecord, pickResult, resultHash, GepaEffect.identityHash,
              hhash] using hr
          subst heq
          exact howned result rfl hhash
        · simp [hbound, hschema, hrecord, pickResult, resultHash, GepaEffect.identityHash,
            hhash] at hr
      | request e => simp [hbound, hschema, hrecord, pickResult] at hr
      | proposal result => simp [hbound, hschema, hrecord, pickResult] at hr
      | intent i => simp [hbound, hschema, hrecord, pickResult] at hr
    · simp [hbound, hschema] at hr

/-! ### Operations -/

theorem sound_bind (h : Sound context k ids search s) (key : EffectKey) (ref : TypedRef)
    (hresult : ∀ hash, key ≠ .result hash) (halias : ∀ run hash, key ≠ .alias run hash) :
    Sound context k ids search (s.bind key ref) := by
  refine h.frame (grows_bind s key ref) (fun ref' intent hstored => ?_) (fun hash => ?_)
    (fun run hash => ?_) ?_ ?_
  · unfold GepaState.bind at hstored
    split at hstored <;> exact hstored
  · exact bind_get_ne s key _ ref (hresult hash).symm
  · exact bind_get_ne s key _ ref (halias run hash).symm
  · unfold GepaState.bind
    split <;> rfl
  · unfold GepaState.bind
    split <;> rfl

omit [GepaIdentity F] in
theorem bind_objects (s : GepaState F) (key : EffectKey) (ref : TypedRef) :
    (s.bind key ref).objects = s.objects := by
  unfold GepaState.bind
  split <;> rfl

omit [GepaIdentity F] in
theorem bind_intents (s : GepaState F) (key : EffectKey) (ref : TypedRef) :
    (s.bind key ref).intents = s.intents := by
  unfold GepaState.bind
  split <;> rfl

omit [GepaIdentity F] in
theorem bind_collected (s : GepaState F) (key : EffectKey) (ref : TypedRef) :
    (s.bind key ref).collected = s.collected := by
  unfold GepaState.bind
  split <;> rfl

/-- A result binding may name a stored result that carries the resolution of its request. -/
theorem sound_bind_result (h : Sound context k ids search s) {e : GepaEffect F} {r : e.Result}
    (hstored : s.objects.get? (resultRecord e r).ref = some (resultRecord e r))
    (howned : ∀ result, resultRecord e r = .evaluation result →
      ∃ resolution, result.resolution = some resolution ∧
        Owned context e.identityHash resolution) :
    Sound context k ids search (s.bind (resultKey e) (resultRecord e r).ref) := by
  have hgrows := grows_bind s (resultKey e) (resultRecord e r).ref
  refine ⟨fun e' ref hcontext hbound => ?_, fun ref intent hobj hrun => ?_,
    fun hash resolution hres hrun => ?_, fun hash ref hbound => ?_,
    fun request hcontext hid => ?_, fun entry hmem => ?_⟩
  · rw [bind_objects]
    by_cases hhash : e'.identityHash = e.identityHash
    · have hkey : resultKey e' = resultKey e := by rw [resultKey, resultKey, hhash]
      cases hold : s.bindings.get? (resultKey e) with
      | some old =>
        rw [hkey, hgrows.bindings _ _ hold] at hbound
        cases hbound
        rw [← hkey] at hold
        exact h.results e' _ hcontext hold
      | none =>
        rw [hkey, bind_get, hold] at hbound
        cases hbound
        refine ⟨_, hstored, fun result hresult _ => ?_⟩
        rw [hhash]
        exact howned result hresult
    · have hne : resultKey e' ≠ resultKey e := fun heq => hhash (EffectKey.result.inj heq)
      rw [bind_get_ne _ _ _ _ hne] at hbound
      exact h.results e' ref hcontext hbound
  · rw [bind_objects] at hobj
    exact (h.stored ref intent hobj hrun).mono hgrows.extends
  · rw [bind_intents] at hres
    exact (h.resolved hash resolution hres hrun).mono hgrows.extends
  · rw [bind_get_ne _ _ _ _ (by simp [resultKey])] at hbound
    rw [bind_objects]
    exact h.aliases hash ref hbound
  · obtain ⟨result,hresult⟩ := h.reported request hcontext hid
    exact ⟨result, hgrows.extends _ _ hresult⟩
  · rw [bind_collected] at hmem
    exact h.collected entry hmem

/-- An alias may name a stored intent of the run for the effect. -/
theorem sound_bind_alias (h : Sound context k ids search s) {effectHash : String} {ref : TypedRef}
    {intent : OptimEvalRequest} (hstored : s.objects.get? ref = some (.intent intent))
    (hrun : intent.optimRunId = context.runId)
    (hid : intent.evalRequest.requestId = evalRequestId context.runId effectHash) :
    Sound context k ids search (s.bind (.alias context.runId effectHash) ref) := by
  have hgrows := grows_bind s (.alias context.runId effectHash) ref
  refine ⟨fun e' ref' hcontext hbound => ?_, fun ref' intent' hobj hrun' => ?_,
    fun hash resolution hres hrun' => ?_, fun hash ref' hbound => ?_,
    fun request hcontext hid' => ?_, fun entry hmem => ?_⟩
  · rw [bind_get_ne _ _ _ _ (by simp [resultKey])] at hbound
    rw [bind_objects]
    exact h.results e' ref' hcontext hbound
  · rw [bind_objects] at hobj
    exact (h.stored ref' intent' hobj hrun').mono hgrows.extends
  · rw [bind_intents] at hres
    exact (h.resolved hash resolution hres hrun').mono hgrows.extends
  · rw [bind_objects]
    by_cases hhash : hash = effectHash
    · subst hhash
      rw [bind_get] at hbound
      cases hold : s.bindings.get? (.alias context.runId hash) with
      | some old =>
        rw [hold] at hbound
        cases hbound
        exact h.aliases hash _ hold
      | none =>
        rw [hold] at hbound
        cases hbound
        exact ⟨intent, hstored, hrun, hid⟩
    · have hne : EffectKey.alias context.runId hash ≠ .alias context.runId effectHash :=
        fun heq => hhash (EffectKey.alias.inj heq).2
      rw [bind_get_ne _ _ _ _ hne] at hbound
      exact h.aliases hash ref' hbound
  · obtain ⟨result,hresult⟩ := h.reported request hcontext hid'
    exact ⟨result, hgrows.extends _ _ hresult⟩
  · rw [bind_collected] at hmem
    exact h.collected entry hmem

theorem sound_collect (h : Sound context k ids search s) {resolution : IntentResolution F}
    {replayed : Bool} (hrun : resolution.optimEvalRequest.optimRunId = context.runId)
    (hstep : replayed = false → resolution.optimEvalRequest.optimStepIndex = k) :
    Sound context k ids search { s with collected := s.collected ++ [(resolution, replayed)] } :=
  { h with
    collected := fun entry hmem => by
      rcases List.mem_append.mp hmem with hold | hnew
      · exact h.collected entry hold
      · rw [List.mem_singleton.mp hnew]
        exact ⟨hrun, hstep⟩ }

variable [DecidableEq F]

theorem put_objects (s : GepaState F) (record : EffectRecord F) (ref : TypedRef)
    (other : EffectRecord F) (h : (s.put record).2.objects.get? ref = some other) :
    s.objects.get? ref = some other ∨ (ref = record.ref ∧ other = record) := by
  unfold GepaState.put at h
  cases hget : s.objects.get? record.ref with
  | some old =>
    rw [hget] at h
    exact .inl h
  | none =>
    rw [hget] at h
    by_cases href : ref = record.ref
    · subst href
      simp only [Dict.get?_set_self, Option.some.injEq] at h
      exact .inr ⟨rfl, h.symm⟩
    · simp only [Dict.get?_set_ne _ _ _ _ href] at h
      exact .inl h

/-- A record that is no intent of the run may be stored, and so may a traced one. -/
theorem sound_put (h : Sound context k ids search s) (record : EffectRecord F)
    (htraced : ∀ intent, record = .intent intent → intent.optimRunId = context.runId →
      Traced context k ids search (recordedResult s) intent) :
    Sound context k ids search (s.put record).2 := by
  have hgrows := grows_put s record
  have hquiet := quiet_put s record
  refine ⟨fun e ref hcontext hbound => ?_, fun ref intent hobj hrun => ?_,
    fun hash resolution hres hrun => ?_, fun hash ref hbound => ?_,
    fun request hcontext hid => ?_, fun entry hmem => ?_⟩
  · rw [put_bindings] at hbound
    obtain ⟨old,hold,howned⟩ := h.results e ref hcontext hbound
    exact ⟨old, hgrows.objects _ _ hold, howned⟩
  · rcases put_objects s record ref _ hobj with hold | ⟨_,hnew⟩
    · exact (h.stored ref intent hold hrun).mono hgrows.extends
    · exact (htraced intent hnew.symm hrun).mono hgrows.extends
  · rw [hquiet.intents] at hres
    exact (h.resolved hash resolution hres hrun).mono hgrows.extends
  · rw [put_bindings] at hbound
    obtain ⟨intent,hintent,hrun,hid⟩ := h.aliases hash ref hbound
    exact ⟨intent, hgrows.objects _ _ hintent, hrun, hid⟩
  · obtain ⟨result,hresult⟩ := h.reported request hcontext hid
    exact ⟨result, hgrows.extends _ _ hresult⟩
  · rw [hquiet.collected] at hmem
    exact h.collected entry hmem

/-- The evaluation service binds resolutions of traced intents only. -/
theorem sound_resolveIntent (h : Sound context k ids search s) (mode : EvalDispatchMode)
    {intent : OptimEvalRequest} (answer : GepaAnswer F)
    (htraced : Traced context k ids search (recordedResult s) intent) :
    Sound context k ids search (s.resolveIntent mode intent answer).2 := by
  unfold GepaState.resolveIntent
  split
  · split <;> exact h
  · split
    · dsimp only
      split
      · refine sound_bind (sound_put h _ fun intent' heq _ => ?_) _ _ (by simp) (by simp)
        cases heq
        exact htraced
      · exact h
    · split
      · rename_i hanswer
        exact { h with
          resolved := fun hash resolution' hres hrun => by
            by_cases hhash : hash = GepaIdentity.intentHash F intent
            · subst hhash
              simp only [Dict.get?_set_self, Option.some.injEq] at hres
              subst hres
              rw [hanswer]
              exact htraced
            · simp only [Dict.get?_set_ne _ _ _ _ hhash] at hres
              exact h.resolved hash resolution' hres hrun }
      · exact h
    · exact h
    · exact h

/-- A service that resolves an intent answers that intent. -/
theorem resolveIntent_resolved {mode : EvalDispatchMode} {intent : OptimEvalRequest}
    {answer : GepaAnswer F} {resolution : IntentResolution F}
    (h : (s.resolveIntent mode intent answer).1 = .resolved resolution) :
    resolution.optimEvalRequest = intent := by
  unfold GepaState.resolveIntent at h
  split at h
  · split at h
    · rename_i heq
      cases h
      exact heq
    · cases h
  · split at h
    · dsimp only at h
      split at h <;> cases h
    · split at h
      · rename_i heq
        cases h
        exact heq
      · cases h
    · cases h
    · cases h

/-- A service that defers an intent has stored it under its key. -/
theorem resolveIntent_deferred {mode : EvalDispatchMode} {intent : OptimEvalRequest}
    {answer : GepaAnswer F} (h : (s.resolveIntent mode intent answer).1 = .deferred) :
    ∃ ref, (s.resolveIntent mode intent answer).2.bindings.get?
        (.platformIntent (GepaIdentity.intentHash F intent)) = some ref ∧
      (s.resolveIntent mode intent answer).2.objects.get? ref = some (.intent intent) := by
  unfold GepaState.resolveIntent at h ⊢
  split at h
  · split at h <;> cases h
  · split at h
    · dsimp only at h ⊢
      split at h
      · rename_i hput
        rw [if_pos hput]
        refine ⟨_, bind_get _ _ _, ?_⟩
        rw [bind_objects, put_bindings, hput.2]
        exact put_stored hput.1
      · cases h
    · split at h <;> cases h
    · cases h
    · cases h

theorem resolveIntent_collected (mode : EvalDispatchMode) (intent : OptimEvalRequest)
    (answer : GepaAnswer F) : (s.resolveIntent mode intent answer).2.collected = s.collected := by
  unfold GepaState.resolveIntent
  split
  · split <;> rfl
  · split
    · dsimp only
      split
      · rw [bind_collected, (quiet_put s _).collected]
      · rfl
    · split <;> rfl
    · rfl
    · rfl

end Sound
end Whetstone.Optim.Gepa
