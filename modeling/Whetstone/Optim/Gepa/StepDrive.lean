import Whetstone.Optim.Gepa.StepEvidence

/-! The programs of an attempt keep it sound, and where the search of a step has come to, every
evaluation in front has been collected and recorded. -/
namespace Whetstone.Optim.Gepa
open Whetstone.Core Whetstone.Lib Whetstone.Experiment Whetstone.Optim.Step

section Programs

variable {F : Type} [FiniteFloats F] [RewardIdentity F] [GepaIdentity F] [DecidableEq F]
variable {α γ : Type} {context : GepaEffectContext} {k : Nat} {ids : List String}
variable {search : Prog (GepaEffect F) GepaEffect.Result SearchError γ} {s : GepaState F}

/- What the broker raises is no error of the search itself. -/
def GepaError.Foreign : GepaError → Prop
  | .search _ => False
  | _ => True

def reporting (context : GepaEffectContext) (k : Nat) (ids : List String)
    (search : Prog (GepaEffect F) GepaEffect.Result SearchError γ) :
    Promise (GepaState F) (GepaOp F) Empty where
  live := False
  step _ _ := True
  durable := Sound context k ids search
  error _ := True

/- A state that grew, with nothing collected. -/
structure Beside (s t : GepaState F) : Prop extends Grows s t where
  collected : t.collected = s.collected

omit [GepaIdentity F] [DecidableEq F] in
theorem Beside.trans {s t u : GepaState F} (h : Beside s t) (h' : Beside t u) : Beside s u :=
  ⟨h.toGrows.trans h'.toGrows, h'.collected.trans h.collected⟩

omit [GepaIdentity F] [DecidableEq F] in
theorem Beside.refl (s : GepaState F) : Beside s s := ⟨Grows.refl s, rfl⟩

omit [GepaIdentity F] [DecidableEq F] in
theorem beside_bind (s : GepaState F) (key : EffectKey) (ref : TypedRef) :
    Beside s (s.bind key ref) := ⟨grows_bind s key ref, bind_collected s key ref⟩

theorem beside_put (s : GepaState F) (record : EffectRecord F) : Beside s (s.put record).2 :=
  ⟨grows_put s record, (quiet_put s record).collected⟩

/-! ### The recorder -/

theorem drives_storePut (hs : Sound context k ids search s) (record : EffectRecord F)
    (hintent : ∀ intent, record ≠ .intent intent) :
    (settled (storePut record)).Holds execOp (reporting context k ids search)
      (fun x t => Beside s t ∧ match x with
        | .ok () => t.objects.get? record.ref = some record
        | .error error => error.Foreign) s := by
  have hput : Sound context k ids search (s.put record).2 :=
    sound_put hs record fun intent heq => absurd heq (hintent intent)
  refine holds_op not_false (.put record) _ hs trivial fun answer => ⟨hput, ?_⟩
  change (settled (if (s.put record).1 = true then _ else _)).Holds _ _ _ (s.put record).2
  by_cases hstored : (s.put record).1 = true
  · rw [if_pos hstored]
    exact ⟨hput, beside_put s record, put_stored hstored⟩
  · rw [if_neg hstored]
    exact ⟨hput, beside_put s record, trivial⟩

theorem drives_recordRequest (hs : Sound context k ids search s) (e : GepaEffect F) :
    (settled (recordRequest e)).Holds execOp (reporting context k ids search)
      (fun x t => Beside s t ∧ match x with
        | .ok () => True
        | .error error => error.Foreign) s := by
  refine Prog.holds_reify_bind (drives_storePut hs (.request e) (by simp)) (fun _ t ht hq => ?_)
    fun _ _ _ hq => hq
  have hbind := sound_bind ht (slotKey e) (EffectRecord.request e).ref (by simp [slotKey])
    (by simp [slotKey])
  have hst := hq.1.trans (beside_bind t (slotKey e) (EffectRecord.request e).ref)
  refine holds_op not_false (.bind (slotKey e) (EffectRecord.request e).ref) _ ht trivial
    fun _ => ⟨hbind, ?_⟩
  refine holds_op not_false (.resolve (slotKey e)) _ hbind trivial fun _ => ⟨hbind, ?_⟩
  change (settled (if (t.bind (slotKey e) (EffectRecord.request e).ref).bindings.get? (slotKey e) =
    some (EffectRecord.request e).ref then _ else _)).Holds _ _ _ _
  by_cases hslot : (t.bind (slotKey e) (EffectRecord.request e).ref).bindings.get? (slotKey e) =
      some (EffectRecord.request e).ref
  · rw [if_pos hslot]
    exact ⟨hbind, hst, trivial⟩
  · rw [if_neg hslot]
    exact ⟨hbind, hst, trivial⟩

/-- The loader answers with the recorded result or raises; it changes nothing. -/
theorem holds_loaded {C : Promise (GepaState F) (GepaOp F) Empty} (hlive : ¬ C.live)
    (hstep : ∀ o s, C.step o s) (hs : C.durable s) (e : GepaEffect F) :
    (settled (loadResult e)).Holds execOp C (fun x t => t = s ∧ match x with
      | .ok r => r = recordedResult s e
      | .error error => error.Foreign) s := by
  refine holds_op hlive (.resolve (resultKey e)) _ hs (hstep _ _) fun _ => ⟨hs, ?_⟩
  simp only [performOp]
  cases hbound : s.bindings.get? (resultKey e) with
  | none => exact ⟨hs, rfl, by simp [recordedResult, hbound]⟩
  | some ref =>
    by_cases hschema : ref.schemaName = resultSchema e
    · simp only [hschema, ne_eq, not_true_eq_false, if_false]
      refine holds_op hlive (.get ref : GepaOp F) _ hs (hstep _ _) fun _ => ⟨hs, ?_⟩
      simp only [performOp]
      cases hpick : (s.objects.get? ref).bind (pickResult e) with
      | none => exact ⟨hs, rfl, trivial⟩
      | some r =>
        by_cases hhash : resultHash e r = e.identityHash
        · simp only [hhash, not_true_eq_false, if_false]
          exact ⟨hs, rfl, by simp [recordedResult, hbound, hschema, hpick, hhash]⟩
        · simp only [hhash, not_false_eq_true, if_true]
          exact ⟨hs, rfl, trivial⟩
    · simp only [ne_eq, hschema, not_false_eq_true, if_true]
      exact ⟨hs, rfl, trivial⟩

theorem drives_loadResult (hs : Sound context k ids search s) (e : GepaEffect F) :
    (settled (loadResult e)).Holds execOp (reporting context k ids search)
      (fun x t => t = s ∧ match x with
        | .ok r => r = recordedResult s e
        | .error error => error.Foreign) s :=
  holds_loaded not_false (fun _ _ => trivial) hs e

theorem drives_recordResult (hs : Sound context k ids search s) (e : GepaEffect F) (r : e.Result)
    (howned : ∀ result, resultRecord e r = .evaluation result →
      ∃ resolution, result.resolution = some resolution ∧
        Owned context e.identityHash resolution) :
    (settled (recordResult e r)).Holds execOp (reporting context k ids search)
      (fun x t => Beside s t ∧ match x with
        | .ok found => found = r ∧ recordedResult t e = some r
        | .error error => error.Foreign) s := by
  unfold recordResult
  by_cases hhash : resultHash e r = e.identityHash
  · simp only [hhash, ne_eq, not_true_eq_false, if_false]
    refine Prog.holds_reify_bind (drives_storePut hs (resultRecord e r) (by cases e <;> simp
      [resultRecord])) (fun _ t ht hq => ?_) fun _ _ _ hq => hq
    obtain ⟨hst,hstored⟩ := hq
    have hbind := sound_bind_result ht hstored howned
    have hst' := hst.trans (beside_bind t (resultKey e) (resultRecord e r).ref)
    refine holds_op not_false (.bind (resultKey e) (resultRecord e r).ref) _ ht trivial
      fun _ => ⟨hbind, ?_⟩
    refine Prog.holds_reify_bind (drives_loadResult hbind e) (fun loaded u hu hq => ?_)
      fun error u _ hq => ?_
    · obtain ⟨rfl,hloaded⟩ := hq
      cases loaded with
      | none => exact ⟨hu, hst', trivial⟩
      | some found =>
        dsimp only
        by_cases heq : found = r
        · rw [if_pos heq]
          subst heq
          exact ⟨hu, hst', rfl, hloaded.symm⟩
        · rw [if_neg heq]
          exact ⟨hu, hst', trivial⟩
    · obtain ⟨rfl,hforeign⟩ := hq
      exact ⟨hst', hforeign⟩
  · simp only [ne_eq, hhash, not_false_eq_true, if_true]
    exact ⟨hs, Beside.refl s, trivial⟩

/-! ### Effects -/

theorem drives_authorized {β : Type} (x : Except String β) (hs : Sound context k ids search s) :
    (settled (authorized x : GepaProg F β)).Holds execOp (reporting context k ids search)
      (fun x t => t = s ∧ ∀ error, x = .error error → error.Foreign) s := by
  cases x with
  | ok b => exact ⟨hs, rfl, fun _ h => by cases h⟩
  | error message =>
    refine ⟨hs, rfl, fun _ h => ?_⟩
    cases h
    trivial

/-- A reflection collects nothing and is on record afterwards. -/
theorem drives_proposeRecorded (hs : Sound context k ids search s)
    (request : GepaProposalEffectRequest) :
    (settled (proposeRecorded request)).Holds execOp (reporting context k ids search)
      (fun x t => Beside s t ∧ match x with
        | .ok r => recordedResult t (.propose request) = some r
        | .error error => error.Foreign) s := by
  have hbroker : (settled (brokerPropose request)).Holds execOp (reporting context k ids search)
      (fun x t => Beside s t ∧ match x with
        | .ok (r, _) => recordedResult t (.propose request) = some r
        | .error error => error.Foreign) s := by
    refine Prog.holds_reify_bind (drives_recordRequest hs (.propose request))
      (fun _ t ht hq => ?_) fun _ _ _ hq => hq
    refine Prog.holds_reify_bind (drives_loadResult ht (.propose request))
      (fun cached u hu hloaded => ?_) fun error u _ hloaded => ?_
    · obtain ⟨rfl,hcached⟩ := hloaded
      cases cached with
      | some r => exact ⟨hu, hq.1, hcached.symm⟩
      | none =>
        refine holds_op not_false (.propose request) _ hu trivial fun answer => ⟨hu, ?_⟩
        refine Prog.holds_reify_bind (drives_authorized _ hu) (fun r v hv hq' => ?_)
          fun error v _ hq' => ?_
        · obtain ⟨rfl,_⟩ := hq'
          refine Prog.holds_reify_bind (drives_recordResult hv (.propose request) r
            (by simp [resultRecord])) (fun found w hw hq'' => ?_) fun error w _ hq'' => ?_
          · obtain ⟨hvw,rfl,hrecorded⟩ := hq''
            exact ⟨hw, hq.1.trans hvw, hrecorded⟩
          · exact ⟨hq.1.trans hq''.1, hq''.2⟩
        · obtain ⟨rfl,hforeign⟩ := hq'
          exact ⟨hq.1, hforeign error rfl⟩
    · obtain ⟨rfl,hforeign⟩ := hloaded
      exact ⟨hq.1, hforeign⟩
  refine Prog.holds_reify_bind hbroker (fun out t ht hq => ?_) fun _ _ _ hq => hq
  obtain ⟨r,replayed⟩ := out
  obtain ⟨hst,hrecorded⟩ := hq
  cases replayed with
  | true => exact ⟨ht, hst, hrecorded⟩
  | false =>
    simp only [Bool.false_eq_true, if_false]
    cases proposalCallUsage r with
    | error message => exact ⟨ht, hst, trivial⟩
    | ok usage =>
      cases usage with
      | none => exact ⟨ht, hst, hrecorded⟩
      | some usage =>
        have hspend : Sound context k ids search { t with spent := t.spent ++ [usage] } := { ht with }
        have hgrows : Beside t { t with spent := t.spent ++ [usage] } :=
          ⟨⟨fun _ _ h => h, fun _ _ h => h⟩, rfl⟩
        refine holds_op not_false (.spend usage : GepaOp F) _ ht trivial fun _ => ⟨hspend, ?_⟩
        exact ⟨hspend, hst.trans hgrows, hgrows.extends _ _ hrecorded⟩

theorem drives_valued {β : Type} (x : Except String β) (hs : Sound context k ids search s) :
    (settled (valued x : GepaProg F β)).Holds execOp (reporting context k ids search)
      (fun y t => t = s ∧ match y with
        | .ok b => x = .ok b
        | .error error => error.Foreign) s := by
  cases x with
  | ok b => exact ⟨hs, rfl, rfl⟩
  | error message => exact ⟨hs, rfl, trivial⟩

/-- A check leaves the state as it is; where it fails, its error is raised. -/
theorem drives_checked {β : Type} (hs : Sound context k ids search s) (x : Except String β)
    {f : β → GepaProg F α} {Q : Except GepaError α → GepaState F → Prop}
    (herror : ∀ error : GepaError, error.Foreign → Q (.error error) s)
    (hf : ∀ b, x = .ok b →
      (settled (f b)).Holds execOp (reporting context k ids search) Q s) :
    (settled ((valued x).bind f)).Holds execOp (reporting context k ids search) Q s := by
  cases x with
  | ok b => exact hf b rfl
  | error message => exact ⟨hs, herror _ trivial⟩

/- An intent of the current step for an effect. -/
structure Named (context : GepaEffectContext) (k : Nat) (effectHash : String)
    (intent : OptimEvalRequest) : Prop where
  run : intent.optimRunId = context.runId
  request : intent.evalRequest.requestId = evalRequestId context.runId effectHash
  step : intent.optimStepIndex = k

omit [DecidableEq F] in
theorem mintIntent_named {authority : CanonicalGepaEvalAuthority F}
    {request : GepaEvaluationEffectRequest F} {candidate : Candidate} {intent : OptimEvalRequest}
    (h : authority.mintIntent request candidate k = .ok intent) :
    Named request.slot.context k (GepaIdentity.evaluationHash request) intent := by
  unfold CanonicalGepaEvalAuthority.mintIntent at h
  dsimp only at h
  split at h
  · cases h
    exact ⟨rfl, rfl, rfl⟩
  · cases h

omit [DecidableEq F] in
/-- Where an effect has no result, no earlier step has recorded its evaluation, so an intent that
stands in for it is the current step's. -/
theorem Sound.alias_named (h : Sound context k ids search s)
    {request : GepaEvaluationEffectRequest F} (hcontext : request.slot.context = context)
    (hnone : recordedResult s (.evaluate request) = none) {ref : TypedRef}
    {intent : OptimEvalRequest}
    (hbound : s.bindings.get? (.alias context.runId (GepaIdentity.evaluationHash request)) = some ref)
    (hstored : s.objects.get? ref = some (.intent intent)) :
    Named context k (GepaIdentity.evaluationHash request) intent ∧
      Traced context k ids search (recordedResult s) intent := by
  obtain ⟨intent',hintent',hrun,hid⟩ := h.aliases _ ref hbound
  rw [hstored] at hintent'
  cases hintent'
  have htraced := h.stored ref intent hstored hrun
  refine ⟨⟨hrun, hid, ?_⟩, htraced⟩
  obtain ⟨_,_,_,⟨_,hearlier⟩ | ⟨hnow,_⟩⟩ := htraced
  · rw [hid] at hearlier
    obtain ⟨r,hr⟩ := h.reported request hcontext hearlier
    simp [hr] at hnone
  · exact hnow

theorem drives_aliased (hs : Sound context k ids search s)
    {request : GepaEvaluationEffectRequest F} (hcontext : request.slot.context = context)
    (hnone : recordedResult s (.evaluate request) = none) {n : Nat}
    (he : search.requested (recordedResult s) n = some (.evaluate request))
    {minted : OptimEvalRequest}
    (hminted : Named context k (GepaIdentity.evaluationHash request) minted) :
    (settled (CanonicalGepaEvalAuthority.aliased request minted)).Holds execOp
      (reporting context k ids search) (fun x t => t = s ∧ match x with
        | .ok intent => Named context k (GepaIdentity.evaluationHash request) intent ∧
            Traced context k ids search (recordedResult s) intent
        | .error error => error.Foreign) s := by
  refine holds_op not_false (.resolve (CanonicalGepaEvalAuthority.aliasKey request)) _ hs trivial
    fun _ => ⟨hs, ?_⟩
  simp only [performOp, CanonicalGepaEvalAuthority.aliasKey, hcontext]
  cases hbound : s.bindings.get? (.alias context.runId (GepaIdentity.evaluationHash request)) with
  | none =>
    exact ⟨hs, rfl, hminted, request, hcontext, hminted.request, .inr ⟨hminted.step, n, he⟩⟩
  | some ref =>
    refine holds_op not_false (.get ref : GepaOp F) _ hs trivial fun _ => ⟨hs, ?_⟩
    simp only [performOp]
    cases hstored : s.objects.get? ref with
    | none => exact ⟨hs, rfl, trivial⟩
    | some record =>
      cases record with
      | intent intent => exact ⟨hs, rfl, hs.alias_named hcontext hnone hbound hstored⟩
      | request _ | evaluation _ | proposal _ => exact ⟨hs, rfl, trivial⟩

theorem drives_bindOnce (hs : Sound context k ids search s) {key : EffectKey} {ref : TypedRef}
    (hbind : Sound context k ids search (s.bind key ref)) :
    (settled (bindOnce key ref : GepaProg F Unit)).Holds execOp (reporting context k ids search)
      (fun x t => Beside s t ∧ ∀ error, x = .error error → error.Foreign) s := by
  refine holds_op not_false (.resolve key) _ hs trivial fun _ => ⟨hs, ?_⟩
  simp only [performOp]
  cases hheld : s.bindings.get? key with
  | none =>
    refine ⟨hs, trivial, fun answer => ?_⟩
    have hbeside := beside_bind s key ref
    cases answer with
    | stopsBefore => exact ⟨hs, fun hl => hl.elim, fun r hr => by cases hr⟩
    | stopsBehind => exact ⟨hbind, fun hl => hl.elim, fun r hr => by cases hr⟩
    | goesOn | evaluated _ | proposed _ | resolved _ | projected _ =>
      exact ⟨hbind, fun _ => rfl, fun r _ => ⟨hbind, hbeside, fun _ h => by cases h⟩⟩
  | some other =>
    by_cases hsame : other = ref
    · simp only [hsame, if_true]
      exact ⟨hs, Beside.refl s, fun _ h => by cases h⟩
    · simp only [hsame, if_false]
      refine ⟨hs, Beside.refl s, fun _ h => ?_⟩
      cases h
      trivial

/-- An intent is resolved, or its deferral is remembered under the effect. -/
theorem drives_resolveIntent (authority : CanonicalGepaEvalAuthority F)
    (hs : Sound context k ids search s) {request : GepaEvaluationEffectRequest F}
    (hcontext : request.slot.context = context) {intent : OptimEvalRequest}
    (hnamed : Named context k (GepaIdentity.evaluationHash request) intent)
    (htraced : Traced context k ids search (recordedResult s) intent) :
    (settled (authority.resolveIntent request intent)).Holds execOp
      (reporting context k ids search) (fun x t => Beside s t ∧ match x with
        | .ok resolution => resolution.optimEvalRequest = intent
        | .error error => error.Foreign) s := by
  refine holds_op not_false (.resolveIntent authority.dispatchMode intent) _ hs trivial
    fun answer => ?_
  have ht := sound_resolveIntent hs authority.dispatchMode answer htraced
  have hst : Beside s (s.resolveIntent authority.dispatchMode intent answer).2 :=
    ⟨grows_resolveIntent s _ _ _, resolveIntent_collected _ _ _⟩
  refine ⟨ht, ?_⟩
  simp only [performOp]
  cases hreply : (s.resolveIntent authority.dispatchMode intent answer).1 with
  | resolved resolution => exact ⟨ht, hst, resolveIntent_resolved hreply⟩
  | raised message => exact ⟨ht, hst, trivial⟩
  | deferred =>
    obtain ⟨ref,hbound,hstored⟩ := resolveIntent_deferred hreply
    generalize hnext : (s.resolveIntent authority.dispatchMode intent answer).2 = t at *
    refine holds_op not_false (.resolve (.platformIntent (GepaIdentity.intentHash F intent))) _ ht
      trivial fun _ => ⟨ht, ?_⟩
    simp only [performOp, hbound]
    have hbind := sound_bind_alias ht hstored hnamed.run hnamed.request
    have hkey : CanonicalGepaEvalAuthority.aliasKey request =
        .alias context.runId (GepaIdentity.evaluationHash request) := by
      rw [CanonicalGepaEvalAuthority.aliasKey, hcontext]
    rw [← hkey] at hbind
    refine Prog.holds_reify_bind (drives_bindOnce ht hbind) (fun _ u hu hq => ?_)
      fun error u _ hq => ?_
    · exact ⟨hu, hst.trans hq.1, trivial⟩
    · exact ⟨hst.trans hq.1, hq.2 error rfl⟩

omit [DecidableEq F] in
theorem projectedResult_ok {request : GepaEvaluationEffectRequest F}
    {resolution : IntentResolution F} {rows : List (GepaEvaluationRow F)}
    {result : GepaEvaluationEffectResult F}
    (h : projectedResult request resolution rows = .ok result) :
    result.resolution = some resolution := by
  unfold projectedResult at h
  dsimp only at h
  split at h
  · cases h
    rfl
  · cases h

/-- What an evaluation leaves behind: one more collected resolution, of the effect's request. -/
def Collects (context : GepaEffectContext) (effectHash : String) (s t : GepaState F) : Prop :=
  ∃ resolution replayed, t.collected = s.collected ++ [(resolution, replayed)] ∧
    Owned context effectHash resolution

theorem project_state (request : GepaEvaluationEffectRequest F) (resolution : IntentResolution F)
    (answer : GepaAnswer F) (s : GepaState F) :
    (performOp (.project request resolution) answer s).2 = s := by
  cases answer <;> rfl

theorem drives_evaluate (authority : CanonicalGepaEvalAuthority F)
    (hs : Sound context k ids search s) {request : GepaEvaluationEffectRequest F}
    (hcontext : request.slot.context = context)
    (hnone : recordedResult s (.evaluate request) = none) {n : Nat}
    (he : search.requested (recordedResult s) n = some (.evaluate request)) :
    (settled (authority.evaluate k request)).Holds execOp (reporting context k ids search)
      (fun x t => Grows s t ∧ match x with
        | .ok r => Collects context (GepaIdentity.evaluationHash request) s t ∧
            ∃ resolution, r.resolution = some resolution ∧
              Owned context (GepaIdentity.evaluationHash request) resolution
        | .error error => error.Foreign) s := by
  -- the checks in front of the intent leave the state as it is
  have hrefused : ∀ error : GepaError, error.Foreign → Grows s s ∧ error.Foreign :=
    fun _ h => ⟨Grows.refl s, h⟩
  refine drives_checked hs _ hrefused fun _ _ => drives_checked hs _ hrefused fun _ _ =>
    drives_checked hs _ hrefused fun candidate _ =>
      drives_checked hs _ hrefused fun minted hminted => ?_
  have hnamed := mintIntent_named hminted
  rw [hcontext] at hnamed
  refine Prog.holds_reify_bind (drives_aliased hs hcontext hnone he hnamed)
    (fun intent t ht hq => ?_) fun error t _ hq => ?_
  swap
  · obtain ⟨rfl,hforeign⟩ := hq
    exact ⟨Grows.refl _, hforeign⟩
  obtain ⟨rfl,hnamed,htraced⟩ := hq
  refine Prog.holds_reify_bind (drives_resolveIntent authority hs hcontext hnamed htraced)
    (fun resolution u hu hq => ?_) fun error u _ hq => ⟨hq.1.toGrows, hq.2⟩
  obtain ⟨hbeside,hanswers⟩ := hq
  have howned : Owned context (GepaIdentity.evaluationHash request) resolution :=
    ⟨hanswers ▸ hnamed.run, hanswers ▸ hnamed.request⟩
  have hcollect : Sound context k ids search
      { u with collected := u.collected ++ [(resolution, false)] } :=
    sound_collect hu howned.run fun _ => hanswers ▸ hnamed.step
  have hgrows : Grows t { u with collected := u.collected ++ [(resolution, false)] } :=
    hbeside.toGrows.trans ⟨fun _ _ h => h, fun _ _ h => h⟩
  refine holds_op not_false (.collect resolution false) _ hu trivial fun _ => ⟨hcollect, ?_⟩
  refine holds_op not_false (.project request resolution) _ hcollect trivial fun answer => ?_
  rw [project_state]
  refine ⟨hcollect, ?_⟩
  refine drives_checked hcollect _ (fun _ h => ⟨hgrows, h⟩) fun rows _ => ?_
  refine Prog.holds_mono (drives_valued _ hcollect) fun x v _ hq => ?_
  obtain ⟨rfl,hx⟩ := hq
  refine ⟨hgrows, ?_⟩
  cases x with
  | error error => exact hx
  | ok result =>
    refine ⟨⟨resolution, false, ?_, howned⟩, resolution, projectedResult_ok hx, howned⟩
    rw [hbeside.collected]

theorem drives_brokerEvaluate (authority : CanonicalGepaEvalAuthority F)
    (hs : Sound context k ids search s) {request : GepaEvaluationEffectRequest F}
    (hcontext : request.slot.context = context) {n : Nat}
    (he : search.requested (recordedResult s) n = some (.evaluate request)) :
    (settled (brokerEvaluate (authority.began k) request)).Holds execOp
      (reporting context k ids search) (fun x t => Grows s t ∧ match x with
        | .ok r => recordedResult t (.evaluate request) = some r ∧
            Collects context (GepaIdentity.evaluationHash request) s t
        | .error error => error.Foreign) s := by
  refine Prog.holds_reify_bind (drives_recordRequest hs (.evaluate request))
    (fun _ t ht hq => ?_) fun error t _ hq => ⟨hq.1.toGrows, hq.2⟩
  have hst := hq.1
  refine Prog.holds_reify_bind (drives_loadResult ht (.evaluate request))
    (fun cached u hu hloaded => ?_) fun error u _ hloaded => ?_
  swap
  · obtain ⟨rfl,hforeign⟩ := hloaded
    exact ⟨hst.toGrows, hforeign⟩
  obtain ⟨rfl,hcached⟩ := hloaded
  cases cached with
  | some r =>
    obtain ⟨resolution,hresolution,howned⟩ := hu.recorded hcontext hcached.symm
    have hcollect : Sound context k ids search
        { u with collected := u.collected ++ [(resolution, true)] } :=
      sound_collect hu howned.run fun h => by cases h
    have hgrows : Grows u { u with collected := u.collected ++ [(resolution, true)] } :=
      ⟨fun _ _ h => h, fun _ _ h => h⟩
    change (settled ((CanonicalGepaEvalAuthority.collectReplayed r).bind _)).Holds _ _ _ _
    simp only [CanonicalGepaEvalAuthority.collectReplayed, hresolution]
    refine holds_op not_false (.collect resolution true) _ hu trivial fun _ => ⟨hcollect, ?_⟩
    refine ⟨hcollect, hst.toGrows.trans hgrows, hgrows.extends _ _ hcached.symm,
      resolution, true, ?_, howned⟩
    simp [performOp, hst.collected]
  | none =>
    have he' := Prog.requested_mono hst.extends he
    refine Prog.holds_reify_bind (drives_evaluate authority hu hcontext hcached.symm he')
      (fun r v hv hq' => ?_) fun error v _ hq' => ⟨hst.toGrows.trans hq'.1, hq'.2⟩
    obtain ⟨huv,⟨resolution,replayed,hcollected,howned⟩,hresult⟩ := hq'
    refine Prog.holds_mono (drives_recordResult hv (.evaluate request) r fun result heq => ?_)
      fun x w _ hq'' => ?_
    · cases heq
      exact hresult
    · obtain ⟨hvw,hx⟩ := hq''
      refine ⟨hst.toGrows.trans (huv.trans hvw.toGrows), ?_⟩
      cases x with
      | error error => exact hx
      | ok found =>
        obtain ⟨rfl,hrecorded⟩ := hx
        refine ⟨hrecorded, resolution, replayed, ?_, howned⟩
        rw [hvw.collected, hcollected, hst.collected]

/-! ### The search of a step -/

/- Where the search has come to: the evaluations in front have been collected, and what was
   collected is recorded. -/
structure Reached (context : GepaEffectContext)
    (search : Prog (GepaEffect F) GepaEffect.Result SearchError γ) (n : Nat)
    (s : GepaState F) : Prop where
  covered : ∀ m request, m < n →
    search.requested (recordedResult s) m = some (.evaluate request) →
    ∃ entry ∈ s.collected, entry.1.optimEvalRequest.evalRequest.requestId =
      evalRequestId context.runId (GepaIdentity.evaluationHash request)
  recorded : ∀ entry ∈ s.collected, ∃ request : GepaEvaluationEffectRequest F,
    request.slot.context = context ∧ entry.1.optimEvalRequest.evalRequest.requestId =
      evalRequestId context.runId (GepaIdentity.evaluationHash request) ∧
    ∃ r, recordedResult s (.evaluate request) = some r

omit [DecidableEq F] in
theorem Reached.propose {t : GepaState F} {n : Nat} (h : Reached context search n s)
    (hst : Beside s t) {request : GepaProposalEffectRequest}
    (he : search.requested (recordedResult s) n = some (.propose request)) :
    Reached context search (n + 1) t where
  covered m request' hm hrequested := by
    rw [hst.collected]
    by_cases heq : m = n
    · rw [heq, Prog.requested_mono hst.extends he] at hrequested
      cases hrequested
    · obtain ⟨next,hafter⟩ := Prog.after_of_requested he
      have hlt : m < n := by omega
      rw [Prog.requested_front hst.extends hafter hlt] at hrequested
      exact h.covered m request' hlt hrequested
  recorded entry hmem := by
    rw [hst.collected] at hmem
    obtain ⟨request',hcontext,hid,r,hr⟩ := h.recorded entry hmem
    exact ⟨request', hcontext, hid, r, hst.extends _ _ hr⟩

omit [DecidableEq F] in
theorem Reached.evaluate {t : GepaState F} {n : Nat} (h : Reached context search n s)
    (hst : Grows s t) {request : GepaEvaluationEffectRequest F}
    (hcontext : request.slot.context = context)
    (he : search.requested (recordedResult s) n = some (.evaluate request))
    (hcollects : Collects context (GepaIdentity.evaluationHash request) s t)
    {r : GepaEvaluationEffectResult F} (hr : recordedResult t (.evaluate request) = some r) :
    Reached context search (n + 1) t := by
  obtain ⟨resolution,replayed,hcollected,howned⟩ := hcollects
  refine ⟨fun m request' hm hrequested => ?_, fun entry hmem => ?_⟩
  · by_cases heq : m = n
    · rw [heq, Prog.requested_mono hst.extends he] at hrequested
      cases hrequested
      exact ⟨(resolution, replayed), by simp [hcollected], howned.request⟩
    · obtain ⟨next,hafter⟩ := Prog.after_of_requested he
      have hlt : m < n := by omega
      rw [Prog.requested_front hst.extends hafter hlt] at hrequested
      obtain ⟨entry,hmem,hid⟩ := h.covered m request' hlt hrequested
      exact ⟨entry, by simp [hcollected, hmem], hid⟩
  · rw [hcollected] at hmem
    rcases List.mem_append.mp hmem with hold | hnew
    · obtain ⟨request',hcontext',hid,r',hr'⟩ := h.recorded entry hold
      exact ⟨request', hcontext', hid, r', hst.extends _ _ hr'⟩
    · rw [List.mem_singleton.mp hnew]
      exact ⟨request, hcontext, howned.request, r, hr⟩

theorem drives_serveEffect (authority : CanonicalGepaEvalAuthority F)
    (hs : Sound context k ids search s) {n : Nat} (hn : Reached context search n s)
    {e : GepaEffect F} (hcontext : e.slot.context = context)
    (he : search.requested (recordedResult s) n = some e) :
    (settled (serveEffect (authority.began k) e)).Holds execOp (reporting context k ids search)
      (fun x t => Extends (recordedResult s) (recordedResult t) ∧ match x with
        | .ok r => recordedResult t e = some r ∧ Reached context search (n + 1) t
        | .error error => error.Foreign) s := by
  cases e with
  | evaluate request =>
    refine Prog.holds_mono (drives_brokerEvaluate authority hs hcontext he) fun x t _ hx => ?_
    obtain ⟨hst,hx⟩ := hx
    refine ⟨hst.extends, ?_⟩
    cases x with
    | ok r => exact ⟨hx.1, hn.evaluate hst hcontext he hx.2 hx.1⟩
    | error error => exact hx
  | propose request =>
    refine Prog.holds_mono (drives_proposeRecorded hs request) fun x t _ hx => ?_
    obtain ⟨hst,hx⟩ := hx
    refine ⟨hst.extends, ?_⟩
    cases x with
    | ok r => exact ⟨hx, hn.propose hst he⟩
    | error error => exact hx

/- A search that has ended: all its evaluations are collected and recorded. -/
def Complete (context : GepaEffectContext)
    (search : Prog (GepaEffect F) GepaEffect.Result SearchError γ) (s : GepaState F) : Prop :=
  ∃ n q, search.after (recordedResult s) n = some q ∧ (∀ e next, q ≠ .call e next) ∧
    Reached context search n s

omit [DecidableEq F] in
theorem Complete.covered (h : Complete context search s) {n : Nat}
    {request : GepaEvaluationEffectRequest F}
    (he : search.requested (recordedResult s) n = some (.evaluate request)) :
    ∃ entry ∈ s.collected, entry.1.optimEvalRequest.evalRequest.requestId =
      evalRequestId context.runId (GepaIdentity.evaluationHash request) := by
  obtain ⟨m,q,hafter,hend,hreached⟩ := h
  exact hreached.covered n request (Prog.requested_lt hafter hend he) he

/-- An attempt keeps the store sound; where its search ends, all its evaluations are collected. -/
theorem drives_search (authority : CanonicalGepaEvalAuthority F) {Q : Nat → γ → Prop}
    (hincreasing : Increasing context Q 0 search) (hs : Sound context k ids search s)
    (hcollected : s.collected = []) :
    (settled (brokered (authority.began k) search)).Holds execOp (reporting context k ids search)
      (fun x t => Extends (recordedResult s) (recordedResult t) ∧ match x with
        | .ok _ => Complete context search t
        | .error error => error.Foreign ∨
            ((∃ own, error = .search own) ∧ Complete context search t)) s := by
  have hstart : Reached context search 0 s :=
    ⟨fun m _ hm => absurd hm (by omega), fun entry hmem => by simp [hcollected] at hmem⟩
  have hbound : search.after (recordedResult s) 0 = some (search.bind .done) := by
    rw [Prog.bind_done]
    rfl
  refine Prog.holds_mono (Prog.holds_interpret
    (fun e n t ht hn he => Prog.holds_mono (drives_serveEffect authority ht hn
      (hincreasing.requested he).1 he) fun x u _ hx => ⟨hx.1, by cases x <;> exact hx.2⟩)
    hs hstart (Prog.ensures_trivial _) hbound) fun x t _ hx => ?_
  obtain ⟨hext,hx⟩ := hx
  refine ⟨hext, ?_⟩
  cases x with
  | ok a =>
    obtain ⟨_,m,hafter,hreached⟩ := hx
    exact ⟨m, _, hafter, fun _ _ h => (by cases h), hreached⟩
  | error error =>
    obtain hforeign | ⟨own,m,rfl,hafter,hreached⟩ := hx
    · exact .inl hforeign
    · exact .inr ⟨⟨own, rfl⟩, m, _, hafter, fun _ _ h => (by cases h), hreached⟩

end Programs
end Whetstone.Optim.Gepa
