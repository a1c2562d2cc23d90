import Whetstone.Optim.Gepa.StepDrive

/-! The spend of an attempt. A reflection that was not on record and evidences a billed call is
counted by the attempt that records it, once; nothing else counts as spend. -/
namespace Whetstone.Optim.Gepa
open Whetstone.Core Whetstone.Lib Whetstone.Experiment Whetstone.Optim.Step

section Spend

variable {F : Type} [FiniteFloats F] [RewardIdentity F] [GepaIdentity F]

/- The usage that the record of a reflection evidences, if it evidences a billed call. -/
def recordedSpend (s : GepaState F) (request : GepaProposalEffectRequest) :
    Option (ProposerCallUsage F) :=
  match recordedResult s (.propose request : GepaEffect F) with
  | none => none
  | some result =>
    match proposalCallUsage result with
    | .ok usage => usage
    | .error _ => none

/- What leaves the reflections and the spend as they are. -/
structure Spares (s t : GepaState F) : Prop where
  spent : t.spent = s.spent
  proposals : ∀ request : GepaProposalEffectRequest,
    recordedResult t (.propose request) = recordedResult s (.propose request)

variable {s t u : GepaState F}

theorem Spares.refl (s : GepaState F) : Spares s s := ⟨rfl, fun _ => rfl⟩

theorem Spares.trans (h : Spares s t) (h' : Spares t u) : Spares s u :=
  ⟨h'.spent.trans h.spent, fun request => (h'.proposals request).trans (h.proposals request)⟩

theorem proposal_recorded_hash {request request' : GepaProposalEffectRequest}
    (h : GepaIdentity.proposalHash (F := F) request = GepaIdentity.proposalHash (F := F) request') :
    recordedResult s (.propose request) = recordedResult s (.propose request') := by
  have hpick : pickResult (.propose request) = pickResult (.propose request' : GepaEffect F) := by
    funext record
    cases record <;> rfl
  unfold recordedResult
  simp only [resultKey, GepaEffect.identityHash, h, resultSchema, resultHash, hpick]
  cases s.bindings.get? (.result (GepaIdentity.proposalHash (F := F) request')) with
  | none => rfl
  | some ref =>
    dsimp only
    cases (s.objects.get? ref).bind (pickResult (.propose request')) with
    | none => rfl
    | some result =>
      by_cases hhash : result.requestHash = GepaIdentity.proposalHash (F := F) request'
      · simp [hhash]
      · simp [hhash]

/-- A recorded reflection is that of its request. -/
theorem recordedProposal_hash {request : GepaProposalEffectRequest}
    {r : GepaProposalEffectResult F} (h : recordedResult s (.propose request) = some r) :
    r.requestHash = GepaIdentity.proposalHash (F := F) request := by
  unfold recordedResult at h
  split at h
  · cases h
  · split at h
    · cases h
    · split at h
      · cases h
      · split at h
        · cases h
        · rename_i hhash
          cases h
          exact not_not.mp hhash

theorem recordedSpend_of {request : GepaProposalEffectRequest} {r : GepaProposalEffectResult F}
    (h : recordedResult s (.propose request) = some r) {usage : Option (ProposerCallUsage F)}
    (husage : proposalCallUsage r = .ok usage) : recordedSpend s request = usage := by
  unfold recordedSpend
  rw [h]
  simp only [husage]

omit [RewardIdentity F] [GepaIdentity F] in
theorem proposalCallUsage_callId {r : GepaProposalEffectResult F} {usage : ProposerCallUsage F}
    (h : proposalCallUsage r = .ok (some usage)) : usage.callId = r.requestHash := by
  unfold proposalCallUsage at h
  dsimp only at h
  split at h
  · split at h
    · cases h
      rfl
    · cases h
  · cases h

theorem recordedSpend_callId {request : GepaProposalEffectRequest} {usage : ProposerCallUsage F}
    (h : recordedSpend s request = some usage) :
    usage.callId = GepaIdentity.proposalHash (F := F) request ∧
      recordedResult s (.propose request : GepaEffect F) ≠ none := by
  unfold recordedSpend at h
  cases hr : recordedResult s (.propose request : GepaEffect F) with
  | none => simp [hr] at h
  | some r =>
    refine ⟨?_, by simp⟩
    rw [← recordedProposal_hash hr]
    rw [hr] at h
    cases husage : proposalCallUsage r with
    | error message => simp [husage] at h
    | ok known =>
      simp only [husage] at h
      subst h
      exact proposalCallUsage_callId husage

/-! ### Operations that spare -/

/- An operation that neither records a reflection nor counts spend. -/
def Sparing : GepaOp F → Prop
  | .put record => ∀ result, record ≠ .proposal result
  | .bind key ref => (∀ hash, key ≠ .result hash) ∨ ref.schemaName ≠ proposalResultSchema
  | .spend _ => False
  | _ => True

/-- Objects and bindings of other kinds leave what is recorded of reflections as it is. -/
theorem spares_of {s t : GepaState F} (hspent : t.spent = s.spent)
    (hobjects : ∀ ref : TypedRef, ref.schemaName = proposalResultSchema →
      t.objects.get? ref = s.objects.get? ref)
    (hbindings : ∀ hash, t.bindings.get? (.result hash) = s.bindings.get? (.result hash) ∨
      (s.bindings.get? (.result hash) = none ∧ ∃ ref, t.bindings.get? (.result hash) = some ref ∧
        ref.schemaName ≠ proposalResultSchema)) : Spares s t := by
  refine ⟨hspent, fun request => ?_⟩
  unfold recordedResult
  simp only [resultKey, resultSchema]
  obtain hsame | ⟨hnone,ref,hbound,hschema⟩ :=
    hbindings (GepaEffect.identityHash (.propose request : GepaEffect F))
  · rw [hsame]
    cases s.bindings.get? (.result (GepaEffect.identityHash (.propose request : GepaEffect F))) with
    | none => rfl
    | some ref =>
      by_cases hschema : ref.schemaName = proposalResultSchema
      · simp only [hobjects ref hschema]
        rfl
      · simp [hschema]
  · simp [hnone, hbound, hschema]

variable [DecidableEq F]

theorem spares_put (s : GepaState F) {record : EffectRecord F}
    (h : ∀ result, record ≠ .proposal result) : Spares s (s.put record).2 := by
  have hschema : record.ref.schemaName ≠ proposalResultSchema := by
    cases record with
    | request e =>
      cases e with
      | evaluate _ => exact (by decide : evaluationRequestSchema ≠ proposalResultSchema)
      | propose _ => exact (by decide : proposalRequestSchema ≠ proposalResultSchema)
    | evaluation result => exact (by decide : evaluationResultSchema ≠ proposalResultSchema)
    | proposal result => exact absurd rfl (h result)
    | intent i => exact (by decide : optimEvalRequestSchema ≠ proposalResultSchema)
  refine spares_of (quiet_put s record).spent (fun ref href => ?_) fun hash => ?_
  · have hne : ref ≠ record.ref := fun heq => hschema (heq ▸ href)
    unfold GepaState.put
    split
    · rfl
    · exact Dict.get?_set_ne _ _ _ _ hne
  · rw [put_bindings]
    exact .inl rfl

omit [GepaIdentity F] [DecidableEq F] in
theorem bind_spent (s : GepaState F) (key : EffectKey) (ref : TypedRef) :
    (s.bind key ref).spent = s.spent := by
  unfold GepaState.bind
  split <;> rfl

omit [DecidableEq F] in
theorem spares_bind (s : GepaState F) {key : EffectKey} {ref : TypedRef}
    (h : (∀ hash, key ≠ .result hash) ∨ ref.schemaName ≠ proposalResultSchema) :
    Spares s (s.bind key ref) := by
  refine spares_of (bind_spent s key ref) (fun _ _ => by rw [bind_objects]) fun hash => ?_
  by_cases hkey : key = .result hash
  · subst hkey
    rw [bind_get]
    cases hbound : s.bindings.get? (.result hash) with
    | some old => exact .inl rfl
    | none =>
      rcases h with hno | hschema
      · exact absurd rfl (hno hash)
      · exact .inr ⟨rfl, ref, rfl, hschema⟩
  · exact .inl (bind_get_ne s key _ ref (Ne.symm hkey))

theorem spares_resolveIntent (s : GepaState F) (mode : EvalDispatchMode)
    (intent : OptimEvalRequest) (answer : GepaAnswer F) :
    Spares s (s.resolveIntent mode intent answer).2 := by
  unfold GepaState.resolveIntent
  split
  · split <;> exact Spares.refl s
  · split
    · dsimp only
      split
      · exact (spares_put s (by simp)).trans (spares_bind _ (.inl (by simp)))
      · exact Spares.refl s
    · split
      · exact ⟨rfl, fun _ => rfl⟩
      · exact Spares.refl s
    · exact Spares.refl s
    · exact Spares.refl s

theorem spares_performOp {o : GepaOp F} (h : Sparing o) (answer : GepaAnswer F)
    (s : GepaState F) : Spares s (performOp o answer s).2 := by
  cases o with
  | put record => exact spares_put s h
  | bind key ref => exact spares_bind s h
  | resolveIntent mode intent => exact spares_resolveIntent s mode intent answer
  | project request resolution => cases answer <;> exact Spares.refl s
  | resolve _ | get _ | evaluate _ | propose _ => exact Spares.refl s
  | collect _ _ => exact ⟨rfl, fun _ => rfl⟩
  | spend _ => exact h.elim

theorem spares_execOp (o : GepaOp F) (answer : GepaAnswer F) (t : GepaState F) (h : Sparing o)
    (hst : Spares s t) : Spares s (execOp o answer t).2 := by
  cases answer with
  | stopsBefore => exact hst
  | _ => exact hst.trans (spares_performOp h _ t)

/-! ### Programs that spare -/

omit [GepaIdentity F] [DecidableEq F] in
theorem all_performed {P : GepaOp F → Prop} {o : GepaOp F} (h : P o) : (performed o).All P :=
  ⟨h, fun _ => trivial⟩

omit [GepaIdentity F] [DecidableEq F] in
theorem all_valued {P : GepaOp F → Prop} {α : Type} (x : Except String α) :
    (valued x : GepaProg F α).All P := Prog.all_ofExcept _

omit [GepaIdentity F] [DecidableEq F] in
theorem sparing_storePut {record : EffectRecord F} (h : ∀ result, record ≠ .proposal result) :
    (storePut record).All Sparing := by
  refine Prog.all_bind (all_performed h) fun stored => ?_
  cases stored <;> trivial

omit [DecidableEq F] in
theorem sparing_recordRequest (e : GepaEffect F) : (recordRequest e).All Sparing := by
  refine Prog.all_bind (sparing_storePut (by simp)) fun _ => ?_
  refine Prog.all_bind (all_performed (.inl (by simp [slotKey]))) fun _ => ?_
  refine Prog.all_bind (all_performed trivial) fun bound => ?_
  split <;> trivial

omit [DecidableEq F] in
theorem sparing_loadResult (e : GepaEffect F) : (loadResult e).All Sparing := by
  refine Prog.all_bind (all_performed trivial) fun bound => ?_
  cases bound with
  | none => trivial
  | some ref =>
    dsimp only
    split
    · trivial
    · refine Prog.all_bind (all_performed trivial) fun stored => ?_
      split
      · trivial
      · split <;> trivial

theorem sparing_recordResult (request : GepaEvaluationEffectRequest F)
    (result : GepaEvaluationEffectResult F) :
    (recordResult (.evaluate request) result).All Sparing := by
  unfold recordResult
  split
  · trivial
  · refine Prog.all_bind (sparing_storePut (by simp [resultRecord])) fun _ => ?_
    refine Prog.all_bind (all_performed (.inr ?_)) fun _ => ?_
    · exact (by decide : evaluationResultSchema ≠ proposalResultSchema)
    · refine Prog.all_bind (sparing_loadResult _) fun loaded => ?_
      cases loaded with
      | none => trivial
      | some found =>
        dsimp only
        split <;> trivial

omit [GepaIdentity F] [DecidableEq F] in
theorem sparing_bindOnce {key : EffectKey} {ref : TypedRef} (h : ∀ hash, key ≠ .result hash) :
    (bindOnce key ref : GepaProg F Unit).All Sparing := by
  refine Prog.all_bind (all_performed trivial) fun held => ?_
  cases held with
  | none => exact all_performed (.inl h)
  | some other =>
    dsimp only
    split <;> trivial

theorem sparing_evaluate (authority : CanonicalGepaEvalAuthority F) (k : Nat)
    (request : GepaEvaluationEffectRequest F) : (authority.evaluate k request).All Sparing := by
  refine Prog.all_bind (all_valued _) fun _ => Prog.all_bind (all_valued _) fun _ =>
    Prog.all_bind (all_valued _) fun _ => Prog.all_bind (all_valued _) fun minted => ?_
  have haliased : (CanonicalGepaEvalAuthority.aliased request minted).All Sparing := by
    refine Prog.all_bind (all_performed trivial) fun bound => ?_
    cases bound with
    | none => trivial
    | some ref =>
      refine Prog.all_bind (all_performed trivial) fun stored => ?_
      split <;> trivial
  have hresolve : ∀ intent, (authority.resolveIntent request intent).All Sparing := by
    intro intent
    refine Prog.all_bind (all_performed trivial) fun answer => ?_
    cases answer with
    | resolved resolution => trivial
    | raised message => trivial
    | deferred =>
      refine Prog.all_bind (all_performed trivial) fun bound => ?_
      cases bound with
      | none => trivial
      | some ref =>
        exact Prog.all_bind (sparing_bindOnce (by simp [CanonicalGepaEvalAuthority.aliasKey]))
          fun _ => trivial
  refine Prog.all_bind haliased fun intent => Prog.all_bind (hresolve intent) fun resolution => ?_
  refine Prog.all_bind (all_performed trivial) fun _ => Prog.all_bind (all_performed trivial)
    fun projection => Prog.all_bind (all_valued _) fun rows => all_valued _

theorem sparing_brokerEvaluate (authority : CanonicalGepaEvalAuthority F) (k : Nat)
    (request : GepaEvaluationEffectRequest F) :
    (brokerEvaluate (authority.began k) request).All Sparing := by
  refine Prog.all_bind (sparing_recordRequest _) fun _ => ?_
  refine Prog.all_bind (sparing_loadResult _) fun cached => ?_
  cases cached with
  | none =>
    exact Prog.all_bind (sparing_evaluate authority k request) fun r => sparing_recordResult request r
  | some r =>
    have hcollect : (CanonicalGepaEvalAuthority.collectReplayed r).All Sparing := by
      unfold CanonicalGepaEvalAuthority.collectReplayed
      split
      · trivial
      · exact all_performed trivial
    exact Prog.all_bind hcollect fun _ => trivial

/-! ### Reflections -/

/- A promise that says nothing; what a program returns may still be said. -/
abbrev anyhow (F : Type) [FiniteFloats F] [RewardIdentity F] :
    Promise (GepaState F) (GepaOp F) Empty := ⟨False, fun _ _ => True, fun _ => True, fun _ => True⟩

theorem holds_sparing {α : Type} {p : GepaProg F α} (hp : p.All Sparing) (s : GepaState F) :
    (settled p).Holds execOp (anyhow F) (fun _ t => Spares s t) s :=
  Prog.holds_of_all (fun o answer t ho ht => spares_execOp o answer t ho ht)
    (Prog.all_reify hp) (Spares.refl s)

/- What recording the result of a reflection changes. -/
structure Renews (request : GepaProposalEffectRequest) (s t : GepaState F) : Prop where
  spent : t.spent = s.spent
  others : ∀ other : GepaProposalEffectRequest,
    GepaIdentity.proposalHash (F := F) other ≠ GepaIdentity.proposalHash (F := F) request →
    recordedResult t (.propose other) = recordedResult s (.propose other)

omit [DecidableEq F] in
theorem Renews.trans {request : GepaProposalEffectRequest} (h : Renews request s t)
    (h' : Renews request t u) : Renews request s u :=
  ⟨h'.spent.trans h.spent, fun other hne => (h'.others other hne).trans (h.others other hne)⟩

theorem renews_put (s : GepaState F) {request : GepaProposalEffectRequest}
    {result : GepaProposalEffectResult F}
    (hhash : result.requestHash = GepaIdentity.proposalHash (F := F) request) :
    Renews request s (s.put (.proposal result)).2 := by
  refine ⟨(quiet_put s _).spent, fun other hne => ?_⟩
  unfold recordedResult
  rw [put_bindings]
  cases s.bindings.get? (resultKey (.propose other : GepaEffect F)) with
  | none => rfl
  | some ref =>
    dsimp only
    by_cases href : ref = (EffectRecord.proposal result).ref
    · subst href
      unfold GepaState.put
      cases hold : s.objects.get? (EffectRecord.proposal result).ref with
      | some old => simp only [hold]
      | none =>
        have hother : result.requestHash ≠ GepaIdentity.proposalHash (F := F) other := by
          rw [hhash]
          exact hne.symm
        simp [pickResult, resultHash, GepaEffect.identityHash, hother]
    · have hsame : (s.put (.proposal result)).2.objects.get? ref = s.objects.get? ref := by
        unfold GepaState.put
        split
        · rfl
        · exact Dict.get?_set_ne _ _ _ _ href
      rw [hsame]

omit [DecidableEq F] in
theorem renews_bind (s : GepaState F) (request : GepaProposalEffectRequest) (ref : TypedRef) :
    Renews request s (s.bind (resultKey (.propose request : GepaEffect F)) ref) := by
  refine ⟨bind_spent s _ ref, fun other hne => ?_⟩
  unfold recordedResult
  rw [bind_objects, bind_get_ne]
  exact fun heq => hne (EffectKey.result.inj heq)

/-- A reflection that is recorded changes the record of no other. -/
theorem spends_recordResult (s : GepaState F) (request : GepaProposalEffectRequest)
    (result : GepaProposalEffectResult F) :
    (settled (recordResult (.propose request) result)).Holds execOp (anyhow F)
      (fun x t => ∀ found, x = .ok found →
        recordedResult t (.propose request) = some found ∧ Renews request s t) s := by
  unfold recordResult
  by_cases hhash : resultHash (.propose request) result =
      (GepaEffect.propose request : GepaEffect F).identityHash
  · simp only [hhash, ne_eq, not_true_eq_false, if_false]
    refine Prog.holds_reify_bind (Q := fun x t => Renews request s t) ?_ (fun _ t _ hst => ?_)
      fun _ _ _ _ _ h => by cases h
    · refine holds_op not_false (.put (.proposal result)) _ trivial trivial fun _ => ⟨trivial, ?_⟩
      change (settled (if (s.put (.proposal result)).1 = true then _ else _)).Holds _ _ _ _
      split
      · exact ⟨trivial, renews_put s hhash⟩
      · exact ⟨trivial, renews_put s hhash⟩
    · refine holds_op not_false (.bind _ _) _ trivial trivial fun _ => ⟨trivial, ?_⟩
      have hbind := hst.trans (renews_bind t request (EffectRecord.proposal result).ref)
      refine Prog.holds_reify_bind (holds_loaded not_false (fun _ _ => trivial) trivial _)
        (fun loaded u _ hq => ?_) fun _ _ _ _ _ h => by cases h
      obtain ⟨rfl,hloaded⟩ := hq
      cases loaded with
      | none => exact ⟨trivial, fun _ h => by cases h⟩
      | some found =>
        dsimp only
        split
        · refine ⟨trivial, fun other h => ?_⟩
          cases h
          exact ⟨hloaded.symm, hbind⟩
        · exact ⟨trivial, fun _ h => by cases h⟩
  · simp only [ne_eq, hhash, not_false_eq_true, if_true]
    exact ⟨trivial, fun _ h => by cases h⟩

/- The errors the recorder, the store and the authorities raise. A search's own errors and
   deferrals are others. -/
def GepaError.Broken : GepaError → Prop
  | .search _ => False
  | .deferred _ => False
  | _ => True

omit [GepaIdentity F] [DecidableEq F] in
theorem raises_performed {E : GepaError → Prop} (o : GepaOp F) : (performed o).Raises E :=
  fun _ => trivial

omit [GepaIdentity F] in
omit [DecidableEq F] in
theorem raises_storePut (record : EffectRecord F) : (storePut record).Raises GepaError.Broken := by
  refine Prog.raises_bind (raises_performed _) fun stored => ?_
  cases stored <;> trivial

omit [DecidableEq F] in
theorem raises_recordRequest (e : GepaEffect F) : (recordRequest e).Raises GepaError.Broken := by
  refine Prog.raises_bind (raises_storePut _) fun _ => ?_
  refine Prog.raises_bind (raises_performed _) fun _ => ?_
  refine Prog.raises_bind (raises_performed _) fun bound => ?_
  split <;> trivial

omit [DecidableEq F] in
theorem raises_loadResult (e : GepaEffect F) : (loadResult e).Raises GepaError.Broken := by
  refine Prog.raises_bind (raises_performed _) fun bound => ?_
  cases bound with
  | none => trivial
  | some ref =>
    dsimp only
    split
    · trivial
    · refine Prog.raises_bind (raises_performed _) fun stored => ?_
      split
      · trivial
      · split <;> trivial

theorem raises_recordResult (e : GepaEffect F) (r : e.Result) :
    (recordResult e r).Raises GepaError.Broken := by
  unfold recordResult
  split
  · trivial
  · refine Prog.raises_bind (raises_storePut _) fun _ => ?_
    refine Prog.raises_bind (raises_performed _) fun _ => ?_
    refine Prog.raises_bind (raises_loadResult e) fun loaded => ?_
    cases loaded with
    | none => trivial
    | some found =>
      dsimp only
      split <;> trivial

theorem raises_proposeRecorded (request : GepaProposalEffectRequest) :
    (proposeRecorded request : GepaProg F _).Raises GepaError.Broken := by
  have hbroker : (brokerPropose request : GepaProg F _).Raises GepaError.Broken := by
    refine Prog.raises_bind (raises_recordRequest _) fun _ => ?_
    refine Prog.raises_bind (raises_loadResult _) fun cached => ?_
    cases cached with
    | some r => trivial
    | none =>
      refine Prog.raises_bind (raises_performed _) fun reply => ?_
      refine Prog.raises_bind (?_ : (authorized reply).Raises _) fun r => ?_
      · cases reply <;> trivial
      · exact Prog.raises_bind (raises_recordResult _ _) fun _ => trivial
  refine Prog.raises_bind hbroker fun out => ?_
  obtain ⟨r,replayed⟩ := out
  cases replayed with
  | true => trivial
  | false =>
    simp only [Bool.false_eq_true, if_false]
    split
    · trivial
    · trivial
    · exact Prog.raises_bind (raises_performed _) fun _ => trivial

/-! ### What an attempt spends -/

/- The spend of an attempt that began with the store `s`: the reflections it put on record that
   evidence a billed call, each once. -/
structure Spent (context : GepaEffectContext) (s t : GepaState F) : Prop where
  kept : ∀ (request : GepaProposalEffectRequest) r, recordedResult s (.propose request) = some r →
    recordedResult t (.propose request) = some r
  nodup : (t.spent.map ProposerCallUsage.callId).Nodup
  billed : ∀ usage ∈ t.spent, ∃ request : GepaProposalEffectRequest,
    request.slot.context = context ∧ recordedResult s (.propose request : GepaEffect F) = none ∧
      recordedSpend t request = some usage
  covers : ∀ (request : GepaProposalEffectRequest) usage, recordedSpend t request = some usage →
    recordedResult s (.propose request : GepaEffect F) = none → usage ∈ t.spent

variable {context : GepaEffectContext} {s₀ : GepaState F}

omit [DecidableEq F] in
theorem recordedSpend_congr {s t : GepaState F} {request : GepaProposalEffectRequest}
    (h : recordedResult t (.propose request : GepaEffect F) = recordedResult s (.propose request)) :
    recordedSpend t request = recordedSpend s request := by
  unfold recordedSpend
  rw [h]

omit [DecidableEq F] in
theorem Spent.start (h : s.spent = []) : Spent context s s where
  kept _ _ hr := hr
  nodup := by simp [h]
  billed usage hmem := by simp [h] at hmem
  covers request usage hspend hnone := absurd hnone (recordedSpend_callId hspend).2

omit [DecidableEq F] in
theorem Spent.spares (h : Spent context s₀ s) (hst : Spares s t) : Spent context s₀ t where
  kept request r hr := by rw [hst.proposals, h.kept request r hr]
  nodup := by rw [hst.spent]; exact h.nodup
  billed usage hmem := by
    rw [hst.spent] at hmem
    obtain ⟨request,hcontext,hnone,hspend⟩ := h.billed usage hmem
    exact ⟨request, hcontext, hnone, by rw [recordedSpend_congr (hst.proposals request), hspend]⟩
  covers request usage hspend hnone := by
    rw [recordedSpend_congr (hst.proposals request)] at hspend
    rw [hst.spent]
    exact h.covers request usage hspend hnone

omit [DecidableEq F] in
/-- A reflection that is put on record is counted where it evidences a billed call. -/
theorem Spent.propose (h : Spent context s₀ s) {request : GepaProposalEffectRequest}
    (hcontext : request.slot.context = context)
    (hnone : recordedResult s (.propose request : GepaEffect F) = none)
    {r : GepaProposalEffectResult F} (hr : recordedResult t (.propose request) = some r)
    (hothers : ∀ other : GepaProposalEffectRequest,
      GepaIdentity.proposalHash (F := F) other ≠ GepaIdentity.proposalHash (F := F) request →
      recordedResult t (.propose other) = recordedResult s (.propose other))
    {usage : Option (ProposerCallUsage F)} (husage : proposalCallUsage r = .ok usage)
    (hspent : t.spent = s.spent ++ usage.toList) : Spent context s₀ t := by
  have hspend : recordedSpend t request = usage := recordedSpend_of hr husage
  -- a reflection that was on record has another hash
  have hother : ∀ other : GepaProposalEffectRequest,
      recordedResult s (.propose other : GepaEffect F) ≠ none →
      recordedResult t (.propose other : GepaEffect F) = recordedResult s (.propose other) := by
    intro other hsome
    refine hothers other fun heq => hsome ?_
    rw [proposal_recorded_hash heq]
    exact hnone
  have hbefore : recordedResult s₀ (.propose request : GepaEffect F) = none := by
    cases hold : recordedResult s₀ (.propose request : GepaEffect F) with
    | none => rfl
    | some old =>
      rw [h.kept request old hold] at hnone
      cases hnone
  refine ⟨fun other r' hr' => ?_, ?_, fun found hmem => ?_, fun other found hfound hfresh => ?_⟩
  · have hsome := h.kept other r' hr'
    rw [hother other (by simp [hsome]), hsome]
  · rw [hspent]
    cases usage with
    | none => simpa using h.nodup
    | some usage =>
      rw [Option.toList_some, List.map_append, List.nodup_append]
      refine ⟨h.nodup, by simp, fun id hid id' hid' heq => ?_⟩
      obtain ⟨found,hfound,rfl⟩ := List.mem_map.mp hid
      obtain ⟨other,_,_,hotherSpend⟩ := h.billed found hfound
      obtain ⟨hotherId,hsome⟩ := recordedSpend_callId hotherSpend
      simp only [List.map_cons, List.map_nil, List.mem_singleton] at hid'
      rw [hotherId, hid', (recordedSpend_callId hspend).1] at heq
      rw [proposal_recorded_hash heq] at hsome
      exact hsome hnone
  · rw [hspent] at hmem
    rcases List.mem_append.mp hmem with hold | hnew
    · obtain ⟨other,hotherContext,hfresh,hotherSpend⟩ := h.billed found hold
      refine ⟨other, hotherContext, hfresh, ?_⟩
      rw [recordedSpend_congr (hother other (recordedSpend_callId hotherSpend).2), hotherSpend]
    · refine ⟨request, hcontext, hbefore, ?_⟩
      rw [hspend]
      exact Option.mem_toList.mp hnew
  · rw [hspent]
    by_cases hhash : GepaIdentity.proposalHash (F := F) other =
        GepaIdentity.proposalHash (F := F) request
    · rw [recordedSpend_of ((proposal_recorded_hash hhash).trans hr) husage] at hfound
      exact List.mem_append_right _ (Option.mem_toList.mpr hfound)
    · rw [recordedSpend_congr (hothers other hhash)] at hfound
      exact List.mem_append_left _ (h.covers other found hfound hfresh)

/- What the broker leaves behind a reflection: one on record, or one it has put there. -/
def Brokered (request : GepaProposalEffectRequest) (s t : GepaState F)
    (r : GepaProposalEffectResult F) (replayed : Bool) : Prop :=
  if replayed then Spares s t
  else recordedResult s (.propose request : GepaEffect F) = none ∧
    recordedResult t (.propose request) = some r ∧ Renews request s t

theorem spends_brokerPropose (s : GepaState F) (request : GepaProposalEffectRequest) :
    (settled (brokerPropose request)).Holds execOp (anyhow F)
      (fun x t => ∀ out, x = .ok out → Brokered request s t out.1 out.2) s := by
  refine Prog.holds_reify_bind (holds_sparing (sparing_recordRequest (.propose request)) s)
    (fun _ t _ hst => ?_) fun _ _ _ _ _ h => by cases h
  refine Prog.holds_reify_bind (holds_loaded not_false (fun _ _ => trivial) trivial
    (.propose request)) (fun cached u _ hq => ?_) fun _ _ _ _ _ h => by cases h
  obtain ⟨rfl,hcached⟩ := hq
  cases cached with
  | some r =>
    refine ⟨trivial, fun out hout => ?_⟩
    cases hout
    exact hst
  | none =>
    have hnone : recordedResult s (.propose request : GepaEffect F) = none := by
      rw [← hst.proposals, ← hcached]
    refine holds_op not_false (.propose request) _ trivial trivial fun answer => ⟨trivial, ?_⟩
    simp only [performOp]
    cases answeredProposal request answer with
    | error message => exact ⟨trivial, fun _ h => by cases h⟩
    | ok result =>
      change (settled ((recordResult (.propose request : GepaEffect F) result).bind
        fun recorded => .done (recorded, false))).Holds _ _ _ u
      refine Prog.holds_reify_bind (spends_recordResult u request result)
        (fun found v _ hq => ?_) fun _ _ _ _ _ h => by cases h
      obtain ⟨hrecorded,hrenews⟩ := hq found rfl
      refine ⟨trivial, fun out hout => ?_⟩
      cases hout
      refine ⟨hnone, hrecorded, hrenews.spent.trans hst.spent, fun other hne => ?_⟩
      rw [hrenews.others other hne, hst.proposals]

/-- A reflection that is served keeps the count. -/
theorem spends_proposeRecorded (h : Spent context s₀ s) {request : GepaProposalEffectRequest}
    (hcontext : request.slot.context = context) :
    (settled (proposeRecorded request)).Holds execOp (anyhow F)
      (fun x t => ∀ r, x = .ok r → Spent context s₀ t) s := by
  refine Prog.holds_reify_bind (spends_brokerPropose s request) (fun out t _ hq => ?_)
    fun _ _ _ _ _ h => by cases h
  obtain ⟨r,replayed⟩ := out
  have hbrokered := hq _ rfl
  cases replayed with
  | true => exact ⟨trivial, fun _ _ => h.spares hbrokered⟩
  | false =>
    obtain ⟨hnone,hrecorded,hrenews⟩ := hbrokered
    simp only [Bool.false_eq_true, if_false]
    cases husage : proposalCallUsage r with
    | error message => exact ⟨trivial, fun _ h => by cases h⟩
    | ok usage =>
      cases usage with
      | none =>
        exact ⟨trivial, fun _ _ => h.propose hcontext hnone hrecorded hrenews.others husage
          (by simp [hrenews.spent])⟩
      | some usage =>
        refine holds_op not_false (.spend usage : GepaOp F) _ trivial trivial fun _ =>
          ⟨trivial, trivial, fun _ _ => ?_⟩
        exact h.propose hcontext hnone hrecorded hrenews.others husage
          (by simp [performOp, hrenews.spent])

/-- An effect that is served keeps the count, and so does one that is deferred. -/
theorem spends_serveEffect (authority : CanonicalGepaEvalAuthority F) (k : Nat)
    (h : Spent context s₀ s) {e : GepaEffect F} (hcontext : e.slot.context = context) :
    (settled (serveEffect (authority.began k) e)).Holds execOp (anyhow F)
      (fun x t => match x with
        | .ok _ => Spent context s₀ t
        | .error error => error.Broken ∨ Spent context s₀ t) s := by
  cases e with
  | evaluate request =>
    refine Prog.holds_mono (holds_sparing (sparing_brokerEvaluate authority k request) s)
      fun x t _ hst => ?_
    cases x with
    | ok r => exact h.spares hst
    | error error => exact .inr (h.spares hst)
  | propose request =>
    refine Prog.holds_mono ((raises_proposeRecorded request).reified
      (spends_proposeRecorded h hcontext)) fun x t _ hx => ?_
    cases x with
    | ok r => exact hx.1 r rfl
    | error error => exact .inl (hx.2 error rfl)

/-- An attempt that returns, is deferred or ends in an error of its search has counted what it
put on record. -/
theorem spends_search {γ : Type} {k : Nat} {ids : List String}
    {search : Prog (GepaEffect F) GepaEffect.Result SearchError γ}
    (authority : CanonicalGepaEvalAuthority F) {Q : Nat → γ → Prop}
    (hincreasing : Increasing context Q 0 search) (hs : Sound context k ids search s)
    (hcollected : s.collected = []) (hspent : s.spent = []) :
    (settled (brokered (authority.began k) search)).Holds execOp (reporting context k ids search)
      (fun x t => match x with
        | .ok _ => Spent context s t
        | .error error => error.Broken ∨ Spent context s t) s := by
  have hstart : Reached context search 0 s ∧ Spent context s s :=
    ⟨⟨fun m _ hm => absurd hm (by omega), fun entry hmem => by simp [hcollected] at hmem⟩,
      Spent.start hspent⟩
  have hbound : search.after (recordedResult s) 0 = some (search.bind .done) := by
    rw [Prog.bind_done]
    rfl
  have hserve : ∀ (e : GepaEffect F) n t, Sound context k ids search t →
      Reached context search n t ∧ Spent context s t →
      search.requested (recordedResult t) n = some e →
      (settled (serveEffect (authority.began k) e)).Holds execOp (reporting context k ids search)
        (fun x u => Extends (recordedResult t) (recordedResult u) ∧ match x with
          | .ok r => recordedResult u e = some r ∧ Reached context search (n + 1) u ∧
              Spent context s u
          | .error error => error.Broken ∨ Spent context s u) t := by
    intro e n t ht hn he
    obtain ⟨hcontext,_⟩ := hincreasing.requested he
    refine Prog.holds_mono ((drives_serveEffect authority ht hn.1 hcontext he).and
      (spends_serveEffect authority k hn.2 hcontext)) fun x u _ hx => ?_
    obtain ⟨⟨hext,hserved⟩,hspends⟩ := hx
    refine ⟨hext, ?_⟩
    cases x with
    | ok r => exact ⟨hserved.1, hserved.2, hspends⟩
    | error error => exact hspends
  refine Prog.holds_mono (Prog.holds_interpret
    (I := fun n t => Reached context search n t ∧ Spent context s t)
    (fun e n t ht hn he => Prog.holds_mono (hserve e n t ht hn he) fun x u _ hx =>
      ⟨hx.1, by cases x <;> exact hx.2⟩) hs hstart (Prog.ensures_trivial _) hbound)
    fun x t _ hx => ?_
  cases x with
  | ok a =>
    obtain ⟨_,_,_,_,_,hcount⟩ := hx
    exact hcount
  | error error =>
    obtain ⟨_,hfault | ⟨_,_,_,_,_,hcount⟩⟩ := hx
    · exact hfault
    · exact .inr hcount

end Spend
end Whetstone.Optim.Gepa
