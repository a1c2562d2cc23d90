import Whetstone.Optim.Gepa.Broker
import Whetstone.Optim.Gepa.Ordinals

/-! The recorder on a consistent store: each slot of a run holds the effect its search comes to
at that ordinal, and each result binding names the result of an effect. On such a store an
effect finds its own slot, and its result is answered from the record or recorded once. -/
namespace Whetstone.Optim.Gepa
open Whetstone.Core Whetstone.Lib Whetstone.Experiment Whetstone.Optim.Step

variable {F : Type} [FiniteFloats F] [RewardIdentity F] [GepaIdentity F]

/- The result an effect is answered with from the store. -/
def recordedResult (s : GepaState F) (e : GepaEffect F) : Option e.Result :=
  match s.bindings.get? (resultKey e) with
  | none => none
  | some ref =>
    if ref.schemaName ≠ resultSchema e then none
    else
      match (s.objects.get? ref).bind (pickResult e) with
      | none => none
      | some result => if resultHash e result ≠ e.identityHash then none else some result

/-! ### States that only grow -/

structure Grows (s t : GepaState F) : Prop where
  objects : ∀ ref record, s.objects.get? ref = some record → t.objects.get? ref = some record
  bindings : ∀ key ref, s.bindings.get? key = some ref → t.bindings.get? key = some ref

omit [GepaIdentity F] in
theorem Grows.refl (s : GepaState F) : Grows s s := ⟨fun _ _ h => h, fun _ _ h => h⟩

omit [GepaIdentity F] in
theorem Grows.trans {s t u : GepaState F} (h : Grows s t) (h' : Grows t u) : Grows s u :=
  ⟨fun ref record hs => h'.objects ref record (h.objects ref record hs),
    fun key ref hs => h'.bindings key ref (h.bindings key ref hs)⟩

theorem Grows.extends {s t : GepaState F} (h : Grows s t) :
    Extends (recordedResult s) (recordedResult t) := by
  intro e r hr
  unfold recordedResult at hr ⊢
  cases hbound : s.bindings.get? (resultKey e) with
  | none => simp [hbound] at hr
  | some ref =>
    simp only [hbound] at hr
    simp only [h.bindings _ _ hbound]
    cases hstored : s.objects.get? ref with
    | none => simp [hstored] at hr
    | some record =>
      simp only [hstored] at hr
      simp only [h.objects _ _ hstored]
      exact hr

variable [DecidableEq F] in
theorem grows_put (s : GepaState F) (record : EffectRecord F) : Grows s (s.put record).2 := by
  refine ⟨fun ref old hold => ?_, fun key ref h => ?_⟩
  · unfold GepaState.put
    cases hget : s.objects.get? record.ref with
    | some other => exact hold
    | none =>
      have hne : ref ≠ record.ref := by
        rintro rfl
        simp [hget] at hold
      simp only [Dict.get?_set_ne _ _ _ _ hne]
      exact hold
  · unfold GepaState.put
    split <;> exact h

omit [GepaIdentity F] in
theorem grows_bind (s : GepaState F) (key : EffectKey) (ref : TypedRef) :
    Grows s (s.bind key ref) := by
  refine ⟨fun ref' record h => ?_, fun key' ref' h => ?_⟩
  · unfold GepaState.bind
    split <;> exact h
  · unfold GepaState.bind
    cases hget : s.bindings.get? key with
    | some other => exact h
    | none =>
      have hne : key' ≠ key := by
        rintro rfl
        simp [hget] at h
      simp only [Dict.get?_set_ne _ _ _ _ hne]
      exact h

variable [DecidableEq F] in
theorem put_bindings (s : GepaState F) (record : EffectRecord F) :
    (s.put record).2.bindings = s.bindings := by
  unfold GepaState.put
  split <;> rfl

variable [DecidableEq F] in
theorem put_stored {s : GepaState F} {record : EffectRecord F} (h : (s.put record).1 = true) :
    (s.put record).2.objects.get? record.ref = some record := by
  unfold GepaState.put at h ⊢
  cases hget : s.objects.get? record.ref with
  | some old =>
    simp only [hget, decide_eq_true_eq] at h ⊢
    rw [h]
  | none => simp

omit [GepaIdentity F] in
theorem bind_get (s : GepaState F) (key : EffectKey) (ref : TypedRef) :
    (s.bind key ref).bindings.get? key = some ((s.bindings.get? key).getD ref) := by
  unfold GepaState.bind
  cases h : s.bindings.get? key with
  | some old => simpa using h
  | none => simp

omit [GepaIdentity F] in
theorem bind_get_ne (s : GepaState F) (key key' : EffectKey) (ref : TypedRef) (h : key' ≠ key) :
    (s.bind key ref).bindings.get? key' = s.bindings.get? key' := by
  unfold GepaState.bind
  split
  · rfl
  · exact Dict.get?_set_ne _ _ _ _ h

variable [DecidableEq F] in
theorem grows_resolveIntent (s : GepaState F) (mode : EvalDispatchMode) (intent : OptimEvalRequest)
    (answer : GepaAnswer F) : Grows s (s.resolveIntent mode intent answer).2 := by
  unfold GepaState.resolveIntent
  split
  · split <;> exact Grows.refl s
  · split
    · dsimp only
      split
      · exact (grows_put s _).trans (grows_bind _ _ _)
      · exact Grows.refl s
    · split <;> exact ⟨fun _ _ h => h, fun _ _ h => h⟩
    · exact Grows.refl s
    · exact Grows.refl s

variable [DecidableEq F] in
theorem grows_performOp (o : GepaOp F) (answer : GepaAnswer F) (s : GepaState F) :
    Grows s (performOp o answer s).2 := by
  cases o with
  | put record => exact grows_put s record
  | bind key ref => exact grows_bind s key ref
  | resolveIntent mode intent => exact grows_resolveIntent s mode intent answer
  | project request resolution => cases answer <;> exact Grows.refl s
  | resolve _ | get _ | evaluate _ | propose _ => exact Grows.refl s
  | collect _ _ | spend _ => exact ⟨fun _ _ h => h, fun _ _ h => h⟩

variable [DecidableEq F] in
theorem grows_execOp (o : GepaOp F) (answer : GepaAnswer F) (s : GepaState F) :
    Grows s (execOp o answer s).2 := by
  cases answer with
  | stopsBefore => exact Grows.refl s
  | _ => exact grows_performOp o _ s

variable [DecidableEq F] in
/-- Wherever an attempt stops, nothing that was stored is lost. -/
theorem grows_attempt {α : Type} (p : GepaProg F α) (answers : List (GepaAnswer F))
    (s : GepaState F) : Grows s (p.attempt execOp answers s).state :=
  Prog.attempt_invariant (P := Grows s) (fun o answer t h => h.trans (grows_execOp o answer t)) p
    answers s (Grows.refl s)

/- What an effect's own records leave alone: all but the objects, the slots, the results and
   the spend. -/
structure Steady (s t : GepaState F) : Prop extends Grows s t where
  intents : t.intents = s.intents
  collected : t.collected = s.collected
  aliases : ∀ run hash, t.bindings.get? (.alias run hash) = s.bindings.get? (.alias run hash)
  platform : ∀ hash, t.bindings.get? (.platformIntent hash) =
    s.bindings.get? (.platformIntent hash)

omit [GepaIdentity F] in
theorem Steady.refl (s : GepaState F) : Steady s s :=
  ⟨Grows.refl s, rfl, rfl, fun _ _ => rfl, fun _ => rfl⟩

omit [GepaIdentity F] in
theorem Steady.trans {s t u : GepaState F} (h : Steady s t) (h' : Steady t u) : Steady s u :=
  ⟨h.toGrows.trans h'.toGrows, h'.intents.trans h.intents, h'.collected.trans h.collected,
    fun run hash => (h'.aliases run hash).trans (h.aliases run hash),
    fun hash => (h'.platform hash).trans (h.platform hash)⟩

/- What the recorder leaves alone. -/
structure Quiet (s t : GepaState F) : Prop extends Steady s t where
  spent : t.spent = s.spent

omit [GepaIdentity F] in
theorem Quiet.refl (s : GepaState F) : Quiet s s := ⟨Steady.refl s, rfl⟩

omit [GepaIdentity F] in
theorem Quiet.trans {s t u : GepaState F} (h : Quiet s t) (h' : Quiet t u) : Quiet s u :=
  ⟨h.toSteady.trans h'.toSteady, h'.spent.trans h.spent⟩

variable [DecidableEq F] in
theorem quiet_put (s : GepaState F) (record : EffectRecord F) : Quiet s (s.put record).2 := by
  refine ⟨⟨grows_put s record, ?_, ?_, fun run hash => ?_, fun hash => ?_⟩, ?_⟩
  all_goals
    unfold GepaState.put
    split <;> rfl

omit [GepaIdentity F] in
theorem quiet_bind (s : GepaState F) (key : EffectKey) (ref : TypedRef)
    (halias : ∀ run hash, key ≠ .alias run hash) (hplatform : ∀ hash, key ≠ .platformIntent hash) :
    Quiet s (s.bind key ref) := by
  refine ⟨⟨grows_bind s key ref, ?_, ?_, fun run hash => ?_, fun hash => ?_⟩, ?_⟩
  · unfold GepaState.bind
    split <;> rfl
  · unfold GepaState.bind
    split <;> rfl
  · exact bind_get_ne s key _ ref (halias run hash).symm
  · exact bind_get_ne s key _ ref (hplatform hash).symm
  · unfold GepaState.bind
    split <;> rfl

/-! ### Consistent stores -/

/-- The hashes that name the slots of a search and its effects tell them apart. -/
structure Separates (F : Type) [FiniteFloats F] [RewardIdentity F] [GepaIdentity F]
    (context : GepaEffectContext) : Prop where
  slots : ∀ i j, GepaIdentity.slotHash F ⟨context, i⟩ = GepaIdentity.slotHash F ⟨context, j⟩ → i = j
  kinds : ∀ (request : GepaEvaluationEffectRequest F) (proposal : GepaProposalEffectRequest),
    GepaIdentity.evaluationHash request ≠ GepaIdentity.proposalHash (F := F) proposal

variable {β : Type} {context : GepaEffectContext}
variable {full : Prog (GepaEffect F) GepaEffect.Result SearchError β}

structure Consistent (context : GepaEffectContext)
    (full : Prog (GepaEffect F) GepaEffect.Result SearchError β) (s : GepaState F) : Prop where
  results : ∀ hash ref, s.bindings.get? (.result hash) = some ref →
    ∃ (e : GepaEffect F) (r : e.Result), e.identityHash = hash ∧ resultHash e r = hash ∧
      ref = (resultRecord e r).ref ∧ s.objects.get? ref = some (resultRecord e r)
  slots : ∀ i ref, s.bindings.get? (.slot (GepaIdentity.slotHash F ⟨context, i⟩)) = some ref →
    ∃ n e, full.requested (recordedResult s) n = some e ∧ e.slot.invocationOrdinal = i ∧
      ref = (EffectRecord.request e).ref

theorem Consistent.frame {s t : GepaState F} (h : Consistent context full s) (hgrows : Grows s t)
    (hresults : ∀ hash, t.bindings.get? (.result hash) = s.bindings.get? (.result hash))
    (hslots : ∀ hash, t.bindings.get? (.slot hash) = s.bindings.get? (.slot hash)) :
    Consistent context full t := by
  refine ⟨fun hash ref hbound => ?_, fun i ref hbound => ?_⟩
  · rw [hresults] at hbound
    obtain ⟨e,r,he,hr,href,hstored⟩ := h.results hash ref hbound
    exact ⟨e, r, he, hr, href, hgrows.objects _ _ hstored⟩
  · rw [hslots] at hbound
    obtain ⟨n,e,he,hi,href⟩ := h.slots i ref hbound
    exact ⟨n, e, Prog.requested_mono hgrows.extends he, hi, href⟩

variable [DecidableEq F] in
theorem consistent_put {s : GepaState F} (h : Consistent context full s)
    (record : EffectRecord F) : Consistent context full (s.put record).2 := by
  refine h.frame (grows_put s record) (fun hash => ?_) fun hash => ?_
  all_goals
    unfold GepaState.put
    split <;> rfl

theorem pickResult_resultRecord {e e' : GepaEffect F} (hkinds : Separates F context)
    (h : e.identityHash = e'.identityHash) (r : e.Result) :
    (resultRecord e r).ref.schemaName = resultSchema e' ∧
      ∃ r', pickResult e' (resultRecord e r) = some r' ∧ resultHash e' r' = resultHash e r := by
  cases e with
  | evaluate request =>
    cases e' with
    | evaluate request' => exact ⟨rfl, r, rfl, rfl⟩
    | propose proposal => exact absurd h (hkinds.kinds request proposal)
  | propose proposal =>
    cases e' with
    | evaluate request => exact absurd h.symm (hkinds.kinds request proposal)
    | propose proposal' => exact ⟨rfl, r, rfl, rfl⟩

/-- On a consistent store a result binding answers the effect it is asked for. -/
theorem Consistent.recorded {s : GepaState F} (h : Consistent context full s)
    (hkinds : Separates F context) {e : GepaEffect F} {ref : TypedRef}
    (hbound : s.bindings.get? (resultKey e) = some ref) :
    ref.schemaName = resultSchema e ∧ ∃ record r, s.objects.get? ref = some record ∧
      pickResult e record = some r ∧ resultHash e r = e.identityHash ∧
      recordedResult s e = some r := by
  obtain ⟨e',r,he,hr,href,hstored⟩ := h.results _ ref hbound
  obtain ⟨hschema,r',hpick,hhash⟩ := pickResult_resultRecord hkinds he r
  rw [← href] at hschema
  have hown : resultHash e r' = e.identityHash := by rw [hhash, hr]
  refine ⟨hschema, resultRecord e' r, r', hstored, hpick, hown, ?_⟩
  simp [recordedResult, hbound, hschema, hstored, hpick, hown]

omit [GepaIdentity F] in
theorem pickResult_own (e : GepaEffect F) (r : e.Result) :
    pickResult e (resultRecord e r) = some r := by
  cases e <;> rfl

theorem schema_own (e : GepaEffect F) (r : e.Result) :
    (resultRecord e r).ref.schemaName = resultSchema e := by
  cases e <;> rfl

/-- Nothing is recorded where nothing is bound. -/
theorem Consistent.unbound {s : GepaState F} (h : Consistent context full s)
    (hkinds : Separates F context) {e : GepaEffect F} (hnone : recordedResult s e = none) :
    s.bindings.get? (resultKey e) = none := by
  cases hbound : s.bindings.get? (resultKey e) with
  | none => rfl
  | some ref =>
    obtain ⟨_,_,_,_,_,_,hr⟩ := h.recorded hkinds hbound
    rw [hr] at hnone
    cases hnone

/-- Where no result is bound, none is recorded. -/
theorem Consistent.recorded_same {s t : GepaState F} (h : Consistent context full s)
    (hkinds : Separates F context) (hgrows : Grows s t)
    (hresults : ∀ hash, t.bindings.get? (.result hash) = s.bindings.get? (.result hash)) :
    recordedResult t = recordedResult s := by
  funext e
  cases hrecorded : recordedResult s e with
  | some r => exact hgrows.extends e r hrecorded
  | none =>
    have hbound := h.unbound hkinds hrecorded
    rw [resultKey, ← hresults] at hbound
    simp [recordedResult, resultKey, hbound]

theorem consistent_bind_result {s : GepaState F} (h : Consistent context full s)
    {e : GepaEffect F} {r : e.Result} (hr : resultHash e r = e.identityHash)
    (hstored : s.objects.get? (resultRecord e r).ref = some (resultRecord e r)) :
    Consistent context full (s.bind (resultKey e) (resultRecord e r).ref) := by
  have hgrows := grows_bind s (resultKey e) (resultRecord e r).ref
  refine ⟨fun hash ref hbound => ?_, fun i ref hbound => ?_⟩
  · by_cases hhash : hash = e.identityHash
    · subst hhash
      cases hold : s.bindings.get? (resultKey e) with
      | some old =>
        rw [show EffectKey.result e.identityHash = resultKey e from rfl,
          hgrows.bindings _ _ hold] at hbound
        cases hbound
        obtain ⟨e',r',he,hr',href,hobj⟩ := h.results _ _ hold
        exact ⟨e', r', he, hr', href, hgrows.objects _ _ hobj⟩
      | none =>
        rw [show EffectKey.result e.identityHash = resultKey e from rfl, bind_get, hold] at hbound
        cases hbound
        exact ⟨e, r, rfl, hr, rfl, hgrows.objects _ _ hstored⟩
    · have hne : EffectKey.result hash ≠ resultKey e := by
        intro heq
        cases heq
        exact hhash rfl
      rw [bind_get_ne _ _ _ _ hne] at hbound
      obtain ⟨e',r',he,hr',href,hobj⟩ := h.results _ ref hbound
      exact ⟨e', r', he, hr', href, hgrows.objects _ _ hobj⟩
  · rw [bind_get_ne _ _ _ _ (by simp [resultKey])] at hbound
    obtain ⟨n,e',he,hi,href⟩ := h.slots i ref hbound
    exact ⟨n, e', Prog.requested_mono hgrows.extends he, hi, href⟩

/-- An effect a search comes to may take its slot; a slot that is taken holds that effect. -/
theorem consistent_bind_slot {s : GepaState F} (h : Consistent context full s)
    (hseparates : Separates F context) {lo : Nat} {Q : Nat → β → Prop}
    (hincreasing : Increasing context Q lo full) {n : Nat} {e : GepaEffect F}
    (he : full.requested (recordedResult s) n = some e) :
    Consistent context full (s.bind (slotKey e) (EffectRecord.request e).ref) ∧
      (s.bind (slotKey e) (EffectRecord.request e).ref).bindings.get? (slotKey e) =
        some (EffectRecord.request e).ref := by
  obtain ⟨hcontext,_⟩ := hincreasing.requested he
  have hslot : slotKey e = .slot (GepaIdentity.slotHash F ⟨context, e.slot.invocationOrdinal⟩) := by
    unfold slotKey
    rw [← hcontext]
  have htaken : ∀ ref, s.bindings.get? (slotKey e) = some ref →
      ref = (EffectRecord.request e).ref := by
    intro ref hbound
    rw [hslot] at hbound
    obtain ⟨m,e',he',hi,href⟩ := h.slots _ ref hbound
    have hplace := hincreasing.place_unique he' he hi
    subst hplace
    rw [he] at he'
    cases he'
    exact href
  have hself : (s.bind (slotKey e) (EffectRecord.request e).ref).bindings.get? (slotKey e) =
      some (EffectRecord.request e).ref := by
    rw [bind_get]
    cases hbound : s.bindings.get? (slotKey e) with
    | none => rfl
    | some ref => rw [Option.getD_some, htaken ref hbound]
  have hgrows := grows_bind s (slotKey e) (EffectRecord.request e).ref
  refine ⟨⟨fun hash ref hbound => ?_, fun i ref hbound => ?_⟩, hself⟩
  · rw [bind_get_ne _ _ _ _ (by simp [slotKey])] at hbound
    obtain ⟨e',r,he',hr,href,hstored⟩ := h.results hash ref hbound
    exact ⟨e', r, he', hr, href, hgrows.objects _ _ hstored⟩
  · by_cases hi : i = e.slot.invocationOrdinal
    · subst hi
      rw [← hslot, hself] at hbound
      cases hbound
      exact ⟨n, e, Prog.requested_mono hgrows.extends he, rfl, rfl⟩
    · have hne : EffectKey.slot (GepaIdentity.slotHash F ⟨context, i⟩) ≠ slotKey e := by
        rw [hslot]
        intro heq
        cases hseparates.slots i _ (EffectKey.slot.inj heq)
        exact hi rfl
      rw [bind_get_ne _ _ _ _ hne] at hbound
      obtain ⟨m,e',he',hi',href⟩ := h.slots i ref hbound
      exact ⟨m, e', Prog.requested_mono hgrows.extends he', hi', href⟩

/-! ### The recorder's programs -/

section Programs

variable [DecidableEq F] {α : Type}

/- An authority is asked for an effect without a recorded result. -/
def asked : GepaOp F → GepaState F → Prop
  | .evaluate request, s => recordedResult s (.evaluate request) = none
  | .propose request, s => recordedResult s (.propose request : GepaEffect F) = none
  | _, _ => True

/- What an attempt keeps, whatever it raises: a consistent store, and what else `Extra` says. -/
def recording (context : GepaEffectContext)
    (full : Prog (GepaEffect F) GepaEffect.Result SearchError β) (Extra : GepaState F → Prop) :
    Promise (GepaState F) (GepaOp F) Empty where
  live := False
  step := asked
  durable s := Consistent context full s ∧ Extra s
  error _ := True

/- A program as one whose errors are results. -/
abbrev settled (p : GepaProg F α) : Prog (GepaOp F) GepaOp.Reply Empty (Except GepaError α) :=
  p.reify

/-- The rule for one operation: the process may stop before or behind it. -/
theorem holds_op {C : Promise (GepaState F) (GepaOp F) Empty} (hlive : ¬ C.live)
    {Q : Except GepaError α → GepaState F → Prop} (o : GepaOp F)
    (f : GepaOp.Reply o → GepaProg F α) {s : GepaState F} (hs : C.durable s) (hstep : C.step o s)
    (h : ∀ answer, C.durable (performOp o answer s).2 ∧
      (settled (f (performOp o answer s).1)).Holds execOp C Q (performOp o answer s).2) :
    (settled ((performed o).bind f)).Holds execOp C Q s := by
  refine ⟨hs, hstep, fun answer => ?_⟩
  cases answer with
  | stopsBefore => exact ⟨hs, fun hl => absurd hl hlive, fun r hr => by cases hr⟩
  | stopsBehind => exact ⟨(h .stopsBehind).1, fun hl => absurd hl hlive, fun r hr => by cases hr⟩
  | goesOn | evaluated _ | proposed _ | resolved _ | projected _ =>
    refine ⟨(h _).1, fun _ => rfl, fun r hr => ?_⟩
    cases hr
    exact (h _).2

variable {Extra : GepaState F → Prop}

theorem holds_storePut (hextra : ∀ s t, Quiet s t → Extra s → Extra t) (record : EffectRecord F)
    {s : GepaState F} (hs : (recording context full Extra).durable s) :
    (settled (storePut record)).Holds execOp (recording context full Extra)
      (fun x t => Quiet s t ∧ t.bindings = s.bindings ∧ match x with
        | .ok () => t.objects.get? record.ref = some record
        | .error error => ∃ message, error = .store message) s := by
  have hdurable : (recording context full Extra).durable (s.put record).2 :=
    ⟨consistent_put hs.1 record, hextra _ _ (quiet_put s record) hs.2⟩
  refine holds_op not_false _ _ hs trivial fun answer => ⟨hdurable, ?_⟩
  change (settled (if (s.put record).1 = true then _ else _)).Holds _ _ _ (s.put record).2
  by_cases hput : (s.put record).1 = true
  · rw [if_pos hput]
    exact ⟨hdurable, quiet_put s record, put_bindings s record, put_stored hput⟩
  · rw [if_neg hput]
    exact ⟨hdurable, quiet_put s record, put_bindings s record, _, rfl⟩

/-- The request of an effect a search comes to is recorded in its slot. -/
theorem holds_recordRequest (hextra : ∀ s t, Quiet s t → Extra s → Extra t)
    (hseparates : Separates F context) {lo : Nat} {Q : Nat → β → Prop}
    (hincreasing : Increasing context Q lo full) {n : Nat} {e : GepaEffect F} {s : GepaState F}
    (hs : (recording context full Extra).durable s)
    (he : full.requested (recordedResult s) n = some e) :
    (settled (recordRequest e)).Holds execOp (recording context full Extra)
      (fun x t => Quiet s t ∧ match x with
        | .ok () => recordedResult t = recordedResult s
        | .error error => ∃ message, error = .store message) s := by
  refine Prog.holds_reify_bind (holds_storePut hextra (.request e) hs) (fun _ t ht hq => ?_)
    fun _ _ _ hq => ⟨hq.1, hq.2.2⟩
  obtain ⟨hquiet,hbindings,_⟩ := hq
  have he' := Prog.requested_mono hquiet.toGrows.extends he
  obtain ⟨hconsistent,hslot⟩ := consistent_bind_slot ht.1 hseparates hincreasing he'
  have hbind : Quiet t (t.bind (slotKey e) (EffectRecord.request e).ref) :=
    quiet_bind t _ _ (by simp [slotKey]) (by simp [slotKey])
  have hdurable : (recording context full Extra).durable
      (t.bind (slotKey e) (EffectRecord.request e).ref) := ⟨hconsistent, hextra _ _ hbind ht.2⟩
  refine holds_op not_false (.bind (slotKey e) (EffectRecord.request e).ref) _ ht trivial
    fun _ => ⟨hdurable, ?_⟩
  refine holds_op not_false (.resolve (slotKey e)) _ hdurable trivial fun _ => ⟨hdurable, ?_⟩
  change (settled (if (t.bind (slotKey e) (EffectRecord.request e).ref).bindings.get? (slotKey e) =
    some (EffectRecord.request e).ref then _ else _)).Holds _ _ _ _
  rw [if_pos hslot]
  have hst := hquiet.trans hbind
  refine ⟨hdurable, hst, hs.1.recorded_same hseparates hst.toGrows fun hash => ?_⟩
  change (t.bind (slotKey e) (EffectRecord.request e).ref).bindings.get? (.result hash) = _
  rw [bind_get_ne _ _ _ _ (by simp [slotKey]), hbindings]

/-- The loader answers with the recorded result, and raises nothing. -/
theorem holds_loadResult (hkinds : Separates F context) (e : GepaEffect F) {s : GepaState F}
    (hs : (recording context full Extra).durable s) :
    (settled (loadResult e)).Holds execOp (recording context full Extra)
      (fun x t => t = s ∧ x = .ok (recordedResult s e)) s := by
  refine holds_op not_false (.resolve (resultKey e)) _ hs trivial fun _ => ⟨hs, ?_⟩
  simp only [performOp]
  cases hbound : s.bindings.get? (resultKey e) with
  | none => exact ⟨hs, rfl, by simp [recordedResult, hbound]⟩
  | some ref =>
    obtain ⟨hschema,record,r,hstored,hpick,hhash,hrecorded⟩ := hs.1.recorded hkinds hbound
    rw [hrecorded]
    simp only [hschema, ne_eq, not_true_eq_false, if_false]
    refine holds_op not_false (.get ref : GepaOp F) _ hs trivial fun _ => ⟨hs, ?_⟩
    simp only [performOp, hstored, Option.bind_some, hpick, hhash, not_true_eq_false,
      if_false]
    exact ⟨hs, rfl, rfl⟩

/-- A result that is not on record yet is recorded as it is. -/
theorem holds_recordResult (hextra : ∀ s t, Quiet s t → Extra s → Extra t)
    (hseparates : Separates F context) {e : GepaEffect F} {result : e.Result} {s : GepaState F}
    (hs : (recording context full Extra).durable s) (hhash : resultHash e result = e.identityHash)
    (hnone : recordedResult s e = none) :
    (settled (recordResult e result)).Holds execOp (recording context full Extra)
      (fun x t => Quiet s t ∧ match x with
        | .ok r => r = result ∧ recordedResult t e = some result
        | .error error => ∃ message, error = .store message) s := by
  unfold recordResult
  simp only [hhash, ne_eq, not_true_eq_false, if_false]
  refine Prog.holds_reify_bind (holds_storePut hextra (resultRecord e result) hs)
    (fun _ t ht hq => ?_) fun _ _ _ hq => ⟨hq.1, hq.2.2⟩
  obtain ⟨hquiet,hbindings,hstored⟩ := hq
  have hbind : Quiet t (t.bind (resultKey e) (resultRecord e result).ref) :=
    quiet_bind t _ _ (by simp [resultKey]) (by simp [resultKey])
  have hdurable : (recording context full Extra).durable
      (t.bind (resultKey e) (resultRecord e result).ref) :=
    ⟨consistent_bind_result ht.1 hhash hstored, hextra _ _ hbind ht.2⟩
  have hbound : (t.bind (resultKey e) (resultRecord e result).ref).bindings.get? (resultKey e) =
      some (resultRecord e result).ref := by
    rw [bind_get, hbindings, hs.1.unbound hseparates hnone]
    rfl
  have hrecorded : recordedResult (t.bind (resultKey e) (resultRecord e result).ref) e =
      some result := by
    simp [recordedResult, hbound, schema_own, hbind.objects _ _ hstored, pickResult_own, hhash]
  refine holds_op not_false (.bind (resultKey e) (resultRecord e result).ref) _ ht trivial
    fun _ => ⟨hdurable, ?_⟩
  refine Prog.holds_reify_bind (holds_loadResult hseparates e hdurable) (fun loaded v hv hq => ?_)
    fun error v hv hq => by cases hq.2
  obtain ⟨rfl,hloaded⟩ := hq
  have hfound : loaded = some result := Except.ok.inj (hloaded.trans (congrArg Except.ok hrecorded))
  subst hfound
  change (settled (if result = result then _ else _)).Holds _ _ _ _
  rw [if_pos rfl]
  exact ⟨hdurable, hquiet.trans hbind, rfl, hrecorded⟩

end Programs
end Whetstone.Optim.Gepa
