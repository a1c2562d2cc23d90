import Whetstone.Optim.StepContract

/-! Every program of a step keeps the contract, and so does every pool of invocations. -/
namespace Whetstone.Optim.Step
open Whetstone.Core Whetstone.Lib Whetstone.Experiment Whetstone.Eval Whetstone.Tools

section Rules

variable [PyIdentifiers] [CandidateIdentity] [ToolIdentity] [LeaseText]
variable {F : Type} [FiniteFloats F] [DecidableEq F] [RewardIdentity F] [ResultIdentity F]
variable [RequestIdentity F] [StepResultIdentity F] [HarnessIdentity F]
variable {authority : LeaseAuthority} {run : OptimRun F} {s t u : StepState F authority}
variable {l : Invocation F}

/-! ### Checks -/

theorem keeps_refuseIf (bad : Prop) [Decidable bad] (error : StepError) :
    Keeps run l (fun _ _ => ¬ bad) (refuseIf bad error : StepProg F Unit) s :=
  keeps_ofExcept _ fun _ hok _ _ _ => (raiseIf_eq_ok bad error).mp hok

theorem keeps_answered {α : Type} (error : String → StepError) (x : Except String α) :
    Keeps run l (fun a _ => x = .ok a) (answered error x : StepProg F α) s := by
  refine keeps_ofExcept _ ?_
  intro a hok _ _ _
  cases x with
  | ok found =>
    cases hok
    rfl
  | error message => cases hok

theorem keeps_check {α : Type} (x : Except String α) :
    Keeps run l (fun a _ => x = .ok a) (check x : StepProg F α) s := keeps_answered .value x

/-! ### Operations -/

variable (laws : EffectLaws authority)
include laws

theorem keeps_resolve (key : BindingKey) :
    Keeps run l (fun found u => ∀ ref, found = some ref → u.bindings.get? key = some ref)
      (perform (.resolve key)) s := by
  refine keeps_perform laws (fun _ _ _ => trivial) ?_
  intro t answer found t' _ _ he u hu ref href
  cases he
  exact hu.bindings key ref href

theorem keeps_get (ref : TypedRef) :
    Keeps run l (fun found u => ∀ record, found = some record →
      u.objects.get? ref = some record) (perform (.get ref)) s := by
  refine keeps_perform laws (fun _ _ _ => trivial) ?_
  intro t answer found t' _ _ he u hu record hrecord
  cases he
  exact hu.objects ref record hrecord

/-- What is read of the store stays in it. -/
theorem keeps_objects :
    Keeps run l (fun objects u => ∀ ref record, objects.get? ref = some record →
      u.objects.get? ref = some record) (perform .objects) s := by
  refine keeps_perform laws (fun _ _ _ => trivial) ?_
  intro t answer objects t' _ _ he u hu
  cases he
  exact hu.objects

theorem keeps_persist (record : Record F) :
    Keeps run l (fun _ u => Stored u record) (persist record) s := by
  unfold persist
  refine keeps_bind (Q := fun stored u => stored = true → Stored u record) ?_ ?_
  · refine keeps_perform laws (fun _ _ _ => trivial) ?_
    intro t answer stored t' _ _ he u hu hstored
    have hput : t.put record = (stored, t') := Option.some.inj he
    have hheld : Stored (t.put record).2 record := put_stored (by rw [hput]; exact hstored)
    rw [hput] at hheld
    exact hheld.evolves hu
  · intro stored t _ _ hstored
    refine keeps_mono (keeps_refuseIf _ _) ?_
    intro _ u _ htu hpassed
    exact (hstored (by simpa using hpassed)).evolves htu

theorem keeps_persistCandidates (candidates : List Candidate) :
    Keeps run l (fun _ _ => True) (persistCandidates candidates) s := by
  induction candidates generalizing s with
  | nil => exact keeps_return _ fun _ _ _ => trivial
  | cons candidate rest ih => exact keeps_bind (keeps_persist laws _) fun _ _ _ _ _ => ih

theorem keeps_persistSnapshot (schema : String) (delta : List (String × Json)) :
    Keeps run l (fun _ _ => True) (persistSnapshot schema delta) s := by
  unfold persistSnapshot
  by_cases hdelta : delta = []
  · rw [if_pos hdelta]
    exact keeps_return _ fun _ _ _ => trivial
  · rw [if_neg hdelta]
    exact keeps_bind (keeps_persist laws _) fun _ _ _ _ _ => keeps_return _ fun _ _ _ => trivial

/-- A binding of a step result that stands in its place. -/
theorem keeps_bindOp {key : BindingKey} {index : Nat} {result : OptimStepResult F}
    (hkey : key = .stepResult run.runId index) (h : Linked run s index result) :
    Keeps run l (fun status u => status = .created ∨ status = .idempotent →
        u.bindings.get? key = some result.recordRef)
      (perform (.bind key result.recordRef)) s := by
  refine keeps_perform laws ?_ ?_
  · intro t _ hst
    exact ⟨index, result, hkey, rfl, h.evolves hst⟩
  · intro t answer status t' _ _ he u hu hstatus
    have hbind : t.bind key result.recordRef = (status, t') := Option.some.inj he
    have hbound : (t.bind key result.recordRef).2.bindings.get? key = some result.recordRef :=
      bind_bound (by rw [hbind]; exact hstatus)
    rw [hbind] at hbound
    exact hu.bindings _ _ hbound

/-- A lease is granted only where no terminal stood before; a terminal that is replayed is
published. -/
theorem keeps_acquire (effect : EffectRequest) (ownerId : String) :
    Keeps run l (fun reply u => ∀ acquired, reply = .ok acquired →
        (∀ lease, acquired = .lease lease → lease.request = effect ∧
          ∀ effect', effect'.semanticKey = effect.semanticKey →
            authority.published s.leases effect' = none) ∧
        ∀ terminal, acquired = .terminal terminal → ∃ held,
          authority.published u.leases effect = some held ∧
            EffectTerminal.fromLease held = .ok terminal)
      (perform (.acquire effect ownerId)) s := by
  refine keeps_perform laws (fun _ _ _ => trivial) ?_
  intro t answer reply t' _ hst he u hu acquired hreply
  cases answer with
  | lease attemptId choice =>
    cases he
    simp only [LeaseAuthority.effectAcquire, LeaseAuthority.effectAcquired] at hreply
    refine ⟨?_, ?_⟩
    · intro lease hlease
      subst hlease
      have hgranted : (authority.acquire effect ownerId attemptId choice t.leases).1 =
          .lease lease := by
        split at hreply
        · rename_i found hfound
          cases hreply
          exact hfound
        · obtain ⟨_,_,hterminal⟩ := (bind_eq_ok _ _ _).mp hreply
          cases hterminal
        · cases hreply
        · cases hreply
      obtain ⟨hrequest,hopen⟩ := laws.acquire_fresh _ _ _ _ _ _ hgranted
      refine ⟨hrequest, fun effect' hkey => ?_⟩
      cases hpublished : authority.published s.leases effect' with
      | none => rfl
      | some held =>
        have hlater := hst.published _ _ hpublished
        rw [hopen effect' hkey] at hlater
        cases hlater
    · intro terminal hterminal
      subst hterminal
      split at hreply
      · cases hreply
      · rename_i held hheld
        obtain ⟨found,hfound,hsame⟩ := (bind_eq_ok _ _ _).mp hreply
        cases hsame
        exact ⟨held, hu.published _ _ (authority.acquire_terminal _ _ _ _ _ _ hheld), hfound⟩
      · cases hreply
      · cases hreply
  | _ => cases he

/-- A publication that answers has published what it was given. -/
theorem keeps_publishEffect (subject : EffectSubject) (lease : Lease) (ref : TypedRef)
    (failure : Option TerminalFailure)
    (hj : ∀ t, Evolves s t → Publishes t lease (terminalOutcome failure) ref failure →
      AdapterTerminal run t lease.request ∨ IntentTerminal t lease.request) :
    Keeps run l (fun _ u => Publishes u lease (terminalOutcome failure) ref failure)
      (publishEffect subject lease ref failure : StepProg F Unit) s := by
  unfold publishEffect
  refine keeps_bind (Q := fun reply u => ∀ terminal, reply = .ok terminal →
    Publishes u lease (terminalOutcome failure) ref failure) ?_ ?_
  · refine keeps_perform laws ?_ ?_
    · exact fun t _ hst u htu => hj u (hst.trans htu)
    · intro t answer reply t' _ _ he u hu terminal hreply
      cases answer with
      | lease attemptId choice =>
        cases he
        obtain ⟨held,hheld,_⟩ := (bind_eq_ok _ _ _).mp hreply
        exact ⟨held, hu.published _ _ (authority.publish_publishes _ _ _ _ _ _ _ hheld),
          laws.publish_returns _ _ _ _ _ _ _ hheld⟩
      | _ => cases he
  · intro reply t _ _ hreply
    refine keeps_bind (keeps_answered _ _) ?_
    intro terminal u _ htu hterminal
    refine keeps_return _ fun v _ huv => ?_
    obtain ⟨held,hheld,hfields⟩ := hreply terminal hterminal
    exact ⟨held, (htu.trans huv).published _ _ hheld, hfields⟩

theorem keeps_invoke (request : OptimStepRequest F) (hj : Accounted run s (.invoked l))
    (hrequest : Stored s (.request request)) :
    Keeps run l (fun _ _ => True) (perform (.invoke request)) s :=
  keeps_perform laws (fun _ _ hst => ⟨hj.evolves hst, hrequest.evolves hst⟩)
    fun _ _ _ _ _ _ _ _ _ => trivial

/-- An operation whose reply carries nothing the proof needs. -/
theorem keeps_plain {o : StepOp F} (hj : ∀ t : StepState F authority, Justified run l o t) :
    Keeps run l (fun _ _ => True) (perform o) s :=
  keeps_perform laws (fun t _ _ => hj t) fun _ _ _ _ _ _ _ _ _ => trivial

/-! ### Records -/

theorem keeps_load {α : Type} (schema wrongSchema notExact : String) (pick : Record F → Option α)
    (ref : TypedRef) :
    Keeps run l (fun a u => ∃ record, Stored u record ∧ record.ref = ref ∧ pick record = some a)
      (load schema wrongSchema notExact pick ref) s := by
  unfold load
  refine keeps_bind (keeps_refuseIf _ _) ?_
  intro _ t _ _ _
  refine keeps_bind (keeps_get laws ref) ?_
  intro found t _ _ hfound
  cases found with
  | none => exact keeps_raise _
  | some record =>
    cases hpick : pick record with
    | none =>
      simp only [hpick]
      exact keeps_raise _
    | some a =>
      simp only [hpick]
      refine keeps_bind (keeps_refuseIf _ _) ?_
      intro _ u _ htu hexact
      refine keeps_return _ fun v _ huv => ⟨record, ?_, not_not.mp hexact, hpick⟩
      unfold Stored
      rw [not_not.mp hexact]
      exact (htu.trans huv).objects _ _ (hfound record rfl)

theorem keeps_loadRun (ref : TypedRef) :
    Keeps run l (fun found u => Stored u (.run found) ∧ found.recordRef = ref)
      (loadRun ref : StepProg F _) s := by
  refine keeps_mono (keeps_load laws _ _ _ _ ref) ?_
  rintro found u _ _ ⟨record,hstored,href,hpick⟩
  cases record with
  | run found' =>
    cases hpick
    exact ⟨hstored, href⟩
  | _ => cases hpick

theorem keeps_loadResult (ref : TypedRef) :
    Keeps run l (fun found u => Stored u (.result found) ∧ found.recordRef = ref)
      (loadResult ref : StepProg F _) s := by
  refine keeps_mono (keeps_load laws _ _ _ _ ref) ?_
  rintro found u _ _ ⟨record,hstored,href,hpick⟩
  cases record with
  | result found' =>
    cases hpick
    exact ⟨hstored, href⟩
  | _ => cases hpick

theorem keeps_loadCheckpoint (ref : TypedRef) :
    Keeps run l (fun found u => Stored u (.checkpoint found) ∧
        Record.ref (.checkpoint found : Record F) = ref)
      (loadCheckpoint ref : StepProg F _) s := by
  refine keeps_mono (keeps_load laws _ _ _ _ ref) ?_
  rintro found u _ _ ⟨record,hstored,href,hpick⟩
  cases record with
  | checkpoint found' =>
    cases hpick
    exact ⟨hstored, href⟩
  | _ => cases hpick

theorem keeps_loadIntentResolution (ref : TypedRef) :
    Keeps run l (fun found u => Stored u (.resolution found) ∧
        Record.ref (.resolution found : Record F) = ref)
      (loadIntentResolution ref : StepProg F _) s := by
  refine keeps_mono (keeps_load laws _ _ _ _ ref) ?_
  rintro found u _ _ ⟨record,hstored,href,hpick⟩
  cases record with
  | resolution found' =>
    cases hpick
    exact ⟨hstored, href⟩
  | _ => cases hpick

/-! ### The request against the durable chain -/

theorem keeps_validateBoundRun (h : OptimHarness F) (request : OptimStepRequest F) :
    Keeps run l (fun _ _ => request.run = run) (validateBoundRun h request) s := by
  unfold validateBoundRun
  refine keeps_bind (keeps_refuseIf _ _) ?_
  intro _ t _ _ _
  refine keeps_bind (keeps_resolve laws (.run request.runId)) ?_
  intro found t _ _ hfound
  cases found with
  | none => exact keeps_raise _
  | some actual =>
    refine keeps_bind (keeps_refuseIf _ _) ?_
    intro _ t1 _ ht1 _
    refine keeps_bind (keeps_loadRun laws actual) ?_
    intro loaded t2 _ ht2 ⟨hstored,href⟩
    refine keeps_mono (keeps_refuseIf _ _) ?_
    intro _ u hu htu hsame
    have hbound := (ht2.trans htu).bindings _ _ (ht1.bindings _ _ (hfound actual rfl))
    have hactual : actual = run.recordRef := (hu.runs _ _ hbound).2
    have hloaded := (hstored.evolves htu).unique hu.runStored (href.trans hactual)
    cases hloaded
    exact (not_not.mp hsame).symm

theorem keeps_validatePriorBinding (request : OptimStepRequest F) (hrun : request.run = run) :
    Keeps run l (fun _ u => (request.stepIndex = 0 ∧ validateInitial request = .ok ()) ∨
        0 < request.stepIndex ∧ ∃ prior, BoundAt run u (request.stepIndex - 1) prior ∧
          request.priorStepResultRef = some prior.recordRef ∧
          validatePreceding request prior = .ok ())
      (validatePriorBinding request) s := by
  unfold validatePriorBinding
  by_cases hindex : request.stepIndex = 0
  · rw [if_pos hindex]
    exact keeps_mono (keeps_check _) fun _ _ _ _ hok => .inl ⟨hindex, hok⟩
  · rw [if_neg hindex]
    refine keeps_bind (keeps_resolve laws _) ?_
    intro found t _ _ hfound
    cases found with
    | none => exact keeps_raise _
    | some actual =>
      refine keeps_bind (keeps_refuseIf _ _) ?_
      intro _ t1 _ ht1 hprior
      refine keeps_bind (keeps_loadResult laws actual) ?_
      intro preceding t2 _ ht2 ⟨hstored,href⟩
      refine keeps_mono (keeps_check _) ?_
      intro _ u _ htu hok
      have hbound := (ht2.trans htu).bindings _ _ (ht1.bindings _ _ (hfound actual rfl))
      subst hrun
      rw [← href] at hbound
      refine .inr ⟨Nat.pos_of_ne_zero hindex, preceding, ⟨hbound, hstored.evolves htu⟩, ?_, hok⟩
      rw [href]
      exact (not_not.mp hprior).symm

/-! ### Effects -/

omit [PyIdentifiers] [CandidateIdentity] [ToolIdentity] laws in
theorem fromLease_fields {held : Terminal} {terminal : EffectTerminal}
    (h : EffectTerminal.fromLease held = .ok terminal) :
    terminal.outcome = held.outcome ∧ terminal.resultRef = held.resultRef := by
  obtain ⟨failure,_,hsame⟩ := (bind_eq_ok _ _ _).mp h
  cases hsame
  exact ⟨rfl, rfl⟩

/- A terminal that was replayed, under the reference it has. -/
def Replayed (s : StepState F authority) (effect : EffectRequest) (ref : TypedRef) : Prop :=
  ∃ held, authority.published s.leases effect = some held ∧
    held.outcome ≠ .recoveryRequired ∧ held.resultRef = some ref

theorem keeps_acquireEffect (h : OptimHarness F) (effect : EffectRequest) (missing : String) :
    Keeps run l (fun found u =>
        (∀ lease, found = .inl lease → lease.request = effect ∧
          ∀ effect', effect'.semanticKey = effect.semanticKey →
            authority.published s.leases effect' = none) ∧
        ∀ terminal ref, found = .inr (terminal, ref) → Replayed u effect ref)
      (acquireEffect h effect missing) s := by
  unfold acquireEffect
  refine keeps_bind (keeps_acquire laws effect h.ownerId) ?_
  intro reply t _ _ hreply
  refine keeps_bind (keeps_answered _ _) ?_
  intro acquired t1 _ ht1 hacquired
  obtain ⟨hlease,hterminal⟩ := hreply acquired hacquired
  cases acquired with
  | lease lease =>
    refine keeps_return _ fun u _ _ => ⟨?_, by rintro _ _ ⟨⟩⟩
    rintro _ ⟨⟩
    exact hlease lease rfl
  | busy => exact keeps_raise _
  | requestConflict => exact keeps_raise _
  | terminal terminal =>
    obtain ⟨held,hheld,hfrom⟩ := hterminal terminal rfl
    obtain ⟨houtcome,href⟩ := fromLease_fields hfrom
    simp only
    split
    · exact keeps_raise _
    · exact keeps_raise _
    · exact keeps_raise _
    · rename_i ref hsome hfailureless hfailed
      refine keeps_return _ fun u _ htu => ⟨by rintro _ ⟨⟩, ?_⟩
      rintro _ _ ⟨⟩
      refine ⟨held, (ht1.trans htu).published _ _ hheld, ?_, ?_⟩
      · intro hrecovery
        cases hfailure : terminal.failure with
        | none => exact hfailureless (houtcome.trans hrecovery) hfailure
        | some failure => exact hfailed failure (houtcome.trans hrecovery) hfailure
      · rw [← href, hsome]

omit laws in
theorem Publishes.refers {lease : Lease} {effect : EffectRequest} {record : Record F}
    {failure : Option TerminalFailure}
    (h : Publishes s lease (terminalOutcome failure) record.ref failure)
    (heffect : lease.request = effect) (hstored : Stored s record) :
    Refers s effect record failure := by
  obtain ⟨terminal,hpublished,houtcome,href,hfailure⟩ := h
  rw [heffect] at hpublished
  exact ⟨⟨terminal, hpublished, href, houtcome, hfailure⟩, hstored⟩

omit laws in
/-- A published effect refers to one record. -/
theorem Refers.replayed {effect : EffectRequest} {record record' : Record F}
    {failure : Option TerminalFailure} (h : Refers s effect record failure)
    (hreplayed : Replayed s effect record'.ref) (hstored : Stored s record') :
    record = record' := by
  obtain ⟨⟨terminal,hpublished,href,_⟩,hrecord⟩ := h
  obtain ⟨held,hheld,_,href'⟩ := hreplayed
  have hsame : terminal = held := Option.some.inj (hpublished.symm.trans hheld)
  refine hrecord.unique hstored ?_
  rw [← Option.some.injEq, ← href, ← href', hsame]

omit [HarnessIdentity F] laws in
theorem Replayed.evolves {effect : EffectRequest} {ref : TypedRef} (h : Replayed s effect ref)
    (hst : Evolves s t) : Replayed t effect ref := by
  obtain ⟨held,hheld,hrest⟩ := h
  exact ⟨held, hst.published _ _ hheld, hrest⟩

/-! ### The adapter's output -/

omit laws in
theorem adapterSettled_evolves {request : OptimStepRequest F}
    (h : adapterSettled s request = true) (hst : Evolves s t) :
    adapterSettled t request = true := by
  simp only [adapterSettled, List.any_eq_true] at h ⊢
  obtain ⟨policy,hmem,hsome⟩ := h
  obtain ⟨terminal,hterminal⟩ := Option.isSome_iff_exists.mp hsome
  exact ⟨policy, hmem, by rw [hst.published _ _ hterminal, Option.isSome_some]⟩

/- The invocation has entered, and noted a terminal only if there is one. -/
def Entered (l : Invocation F) (s : StepState F authority) : Prop :=
  ∃ settled, .entered l settled ∈ s.history ∧
    (settled = true → adapterSettled s l.request = true)

omit laws in
theorem Entered.evolves (h : Entered l s) (hst : Evolves s t) : Entered l t := by
  obtain ⟨settled,hmem,hsettled⟩ := h
  exact ⟨settled, hst.recorded hmem, fun htrue => adapterSettled_evolves (hsettled htrue) hst⟩

omit laws in
/-- An invocation that is granted the lease on its adapter effect found no terminal. -/
theorem Entered.invoked (h : Entered l s) (policy : ReplayPolicy)
    (hopen : ∀ effect : EffectRequest,
      effect.semanticKey = (adapterEffectRequest l.request policy).semanticKey →
      authority.published s.leases effect = none) : Accounted run s (.invoked l) := by
  intro _
  obtain ⟨settled,hmem,hsettled⟩ := h
  cases settled with
  | false => exact hmem
  | true =>
    have htrue := hsettled rfl
    simp only [adapterSettled, List.any_eq_true] at htrue
    obtain ⟨policy',_,hsome⟩ := htrue
    rw [hopen (adapterEffectRequest l.request policy') rfl] at hsome
    cases hsome

theorem keeps_ledgerEvidence (request : OptimStepRequest F) :
    Keeps run l (fun _ _ => True) (ledgerEvidence request) s := by
  unfold ledgerEvidence
  refine keeps_bind (keeps_plain laws fun _ => trivial) ?_
  intro slots t _ _ _
  split
  · exact keeps_return _ fun _ _ _ => trivial
  · exact keeps_raise _

theorem keeps_invokeEffectful (request : OptimStepRequest F)
    (hj : Accounted run s (.invoked l)) (hrequest : Stored s (.request request)) :
    Keeps run l (fun output _ => request.mode = .toolUsing → output.optimEvalRequests = [])
      (invokeEffectful request) s := by
  unfold invokeEffectful
  refine keeps_bind (keeps_invoke laws request hj hrequest) ?_
  intro reply t _ _ _
  refine keeps_bind (keeps_answered _ _) ?_
  intro output t1 _ _ _
  by_cases hmode : request.mode = .toolUsing
  · rw [if_pos hmode]
    refine keeps_bind (keeps_refuseIf _ _) ?_
    intro _ t2 _ _ hnone
    refine keeps_bind (keeps_ledgerEvidence laws request) ?_
    intro evidence t3 _ _ _
    exact keeps_return _ fun _ _ _ _ => not_not.mp hnone
  · rw [if_neg hmode]
    exact keeps_return _ fun _ _ _ htool => absurd htool hmode

theorem keeps_invokeAndPersistAdapter (request : OptimStepRequest F)
    (hj : Accounted run s (.invoked l)) (hmode : request.mode ≠ .pure)
    (hrequest : Stored s (.request request)) :
    Keeps run l (fun found u => Checked u request found.1 ∧
        Stored u (checkpointOf request found.1) ∧ found.2 = (checkpointOf request found.1).ref)
      (invokeAndPersistAdapter request) s := by
  unfold invokeAndPersistAdapter
  refine keeps_bind (keeps_invokeEffectful laws request hj hrequest) ?_
  intro output t1 _ ht1 htools
  refine keeps_bind (keeps_objects laws) ?_
  intro objects t2 _ ht2 hobjects
  refine keeps_bind (keeps_check _) ?_
  intro _ t3 _ ht3 hok
  refine keeps_bind (keeps_persist laws _) ?_
  intro _ t4 _ ht4 hstored
  refine keeps_return _ fun u _ hu => ⟨⟨?_, hmode, ?_, htools⟩, hstored.evolves hu, rfl⟩
  · exact hrequest.evolves ((((ht1.trans ht2).trans ht3).trans ht4).trans hu)
  · refine checkOutput_grow ?_ request output hok
    exact fun ref record hget => ((ht3.trans ht4).trans hu).objects _ _ (hobjects ref record hget)

omit laws in
/-- A replayed checkpoint that was validated is the one that its effect was published with. -/
theorem replayed_checkpoint {request : OptimStepRequest F} {policy : ReplayPolicy}
    {checkpoint : AdapterCheckpoint F} {objects : Objects F} (hs : StepInv run s)
    (hrequest : Stored s (.request request))
    (hreplayed : Replayed s (adapterEffectRequest request policy)
      (Record.ref (.checkpoint checkpoint : Record F)))
    (hstored : Stored s (.checkpoint checkpoint))
    (hvalid : validateCheckpoint objects request checkpoint = .ok ()) :
    Refers s (adapterEffectRequest request policy) (checkpointOf request checkpoint.output)
        checkpoint.output.terminalFailure ∧ Checked s request checkpoint.output := by
  obtain ⟨held,hheld,houtcome,href⟩ := hreplayed
  rcases hs.published _ _ hheld houtcome with
    ⟨request',policy',output,_,_,hchecked,hrefers⟩ | ⟨request',policy',resolution,_,hrefers⟩
  · have hrecord := hrefers.replayed ⟨held, hheld, houtcome, href⟩ hstored
    cases hrecord
    simp only [validateCheckpoint, raiseIf_bind_eq_ok] at hvalid
    have hsame := hchecked.stored.unique hrequest (not_not.mp hvalid.1)
    cases hsame
    exact ⟨hrefers, hchecked⟩
  · have hrecord := hrefers.replayed ⟨held, hheld, houtcome, href⟩ hstored
    cases hrecord

theorem keeps_effectfulOutput (h : OptimHarness F) (policy : ReplayPolicy)
    (hentered : Entered l s) (hmode : l.request.mode ≠ .pure)
    (hrequest : Stored s (.request l.request)) (hfollows : Follows run s l.request) :
    Keeps run l (fun output u => Refers u (adapterEffectRequest l.request policy)
        (checkpointOf l.request output) output.terminalFailure ∧ Checked u l.request output)
      (effectfulOutput h l.request policy) s := by
  unfold effectfulOutput
  refine keeps_bind (keeps_acquireEffect laws h _ _) ?_
  rintro (lease | ⟨terminal,ref⟩) t1 _ ht1 ⟨hlease,hterminal⟩
  · obtain ⟨heffect,hopen⟩ := hlease lease rfl
    have hj : Accounted run t1 (.invoked l) := (hentered.invoked policy hopen).evolves ht1
    refine keeps_bind (keeps_invokeAndPersistAdapter laws l.request hj hmode
      (hrequest.evolves ht1)) ?_
    rintro ⟨output,ref⟩ t2 _ ht2 ⟨hchecked,hstored,href⟩
    simp only at href
    subst href
    refine keeps_bind (keeps_publishEffect laws _ _ _ _ ?_) ?_
    · intro u hu hpublishes
      exact .inl ⟨l.request, policy, output, heffect,
        hfollows.evolves ((ht1.trans ht2).trans hu), hchecked.evolves hu,
        hpublishes.refers rfl (hstored.evolves hu)⟩
    · intro _ t3 _ ht3 hpublishes
      refine keeps_return _ fun u _ hu => ⟨?_, hchecked.evolves (ht3.trans hu)⟩
      exact (hpublishes.refers heffect (hstored.evolves ht3)).evolves hu
  · refine keeps_bind (keeps_loadCheckpoint laws ref) ?_
    intro checkpoint t2 _ ht2 ⟨hstored,href⟩
    refine keeps_bind (keeps_objects laws) ?_
    intro objects t3 _ ht3 _
    refine keeps_bind (keeps_check _) ?_
    intro _ t4 _ ht4 hvalid
    refine keeps_bind (keeps_check _) ?_
    intro _ t5 _ ht5 _
    refine keeps_return _ fun u hu htu => ?_
    have hreplayed := hterminal terminal ref rfl
    rw [← href] at hreplayed
    have h2u := ((ht3.trans ht4).trans ht5).trans htu
    exact replayed_checkpoint hu (hrequest.evolves ((ht1.trans ht2).trans h2u))
      (hreplayed.evolves (ht2.trans h2u)) (hstored.evolves h2u) hvalid

/-! ### The intents -/

omit laws in
/-- A replayed resolution is the one that its effect was published with. -/
theorem replayed_resolution {effect : EffectRequest} {resolution : IntentResolution F}
    (hs : StepInv run s)
    (hreplayed : Replayed s effect (Record.ref (.resolution resolution : Record F)))
    (hstored : Stored s (.resolution resolution)) :
    Refers s effect (.resolution resolution) resolution.terminalFailure := by
  obtain ⟨held,hheld,houtcome,href⟩ := hreplayed
  rcases hs.published _ _ hheld houtcome with
    ⟨request,policy,output,_,_,_,hrefers⟩ | ⟨request,policy,resolution',_,hrefers⟩
  · have hrecord := hrefers.replayed ⟨held, hheld, houtcome, href⟩ hstored
    cases hrecord
  · have hrecord := hrefers.replayed ⟨held, hheld, houtcome, href⟩ hstored
    cases hrecord
    exact hrefers

omit [LeaseText] [HarnessIdentity F] laws in
theorem validateResolution_intent {objects : Objects F} {intent : OptimEvalRequest}
    {resolution : IntentResolution F}
    (h : validateResolution objects intent resolution = .ok ()) :
    resolution.optimEvalRequest = intent :=
  not_not.mp ((raiseIf_bind_eq_ok _ _ _ _).mp h).1

theorem keeps_resolveOneIntent (h : OptimHarness F) (policy : ReplayPolicy)
    (request : OptimStepRequest F) (intent : OptimEvalRequest) :
    Keeps run l (fun resolution u => resolution.optimEvalRequest = intent ∧
        Refers u (intentEffectRequest request resolution.optimEvalRequest policy)
          (.resolution resolution) resolution.terminalFailure)
      (resolveOneIntent h policy request intent) s := by
  unfold resolveOneIntent
  refine keeps_bind (keeps_acquireEffect laws h _ _) ?_
  rintro (lease | ⟨terminal,ref⟩) t1 _ ht1 ⟨hlease,hterminal⟩
  · obtain ⟨heffect,_⟩ := hlease lease rfl
    refine keeps_bind (keeps_plain laws fun _ => trivial) ?_
    intro reply t2 _ _ _
    refine keeps_bind (keeps_answered _ _) ?_
    intro resolution t3 _ _ _
    refine keeps_bind (keeps_objects laws) ?_
    intro objects t4 _ _ _
    refine keeps_bind (keeps_check _) ?_
    intro _ t5 _ _ hvalid
    have hintent := validateResolution_intent hvalid
    refine keeps_bind (keeps_plain laws fun _ => trivial) ?_
    intro graph t6 _ _ _
    refine keeps_bind (keeps_answered _ _) ?_
    intro _ t7 _ _ _
    refine keeps_bind (keeps_persist laws _) ?_
    intro _ t8 _ _ hstored
    subst hintent
    refine keeps_bind (keeps_publishEffect laws _ _ _ _ ?_) ?_
    · intro u hu hpublishes
      exact .inr ⟨request, policy, resolution, heffect,
        hpublishes.refers rfl (hstored.evolves hu)⟩
    · intro _ t9 _ ht9 hpublishes
      refine keeps_return _ fun u _ hu => ⟨rfl, ?_⟩
      exact (hpublishes.refers heffect (hstored.evolves ht9)).evolves hu
  · refine keeps_bind (keeps_loadIntentResolution laws ref) ?_
    intro resolution t2 _ ht2 ⟨hstored,href⟩
    refine keeps_bind (keeps_objects laws) ?_
    intro objects t3 _ ht3 _
    refine keeps_bind (keeps_check _) ?_
    intro _ t4 _ ht4 hvalid
    have hintent := validateResolution_intent hvalid
    refine keeps_bind (keeps_check _) ?_
    intro _ t5 _ ht5 _
    refine keeps_bind (keeps_plain laws fun _ => trivial) ?_
    intro graph t6 _ ht6 _
    refine keeps_bind (keeps_answered _ _) ?_
    intro _ t7 _ ht7 _
    refine keeps_return _ fun u hu htu => ⟨hintent, ?_⟩
    have h2u := ((((ht3.trans ht4).trans ht5).trans ht6).trans ht7).trans htu
    have hreplayed := hterminal terminal ref rfl
    rw [← href] at hreplayed
    rw [hintent]
    exact replayed_resolution hu (hreplayed.evolves (ht2.trans h2u)) (hstored.evolves h2u)

theorem keeps_resolveEach (h : OptimHarness F) (policy : ReplayPolicy)
    (request : OptimStepRequest F) (allowed : Dict String Candidate)
    (intents : List OptimEvalRequest) :
    Keeps run l (fun resolutions u => ResolvedAll u request intents resolutions)
      (resolveEach h policy request allowed intents) s := by
  induction intents generalizing s with
  | nil => exact keeps_return _ fun _ _ _ => ⟨rfl, by simp⟩
  | cons intent rest ih =>
    unfold resolveEach
    refine keeps_bind (keeps_objects laws) ?_
    intro objects t1 _ _ _
    refine keeps_bind (keeps_check _) ?_
    intro _ t2 _ _ _
    refine keeps_bind (keeps_persist laws _) ?_
    intro _ t3 _ _ _
    refine keeps_bind (keeps_resolveOneIntent laws h policy request intent) ?_
    intro resolution t4 _ _ ⟨hintent,hrefers⟩
    refine keeps_bind ih ?_
    intro resolutions t5 _ ht5 ⟨hintents,hall⟩
    refine keeps_return _ fun u _ hu => ResolvedAll.evolves ⟨?_, ?_⟩ hu
    · rw [List.map_cons, hintent, hintents]
    · intro found hmem
      rcases List.mem_cons.mp hmem with rfl | hmem
      · exact ⟨policy, hrefers.evolves ht5⟩
      · exact hall found hmem

theorem keeps_resolveIntents (h : OptimHarness F) (request : OptimStepRequest F)
    (output : AdapterOutput F) :
    Keeps run l (fun resolutions u => ResolvedAll u request output.optimEvalRequests resolutions)
      (resolveIntents h request output) s := by
  unfold resolveIntents
  by_cases hnone : output.optimEvalRequests = []
  · simp only [if_pos hnone]
    exact keeps_return _ fun _ _ _ => ⟨by rw [hnone]; rfl, by simp⟩
  · simp only [if_neg hnone]
    refine keeps_bind (keeps_objects laws) ?_
    intro objects t1 _ _ _
    refine keeps_bind (keeps_check _) ?_
    intro _ t2 _ _ _
    split
    · exact keeps_raise _
    · exact keeps_resolveEach laws h _ request _ _

/-! ### The step -/

omit [StepResultIdentity F] [HarnessIdentity F] laws [LeaseText] in
theorem StepResultFields.modelValidate_fields {fields : StepResultFields F}
    {result : OptimStepResult F} (h : fields.modelValidate = .ok result) :
    result.fields = fields := by
  unfold StepResultFields.modelValidate at h
  split at h
  · cases h
    rfl
  · cases h

theorem keeps_toolEvidence (request : OptimStepRequest F) (output : AdapterOutput F) :
    Keeps run l (fun _ _ => True) (toolEvidence request output) s := by
  unfold toolEvidence
  by_cases hmode : request.mode = .toolUsing
  · rw [if_pos hmode]
    refine keeps_bind (keeps_ledgerEvidence laws request) ?_
    intro evidence t1 _ _ _
    refine keeps_bind (keeps_refuseIf _ _) ?_
    intro _ t2 _ _ _
    exact keeps_return _ fun _ _ _ => trivial
  · rw [if_neg hmode]
    exact keeps_return _ fun _ _ _ => trivial

theorem keeps_bindResult (result : OptimStepResult F) (hrequest : result.request = l.request)
    (hfollows : Follows run s l.request) (hbacked : Backed s result) :
    Keeps run l (fun found u => Accounted run u (.returned l found.1 found.2))
      (bindResult l.request result) s := by
  have hid : l.request.runId = run.runId := congrArg (fun run => run.runId) hfollows.ofRun
  unfold bindResult
  refine keeps_bind (keeps_persist laws _) ?_
  intro _ t1 _ ht1 hstored
  have hlinked : Linked run t1 l.request.stepIndex result :=
    ⟨congrArg OptimStepRequest.stepIndex hrequest, hstored,
      hrequest ▸ hfollows.evolves ht1, hbacked.evolves ht1⟩
  refine keeps_bind (keeps_bindOp laws (by rw [hid]) hlinked) ?_
  intro status t2 _ ht2 hbound
  cases status with
  | created =>
    refine keeps_return _ fun u _ hu => ⟨hrequest, rfl, ?_⟩
    exact BoundAt.evolves ⟨hid ▸ hbound (.inl rfl), hstored.evolves ht2⟩ hu
  | idempotent =>
    refine keeps_bind (keeps_loadResult laws _) ?_
    intro bound t3 _ ht3 ⟨hloaded,href⟩
    have hsame := hloaded.unique (hstored.evolves (ht2.trans ht3)) href
    cases hsame
    refine keeps_return _ fun u _ hu => ⟨hrequest, rfl, ?_⟩
    exact BoundAt.evolves ⟨hid ▸ hbound (.inr rfl), hstored.evolves ht2⟩ (ht3.trans hu)
  | conflict existing => exact keeps_raise _

/-- A published output is finished as a result that it backs. -/
theorem keeps_finishStep (h : OptimHarness F) (output : AdapterOutput F)
    (hfollows : Follows run s l.request)
    (hpublished : l.request.mode ≠ .pure → Checked s l.request output ∧ ∃ policy,
      Refers s (adapterEffectRequest l.request policy) (checkpointOf l.request output)
        output.terminalFailure) :
    Keeps run l (fun found u => Accounted run u (.returned l found.1 found.2))
      (finishStep h l.request output) s := by
  unfold finishStep
  refine keeps_bind (keeps_objects laws) ?_
  intro objects t1 _ ht1 _
  refine keeps_bind (keeps_check _) ?_
  intro _ t2 _ ht2 _
  refine keeps_bind (keeps_toolEvidence laws _ output) ?_
  intro evidence t3 _ ht3 _
  refine keeps_bind (keeps_check _) ?_
  intro budget t4 _ ht4 _
  refine keeps_bind (keeps_persistCandidates laws _) ?_
  intro _ t5 _ ht5 _
  refine keeps_bind (keeps_persistCandidates laws _) ?_
  intro _ t6 _ ht6 _
  have h6 := ((((ht1.trans ht2).trans ht3).trans ht4).trans ht5).trans ht6
  refine keeps_bind (Q := fun resolutions u => l.request.mode ≠ .pure →
    ResolvedAll u l.request output.optimEvalRequests resolutions) ?_ ?_
  · unfold stepResolutions
    by_cases hmode : l.request.mode = .proposalOnly
    · rw [if_pos hmode]
      exact keeps_mono (keeps_resolveIntents laws h _ output) fun _ _ _ _ hall _ => hall
    · rw [if_neg hmode]
      refine keeps_return _ fun u _ _ heffectful => ?_
      have htool : l.request.mode = .toolUsing := by
        cases hkind : l.request.mode <;> simp_all
      exact ⟨by rw [(hpublished heffectful).1.tools htool]; rfl, by simp⟩
  · intro resolutions t7 _ ht7 hresolved
    refine keeps_bind (keeps_persistSnapshot laws _ _) ?_
    intro stateRef t8 _ ht8 _
    refine keeps_bind (keeps_persistSnapshot laws _ _) ?_
    intro historyRef t9 _ ht9 _
    refine keeps_bind (keeps_persistCandidates laws _) ?_
    intro _ t10 _ ht10 _
    refine keeps_bind (keeps_check _) ?_
    intro result t11 _ ht11 hvalid
    have hfields := StepResultFields.modelValidate_fields hvalid
    have hrequest : result.request = l.request := congrArg (fun fields => fields.request) hfields
    have h11 := ((ht8.trans ht9).trans ht10).trans ht11
    refine keeps_bindResult laws result hrequest
      (hfollows.evolves ((h6.trans ht7).trans h11)) ?_
    intro hmode
    rw [hrequest] at hmode ⊢
    obtain ⟨hchecked,policy,hrefers⟩ := hpublished hmode
    exact ⟨policy, output, evidence, budget, resolutions, stateRef, historyRef,
      hrefers.evolves ((h6.trans ht7).trans h11), hchecked.evolves ((h6.trans ht7).trans h11),
      hfields, (hresolved hmode).evolves h11⟩

theorem keeps_replayResult (existingRef : TypedRef) (hrun : l.request.run = run)
    (hbound : s.bindings.get? (.stepResult l.request.runId l.request.stepIndex) =
      some existingRef) :
    Keeps run l (fun found u => Accounted run u (.returned l found.1 found.2))
      (replayResult l.request existingRef) s := by
  have hid : l.request.runId = run.runId := congrArg (fun run => run.runId) hrun
  unfold replayResult
  refine keeps_bind (keeps_loadResult laws _) ?_
  intro existing t1 _ ht1 ⟨hstored,href⟩
  refine keeps_bind (keeps_refuseIf _ _) ?_
  intro _ t2 _ ht2 _
  refine keeps_bind (keeps_refuseIf _ _) ?_
  intro _ t3 _ ht3 hsame
  subst href
  refine keeps_return _ fun u _ hu => ⟨not_not.mp hsame, rfl, ?_⟩
  rw [hid] at hbound
  exact BoundAt.evolves ⟨ht1.bindings _ _ hbound, hstored⟩ ((ht2.trans ht3).trans hu)

theorem keeps_prepareHandles (request : OptimStepRequest F) (configs : List ToolConfig) :
    Keeps run l (fun _ _ => True) (prepareHandles request configs) s := by
  induction configs generalizing s with
  | nil => exact keeps_return _ fun _ _ _ => trivial
  | cons config rest ih =>
    unfold prepareHandles
    refine keeps_bind (keeps_plain laws fun _ => trivial) ?_
    intro reply t1 _ _ _
    refine keeps_bind (keeps_answered _ _) ?_
    intro handle t2 _ _ _
    refine keeps_bind (keeps_refuseIf _ _) ?_
    intro _ t3 _ _ _
    refine keeps_bind (keeps_refuseIf _ _) ?_
    intro _ t4 _ _ _
    exact ih

theorem keeps_stepOutput (h : OptimHarness F) (policy : ReplayPolicy) (hentered : Entered l s)
    (hrequest : Stored s (.request l.request)) (hfollows : Follows run s l.request) :
    Keeps run l (fun output u => l.request.mode ≠ .pure → Checked u l.request output ∧ ∃ policy,
        Refers u (adapterEffectRequest l.request policy) (checkpointOf l.request output)
          output.terminalFailure)
      (stepOutput h l.request policy) s := by
  have heffectful : ∀ t, Evolves s t → l.request.mode ≠ .pure →
      Keeps run l (fun output u => l.request.mode ≠ .pure → Checked u l.request output ∧
        ∃ policy, Refers u (adapterEffectRequest l.request policy)
          (checkpointOf l.request output) output.terminalFailure)
        (effectfulOutput h l.request policy) t := by
    intro t hst hmode
    refine keeps_mono (keeps_effectfulOutput laws h policy (hentered.evolves hst) hmode
      (hrequest.evolves hst) (hfollows.evolves hst)) ?_
    exact fun output u _ _ hpublished _ => ⟨hpublished.2, policy, hpublished.1⟩
  unfold stepOutput
  cases hmode : l.request.mode with
  | pure =>
    refine keeps_bind (keeps_invoke laws _ (fun hne => absurd hmode hne) hrequest) ?_
    intro reply t1 _ _ _
    refine keeps_bind (keeps_answered _ _) ?_
    intro output t2 _ _ _
    refine keeps_bind (keeps_refuseIf _ _) ?_
    intro _ t3 _ _ _
    exact keeps_return _ fun _ _ _ hne => absurd rfl hne
  | proposalOnly =>
    rw [hmode] at heffectful
    exact heffectful s (.refl s) (by simp)
  | toolUsing =>
    rw [hmode] at heffectful
    unfold prepareToolHandles
    refine keeps_bind (Q := fun _ _ => True) ?_ fun _ t _ hst _ => heffectful t hst (by simp)
    refine keeps_bind (keeps_refuseIf _ _) ?_
    intro _ t1 _ _ _
    exact keeps_prepareHandles laws _ _

/-- What a call of `run_step` returns is bound in the place of its request. -/
theorem keeps_runStep (h : OptimHarness F) (hentered : Entered l s) :
    Keeps run l (fun found u => Accounted run u (.returned l found.1 found.2))
      (runStep h l.request) s := by
  unfold runStep
  refine keeps_bind (keeps_check _) ?_
  intro _ t1 _ ht1 hvalid
  refine keeps_bind (keeps_validateBoundRun laws h l.request) ?_
  intro _ t2 _ ht2 hrun
  refine keeps_bind (keeps_check _) ?_
  intro _ t3 _ ht3 _
  refine keeps_bind (keeps_validatePriorBinding laws l.request hrun) ?_
  intro _ t4 _ ht4 hprior
  refine keeps_bind (keeps_resolve laws _) ?_
  intro found t5 _ ht5 hfound
  have hfollows : Follows run t5 l.request := Follows.evolves ⟨hvalid, hrun, hprior⟩ ht5
  cases found with
  | some existingRef => exact keeps_replayResult laws existingRef hrun (hfound existingRef rfl)
  | none =>
    refine keeps_bind (keeps_check _) ?_
    intro policy t6 _ ht6 _
    refine keeps_bind (keeps_persist laws _) ?_
    intro _ t7 _ ht7 hrequest
    refine keeps_bind (keeps_persistCandidates laws _) ?_
    intro _ t8 _ ht8 _
    have h5 := (((ht1.trans ht2).trans ht3).trans ht4).trans ht5
    have h8 := (ht6.trans ht7).trans ht8
    refine keeps_bind (keeps_stepOutput laws h policy (hentered.evolves (h5.trans h8))
      (hrequest.evolves ht8) (hfollows.evolves h8)) ?_
    intro output t9 _ ht9 hpublished
    exact keeps_finishStep laws h output (hfollows.evolves (h8.trans ht9)) hpublished

/-! ### Pools -/

theorem safe_code (l : Invocation F) (s : StepState F authority) :
    (stepContract authority run).Safe (stepMachine F authority) l (fun _ _ => True)
      ((stepMachine F authority).code l) s := by
  have hcode : Keeps run l (fun _ _ => True) ((stepMachine F authority).code l) s := by
    refine keeps_bind (Q := fun _ u => Entered l u) ?_ ?_
    · refine keeps_perform laws (fun _ _ _ => trivial) ?_
      intro t answer reply t' _ _ he u hu
      cases he
      refine Entered.evolves ⟨_, List.mem_append_right _ (List.mem_singleton.mpr rfl), ?_⟩ hu
      exact fun hsettled => hsettled
    · intro _ t1 _ _ hentered
      refine keeps_bind (keeps_runStep laws l.harness hentered) ?_
      rintro ⟨result,ref⟩ t2 _ _ hreturned
      exact keeps_perform laws (fun _ _ hst => hreturned.evolves hst)
        fun _ _ _ _ _ _ _ _ _ => trivial
  exact Contract.safe_mono hcode fun _ _ _ _ => trivial

theorem stepPool_sound {stored : Objects F} (hstored : HoldsRun run stored)
    (calls : List (OptimHarness F × OptimStepRequest F)) :
    Contract.Sound (stepContract authority run) (stepMachine F authority)
      (stepPool authority run stored calls) := by
  refine ⟨⟨hstored.addressed, hstored.run, ?_, ?_, ?_, ?_, ?_, ?_, ?_⟩, ?_, ?_⟩
  · intro runId ref hget
    simp only [stepPool, boundState, Dict.get?_set] at hget
    split at hget
    · rename_i hkey
      cases hkey
      cases hget
      exact ⟨rfl, rfl⟩
    · cases hget
  · exact Dict.get?_set_self _ _ _
  · intro index ref hget
    simp [stepPool, boundState, Dict.get?_set] at hget
  · intro runId
    simp [stepPool, boundState, Dict.get?_set]
  · intro effect terminal hget
    rw [stepPool, boundState, laws.initial_open] at hget
    cases hget
  · intro ref slots hget
    cases hget
  · simp [stepPool, boundState]
  · exact List.pairwise_of_forall fun _ _ => ⟨trivial, trivial⟩
  · intro th hmem
    simp only [stepPool, List.mem_mapIdx] at hmem
    obtain ⟨number,_,rfl⟩ := hmem
    exact safe_code laws _ _

/-- Every reachable state satisfies the invariant. -/
theorem run_stepInv {stored : Objects F} (hstored : HoldsRun run stored)
    (calls : List (OptimHarness F × OptimStepRequest F))
    (schedule : List (Nat × StepAnswer F authority)) :
    StepInv run ((stepMachine F authority).run (stepPool authority run stored calls)
      schedule).state := by
  have hstarts : Contract.Starts (stepContract authority run) (stepMachine F authority) :=
    ⟨fun _ _ h => (List.not_mem_nil h).elim, fun l s _ _ => safe_code laws l s⟩
  refine ((stepPool_sound laws hstored calls).run hstarts schedule ?_).inv
  exact Machine.meets_true _ _ (fun _ _ _ => trivial) _ _

end Rules
end Whetstone.Optim.Step
