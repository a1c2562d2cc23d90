import Whetstone.Optim.Gepa.EvidenceRun
import Whetstone.Optim.Gepa.StepSpend

/-! The spend of whole runs without a crash. A reflection is billed on the chain unless the
attempt that put it on record was deferred: its placeholder carries the spend, the placeholder is
discarded, and the attempt that resumes the step finds the reflection on record. -/
namespace Whetstone.Optim.Gepa
open Whetstone.Core Whetstone.Lib Whetstone.Experiment Whetstone.Optim.Step

section Spend

variable {F : Type} [FiniteFloats F] [DecidableEq F] [RewardIdentity F] [GepaIdentity F]

/-! ### What an attempt counts -/

def GepaOp.spending : GepaOp F → Option (ProposerCallUsage F)
  | .spend usage => some usage
  | _ => none

theorem performOp_spent (o : GepaOp F) (answer : GepaAnswer F) (s : GepaState F) :
    (performOp o answer s).2.spent = s.spent ++ o.spending.toList := by
  cases o with
  | put record => simpa [GepaOp.spending, performOp] using (quiet_put s record).spent
  | bind key ref => simpa [GepaOp.spending, performOp] using bind_spent s key ref
  | resolveIntent mode intent =>
    simpa [GepaOp.spending, performOp] using (spares_resolveIntent s mode intent answer).spent
  | project request resolution => cases answer <;> simp [GepaOp.spending, performOp]
  | resolve _ | get _ | evaluate _ | propose _ => simp [GepaOp.spending, performOp]
  | collect _ _ => simp [GepaOp.spending, performOp]
  | spend _ => rfl

/-- An attempt that does not crash has counted the spend of its operations. -/
theorem attempt_spent {α : Type} (p : GepaProg F α) (answers : List (GepaAnswer F))
    (s : GepaState F) (h : (p.attempt execOp answers s).outcome ≠ .crashed) :
    (p.attempt execOp answers s).state.spent = s.spent ++
      (p.attempt execOp answers s).events.filterMap fun event => event.1.spending := by
  induction p generalizing s answers with
  | done a => simp [Prog.attempt]
  | raise error => simp [Prog.attempt]
  | call o next ih =>
    cases answers with
    | nil => exact absurd rfl h
    | cons answer rest =>
      cases hexec : execOp o answer s with
      | mk reply t =>
        cases reply with
        | none =>
          simp only [Prog.attempt, hexec] at h
          exact absurd rfl h
        | some r =>
          simp only [Prog.attempt, hexec] at h ⊢
          have hspent : t.spent = s.spent ++ o.spending.toList := by
            have ht : t = (performOp o answer s).2 := by
              cases answer <;> simp_all [execOp]
            rw [ht, performOp_spent]
          rw [ih r rest t h, hspent, List.filterMap_cons]
          cases o.spending <;> simp

/-! ### What a run counts -/

/- The calls that have been counted over a store: each billed reflection on record, once. -/
structure Counts (context : GepaEffectContext) (ids : List String) (s : GepaState F) : Prop where
  nodup : ids.Nodup
  recorded : ∀ id ∈ ids, ∃ (request : GepaProposalEffectRequest) (usage : ProposerCallUsage F),
    request.slot.context = context ∧ recordedSpend s request = some usage ∧ usage.callId = id
  covers : ∀ (request : GepaProposalEffectRequest) usage, request.slot.context = context →
    recordedSpend s request = some usage → usage.callId ∈ ids

variable {context : GepaEffectContext} {ids ids' : List String} {s t : GepaState F}

omit [DecidableEq F] in
theorem Counts.perm (h : Counts context ids s) (hperm : ids.Perm ids') :
    Counts context ids' s where
  nodup := hperm.nodup_iff.mp h.nodup
  recorded id hmem := h.recorded id (hperm.mem_iff.mpr hmem)
  covers request usage hcontext hspend := hperm.mem_iff.mp (h.covers request usage hcontext hspend)

omit [DecidableEq F] in
theorem Counts.same (h : Counts context ids s) (hsame : recordedResult t = recordedResult s) :
    Counts context ids t where
  nodup := h.nodup
  recorded id hmem := by
    obtain ⟨request,usage,hcontext,hspend,hid⟩ := h.recorded id hmem
    exact ⟨request, usage, hcontext, by rw [recordedSpend_congr (congrFun hsame _), hspend], hid⟩
  covers request usage hcontext hspend := by
    rw [recordedSpend_congr (congrFun hsame _)] at hspend
    exact h.covers request usage hcontext hspend

omit [DecidableEq F] in
/-- What an attempt has spent is new, and with it every billed reflection is counted. -/
theorem Counts.spent (h : Counts context ids s) (hspent : Spent context s t) :
    Counts context (t.spent.map ProposerCallUsage.callId ++ ids) t := by
  have hkept : ∀ (request : GepaProposalEffectRequest) usage,
      recordedSpend s request = some usage → recordedSpend t request = some usage := by
    intro request usage hspend
    cases hr : recordedResult s (.propose request : GepaEffect F) with
    | none => exact absurd hr (recordedSpend_callId hspend).2
    | some r => rw [recordedSpend_congr (s := s) (by rw [hspent.kept request r hr, hr]), hspend]
  refine ⟨?_, fun id hmem => ?_, fun request usage hcontext hspend => ?_⟩
  · rw [List.nodup_append]
    refine ⟨hspent.nodup, h.nodup, fun id hnew other hold heq => ?_⟩
    obtain ⟨usage,husage,rfl⟩ := List.mem_map.mp hnew
    obtain ⟨request,_,hfresh,hspend⟩ := hspent.billed usage husage
    obtain ⟨request',usage',_,hspend',hid'⟩ := h.recorded other hold
    obtain ⟨hhash',hsome⟩ := recordedSpend_callId hspend'
    -- both are the hash of their request, and one of the two is on record
    have hhash : GepaIdentity.proposalHash (F := F) request =
        GepaIdentity.proposalHash (F := F) request' := by
      rw [← (recordedSpend_callId hspend).1, ← hhash', hid', heq]
    rw [proposal_recorded_hash hhash] at hfresh
    exact hsome hfresh
  · rcases List.mem_append.mp hmem with hnew | hold
    · obtain ⟨usage,husage,rfl⟩ := List.mem_map.mp hnew
      obtain ⟨request,hcontext,_,hspend⟩ := hspent.billed usage husage
      exact ⟨request, usage, hcontext, hspend, rfl⟩
    · obtain ⟨request,usage,hcontext,hspend,hid⟩ := h.recorded id hold
      exact ⟨request, usage, hcontext, hkept request usage hspend, hid⟩
  · cases hr : recordedResult s (.propose request : GepaEffect F) with
    | none =>
      exact List.mem_append_left _ (List.mem_map_of_mem (hspent.covers request usage hspend hr))
    | some r =>
      rw [recordedSpend_congr (s := s) (by rw [hspent.kept request r hr, hr])] at hspend
      exact List.mem_append_right _ (h.covers request usage hcontext hspend)

variable [PythonRandom] [GepaResultIdentity F]

def GepaStepResult.usageIds (result : GepaStepResult F) : List String :=
  result.proposerUsage.map ProposerCallUsage.callId

/- An output that is a placeholder. -/
def GepaInvocation.deferred : GepaInvocation F → Bool
  | .output found => decide (found.optimEvalRequests ≠ [])
  | _ => false

/- What is bound: an output that is no placeholder, as the next result. -/
def GepaInvocation.completes (h : GepaHarness F) (run : GepaRun F) (fate : OutputFate) :
    GepaInvocation F → Bool
  | .output found => decide (found.optimEvalRequests ≠ []) ||
      (decide (fate = .bound) && accepts run.results (found.result h run))
  | _ => false

/- An event of a run without a crash. -/
def RunEvent.completes (h : GepaHarness F) (run : GepaRun F) : RunEvent F → Bool
  | .attempt answers fate =>
    decide (run.status ≠ .continuing) || (h.invoke run answers).completes h run fate
  | .fanin _ _ => true

def orderly (h : GepaHarness F) : GepaRun F → List (RunEvent F) → Bool
  | _, [] => true
  | run, event :: rest => event.completes h run && orderly h (GepaRun.step h run event) rest

/- The attempts that were deferred behind a reflection they had put on record. -/
def GepaRun.wasteful (run : GepaRun F) : Prop :=
  ∃ entry ∈ run.log, entry.2.deferred = true ∧ ∃ usage t, (.spend usage, t) ∈ entry.1

variable {h : GepaHarness F} {run : GepaRun F} {chain : List (GepaStepResult F)}

omit [GepaResultIdentity F] in
/-- An output carries the spend of its attempt. -/
theorem invoke_spent (hsound : Sound h.inputs.adapter.context run.stepIndex ids
      (h.search run.checkpoint) run.store.beginStep) {answers : List (GepaAnswer F)}
    {output : GepaOutput F} (houtput : h.invoke run answers = .output output) :
    output.proposerUsage = (h.drive run answers).state.spent ∧
      Spent h.inputs.adapter.context run.store.beginStep (h.drive run answers).state ∧
      (h.drive run answers).outcome ≠ .crashed := by
  obtain ⟨_,_,hraised,hreturned⟩ := (spends_search h.authority
    (increasing_search h run.checkpoint) hsound rfl rfl).reified answers
  have hreport : ∀ status requests checkpoint,
      h.report run (h.drive run answers).state status requests checkpoint = .output output →
      output.proposerUsage = (h.drive run answers).state.spent := by
    intro status requests checkpoint heq
    unfold GepaHarness.report at heq
    split at heq
    · cases heq
    · cases heq
      rfl
  unfold GepaHarness.invoke at houtput
  dsimp only at houtput
  cases houtcome : (h.drive run answers).outcome with
  | crashed =>
    rw [houtcome] at houtput
    cases houtput
  | returned out =>
    rw [houtcome] at houtput
    exact ⟨hreport _ _ _ houtput, hreturned out houtcome, by simp⟩
  | raised error =>
    rw [houtcome] at houtput
    have hcount := hraised error houtcome
    cases error with
    | search own =>
      cases own with
      | reflectionFailed _ => exact ⟨hreport _ _ _ houtput, hcount.resolve_left not_false, by simp⟩
      | value _ | key _ | upstream _ => cases houtput
    | deferred intent => exact ⟨hreport _ _ _ houtput, hcount.resolve_left not_false, by simp⟩
    | value _ | effectConflict _ | assertion _ | store _ | authority _ => cases houtput

/- The run with the ids of the calls it has wasted. -/
structure Billed (h : GepaHarness F) (chain : List (GepaStepResult F)) (wasted : List String)
    (run : GepaRun F) : Prop where
  kept : Kept h chain run
  counts : Counts h.inputs.adapter.context (wasted ++ chain.flatMap GepaStepResult.usageIds)
    run.store
  wasteful : wasted = [] ↔ ¬ run.wasteful

omit [DecidableEq F] [GepaIdentity F] [PythonRandom] [GepaResultIdentity F] in
theorem wasteful_append {run run' : GepaRun F}
    {entry : List (GepaOp F × GepaState F) × GepaInvocation F}
    (hlog : run'.log = run.log ++ [entry]) : run'.wasteful ↔
      run.wasteful ∨ (entry.2.deferred = true ∧ ∃ usage t, (.spend usage, t) ∈ entry.1) := by
  unfold GepaRun.wasteful
  rw [hlog]
  constructor
  · rintro ⟨other,hmem,hdeferred⟩
    rcases List.mem_append.mp hmem with hold | hnew
    · exact .inl ⟨other, hold, hdeferred⟩
    · rw [List.mem_singleton.mp hnew] at hdeferred
      exact .inr hdeferred
  · rintro (⟨other,hmem,hdeferred⟩ | hdeferred)
    · exact ⟨other, List.mem_append_left _ hmem, hdeferred⟩
    · exact ⟨entry, by simp, hdeferred⟩

omit [GepaIdentity F] [PythonRandom] in
theorem settle_kept (run : GepaRun F) (h : GepaHarness F) (output : GepaOutput F)
    (fate : OutputFate) : (run.settle h output fate).store = run.store ∧
      (run.settle h output fate).log = run.log := by
  have hput : ∀ result, (run.put result).2.store = run.store ∧ (run.put result).2.log = run.log := by
    intro result
    unfold GepaRun.put
    split <;> exact ⟨rfl, rfl⟩
  cases fate with
  | lost => exact ⟨rfl, rfl⟩
  | stored => exact hput _
  | bound =>
    unfold GepaRun.settle
    dsimp only
    split
    · exact hput _
    · exact hput _

theorem attempt_kept (run : GepaRun F) (h : GepaHarness F) (answers : List (GepaAnswer F))
    (fate : OutputFate) : (run.attempt h answers fate).store = (h.drive run answers).state ∧
      (run.attempt h answers fate).log =
        run.log ++ [((h.drive run answers).events, h.invoke run answers)] := by
  unfold GepaRun.attempt
  dsimp only
  cases h.invoke run answers with
  | output output => exact settle_kept _ h output fate
  | crashed | raised _ | unreported _ => exact ⟨rfl, rfl⟩

omit [GepaResultIdentity F] in
/-- The spend of an attempt is empty exactly where no operation of it spends. -/
theorem drive_spent (h : GepaHarness F) (run : GepaRun F) (answers : List (GepaAnswer F))
    (hends : (h.drive run answers).outcome ≠ .crashed) :
    (h.drive run answers).state.spent = [] ↔
      ¬ ∃ usage t, (GepaOp.spend usage, t) ∈ (h.drive run answers).events := by
  have hspent := attempt_spent (brokered (h.authority.began run.stepIndex)
    (h.search run.checkpoint)) answers run.store.beginStep hends
  change (h.drive run answers).state.spent = [] ++ (h.drive run answers).events.filterMap _ at hspent
  rw [hspent, List.nil_append, List.filterMap_eq_nil_iff]
  constructor
  · rintro hnone ⟨usage,t,hmem⟩
    exact absurd (hnone _ hmem) (by simp [GepaOp.spending])
  · rintro hnone ⟨o,t⟩ hmem
    cases o with
    | spend usage => exact absurd ⟨usage, t, hmem⟩ hnone
    | _ => rfl

/-- An attempt of a run without a crash bills what it spends, or wastes it where it is deferred. -/
theorem Billed.attempt {wasted : List String} (hbilled : Billed h chain wasted run)
    (answers : List (GepaAnswer F)) (fate : OutputFate)
    (hcompletes : (h.invoke run answers).completes h run fate = true) :
    ∃ wasted', Billed h (h.chained run answers fate chain) wasted' (run.attempt h answers fate) := by
  have hkept := hbilled.kept.attempt answers fate
  cases hinvoke : h.invoke run answers with
  | crashed | raised _ | unreported _ =>
    rw [hinvoke] at hcompletes
    cases hcompletes
  | output output =>
    obtain ⟨hpaid,hspent,hends⟩ := invoke_spent hbilled.kept.sound hinvoke
    have hcounts := Counts.spent (s := run.store.beginStep)
      (hbilled.counts.same (beginStep_recorded run.store)) hspent
    have hquiet := drive_spent h run answers hends
    obtain ⟨hstore,hlog⟩ := attempt_kept run h answers fate
    rw [hinvoke] at hcompletes hlog
    have hwasteful := wasteful_append hlog
    by_cases hfinal : output.optimEvalRequests = []
    · have hbound : fate = .bound ∧ accepts run.results (output.result h run) = true := by
        simpa [GepaInvocation.completes, hfinal] using hcompletes
      have hchain : h.chained run answers fate chain = output.result h run :: chain := by
        simp [GepaHarness.chained, hinvoke, hbound, hfinal]
      have hids : (output.result h run).usageIds =
          (h.drive run answers).state.spent.map ProposerCallUsage.callId := by
        rw [← hpaid]
        rfl
      refine ⟨wasted, hkept, ?_, ?_⟩
      · rw [hstore, hchain, List.flatMap_cons, hids]
        refine hcounts.perm ?_
        rw [← List.append_assoc, ← List.append_assoc]
        exact List.perm_append_comm.append_right _
      · rw [hwasteful, hbilled.wasteful]
        simp [GepaInvocation.deferred, hfinal]
    · have hchain : h.chained run answers fate chain = chain := by
        simp [GepaHarness.chained, hinvoke, hfinal]
      refine ⟨(h.drive run answers).state.spent.map ProposerCallUsage.callId ++ wasted, hkept, ?_, ?_⟩
      · rw [hstore, hchain, List.append_assoc]
        exact hcounts
      · rw [hwasteful, List.append_eq_nil_iff, List.map_eq_nil_iff, hquiet, hbilled.wasteful]
        simp only [GepaInvocation.deferred, ne_eq, hfinal, not_false_eq_true, decide_true,
          true_and, not_or]
        exact and_comm

theorem Billed.step {wasted : List String} (hbilled : Billed h chain wasted run)
    {event : RunEvent F} (hcompletes : event.completes h run = true) :
    ∃ chain' wasted', Billed h chain' wasted' (GepaRun.step h run event) := by
  cases event with
  | attempt answers fate =>
    unfold GepaRun.step
    dsimp only
    split
    · rename_i hopen
      obtain ⟨wasted',hbilled'⟩ := hbilled.attempt answers fate
        (by simpa [RunEvent.completes, hopen] using hcompletes)
      exact ⟨_, wasted', hbilled'⟩
    · exact ⟨chain, wasted, hbilled⟩
  | fanin intentHash resolution =>
    exact ⟨chain, wasted, hbilled.kept.fanin intentHash resolution,
      hbilled.counts.same (fanin_recorded run.store intentHash resolution), hbilled.wasteful⟩

theorem gepaRun_billed {s : GepaState F} (hs : Unstarted h.inputs.adapter.context s)
    (results : Dict TypedRef (GepaStepResult F)) {events : List (RunEvent F)}
    (horderly : orderly h (.start s results) events = true) :
    ∃ chain wasted, Billed h chain wasted (gepaRun h s results events) := by
  have hnone : ∀ request : GepaProposalEffectRequest, request.slot.context =
      h.inputs.adapter.context → recordedResult s (.propose request : GepaEffect F) = none := by
    intro request hcontext
    have hbound := hs.results (.propose request) hcontext
    simp [recordedResult, hbound]
  have hstart : ∃ chain wasted, Billed h chain wasted (.start s results) := by
    refine ⟨[], [], Kept.start hs results, ⟨List.nodup_nil, fun id hmem => (by cases hmem),
      fun request usage hcontext hspend => ?_⟩, by simp [GepaRun.wasteful, GepaRun.start]⟩
    exact absurd (hnone request hcontext) (recordedSpend_callId hspend).2
  unfold gepaRun
  generalize (GepaRun.start s results : GepaRun F) = run at hstart horderly
  induction events generalizing run with
  | nil => exact hstart
  | cons event rest ih =>
    obtain ⟨chain,wasted,hbilled⟩ := hstart
    simp only [orderly, Bool.and_eq_true] at horderly
    exact ih _ (hbilled.step horderly.1) horderly.2

/-- In a run without a crash every billed reflection on record stands in the proposer usage of the
chain exactly once, if and only if no attempt was deferred behind a reflection that it had put on
record and counted. -/
theorem gepaRun_spend (h : GepaHarness F) (s : GepaState F)
    (hs : Unstarted h.inputs.adapter.context s) (results : Dict TypedRef (GepaStepResult F))
    (events : List (RunEvent F)) (horderly : orderly h (.start s results) events = true) :
    let run := gepaRun h s results events
    (∀ (request : GepaProposalEffectRequest) usage,
        request.slot.context = h.inputs.adapter.context →
        recordedSpend run.store request = some usage →
        (run.chain.flatMap GepaStepResult.usageIds).count
          (GepaIdentity.proposalHash (F := F) request) = 1) ↔ ¬ run.wasteful := by
  dsimp only
  obtain ⟨chain,wasted,hbilled⟩ := gepaRun_billed hs results horderly
  obtain ⟨hnodup,hrecorded,hcovers⟩ := hbilled.counts
  rw [hbilled.kept.chain_eq, ← hbilled.wasteful]
  rw [List.nodup_append] at hnodup
  obtain ⟨_,hchain,hapart⟩ := hnodup
  constructor
  · intro hbills
    by_contra hwasted
    obtain ⟨id,hid⟩ := List.exists_mem_of_ne_nil _ hwasted
    obtain ⟨request,usage,hcontext,hspend,husage⟩ := hrecorded id (List.mem_append_left _ hid)
    have hone := hbills request usage hcontext hspend
    rw [← (recordedSpend_callId hspend).1, husage] at hone
    have hmem : id ∈ chain.flatMap GepaStepResult.usageIds := List.count_pos_iff.mp (by omega)
    exact hapart id hid id hmem rfl
  · intro hnone request usage hcontext hspend
    have hmem := hcovers request usage hcontext hspend
    rw [hnone, List.nil_append, (recordedSpend_callId hspend).1] at hmem
    exact List.count_eq_one_of_mem hchain hmem

end Spend
/-! ### A reflection in front of a deferred evaluation, and one without deferrals -/

section Example

attribute [local instance] exactFiniteFloats titledRewards firstChoice ordinalHashes countedResults

theorem proposedRequest_known : (ProposalRequestFields.mk ⟨toyAdapter.context, 2⟩
    [⟨"instruction", "Answer."⟩] none ["instruction"] "instruction"
    ⟨"Improve the instruction.", none⟩ toyAdapter.proposalAuthority).validate = .ok () := by decide

def proposedRequest : GepaProposalEffectRequest := ⟨_, proposedRequest_known⟩

/- The reflection of the second step is asked for in front of an evaluation that is deferred. -/
def deferredRun : List (RunEvent Rat) :=
  [.attempt deferringAnswers .bound, resolvedBy 0 0 "Answer.",
    .attempt (resumedAnswers false) .bound,
    .attempt (recordedAnswers ++ deferringAnswers) .bound, resolvedBy 1 1 "Answer.",
    .attempt (recordedAnswers ++ resumedAnswers true ++ proposingAnswers ++ deferringAnswers) .bound,
    resolvedBy 3 1 "Think first.",
    .attempt (recordedAnswers ++ recordedAnswers ++ recordedAnswers.take 5 ++ resumedAnswers false)
      .bound]

theorem deferred_reflection_unbilled :
    let run := gepaRun platformHarness emptyStore .empty deferredRun
    orderly platformHarness (.start emptyStore .empty) deferredRun = true ∧
      run.status = .complete ∧
      (recordedSpend run.store proposedRequest).map ProposerCallUsage.callId = some "pii" ∧
      (run.chain.flatMap GepaStepResult.usageIds).count
        (GepaIdentity.proposalHash (F := Rat) proposedRequest) = 0 := by
  decide +kernel

def inlineHarness : GepaHarness Rat :=
  ⟨mutatingSearch, toyInputs 3, { platformAuthority with dispatchMode := .inline }⟩

def inlineAnswers (ordinal stepIndex : Nat) (text : String) (captureTraces : Bool) :
    List (GepaAnswer Rat) :=
  List.replicate 5 .goesOn ++ [.resolved (.ok (resolvedIntent ordinal stepIndex text)), .goesOn,
    .projected (.ok [missedRow captureTraces])] ++ List.replicate 4 .goesOn

def inlineRun : List (RunEvent Rat) :=
  [.attempt (inlineAnswers 0 0 "Answer." false) .bound,
    .attempt (recordedAnswers ++ inlineAnswers 1 1 "Answer." true ++ proposingAnswers ++
      inlineAnswers 3 1 "Think first." false) .bound]

theorem inlineRun_undeferred : ¬ (gepaRun inlineHarness emptyStore .empty inlineRun).wasteful := by
  have hall : (gepaRun inlineHarness emptyStore .empty inlineRun).log.all
      (fun entry => !entry.2.deferred) = true := by decide +kernel
  rintro ⟨entry,hmem,hdeferred,_⟩
  have hnone := List.all_eq_true.mp hall entry hmem
  simp [hdeferred] at hnone

theorem inline_reflection_billed :
    let run := gepaRun inlineHarness emptyStore .empty inlineRun
    run.status = .complete ∧
      (recordedSpend run.store proposedRequest).map ProposerCallUsage.callId = some "pii" ∧
      (∀ (request : GepaProposalEffectRequest) usage, request.slot.context = toyAdapter.context →
        recordedSpend run.store request = some usage →
        (run.chain.flatMap GepaStepResult.usageIds).count
          (GepaIdentity.proposalHash (F := Rat) request) = 1) := by
  have hbills := (gepaRun_spend inlineHarness emptyStore emptyStore_unstarted .empty inlineRun
    (by decide +kernel)).mpr inlineRun_undeferred
  exact ⟨by decide +kernel, by decide +kernel, hbills⟩

end Example

end Whetstone.Optim.Gepa
