import Whetstone.Platform.HeadWatermark

/-! What one execution of a GEPA fan-in can do to the store, and what it does when it is
executed again behind a run that keeps the records. -/
namespace Whetstone.Platform
open Whetstone.Lib Whetstone.Lib.Act

variable {runtime : Runtime} {join : DeferralJoinInput} {stageIndex : Option Nat}
  {answer : FaninAnswer} {s s' : Store} {r : Except String StageCompletion}

/- The checks of a fan-in before it looks for resolutions. -/
def faninEntry (runtime : Runtime) (join : DeferralJoinInput) (stageIndex : Option Nat)
    (answer : FaninAnswer) (s : Store) : Except String (OptimStepResult × List RowRecord) := do
  requireControllerIdentity runtime join.workState.workInput
  validatePlatformStageIndex stageIndex join.workState.stage
  match join.workState.pendingStepResultRef with
  | none => throw "deferral fan-in requires a pending step result"
  | some pending =>
    let records ← collectEpisodeRowRecords runtime s join answer
    raiseIf (uniqueIntents records = []) "deferral episode has no deferred intents"
    return (pending, records)

/- What a fan-in does with the records it has read. -/
def faninBody (runtime : Runtime) (join : DeferralJoinInput) (answer : FaninAnswer) (s : Store)
    (pending : OptimStepResult) (records : List RowRecord) : Stage StageCompletion :=
  match cachedFaninResolutions s join (uniqueIntents records) with
  | some resolutions => completeFaninHandoff runtime join pending resolutions
  | none => do
    Act.ofExcept (raiseIf (∀ record ∈ records, record.outcome = none)
      "deferral episode is incomplete: row outcomes are required for platform fan-in")
    Act.ofExcept (raiseIf (∃ record ∈ records, record.outcome = none)
      "eval row output is missing row outcome")
    let resolutions ← resolveEpisodeIntents records answer (uniqueIntents records)
    completeFaninHandoff runtime join pending resolutions

theorem executeEvalFanin_eq : executeEvalFanin runtime join stageIndex answer s =
    (Act.ofExcept (faninEntry runtime join stageIndex answer s) >>= fun entry =>
      faninBody runtime join answer s entry.1 entry.2) s := by
  unfold executeEvalFanin faninEntry
  rw [read_bind]
  cases requireControllerIdentity runtime join.workState.workInput with
  | error message => rfl
  | ok _ =>
    cases validatePlatformStageIndex stageIndex join.workState.stage with
    | error message => rfl
    | ok _ =>
      cases join.workState.pendingStepResultRef with
      | none => rfl
      | some pending =>
        cases collectEpisodeRowRecords runtime s join answer with
        | error message => rfl
        | ok records =>
          change (Act.ofExcept (raiseIf (uniqueIntents records = [])
              "deferral episode has no deferred intents") >>= fun _ =>
              faninBody runtime join answer s pending records) s =
            (Act.ofExcept (raiseIf (uniqueIntents records = [])
              "deferral episode has no deferred intents" >>= fun _ => pure (pending, records)) >>=
              fun entry => faninBody runtime join answer s entry.1 entry.2) s
          cases raiseIf (uniqueIntents records = []) "deferral episode has no deferred intents"
          · rfl
          · rfl

/- The resumed work state stands one stage beyond the barrier. -/
def resumeStage (state : OptimWorkState) : OptimWorkState where
  workInput := nextWorkInput state (state.stage + 1)
  stepIndex := state.stepIndex
  stepResultRefs := state.stepResultRefs
  terminal := state.terminal

/- The work state a fan-in of the episode resumes. -/
def resumedState (join : DeferralJoinInput) : OptimWorkState :=
  resumeStage (finalizeGepa.interrupted join.workState)

/- What a fan-in resumes when the head has not left the episode. -/
def resumption (join : DeferralJoinInput) (head : Option OptimWorkState) : OptimWorkState :=
  match head with
  | some head =>
    if head.stepIndex = join.workState.stepIndex ∧ head.pendingStepResultRef = none ∧
        head.pendingDeferredIntents = [] then
      { workInput := join.workState.workInput, stepIndex := head.stepIndex
        stepResultRefs := head.stepResultRefs, terminal := head.terminal }
    else finalizeGepa.interrupted join.workState
  | none => finalizeGepa.interrupted join.workState

def resumeSuccessor (state : OptimWorkState) : StageSuccessor where
  stageKey := .optimStep
  stageIndex := state.stage
  input := .workState state

/- The fan-in record is bound once. -/
def recordedStore (join : DeferralJoinInput) (resolutions : List IntentResolution) (s : Store) :
    Store :=
  match s.fanins.get? join with
  | some _ => s
  | none => { s with fanins := s.fanins.set join resolutions }

theorem recordFanin_apply (resolutions : List IntentResolution)
    (h : ∀ recorded, s.fanins.get? join = some recorded → recorded = resolutions) :
    recordFanin join resolutions s = (.ok resolutions, recordedStore join resolutions s) := by
  unfold recordFanin recordedStore
  rw [read_bind]
  cases hget : s.fanins.get? join with
  | none => rfl
  | some recorded =>
    rw [← h recorded hget]
    rfl

theorem recordedStore_head (resolutions : List IntentResolution) :
    (recordedStore join resolutions s).head = s.head := by
  unfold recordedStore
  split <;> rfl

theorem recordedStore_deferredIntents (resolutions : List IntentResolution) :
    (recordedStore join resolutions s).deferredIntents = s.deferredIntents := by
  unfold recordedStore
  split <;> rfl

theorem recordedStore_stepResults (resolutions : List IntentResolution) :
    (recordedStore join resolutions s).stepResults = s.stepResults := by
  unfold recordedStore
  split <;> rfl

/- Row and fan-in records stay as they were first written. -/
structure Grows (s s' : Store) : Prop where
  rows : ∀ input record, s.rows.get? input = some record → s'.rows.get? input = some record
  fanins : ∀ join resolutions, s.fanins.get? join = some resolutions →
    s'.fanins.get? join = some resolutions

theorem Grows.of_eq (hrows : s'.rows = s.rows) (hfanins : s'.fanins = s.fanins) : Grows s s' := by
  constructor
  · rw [hrows]
    exact fun _ _ h => h
  · rw [hfanins]
    exact fun _ _ h => h

theorem Grows.trans {s t u : Store} (h : Grows s t) (h' : Grows t u) : Grows s u where
  rows := fun input record hget => h'.rows input record (h.rows input record hget)
  fanins := fun join resolutions hget => h'.fanins join resolutions (h.fanins join resolutions hget)

theorem recordedStore_grows (resolutions : List IntentResolution) :
    Grows s (recordedStore join resolutions s) := by
  unfold recordedStore
  cases hget : s.fanins.get? join with
  | some _ => exact Grows.of_eq rfl rfl
  | none =>
    refine ⟨fun _ _ h => h, ?_⟩
    intro other bound hother
    have hne : other ≠ join := by
      rintro rfl
      rw [hget] at hother
      cases hother
    simpa [Dict.get?_set, hne] using hother

theorem recordedStore_recorded (resolutions : List IntentResolution)
    (h : ∀ recorded, s.fanins.get? join = some recorded → recorded = resolutions) :
    (recordedStore join resolutions s).fanins.get? join = some resolutions := by
  unfold recordedStore
  cases hget : s.fanins.get? join with
  | some recorded =>
    rw [← h recorded hget]
    exact hget
  | none => exact Dict.get?_set_self _ _ _

/- The resolutions pass the check against those merged already. -/
def mergeable (pending : OptimStepResult) (resolutions : List IntentResolution) : Prop :=
  ¬ (pending.resolvedIntents ≠ [] ∧ pending.resolvedIntents ≠ resolutions)

def evicted (stepIndex : Nat) (s : Store) : Store :=
  { s with deferredIntents := s.deferredIntents.erase stepIndex }

/- The completion of a fan-in, and the store it leaves. -/
def handoff (runtime : Runtime) (join : DeferralJoinInput) (resolutions : List IntentResolution)
    (s : Store) : Except String StageCompletion × Store :=
  let output := OutputReference.fanin join.primaryOptimEvalRequest resolutions
  let recorded := recordedStore join resolutions s
  if staleFanin runtime join s.head then (.ok ⟨output, []⟩, recorded)
  else
    let resumed := resumeStage (resumption join s.head)
    (.ok ⟨output, [resumeSuccessor resumed]⟩,
      { evicted join.workState.stepIndex recorded with head := some resumed })

theorem finalizeGepa_apply (hgepa : runtime.gepa = true) :
    finalizeGepa join.workState join.deferralOptimStepStageIndex s =
      if staleFanin runtime join s.head then (.ok none, s)
      else (.ok (some (resumption join s.head)), evicted join.workState.stepIndex s) := by
  unfold finalizeGepa resumption staleFanin
  rw [read_bind]
  cases hhead : s.head with
  | none => rfl
  | some head =>
    cases hlater : headIsLaterEpisode head join.workState.stepIndex
        join.deferralOptimStepStageIndex join.workState.stage with
    | true =>
      simp only [hgepa, hlater, Bool.and_self, if_true]
      rfl
    | false =>
      simp only [hgepa, hlater, Bool.and_false, Bool.false_eq_true, if_false]
      split
      · rfl
      · rfl

theorem completeFaninHandoff_apply (hgepa : runtime.gepa = true) (pending : OptimStepResult)
    (resolutions : List IntentResolution) (hne : resolutions ≠ [])
    (hrecord : ∀ recorded, s.fanins.get? join = some recorded → recorded = resolutions)
    (hmerge : mergeable pending resolutions) :
    completeFaninHandoff runtime join pending resolutions s =
      handoff runtime join resolutions s := by
  have hfinal : finalizeDeferredStep runtime join.workState pending resolutions
      join.deferralOptimStepStageIndex =
      finalizeGepa join.workState join.deferralOptimStepStageIndex := by
    unfold finalizeDeferredStep
    rw [raiseIf_neg _ _ hmerge, hgepa]
    rfl
  have hgo : (finalizeGepa join.workState join.deferralOptimStepStageIndex)
      (recordedStore join resolutions s) = _ := finalizeGepa_apply hgepa
  rw [recordedStore_head] at hgo
  unfold completeFaninHandoff handoff
  rw [raiseIf_neg _ _ hne, bind_ok (show Act.ofExcept (.ok ()) s = (.ok (), s) from rfl),
    bind_ok (recordFanin_apply resolutions hrecord), hfinal]
  cases hstale : staleFanin runtime join s.head with
  | true =>
    rw [hstale, if_pos rfl] at hgo
    rw [bind_ok hgo]
    rfl
  | false =>
    rw [hstale, if_neg (by decide)] at hgo
    rw [bind_ok hgo]
    rfl

theorem resolveEpisodeIntent_frame (records : List RowRecord) (intent : OptimEvalRequest)
    {s s' : Store} {r : Except String IntentResolution}
    (h : resolveEpisodeIntent records answer intent s = (r, s')) :
    ∃ bound, s' = { s with resolutions := bound } := by
  unfold resolveEpisodeIntent at h
  rw [read_bind] at h
  cases hget : s.resolutions.get? intent with
  | some existing =>
    rw [hget] at h
    cases h
    exact ⟨s.resolutions, rfl⟩
  | none =>
    rw [hget] at h
    rcases ofExcept_bind_cases h with ⟨_,_,_,hs⟩ | ⟨_,_,h⟩
    · exact ⟨s.resolutions, hs⟩
    rcases ofExcept_bind_cases h with ⟨_,_,_,hs⟩ | ⟨resolution,_,h⟩
    · exact ⟨s.resolutions, hs⟩
    cases h
    exact ⟨_, rfl⟩

theorem resolveEpisodeIntents_frame (records : List RowRecord) (intents : List OptimEvalRequest)
    {s s' : Store} {r : Except String (List IntentResolution)}
    (h : resolveEpisodeIntents records answer intents s = (r, s')) :
    ∃ bound, s' = { s with resolutions := bound } := by
  induction intents generalizing s s' r with
  | nil =>
    cases h
    exact ⟨s.resolutions, rfl⟩
  | cons intent rest ih =>
    rcases bind_cases h with ⟨_,hfirst,_⟩ | ⟨_,t,hfirst,h⟩
    · exact resolveEpisodeIntent_frame records intent hfirst
    obtain ⟨bound,rfl⟩ := resolveEpisodeIntent_frame records intent hfirst
    rcases bind_cases h with ⟨_,hrest,_⟩ | ⟨_,t,hrest,h⟩
    · obtain ⟨bound',rfl⟩ := ih hrest
      exact ⟨bound', rfl⟩
    · obtain ⟨bound',rfl⟩ := ih hrest
      cases h
      exact ⟨bound', rfl⟩

/- The fan-in passed its checks in `s` and its record is bound in `s'`. -/
def Passed (runtime : Runtime) (join : DeferralJoinInput) (stageIndex : Option Nat)
    (answer : FaninAnswer) (s s' : Store) (resolutions : List IntentResolution) : Prop :=
  resolutions ≠ [] ∧ s'.fanins.get? join = some resolutions ∧
    ∃ pending records, faninEntry runtime join stageIndex answer s = .ok (pending, records) ∧
      mergeable pending resolutions

/- What one execution of a fan-in can do to the head and the deferred intents. -/
inductive FaninStep (runtime : Runtime) (join : DeferralJoinInput) (stageIndex : Option Nat)
    (answer : FaninAnswer) (s s' : Store) : Except String StageCompletion → Prop
  | raised (message : String) (head : s'.head = s.head)
      (intents : s'.deferredIntents = s.deferredIntents) :
      FaninStep runtime join stageIndex answer s s' (.error message)
  | stale (resolutions : List IntentResolution)
      (passed : Passed runtime join stageIndex answer s s' resolutions)
      (left : staleFanin runtime join s.head = true) (head : s'.head = s.head)
      (intents : s'.deferredIntents = s.deferredIntents) :
      FaninStep runtime join stageIndex answer s s'
        (.ok ⟨.fanin join.primaryOptimEvalRequest resolutions, []⟩)
  | resumed (resolutions : List IntentResolution)
      (passed : Passed runtime join stageIndex answer s s' resolutions)
      (current : staleFanin runtime join s.head = false)
      (head : s'.head = some (resumeStage (resumption join s.head)))
      (intents : s'.deferredIntents = s.deferredIntents.erase join.workState.stepIndex) :
      FaninStep runtime join stageIndex answer s s'
        (.ok ⟨.fanin join.primaryOptimEvalRequest resolutions,
          [resumeSuccessor (resumeStage (resumption join s.head))]⟩)

theorem completeFaninHandoff_step (hgepa : runtime.gepa = true) {s₀ : Store}
    (bound : Dict OptimEvalRequest IntentResolution)
    (hs₀ : s = { s₀ with resolutions := bound }) (pending : OptimStepResult)
    (records : List RowRecord)
    (hentry : faninEntry runtime join stageIndex answer s₀ = .ok (pending, records))
    (resolutions : List IntentResolution)
    (hrecord : ∀ recorded, s.fanins.get? join = some recorded → recorded = resolutions)
    (h : completeFaninHandoff runtime join pending resolutions s = (r, s')) :
    FaninStep runtime join stageIndex answer s₀ s' r ∧ Grows s₀ s' ∧
      s'.stepResults = s₀.stepResults := by
  subst hs₀
  by_cases hnil : resolutions = []
  · unfold completeFaninHandoff at h
    rw [raiseIf_pos _ _ hnil] at h
    cases h
    exact ⟨.raised _ rfl rfl, Grows.of_eq rfl rfl, rfl⟩
  by_cases hmerge : mergeable pending resolutions
  · rw [completeFaninHandoff_apply hgepa pending resolutions hnil hrecord hmerge] at h
    unfold handoff at h
    have hgrows : Grows s₀ (recordedStore join resolutions { s₀ with resolutions := bound }) :=
      (Grows.of_eq rfl rfl : Grows s₀ { s₀ with resolutions := bound }).trans
        (recordedStore_grows resolutions)
    have hbound := recordedStore_recorded resolutions hrecord
    cases hstale : staleFanin runtime join s₀.head with
    | true =>
      rw [if_pos hstale] at h
      cases h
      refine ⟨.stale resolutions ⟨hnil, hbound, pending, records, hentry, hmerge⟩ hstale ?_ ?_,
        hgrows, recordedStore_stepResults resolutions⟩
      · exact recordedStore_head resolutions
      · exact recordedStore_deferredIntents resolutions
    | false =>
      rw [if_neg (by simp [hstale])] at h
      cases h
      refine ⟨.resumed resolutions ⟨hnil, hbound, pending, records, hentry, hmerge⟩ hstale rfl ?_,
        ⟨hgrows.rows, hgrows.fanins⟩, recordedStore_stepResults resolutions⟩
      exact congrArg (fun d => Dict.erase d join.workState.stepIndex)
        (recordedStore_deferredIntents resolutions)
  · -- The record is bound before the resolutions are compared with those merged already.
    unfold completeFaninHandoff at h
    rw [raiseIf_neg _ _ hnil, bind_ok (show Act.ofExcept (.ok ()) _ = (.ok (), _) from rfl),
      bind_ok (recordFanin_apply resolutions hrecord)] at h
    have hraise : finalizeDeferredStep runtime join.workState pending resolutions
        join.deferralOptimStepStageIndex
        (recordedStore join resolutions { s₀ with resolutions := bound }) =
        (.error "fan-in retry conflicts with merged step resolutions",
          recordedStore join resolutions { s₀ with resolutions := bound }) := by
      unfold finalizeDeferredStep
      rw [raiseIf_pos _ _ (not_not.mp hmerge)]
      rfl
    rw [bind_error hraise] at h
    cases h
    refine ⟨.raised _ ?_ ?_, ?_, recordedStore_stepResults resolutions⟩
    · exact recordedStore_head resolutions
    · exact recordedStore_deferredIntents resolutions
    · exact (Grows.of_eq rfl rfl : Grows s₀ { s₀ with resolutions := bound }).trans
        (recordedStore_grows resolutions)

theorem cachedFaninResolutions_recorded (intents : List OptimEvalRequest)
    (recorded : List IntentResolution) (h : s.fanins.get? join = some recorded) :
    cachedFaninResolutions s join intents = some recorded := by
  unfold cachedFaninResolutions
  rw [h]

theorem executeEvalFanin_step (hgepa : runtime.gepa = true)
    (h : executeEvalFanin runtime join stageIndex answer s = (r, s')) :
    FaninStep runtime join stageIndex answer s s' r ∧ Grows s s' ∧
      s'.stepResults = s.stepResults := by
  rw [executeEvalFanin_eq] at h
  rcases ofExcept_bind_cases h with ⟨message,_,rfl,rfl⟩ | ⟨⟨pending,records⟩,hentry,h⟩
  · exact ⟨.raised message rfl rfl, Grows.of_eq rfl rfl, rfl⟩
  change faninBody runtime join answer s pending records s = (r, s') at h
  unfold faninBody at h
  cases hcached : cachedFaninResolutions s join (uniqueIntents records) with
  | some resolutions =>
    rw [hcached] at h
    refine completeFaninHandoff_step hgepa s.resolutions rfl pending records hentry resolutions ?_ h
    intro recorded hrecorded
    rw [cachedFaninResolutions_recorded _ recorded hrecorded, Option.some.injEq] at hcached
    exact hcached
  | none =>
    rw [hcached] at h
    rcases ofExcept_bind_cases h with ⟨message,_,rfl,rfl⟩ | ⟨_,_,h⟩
    · exact ⟨.raised message rfl rfl, Grows.of_eq rfl rfl, rfl⟩
    rcases ofExcept_bind_cases h with ⟨message,_,rfl,rfl⟩ | ⟨_,_,h⟩
    · exact ⟨.raised message rfl rfl, Grows.of_eq rfl rfl, rfl⟩
    rcases bind_cases h with ⟨message,hresolve,rfl⟩ | ⟨resolutions,t,hresolve,h⟩
    · obtain ⟨bound,rfl⟩ := resolveEpisodeIntents_frame records _ hresolve
      exact ⟨.raised message rfl rfl, Grows.of_eq rfl rfl, rfl⟩
    obtain ⟨bound,rfl⟩ := resolveEpisodeIntents_frame records _ hresolve
    refine completeFaninHandoff_step hgepa bound rfl pending records hentry resolutions ?_ h
    intro recorded hrecorded
    change s.fanins.get? join = some recorded at hrecorded
    rw [cachedFaninResolutions_recorded _ recorded hrecorded] at hcached
    cases hcached

theorem mapM_boundRowRecord_grows {t : Store} (hgrows : Grows s t) (inputs : List EvalRowInput)
    (records : List RowRecord) (h : inputs.mapM (boundRowRecord s) = .ok records) :
    inputs.mapM (boundRowRecord t) = .ok records := by
  induction inputs generalizing records with
  | nil => exact h
  | cons input rest ih =>
    rw [List.mapM_cons, bind_eq_ok] at h
    obtain ⟨record,hrecord,h⟩ := h
    rw [bind_eq_ok] at h
    obtain ⟨others,hothers,h⟩ := h
    have hkept : boundRowRecord t input = .ok record := by
      unfold boundRowRecord at hrecord ⊢
      cases hget : s.rows.get? input with
      | none =>
        rw [hget] at hrecord
        cases hrecord
      | some found =>
        rw [hget] at hrecord
        rw [hgrows.rows input found hget]
        exact hrecord
    rw [List.mapM_cons, hkept, ok_bind, ih others hothers]
    exact h

theorem collectEpisodeRowRecords_grows {t : Store} {answer' : FaninAnswer} (hgrows : Grows s t)
    (hpredecessors : answer'.predecessors = answer.predecessors) (records : List RowRecord)
    (h : collectEpisodeRowRecords runtime s join answer = .ok records) :
    collectEpisodeRowRecords runtime t join answer' = .ok records := by
  unfold collectEpisodeRowRecords at h ⊢
  rw [raiseIf_bind_eq_ok, bind_eq_ok] at h ⊢
  obtain ⟨hpending,expected,hexpected,h⟩ := h
  refine ⟨hpending, expected, hexpected, ?_⟩
  rw [hpredecessors]
  cases hlisted : answer.predecessors with
  | some listed =>
    rw [hlisted] at h
    exact h
  | none =>
    rw [hlisted] at h
    simp only [raiseIf_bind_eq_ok] at h ⊢
    exact ⟨h.1, mapM_boundRowRecord_grows hgrows _ _ h.2⟩

theorem faninEntry_grows {t : Store} {answer' : FaninAnswer} (hgrows : Grows s t)
    (hpredecessors : answer'.predecessors = answer.predecessors)
    (entry : OptimStepResult × List RowRecord)
    (h : faninEntry runtime join stageIndex answer s = .ok entry) :
    faninEntry runtime join stageIndex answer' t = .ok entry := by
  unfold faninEntry at h ⊢
  rw [bind_eq_ok] at h ⊢
  obtain ⟨identity,hidentity,h⟩ := h
  rw [bind_eq_ok] at h
  obtain ⟨stage,hstage,h⟩ := h
  refine ⟨identity, hidentity, ?_⟩
  rw [hstage, ok_bind]
  cases hpending : join.workState.pendingStepResultRef with
  | none =>
    rw [hpending] at h
    cases h
  | some pending =>
    rw [hpending] at h
    simp only [bind_eq_ok] at h ⊢
    obtain ⟨records,hrecords,h⟩ := h
    exact ⟨records, collectEpisodeRowRecords_grows hgrows hpredecessors records hrecords, h⟩

/-- A fan-in that passed once and is executed again hands off the resolutions it recorded. -/
theorem Passed.replay (hgepa : runtime.gepa = true) {t : Store} {answer' : FaninAnswer}
    {resolutions : List IntentResolution}
    (h : Passed runtime join stageIndex answer s s' resolutions) (hbefore : Grows s t)
    (hafter : Grows s' t) (hpredecessors : answer'.predecessors = answer.predecessors) :
    executeEvalFanin runtime join stageIndex answer' t = handoff runtime join resolutions t := by
  obtain ⟨hne,hrecorded,pending,records,hentry,hmerge⟩ := h
  have hbound := hafter.fanins join resolutions hrecorded
  rw [executeEvalFanin_eq, faninEntry_grows hbefore hpredecessors _ hentry]
  change faninBody runtime join answer' t pending records t = _
  unfold faninBody
  rw [cachedFaninResolutions_recorded _ resolutions hbound]
  refine completeFaninHandoff_apply hgepa pending resolutions hne ?_ hmerge
  intro recorded hget
  rw [hbound, Option.some.injEq] at hget
  exact hget.symm

end Whetstone.Platform
