import Whetstone.Platform.StepOutcomes

/-! Executing a GEPA member's fan-ins again. Runs in which no optimizer step is executed
twice keep every episode in one of three places: the head is parked on it, the head stands
where its fan-in resumed it, or the head is past it. -/
namespace Whetstone.Platform
open Whetstone.Lib Whetstone.Lib.Act

section Runs

variable {runtime : Runtime} {workInput : OptimWorkInput} {member : Member}
  {done : List StageInput} {s s' : Store} {r : Except String StageCompletion}
  {state head : OptimWorkState} {join : DeferralJoinInput}

/- The head has left the episode: it is at a later step, parked on an origin behind the
barrier of the episode, or resumed beyond it. -/
def Past (head : OptimWorkState) (join : DeferralJoinInput) : Prop :=
  join.workState.stepIndex < head.stepIndex ∨ head.stepIndex = join.workState.stepIndex ∧
    match head.deferralOptimStepStageIndex with
    | some origin => join.workState.stage < origin
    | none => join.workState.stage + 1 < head.stage

def Placed (head : OptimWorkState) (join : DeferralJoinInput) : Prop :=
  head = join.workState ∨ head = resumedState join ∨ Past head join

/- A fan-in input names the parked work state it was emitted with. -/
structure Episode (join : DeferralJoinInput) : Prop where
  origin : join.workState.deferralOptimStepStageIndex = some join.deferralOptimStepStageIndex
  waits : join.workState.pendingStepResultRef.isSome = true
  beyond : join.deferralOptimStepStageIndex < join.workState.stage
  numbered : Numbered join.workState

theorem Episode.not_open (h : Episode join) : ¬ Open join.workState := by
  intro hopen
  have hwaits := h.waits
  rw [hopen.pending] at hwaits
  cases hwaits

theorem Episode.resumedState_open (h : Episode join) : Open (resumedState join) := by
  refine ⟨rfl, rfl, rfl, ?_⟩
  change (join.workState.stepResultRefs.take join.workState.stepIndex).map _ = _
  rw [h.numbered.take]
  exact h.numbered

theorem resumedState_stage (join : DeferralJoinInput) :
    (resumedState join).stage = join.workState.stage + 1 := rfl

theorem staleFanin_of_past (hgepa : runtime.gepa = true) (hepisode : Episode join)
    (h : Past head join) : staleFanin runtime join (some head) = true := by
  unfold staleFanin headIsLaterEpisode
  have hbeyond := hepisode.beyond
  rcases h with hlater | ⟨hsame,hlater⟩
  · simp [hgepa, hlater]
  · cases horigin : head.deferralOptimStepStageIndex with
    | some origin =>
      rw [horigin] at hlater
      have hgt : join.deferralOptimStepStageIndex < origin := by
        simp only at hlater
        omega
      simp [hgepa, hsame, horigin, hgt]
    | none =>
      rw [horigin] at hlater
      simp only at hlater
      simp [hgepa, hsame, horigin, hlater]

theorem staleFanin_parked (hepisode : Episode join) :
    staleFanin runtime join (some join.workState) = false := by
  simp [staleFanin, headIsLaterEpisode, hepisode.origin]

theorem staleFanin_resumed : staleFanin runtime join (some (resumedState join)) = false := by
  have hstep : (resumedState join).stepIndex = join.workState.stepIndex := rfl
  have horigin : (resumedState join).deferralOptimStepStageIndex = none := rfl
  simp [staleFanin, headIsLaterEpisode, hstep, horigin, resumedState_stage]

/-- Whether it finds the head parked or resumed already, the fan-in resumes one work state. -/
theorem resumption_eq (hepisode : Episode join)
    (h : head = join.workState ∨ head = resumedState join) :
    resumeStage (resumption join (some head)) = resumedState join := by
  rcases h with rfl | rfl
  · have hwaits : ¬ (join.workState.pendingStepResultRef = none) := by
      intro hnone
      have hsome := hepisode.waits
      rw [hnone] at hsome
      cases hsome
    unfold resumption
    simp only
    rw [if_neg fun h => hwaits h.2.1]
    rfl
  · unfold resumption
    simp only
    rw [if_pos ⟨rfl, rfl, rfl⟩]
    rfl

/-- Parking leaves every episode behind. -/
theorem Placed.parks {parked : OptimWorkState} (h : Placed state join) (hopen : Open state)
    (hepisode : Episode join) (hparks : ParksAt state parked) : Past parked join := by
  unfold Past
  rw [hparks.stepIndex, hparks.origin]
  rcases h with rfl | rfl | hpast
  · exact absurd hopen hepisode.not_open
  · refine .inr ⟨rfl, ?_⟩
    change join.workState.stage < join.workState.stage + 1
    omega
  · rcases hpast with hlater | ⟨hsame,hlater⟩
    · exact .inl hlater
    · refine .inr ⟨hsame, ?_⟩
      rw [hopen.origin] at hlater
      simp only at hlater ⊢
      omega

theorem Placed.stepIndex_le (h : Placed state join) :
    join.workState.stepIndex ≤ state.stepIndex := by
  rcases h with rfl | rfl | hlater | ⟨hsame,_⟩
  · exact Nat.le_refl _
  · exact Nat.le_refl _
  · exact Nat.le_of_lt hlater
  · exact Nat.le_of_eq hsame.symm

/-- Resuming one episode leaves the others where they were. -/
theorem Placed.resumes {other : DeferralJoinInput} (h : Placed join.workState other)
    (hepisode : Episode join) : Placed (resumedState join) other := by
  rcases h with hsame | hresumed | hpast
  · right
    left
    unfold resumedState
    rw [hsame]
  · have hwaits := hepisode.waits
    rw [hresumed] at hwaits
    cases hwaits
  · right
    right
    rcases hpast with hlater | ⟨hsame,hlater⟩
    · exact .inl hlater
    · refine .inr ⟨hsame, ?_⟩
      rw [hepisode.origin] at hlater
      have hbeyond := hepisode.beyond
      change other.workState.stage + 1 < join.workState.stage + 1
      simp only at hlater
      omega

/- The stages of a member whose executed optimizer steps are `done`. At most one emitted
step is left to execute, and it names the head. -/
structure Tracked (workInput : OptimWorkInput) (member : Member) (done : List StageInput) :
    Prop where
  launch : ∀ w, .workInput w ∈ member.emitted → w = workInput
  opened : ∀ state, .workState state ∈ member.emitted → Open state
  started : ∀ w, .workInput w ∈ member.emitted → .workInput w ∉ done →
    member.store.head = none ∧ member.store.stepResults = Dict.empty
  live : ∀ state, .workState state ∈ member.emitted → .workState state ∉ done →
    member.store.head = some state ∧ Quiet state.workInput.dispatchMode member.store
  episodes : ∀ join, .join join ∈ member.emitted → Episode join ∧
    ∃ head, member.store.head = some head ∧ Placed head join ∧
      (head = join.workState → Quiet head.workInput.dispatchMode member.store) ∧
      (head = resumedState join → .workState head ∈ member.emitted)

theorem tracked_launched (workInput : OptimWorkInput) :
    Tracked workInput (launched workInput) [] := by
  constructor
  · intro w hw
    cases List.mem_singleton.mp hw
    rfl
  · intro state hstate
    cases List.mem_singleton.mp hstate
  · exact fun _ _ _ => ⟨rfl, rfl⟩
  · intro state hstate
    cases List.mem_singleton.mp hstate
  · intro join hjoin
    cases List.mem_singleton.mp hjoin

/-- An execution that leaves the head, the results and the intents alone and emits nothing. -/
theorem Tracked.unmoved (h : Tracked workInput member done) (hhead : s'.head = member.store.head)
    (hresults : s'.stepResults = member.store.stepResults)
    (hintents : s'.deferredIntents = member.store.deferredIntents) (hr : emittedBy r = []) :
    Tracked workInput ⟨s', member.emitted ++ emittedBy r⟩ done := by
  rw [hr, List.append_nil]
  constructor
  · exact h.launch
  · exact h.opened
  · intro w hw hdone
    obtain ⟨hnone,hempty⟩ := h.started w hw hdone
    exact ⟨hhead.trans hnone, hresults.trans hempty⟩
  · intro state hstate hdone
    obtain ⟨hsome,hquiet⟩ := h.live state hstate hdone
    exact ⟨hhead.trans hsome, hquiet.congr hresults hintents⟩
  · intro join hjoin
    obtain ⟨hepisode,head,hsome,hplaced,hquiet,hemitted⟩ := h.episodes join hjoin
    refine ⟨hepisode, head, hhead.trans hsome, hplaced, ?_, hemitted⟩
    exact fun hparked => (hquiet hparked).congr hresults hintents

/-- A fan-in that resumes the head. -/
theorem Tracked.resumes (h : Tracked workInput member done)
    (hjoin : .join join ∈ member.emitted)
    (hbefore : member.store.head = some join.workState ∨
      member.store.head = some (resumedState join))
    (hhead : s'.head = some (resumedState join))
    (hresults : s'.stepResults = member.store.stepResults)
    (hintents : s'.deferredIntents = member.store.deferredIntents.erase join.workState.stepIndex)
    (hr : emittedBy r = [.workState (resumedState join)]) :
    Tracked workInput ⟨s', member.emitted ++ emittedBy r⟩ done := by
  rw [hr]
  obtain ⟨hepisode,head,hsome,_,hquiet,hemitted⟩ := h.episodes join hjoin
  have hopen := hepisode.resumedState_open
  have hnone : member.store.head ≠ none := by
    rw [hsome]
    exact Option.some_ne_none _
  have hlive (hdone : .workState (resumedState join) ∉ done) :
      Quiet (resumedState join).workInput.dispatchMode s' := by
    apply Quiet.evict _ join.workState.stepIndex hresults hintents
    rcases hbefore with hparked | hresumed
    · rw [hsome, Option.some.injEq] at hparked
      have := hquiet hparked
      rw [hparked] at this
      exact this
    · rw [hsome, Option.some.injEq] at hresumed
      have hold := hemitted hresumed
      rw [hresumed] at hold
      exact (h.live _ hold hdone).2
  constructor
  · intro w hw
    rcases List.mem_append.mp hw with hw | hw
    · exact h.launch w hw
    · cases List.mem_singleton.mp hw
  · intro state hstate
    rcases List.mem_append.mp hstate with hstate | hstate
    · exact h.opened state hstate
    · cases List.mem_singleton.mp hstate
      exact hopen
  · intro w hw hdone
    rcases List.mem_append.mp hw with hw | hw
    · exact absurd (h.started w hw hdone).1 hnone
    · cases List.mem_singleton.mp hw
  · intro state hstate hdone
    have hsame : state = resumedState join := by
      rcases List.mem_append.mp hstate with hstate | hstate
      · have hlives := (h.live state hstate hdone).1
        rcases hbefore with hparked | hresumed
        · rw [hlives, Option.some.injEq] at hparked
          have hclosed := h.opened state hstate
          rw [hparked] at hclosed
          exact absurd hclosed hepisode.not_open
        · rw [hlives, Option.some.injEq] at hresumed
          exact hresumed
      · cases List.mem_singleton.mp hstate
        rfl
    subst hsame
    exact ⟨hhead, hlive hdone⟩
  · intro other hother
    rcases List.mem_append.mp hother with hother | hother
    · obtain ⟨hepisode',head',hsome',hplaced,_,_⟩ := h.episodes other hother
      refine ⟨hepisode', _, hhead, ?_, ?_, ?_⟩
      · rcases hbefore with hparked | hresumed
        · rw [hparked, Option.some.injEq] at hsome'
          subst hsome'
          exact hplaced.resumes hepisode
        · rw [hresumed, Option.some.injEq] at hsome'
          subst hsome'
          exact hplaced
      · intro hparked
        rw [hparked] at hopen
        exact absurd hopen hepisode'.not_open
      · exact fun _ => List.mem_append_right _ (List.mem_singleton.mpr rfl)
    · cases List.mem_singleton.mp hother

/- Optimizer-step inputs. -/
def isStep : StageInput → Bool
  | .workInput _ => true
  | .workState _ => true
  | _ => false

/-- The only emitted step that is not executed yet. -/
theorem Tracked.only (h : Tracked workInput member done) {input other : StageInput}
    (hinput : input ∈ member.emitted) (hstep : isStep input = true) (hdone : input ∉ done)
    (hother : other ∈ member.emitted) (hother' : isStep other = true) (hlater : other ∉ done) :
    other = input := by
  cases input with
  | workInput w =>
    have hnone := (h.started w hinput hdone).1
    cases other with
    | workInput w' => rw [h.launch w hinput, h.launch w' hother]
    | workState state =>
      rw [(h.live state hother hlater).1] at hnone
      cases hnone
    | evalRow row => cases hother'
    | join join => cases hother'
  | workState state =>
    have hsome := (h.live state hinput hdone).1
    cases other with
    | workInput w =>
      rw [(h.started w hother hlater).1] at hsome
      cases hsome
    | workState state' =>
      rw [(h.live state' hother hlater).1, Option.some.injEq] at hsome
      rw [hsome]
    | evalRow row => cases hother'
    | join join => cases hother'
  | evalRow row => cases hstep
  | join join => cases hstep

/-- Behind the step of `state` no older input is left to execute, so what remains to be
shown is about the head and the inputs the step emitted. -/
theorem Tracked.after (h : Tracked workInput member done) {input : StageInput}
    {inputs : List StageInput}
    (honly : ∀ other ∈ member.emitted, isStep other = true → other ∉ done → other = input)
    (hnew : ∀ other ∈ inputs, (∃ row, other = .evalRow row) ∨ (∃ join, other = .join join) ∨
      ∃ state, other = .workState state ∧ Open state ∧ s'.head = some state ∧
        Quiet state.workInput.dispatchMode s')
    (hepisodes : ∀ join, .join join ∈ member.emitted ++ inputs → Episode join ∧
      ∃ head, s'.head = some head ∧ Placed head join ∧
        (head = join.workState → Quiet head.workInput.dispatchMode s') ∧
        (head = resumedState join → .workState head ∈ member.emitted ++ inputs)) :
    Tracked workInput ⟨s', member.emitted ++ inputs⟩ (done ++ [input]) := by
  have hold {other : StageInput} (hother : other ∈ member.emitted) (hstep : isStep other = true)
      (hlater : other ∉ done ++ [input]) : False := by
    rw [List.mem_append, not_or] at hlater
    exact hlater.2 (List.mem_singleton.mpr (honly other hother hstep hlater.1))
  constructor
  · intro w hw
    rcases List.mem_append.mp hw with hw | hw
    · exact h.launch w hw
    · rcases hnew _ hw with ⟨_,heq⟩ | ⟨_,heq⟩ | ⟨_,heq,_⟩
      · cases heq
      · cases heq
      · cases heq
  · intro state hstate
    rcases List.mem_append.mp hstate with hstate | hstate
    · exact h.opened state hstate
    · rcases hnew _ hstate with ⟨_,heq⟩ | ⟨_,heq⟩ | ⟨_,heq,hopen,_⟩
      · cases heq
      · cases heq
      · cases heq
        exact hopen
  · intro w hw hdone
    rcases List.mem_append.mp hw with hw | hw
    · exact (hold hw rfl hdone).elim
    · rcases hnew _ hw with ⟨_,heq⟩ | ⟨_,heq⟩ | ⟨_,heq,_⟩
      · cases heq
      · cases heq
      · cases heq
  · intro state hstate hdone
    rcases List.mem_append.mp hstate with hstate | hstate
    · exact (hold hstate rfl hdone).elim
    · rcases hnew _ hstate with ⟨_,heq⟩ | ⟨_,heq⟩ | ⟨_,heq,_,hlive⟩
      · cases heq
      · cases heq
      · cases heq
        exact hlive
  · exact hepisodes

theorem EpisodeInputs.new {parked : OptimWorkState} {origin : Nat} {inputs : List StageInput}
    (h : EpisodeInputs parked origin inputs) {other : StageInput} (hother : other ∈ inputs) :
    (∃ row, other = .evalRow row) ∨ (∃ join, other = .join join) := by
  rcases h other hother with hrow | ⟨join,heq,_⟩
  · exact .inl hrow
  · exact .inr ⟨join, heq⟩

theorem ParksAt.episode {parked : OptimWorkState} (h : ParksAt state parked)
    (hstate : join.workState = parked) (horigin : join.deferralOptimStepStageIndex = state.stage) :
    Episode join := by
  constructor
  · rw [hstate, horigin]
    exact h.origin
  · rw [hstate]
    exact h.waits
  · rw [hstate, horigin]
    exact h.beyond
  · rw [hstate]
    exact h.numbered

/-- One execution of a step that is not executed yet. -/
theorem Tracked.ready (h : Tracked workInput member done) {input : StageInput}
    (honly : ∀ other ∈ member.emitted, isStep other = true → other ∉ done → other = input)
    (hhead : ∀ head, member.store.head = some head → head = state) (hopen : Open state)
    (hstep : ReadyStep member.store s' state r) :
    Tracked workInput ⟨s', member.emitted ++ emittedBy r⟩ (done ++ [input]) := by
  cases hstep with
  | kept head emitted =>
    rw [emitted]
    apply h.after honly
    · intro other hother
      cases hother
    · intro join hjoin
      rw [List.append_nil] at hjoin ⊢
      obtain ⟨hepisode,found,hfound,hplaced,_,hemitted⟩ := h.episodes join hjoin
      refine ⟨hepisode, found, head.trans hfound, hplaced, ?_, hemitted⟩
      intro hparked
      rw [← hhead found hfound, hparked] at hopen
      exact absurd hopen hepisode.not_open
  | advanced next head stepIndex opened quiet emitted =>
    apply h.after honly
    · intro other hother
      rcases emitted with hnone | hnext
      · rw [hnone] at hother
        cases hother
      · rw [hnext] at hother
        cases List.mem_singleton.mp hother
        exact .inr (.inr ⟨next, rfl, opened, head, quiet⟩)
    · intro join hjoin
      have hold : .join join ∈ member.emitted := by
        rcases List.mem_append.mp hjoin with hjoin | hjoin
        · exact hjoin
        · rcases emitted with hnone | hnext
          · rw [hnone] at hjoin
            cases hjoin
          · rw [hnext] at hjoin
            cases List.mem_singleton.mp hjoin
      obtain ⟨hepisode,found,hfound,hplaced,_,_⟩ := h.episodes join hold
      obtain rfl := hhead found hfound
      have hle := hplaced.stepIndex_le
      refine ⟨hepisode, next, head, .inr (.inr (.inl ?_)), ?_, ?_⟩
      · omega
      · intro hparked
        rw [hparked] at opened
        exact absurd opened hepisode.not_open
      · intro hresumed
        have hindex : next.stepIndex = join.workState.stepIndex := by
          rw [hresumed]
          rfl
        omega
  | deferred parked head parks emitted =>
    apply h.after honly
    · intro other hother
      rcases emitted with hnone | ⟨_,hinputs⟩
      · rw [hnone] at hother
        cases hother
      · exact (hinputs.new hother).imp_right .inl
    · intro join hjoin
      rcases List.mem_append.mp hjoin with hjoin | hjoin
      · obtain ⟨hepisode,found,hfound,hplaced,_,_⟩ := h.episodes join hjoin
        obtain rfl := hhead found hfound
        have hpast := hplaced.parks hopen hepisode parks
        refine ⟨hepisode, parked, head, .inr (.inr hpast), ?_, ?_⟩
        · intro hparked
          have hbeyond := hepisode.beyond
          have horigin := hepisode.origin
          rw [← hparked] at hbeyond horigin
          rcases hpast with hlater | ⟨_,hlater⟩
          · rw [← hparked] at hlater
            omega
          · rw [horigin, ← hparked] at hlater
            simp only at hlater
            omega
        · intro hresumed
          have hwaits := parks.waits
          rw [hresumed] at hwaits
          cases hwaits
      · rcases emitted with hnone | ⟨hquiet,hinputs⟩
        · rw [hnone] at hjoin
          cases hjoin
        · rcases hinputs _ hjoin with ⟨_,heq⟩ | ⟨other,heq,hstate,horigin⟩
          · cases heq
          · cases heq
            have hepisode := parks.episode hstate horigin
            refine ⟨hepisode, parked, head, .inl hstate.symm, fun _ => hquiet, ?_⟩
            intro hresumed
            have hwaits := parks.waits
            rw [hresumed] at hwaits
            cases hwaits

theorem Tracked.more (h : Tracked workInput member done) (inputs : List StageInput) :
    Tracked workInput member (done ++ inputs) := by
  have hnot {input : StageInput} (hinput : input ∉ done ++ inputs) : input ∉ done :=
    fun hmem => hinput (List.mem_append_left _ hmem)
  refine ⟨h.launch, h.opened, ?_, ?_, h.episodes⟩
  · exact fun w hw hdone => h.started w hw (hnot hdone)
  · exact fun state hstate hdone => h.live state hstate (hnot hdone)

def executedStep : Execution → List StageInput
  | .optimStep input _ _ => [input]
  | _ => []

/- The optimizer-step inputs a run executes. -/
def executedSteps (executions : List Execution) : List StageInput :=
  executions.flatMap executedStep

theorem loadWorkState_launch (hempty : s.stepResults = Dict.empty) (hhead : s.head = none)
    (w : OptimWorkInput) (hload : loadWorkState runtime s (.workInput w) = .ok state) :
    state = { workInput := w } := by
  unfold loadWorkState at hload
  simp only at hload
  split at hload
  · cases hload
  · rw [hhead] at hload
    cases hload
    unfold rebuildWorkState
    rw [hempty]
    rfl

theorem executeOptimStep_unloaded {input : StageInput} {stageIndex : Option Nat}
    {answer : HarnessAnswer} {message : String}
    (hload : loadWorkState runtime s input = .error message) :
    executeOptimStep runtime input stageIndex answer s = (.error message, s) := by
  unfold executeOptimStep
  rw [read_bind]
  unfold optimStepFrom
  rw [hload]
  rfl

theorem tracked_optimStep (h : Tracked workInput member done) {input : StageInput}
    (stageIndex : Option Nat) (answer : HarnessAnswer) (hinput : input ∈ member.emitted)
    (hfresh : input ∉ done)
    (hexec : executeOptimStep runtime input stageIndex answer member.store = (r, s')) :
    Tracked workInput ⟨s', member.emitted ++ emittedBy r⟩ (done ++ [input]) ∧
      Grows member.store s' := by
  cases hload : loadWorkState runtime member.store input with
  | error message =>
    rw [executeOptimStep_unloaded hload] at hexec
    cases hexec
    exact ⟨(h.unmoved rfl rfl rfl rfl).more [input], Grows.of_eq rfl rfl⟩
  | ok state =>
    have honly (hstep : isStep input = true) : ∀ other ∈ member.emitted, isStep other = true →
        other ∉ done → other = input :=
      fun other hother hstep' hlater => h.only hinput hstep hfresh hother hstep' hlater
    cases input with
    | workInput w =>
      obtain ⟨hnone,hempty⟩ := h.started w hinput hfresh
      obtain rfl := loadWorkState_launch hempty hnone w hload
      have hopen : Open { workInput := w } := ⟨rfl, rfl, rfl, rfl⟩
      have hquiet : Quiet w.dispatchMode member.store := by
        intro k result hget
        rw [hempty] at hget
        cases hget
      obtain ⟨hready,hsame⟩ := executeOptimStep_step hload hopen hquiet (fun h => by cases h) hexec
      refine ⟨h.ready (honly rfl) ?_ hopen hready, Grows.of_eq hsame.1 hsame.2⟩
      intro head hhead
      rw [hnone] at hhead
      cases hhead
    | workState found =>
      cases hload
      obtain ⟨hsome,hquiet⟩ := h.live state hinput hfresh
      have hopen := h.opened state hinput
      obtain ⟨hready,hsame⟩ := executeOptimStep_step rfl hopen hquiet (fun _ => hsome) hexec
      refine ⟨h.ready (honly rfl) ?_ hopen hready, Grows.of_eq hsame.1 hsame.2⟩
      intro head hhead
      rw [hsome, Option.some.injEq] at hhead
      exact hhead.symm
    | evalRow row => cases hload
    | join join => cases hload

theorem tracked_evalRow (h : Tracked workInput member done) (row : EvalRowInput)
    (stageIndex : Option Nat) (executor : Except String (Option RowOutcome))
    (hexec : executeEvalRow runtime row stageIndex executor member.store = (r, s')) :
    Tracked workInput ⟨s', member.emitted ++ emittedBy r⟩ done ∧ Grows member.store s' := by
  unfold executeEvalRow at hexec
  rw [read_bind] at hexec
  cases hget : member.store.rows.get? row with
  | some record =>
    rw [hget] at hexec
    cases hexec
    exact ⟨h.unmoved rfl rfl rfl rfl, Grows.of_eq rfl rfl⟩
  | none =>
    rw [hget] at hexec
    rcases ofExcept_bind_cases hexec with ⟨_,_,rfl,rfl⟩ | ⟨_,_,hexec⟩
    · exact ⟨h.unmoved rfl rfl rfl rfl, Grows.of_eq rfl rfl⟩
    rcases ofExcept_bind_cases hexec with ⟨_,_,rfl,rfl⟩ | ⟨_,_,hexec⟩
    · exact ⟨h.unmoved rfl rfl rfl rfl, Grows.of_eq rfl rfl⟩
    rcases ofExcept_bind_cases hexec with ⟨_,_,rfl,rfl⟩ | ⟨outcome,_,hexec⟩
    · exact ⟨h.unmoved rfl rfl rfl rfl, Grows.of_eq rfl rfl⟩
    cases hexec
    refine ⟨h.unmoved rfl rfl rfl rfl, ?_, fun _ _ hget => hget⟩
    intro other record hother
    have hne : other ≠ row := by
      rintro rfl
      rw [hget] at hother
      cases hother
    simpa [Dict.get?_set, hne] using hother

/-- The head is parked on the episode of a fan-in that is not stale, or resumed from it. -/
theorem Tracked.current (hgepa : runtime.gepa = true) (h : Tracked workInput member done)
    (hjoin : .join join ∈ member.emitted)
    (hstale : staleFanin runtime join member.store.head = false) :
    Episode join ∧ (member.store.head = some join.workState ∨
      member.store.head = some (resumedState join)) := by
  obtain ⟨hepisode,head,hhead,hplaced,_,_⟩ := h.episodes join hjoin
  refine ⟨hepisode, ?_⟩
  rw [hhead] at hstale ⊢
  rcases hplaced with rfl | rfl | hpast
  · exact .inl rfl
  · exact .inr rfl
  · rw [staleFanin_of_past hgepa hepisode hpast] at hstale
    cases hstale

theorem Tracked.resumption_eq (hgepa : runtime.gepa = true) (h : Tracked workInput member done)
    (hjoin : .join join ∈ member.emitted)
    (hstale : staleFanin runtime join member.store.head = false) :
    resumeStage (resumption join member.store.head) = resumedState join := by
  obtain ⟨hepisode,hbefore⟩ := h.current hgepa hjoin hstale
  rcases hbefore with hparked | hresumed
  · rw [hparked]
    exact Platform.resumption_eq hepisode (.inl rfl)
  · rw [hresumed]
    exact Platform.resumption_eq hepisode (.inr rfl)

theorem tracked_evalFanin (hgepa : runtime.gepa = true) (h : Tracked workInput member done)
    (hjoin : .join join ∈ member.emitted) (stageIndex : Option Nat) (answer : FaninAnswer)
    (hexec : executeEvalFanin runtime join stageIndex answer member.store = (r, s')) :
    Tracked workInput ⟨s', member.emitted ++ emittedBy r⟩ done ∧ Grows member.store s' := by
  obtain ⟨hstep,hgrows,hresults⟩ := executeEvalFanin_step hgepa hexec
  refine ⟨?_, hgrows⟩
  cases hstep with
  | raised message head intents => exact h.unmoved head hresults intents rfl
  | stale resolutions passed left head intents => exact h.unmoved head hresults intents rfl
  | resumed resolutions passed current head intents =>
    have hresumed := h.resumption_eq hgepa hjoin current
    rw [hresumed] at head
    refine h.resumes hjoin (h.current hgepa hjoin current).2 head hresults intents ?_
    rw [hresumed]
    rfl

/-- One execution of an emitted input keeps the member tracked. -/
theorem tracked_step (hgepa : runtime.gepa = true) (h : Tracked workInput member done)
    (execution : Execution) (hinput : execution.input ∈ member.emitted)
    (hfresh : ∀ input ∈ executedStep execution, input ∉ done) :
    Tracked workInput (step runtime member execution) (done ++ executedStep execution) ∧
      Grows member.store (step runtime member execution).store := by
  cases execution with
  | optimStep input stageIndex answer =>
    exact tracked_optimStep h stageIndex answer hinput
      (hfresh input (List.mem_singleton.mpr rfl)) rfl
  | evalRow row stageIndex executor =>
    simp only [executedStep, List.append_nil]
    exact tracked_evalRow h row stageIndex executor rfl
  | evalFanin join stageIndex answer =>
    simp only [executedStep, List.append_nil]
    exact tracked_evalFanin hgepa h hinput stageIndex answer rfl

/-- A run in which no step is executed twice keeps the member tracked. -/
theorem tracked_run (hgepa : runtime.gepa = true) (executions : List Execution)
    (h : Tracked workInput member done)
    (hadmissible : admissible runtime member executions = true)
    (honce : (done ++ executedSteps executions).Nodup) :
    Tracked workInput (run runtime member executions) (done ++ executedSteps executions) ∧
      Grows member.store (run runtime member executions).store := by
  induction executions generalizing member done with
  | nil =>
    rw [executedSteps, List.flatMap_nil, List.append_nil]
    exact ⟨h, Grows.of_eq rfl rfl⟩
  | cons execution rest ih =>
    simp only [admissible, Bool.and_eq_true, decide_eq_true_eq] at hadmissible
    rw [executedSteps, List.flatMap_cons, ← List.append_assoc] at honce ⊢
    have hfresh : ∀ input ∈ executedStep execution, input ∉ done := by
      intro input hinput hdone
      have hpair := (List.nodup_append.mp (List.nodup_append.mp honce).1).2.2
      exact hpair input hdone input hinput rfl
    obtain ⟨htracked,hgrows⟩ := tracked_step hgepa h execution hadmissible.1 hfresh
    obtain ⟨hrun,hrest⟩ := ih htracked hadmissible.2 honce
    exact ⟨hrun, hgrows.trans hrest⟩

theorem admissible_append (executions later : List Execution) :
    admissible runtime member (executions ++ later) =
      (admissible runtime member executions &&
        admissible runtime (run runtime member executions) later) := by
  induction executions generalizing member with
  | nil => rfl
  | cons execution rest ih =>
    rw [List.cons_append, admissible, admissible, ih, Bool.and_assoc]
    rfl

/- A replay gets the ledger's listing that the first execution got. -/
def Replays (answer answer' : FaninAnswer) : Prop := answer'.predecessors = answer.predecessors

/-- Whatever a returned fan-in recorded is what it hands off when it is executed again, and
a successor it emitted is the step of the resumed work state. -/
theorem Tracked.replay {stageIndex : Option Nat} {answer answer' : FaninAnswer}
    {completion : StageCompletion} {u : Store} (hgepa : runtime.gepa = true)
    (h : Tracked workInput member done) (hjoin : .join join ∈ member.emitted)
    (hexec : executeEvalFanin runtime join stageIndex answer member.store = (.ok completion, s'))
    (hlater : Grows s' u) (hreplays : Replays answer answer') :
    ∃ resolutions,
      completion.outputReference = .fanin join.primaryOptimEvalRequest resolutions ∧
      (completion.successors = [] ∨
        completion.successors = [resumeSuccessor (resumedState join)]) ∧
      executeEvalFanin runtime join stageIndex answer' u = handoff runtime join resolutions u := by
  obtain ⟨hstep,hgrows,_⟩ := executeEvalFanin_step hgepa hexec
  have hall := hgrows.trans hlater
  cases hstep with
  | stale resolutions passed left head intents =>
    exact ⟨resolutions, rfl, .inl rfl, passed.replay hgepa hall hlater hreplays⟩
  | resumed resolutions passed current head intents =>
    refine ⟨resolutions, rfl, .inr ?_, passed.replay hgepa hall hlater hreplays⟩
    rw [h.resumption_eq hgepa hjoin current]

/- The run executed the fan-in of the episode, and the fan-in returned. -/
def Returned (runtime : Runtime) (workInput : OptimWorkInput) (executions : List Execution)
    (join : DeferralJoinInput) (stageIndex : Option Nat) (answer : FaninAnswer)
    (completion : StageCompletion) : Prop :=
  ∃ before after, executions = before ++ .evalFanin join stageIndex answer :: after ∧
    (execute runtime (.evalFanin join stageIndex answer)
      (run runtime (launched workInput) before).store).1 = .ok completion

theorem Returned.replay {executions : List Execution} {stageIndex : Option Nat}
    {answer answer' : FaninAnswer} {completion : StageCompletion} (hgepa : runtime.gepa = true)
    (hadmissible : admissible runtime (launched workInput) executions = true)
    (honce : (executedSteps executions).Nodup)
    (h : Returned runtime workInput executions join stageIndex answer completion)
    (hreplays : Replays answer answer') :
    ∃ resolutions,
      completion.outputReference = .fanin join.primaryOptimEvalRequest resolutions ∧
      (completion.successors = [] ∨
        completion.successors = [resumeSuccessor (resumedState join)]) ∧
      executeEvalFanin runtime join stageIndex answer'
        (run runtime (launched workInput) executions).store =
        handoff runtime join resolutions
          (run runtime (launched workInput) executions).store := by
  obtain ⟨before,after,rfl,hok⟩ := h
  rw [admissible_append, Bool.and_eq_true] at hadmissible
  obtain ⟨hbefore,hrest⟩ := hadmissible
  simp only [admissible, Bool.and_eq_true, decide_eq_true_eq] at hrest
  obtain ⟨hjoin,hafter⟩ := hrest
  have hsteps : executedSteps (before ++ .evalFanin join stageIndex answer :: after) =
      executedSteps before ++ executedSteps after := by
    simp [executedSteps, executedStep]
  rw [hsteps] at honce
  obtain ⟨htracked,_⟩ := tracked_run hgepa before (tracked_launched workInput) hbefore
    (List.nodup_append.mp honce).1
  obtain ⟨hstepped,_⟩ := tracked_step hgepa htracked (.evalFanin join stageIndex answer) hjoin
    (fun _ hinput => by cases hinput)
  have hlater := (tracked_run hgepa after hstepped hafter
    (by simpa [executedStep] using honce)).2
  rw [run, List.foldl_append]
  exact htracked.replay hgepa hjoin (Prod.ext hok rfl) hlater hreplays

/-- Fan-ins executed again in any run of a GEPA member that executes no optimizer step
twice. Where the fan-in of the episode resumed the head, it returns its completion again,
the step of the head, and leaves the head. Once the head is neither parked on the episode
nor resumed from it, its fan-in emits nothing and changes neither the head nor the deferred
intents, whatever the environment answers; if it returned before, it returns again with the
output it recorded. -/
theorem fanin_replay_idempotent_or_inert (runtime : Runtime) (hgepa : runtime.gepa = true)
    (workInput : OptimWorkInput) (executions : List Execution)
    (hadmissible : admissible runtime (launched workInput) executions = true)
    (honce : (executedSteps executions).Nodup) (join : DeferralJoinInput)
    (hjoin : .join join ∈ (run runtime (launched workInput) executions).emitted) (s : Store)
    (hs : s = (run runtime (launched workInput) executions).store) :
    (s.head = some (resumedState join) →
      ∀ stageIndex answer completion answer',
        Returned runtime workInput executions join stageIndex answer completion →
        completion.successors ≠ [] → Replays answer answer' →
        completion.successors = [resumeSuccessor (resumedState join)] ∧
        (execute runtime (.evalFanin join stageIndex answer') s).1 = .ok completion ∧
        (execute runtime (.evalFanin join stageIndex answer') s).2.head = s.head) ∧
    (s.head ≠ some join.workState → s.head ≠ some (resumedState join) →
      (∀ stageIndex answer,
        emittedBy (execute runtime (.evalFanin join stageIndex answer) s).1 = [] ∧
        (execute runtime (.evalFanin join stageIndex answer) s).2.head = s.head ∧
        (execute runtime (.evalFanin join stageIndex answer) s).2.deferredIntents =
          s.deferredIntents) ∧
      ∀ stageIndex answer completion answer',
        Returned runtime workInput executions join stageIndex answer completion →
        Replays answer answer' →
        (execute runtime (.evalFanin join stageIndex answer') s).1 =
          .ok ⟨completion.outputReference, []⟩) := by
  subst hs
  obtain ⟨htracked,_⟩ := tracked_run hgepa executions (tracked_launched workInput) hadmissible honce
  have hstale (hparked : (run runtime (launched workInput) executions).store.head ≠
        some join.workState)
      (hresumed : (run runtime (launched workInput) executions).store.head ≠
        some (resumedState join)) :
      staleFanin runtime join (run runtime (launched workInput) executions).store.head = true := by
    by_contra hfresh
    rcases (htracked.current hgepa hjoin (Bool.eq_false_iff.mpr hfresh)).2 with h | h
    · exact hparked h
    · exact hresumed h
  refine ⟨?_, fun hparked hresumed => ⟨?_, ?_⟩⟩
  · intro hhead stageIndex answer completion answer' hreturned hsuccessors hreplays
    obtain ⟨resolutions,houtput,hemitted,hagain⟩ :=
      hreturned.replay hgepa hadmissible honce hreplays
    have hsingle := hemitted.resolve_left hsuccessors
    refine ⟨hsingle, ?_⟩
    change (executeEvalFanin runtime join stageIndex answer' _).1 = _ ∧
      (executeEvalFanin runtime join stageIndex answer' _).2.head = _
    have hresume := htracked.resumption_eq hgepa hjoin
      (by rw [hhead]; exact staleFanin_resumed)
    rw [hagain, handoff, hresume, hhead, staleFanin_resumed]
    refine ⟨?_, rfl⟩
    cases completion
    cases houtput
    cases hsingle
    rfl
  · intro stageIndex answer
    obtain ⟨r,t,hexec⟩ : ∃ r t, executeEvalFanin runtime join stageIndex answer
        (run runtime (launched workInput) executions).store = (r, t) := ⟨_, _, rfl⟩
    obtain ⟨hstep,_,_⟩ := executeEvalFanin_step hgepa hexec
    change emittedBy (executeEvalFanin runtime join stageIndex answer _).1 = [] ∧
      (executeEvalFanin runtime join stageIndex answer _).2.head = _ ∧
      (executeEvalFanin runtime join stageIndex answer _).2.deferredIntents = _
    rw [hexec]
    cases hstep with
    | raised message head intents => exact ⟨rfl, head, intents⟩
    | stale resolutions passed left head intents => exact ⟨rfl, head, intents⟩
    | resumed resolutions passed current head intents =>
      rw [hstale hparked hresumed] at current
      cases current
  · intro stageIndex answer completion answer' hreturned hreplays
    obtain ⟨resolutions,houtput,_,hagain⟩ := hreturned.replay hgepa hadmissible honce hreplays
    change (executeEvalFanin runtime join stageIndex answer' _).1 = _
    rw [hagain, handoff, hstale hparked hresumed, houtput]
    rfl

end Runs

section TwoEpisodes

def gepaRuntime : Runtime := { replayRuntime with gepa := true }

def secondParked : OptimWorkState where
  workInput := replayInput 7
  pendingStepResultRef := some (replayResult 0 [])
  deferralOptimStepStageIndex := some 4
  pendingDeferredIntents := [replayIntent "q1"]

def secondRow (ordinal : Nat) (taskId : String) : EvalRowInput :=
  ⟨secondParked, 4, ordinal, replayIntent "q1", taskId, 0⟩

def secondJoin : DeferralJoinInput :=
  ⟨secondParked, 4, replayIntent "q1", [secondRow 0 "t1", secondRow 1 "t2"]⟩

def allCompleted : FaninAnswer := ⟨none, fun intent => .ok ⟨intent, .completed, ""⟩⟩

/- Two episodes inside the first step, each resumed by its fan-in. -/
def twoEpisodes : List Execution :=
  [.optimStep (.workInput (replayInput 0)) (some 0)
      (.steps "proposal" .continue [] [replayIntent "q0"]),
    .evalRow (replayRow 0 "t1") (some 1) (.ok (some (.evidence "e1"))),
    .evalRow (replayRow 1 "t2") (some 2) (.ok (some (.evidence "e2"))),
    .evalFanin replayJoin (some 3) allCompleted,
    .optimStep (.workState (resumedState replayJoin)) (some 4)
      (.steps "proposal" .continue [] [replayIntent "q1"]),
    .evalRow (secondRow 0 "t1") (some 5) (.ok (some (.evidence "e3"))),
    .evalRow (secondRow 1 "t2") (some 6) (.ok (some (.evidence "e4"))),
    .evalFanin secondJoin (some 7) allCompleted]

def secondCompletion : StageCompletion :=
  ⟨.fanin (replayIntent "q1") [⟨replayIntent "q1", .completed, ""⟩],
    [resumeSuccessor (resumedState secondJoin)]⟩

theorem twoEpisodes_admissible :
    admissible gepaRuntime (launched (replayInput 0)) twoEpisodes = true := by
  decide +kernel

theorem twoEpisodes_once : (executedSteps twoEpisodes).Nodup := by
  decide +kernel

theorem twoEpisodes_head :
    (run gepaRuntime (launched (replayInput 0)) twoEpisodes).store.head =
      some (resumedState secondJoin) := by
  decide +kernel

theorem secondFanin_returned : Returned gepaRuntime (replayInput 0) twoEpisodes secondJoin
    (some 7) allCompleted secondCompletion :=
  ⟨twoEpisodes.take 7, [], rfl, by decide +kernel⟩

/-- Behind two episodes of one step, the fan-in of the second returns its completion again
and the fan-in of the first emits nothing and leaves the head. -/
theorem fanin_replay_two_episodes :
    let s := (run gepaRuntime (launched (replayInput 0)) twoEpisodes).store
    ((execute gepaRuntime (.evalFanin secondJoin (some 7) allCompleted) s).1 =
        .ok secondCompletion ∧
      (execute gepaRuntime (.evalFanin secondJoin (some 7) allCompleted) s).2.head = s.head) ∧
    emittedBy (execute gepaRuntime (.evalFanin replayJoin (some 3) allCompleted) s).1 = [] ∧
      (execute gepaRuntime (.evalFanin replayJoin (some 3) allCompleted) s).2.head = s.head := by
  have hsecond := (fanin_replay_idempotent_or_inert gepaRuntime rfl (replayInput 0) twoEpisodes
    twoEpisodes_admissible twoEpisodes_once secondJoin (by decide +kernel) _ rfl).1
    twoEpisodes_head (some 7) allCompleted secondCompletion allCompleted secondFanin_returned
    (List.cons_ne_nil _ _) rfl
  have hfirst := ((fanin_replay_idempotent_or_inert gepaRuntime rfl (replayInput 0) twoEpisodes
    twoEpisodes_admissible twoEpisodes_once replayJoin (by decide +kernel) _ rfl).2
    (by rw [twoEpisodes_head]; decide) (by rw [twoEpisodes_head]; decide)).1 (some 3) allCompleted
  exact ⟨hsecond.2, hfirst.1, hfirst.2.1⟩

end TwoEpisodes

end Whetstone.Platform
