import Whetstone.Platform.EvalFanin

/-! The stage index of the work-state head along runs in which any emitted stage input may
be executed again. -/
namespace Whetstone.Platform
open Whetstone.Lib Whetstone.Lib.Act

inductive Execution where
  | optimStep (input : StageInput) (stageIndex : Option Nat) (answer : HarnessAnswer)
  | evalRow (input : EvalRowInput) (stageIndex : Option Nat)
      (executor : Except String (Option RowOutcome))
  | evalFanin (input : DeferralJoinInput) (stageIndex : Option Nat) (answer : FaninAnswer)

def Execution.input : Execution → StageInput
  | .optimStep input _ _ => input
  | .evalRow input _ _ => .evalRow input
  | .evalFanin input _ _ => .join input

def execute (runtime : Runtime) : Execution → Stage StageCompletion
  | .optimStep input stageIndex answer => executeOptimStep runtime input stageIndex answer
  | .evalRow input stageIndex executor => executeEvalRow runtime input stageIndex executor
  | .evalFanin input stageIndex answer => executeEvalFanin runtime input stageIndex answer

/- A member with the stage inputs emitted for it so far. -/
structure Member where
  store : Store
  emitted : List StageInput

def launched (workInput : OptimWorkInput) : Member where
  store := ⟨none, Dict.empty, Dict.empty, Dict.empty, Dict.empty, Dict.empty, none⟩
  emitted := [.workInput workInput]

def emittedBy : Except String StageCompletion → List StageInput
  | .ok completion => completion.successors.map (fun successor => successor.input)
  | .error _ => []

def step (runtime : Runtime) (member : Member) (execution : Execution) : Member where
  store := (execute runtime execution member.store).2
  emitted := member.emitted ++ emittedBy (execute runtime execution member.store).1

def run (runtime : Runtime) (member : Member) (executions : List Execution) : Member :=
  executions.foldl (step runtime) member

/- Every execution takes an input emitted before it, fresh or not. -/
def admissible (runtime : Runtime) : Member → List Execution → Bool
  | _, [] => true
  | member, execution :: rest =>
    execution.input ∈ member.emitted && admissible runtime (step runtime member execution) rest

/- The stage of the bound head does not decrease. -/
def HeadAdvances (s s' : Store) : Prop :=
  ∀ head, s.head = some head → ∃ next, s'.head = some next ∧ head.stage ≤ next.stage

def HeadMonotone (runtime : Runtime) (member : Member) (executions : List Execution) : Prop :=
  ∀ before execution after, executions = before ++ execution :: after →
    HeadAdvances (run runtime member before).store
      (step runtime (run runtime member before) execution).store

/- A deferral lands on the barrier behind its rows. -/
def rowAdvance (runtime : Runtime) (deferred : List OptimEvalRequest) : Except String Nat := do
  return (← deferredRowCount runtime deferred) + 1

def harnessAdvance (runtime : Runtime) (s : Store) (state : OptimWorkState)
    (answer : HarnessAnswer) : Except String Nat := do
  let (stepIndex, requestHash) ← stepRequest runtime state
  let (result, deferred) ← runStepResult s stepIndex requestHash answer
  match deferredIntents s state stepIndex result deferred with
  | [] => return 1
  | intent :: rest => rowAdvance runtime (intent :: rest)

/- How far beyond its snapshot an optimizer step moves the stage: nowhere when the loop is
terminal or parked, to the barrier when it defers, and by one otherwise. -/
def stepAdvance (runtime : Runtime) (s : Store) (state : OptimWorkState)
    (answer : HarnessAnswer) : Except String Nat :=
  if state.terminal then .ok 0
  else if parked state then .ok 0
  else match crashWindow s state with
    | some (_, _, deferred) => rowAdvance runtime deferred
    | none => harnessAdvance runtime s state answer

/- The head is not beyond the stage to which this execution takes the snapshot of its input,
or the fan-in is one that recognises that the head has left its episode. -/
def Current (runtime : Runtime) (s : Store) : Execution → Prop
  | .optimStep input _ answer => ∀ head state advance, s.head = some head →
      loadWorkState runtime s input = .ok state →
      stepAdvance runtime s state answer = .ok advance → head.stage ≤ state.stage + advance
  | .evalRow _ _ _ => True
  | .evalFanin join _ _ => ∀ head, s.head = some head →
      head.stage ≤ join.workState.stage + 1 ∨
        (runtime.gepa = true ∧ headIsLaterEpisode head join.workState.stepIndex
          join.deferralOptimStepStageIndex join.workState.stage = true)

/- The head stands where an advance from `base` takes it. -/
def LandsAt (base : Nat) (advance : Except String Nat) (head : Option OptimWorkState) : Prop :=
  ∃ state n, head = some state ∧ advance = .ok n ∧ state.stage = base + n

theorem persistWorkState_lands (v : Option OptimWorkState) (state : OptimWorkState)
    (base n : Nat) (advance : Except String Nat) (hadvance : advance = .ok n)
    (h : state.stage = base + n) :
    Moves Store.head v (LandsAt base advance) (persistWorkState state) := by
  apply moves_before
  · exact moves_update _ fun _ => ⟨state, n, rfl, hadvance, h⟩
  · exact fun _ => keeps_pure _ _

theorem keeps_evictDeferredIntents (stepIndex : Nat) :
    Keeps Store.head (evictDeferredIntents stepIndex) := keeps_update _ _ fun _ => rfl

theorem keeps_evictStepResultBinding (stepIndex : Nat) :
    Keeps Store.head (evictStepResultBinding stepIndex) := keeps_update _ _ fun _ => rfl

theorem keeps_persistDeferredIntents (stepIndex : Nat) (intents : List OptimEvalRequest) :
    Keeps Store.head (persistDeferredIntents stepIndex intents) := by
  apply keeps_bind _ _ _ (keeps_read _)
  intro s
  apply keeps_bind _ _ _ (keeps_ofExcept _ _)
  exact fun bound => keeps_update _ _ fun _ => rfl

theorem keeps_bindStepResult (stepIndex : Nat) (result : OptimStepResult) :
    Keeps Store.head (bindStepResult stepIndex result) := by
  apply keeps_bind _ _ _ (keeps_read _)
  intro s
  apply keeps_bind _ _ _ (keeps_ofExcept _ _)
  exact fun bound => keeps_update _ _ fun _ => rfl

theorem keeps_bindRunMemberTerminal (state : OptimWorkState) :
    Keeps Store.head (bindRunMemberTerminal state) := by
  unfold bindRunMemberTerminal
  split
  · exact keeps_pure _ _
  · apply keeps_bind _ _ _ (keeps_read _)
    intro s
    split
    · exact keeps_update _ _ fun _ => rfl
    · exact keeps_ofExcept _ _

theorem platformDeferredSuccessors_lands (runtime : Runtime) (v : Option OptimWorkState)
    (state : OptimWorkState) (deferred : List OptimEvalRequest) (currentStageIndex : Nat)
    (pending : OptimStepResult) :
    Moves Store.head v (LandsAt currentStageIndex (rowAdvance runtime deferred))
      (platformDeferredSuccessors runtime state deferred currentStageIndex pending) := by
  apply moves_ofExcept
  intro rowCount hrows
  apply moves_before
  · apply persistWorkState_lands v _ _ (rowCount + 1)
    · rw [rowAdvance, hrows]
      rfl
    · rfl
  · intro parked
    apply keeps_bind _ _ _ (keeps_ofExcept _ _)
    exact fun successors => keeps_pure _ _

theorem platformDeferredResume_lands (runtime : Runtime) (v : Option OptimWorkState)
    (state : OptimWorkState) :
    Moves Store.head v (LandsAt state.stage (.ok 0)) (platformDeferredResume runtime state) := by
  unfold platformDeferredResume
  split
  · exact moves_raise _
  · exact moves_raise _
  · apply moves_after _ _ (keeps_ofExcept _ _)
    intro _
    apply moves_before
    · exact persistWorkState_lands v state _ 0 _ rfl rfl
    · intro parked
      apply keeps_bind _ _ _ (keeps_ofExcept _ _)
      exact fun successors => keeps_pure _ _

theorem deferStep_lands (runtime : Runtime) (v : Option OptimWorkState) (state : OptimWorkState)
    (deferralStepIndex : Nat) (pending : OptimStepResult) (deferred : List OptimEvalRequest) :
    Moves Store.head v (LandsAt state.stage (rowAdvance runtime deferred))
      (deferStep runtime state deferralStepIndex pending deferred) := by
  apply moves_after _ _ (keeps_persistDeferredIntents _ _)
  intro _
  apply moves_before
  · exact platformDeferredSuccessors_lands runtime v _ deferred state.stage pending
  · intro successors
    apply keeps_bind _ _ _ (keeps_evictStepResultBinding _)
    intro _
    apply keeps_bind _ _ _ (keeps_evictDeferredIntents _)
    exact fun _ => keeps_pure _ _

theorem advanceStep_lands (v : Option OptimWorkState) (state : OptimWorkState) (stepIndex : Nat)
    (result : OptimStepResult) :
    Moves Store.head v (LandsAt state.stage (.ok 1)) (advanceStep state stepIndex result) := by
  apply moves_after _ _ (keeps_bindStepResult _ _)
  intro _
  apply moves_before
  · exact persistWorkState_lands v _ _ 1 _ rfl rfl
  · intro updated
    split
    · apply keeps_bind _ _ _ (keeps_bindRunMemberTerminal _)
      exact fun _ => keeps_pure _ _
    · exact keeps_pure _ _

theorem runStep_yields (v : Option OptimWorkState) (s : Store) (stepIndex : Nat)
    (requestHash : String) (answer : HarnessAnswer) :
    Yields Store.head v (fun found => runStepResult s stepIndex requestHash answer = .ok found)
      (runStep s stepIndex requestHash answer) := by
  apply yields_ofExcept
  intro found hfound
  obtain ⟨result,deferred⟩ := found
  have hbind : Yields Store.head v
      (fun found => runStepResult s stepIndex requestHash answer = .ok found)
      (do bindStepResult stepIndex result; return (result, deferred)) := by
    apply yields_after _ _ _ (keeps_bindStepResult _ _)
    intro _
    exact yields_pure _ _ hfound
  dsimp only
  by_cases hdeferred : deferred ≠ []
  · rw [if_pos hdeferred]
    exact yields_after _ _ _ (keeps_persistDeferredIntents _ _) fun _ => hbind
  · rw [if_neg hdeferred]
    exact hbind

theorem harnessStep_lands (runtime : Runtime) (v : Option OptimWorkState) (s : Store)
    (state : OptimWorkState) (answer : HarnessAnswer) :
    Moves Store.head v (LandsAt state.stage (harnessAdvance runtime s state answer))
      (harnessStep runtime s state answer) := by
  apply moves_ofExcept
  intro request hrequest
  apply moves_yields _ _ _ (runStep_yields v s request.1 request.2 answer)
  intro found hfound
  have hadvance : harnessAdvance runtime s state answer =
      match deferredIntents s state request.1 found.1 found.2 with
      | [] => .ok 1
      | intent :: rest => rowAdvance runtime (intent :: rest) := by
    rw [harnessAdvance, hrequest, ok_bind]
    change runStepResult s request.1 request.2 answer >>= _ = _
    rw [hfound]
    rfl
  rw [hadvance]
  cases hdeferred : deferredIntents s state request.1 found.1 found.2 with
  | nil =>
    simp only [hdeferred]
    exact advanceStep_lands v state request.1 found.1
  | cons intent rest =>
    simp only [hdeferred]
    exact deferStep_lands runtime v state request.1 found.1 (intent :: rest)

theorem optimStepFrom_lands (runtime : Runtime) (s : Store) (v : Option OptimWorkState)
    (input : StageInput) (stageIndex : Option Nat) (answer : HarnessAnswer) :
    Moves Store.head v (fun head => ∃ state, loadWorkState runtime s input = .ok state ∧
        LandsAt state.stage (stepAdvance runtime s state answer) head)
      (optimStepFrom runtime s input stageIndex answer) := by
  apply moves_ofExcept
  intro state hstate
  apply moves_after _ _ (keeps_ofExcept _ _)
  intro _
  apply moves_after _ _ (keeps_ofExcept _ _)
  intro _
  apply moves_mono (LandsAt state.stage (stepAdvance runtime s state answer)) _ _
    fun head hlands => ⟨state, hstate, hlands⟩
  unfold stepAdvance
  by_cases hterminal : state.terminal = true
  · simp only [hterminal, if_true]
    apply moves_before
    · exact persistWorkState_lands v state _ 0 _ rfl rfl
    · intro bound
      apply keeps_bind _ _ _ (keeps_bindRunMemberTerminal _)
      exact fun _ => keeps_pure _ _
  · simp only [hterminal]
    by_cases hparked : parked state = true
    · simp only [hparked, if_true]
      apply moves_before
      · exact platformDeferredResume_lands runtime v state
      · intro successors
        apply keeps_bind _ _ _ (keeps_evictDeferredIntents _)
        exact fun _ => keeps_pure _ _
    · simp only [hparked]
      cases hcrash : crashWindow s state with
      | none => exact harnessStep_lands runtime v s state answer
      | some found => exact deferStep_lands runtime v state found.1 found.2.1 found.2.2

theorem executeEvalRow_head (runtime : Runtime) (rowInput : EvalRowInput)
    (stageIndex : Option Nat) (executor : Except String (Option RowOutcome)) :
    Keeps Store.head (executeEvalRow runtime rowInput stageIndex executor) := by
  apply keeps_bind _ _ _ (keeps_read _)
  intro s
  split
  · exact keeps_pure _ _
  · apply keeps_bind _ _ _ (keeps_ofExcept _ _)
    intro _
    apply keeps_bind _ _ _ (keeps_ofExcept _ _)
    intro _
    apply keeps_bind _ _ _ (keeps_ofExcept _ _)
    intro outcome
    refine keeps_bind _ _ _ (keeps_update _ _ ?_) fun _ => keeps_pure _ _
    exact fun _ => rfl

/- The head has left the episode and the fan-in notices it. -/
def staleFanin (runtime : Runtime) (join : DeferralJoinInput) (head : Option OptimWorkState) :
    Bool :=
  match head with
  | some head => runtime.gepa && headIsLaterEpisode head join.workState.stepIndex
      join.deferralOptimStepStageIndex join.workState.stage
  | none => false

def Resumes (runtime : Runtime) (join : DeferralJoinInput) (v : Option OptimWorkState)
    (resumed : Resumed) : Prop :=
  match resumed with
  | some state => state.stage = join.workState.stage ∧ staleFanin runtime join v = false
  | none => staleFanin runtime join v = true

theorem finalizeGepa_resumes (runtime : Runtime) (join : DeferralJoinInput)
    (v : Option OptimWorkState) (hgepa : runtime.gepa = true) :
    Yields Store.head v (Resumes runtime join v)
      (finalizeGepa join.workState join.deferralOptimStepStageIndex) := by
  apply yields_read
  intro s hs
  subst hs
  cases hhead : s.head with
  | none =>
    simp only [Bool.false_eq_true, if_false]
    apply yields_after _ _ _ (keeps_evictDeferredIntents _)
    intro _
    exact yields_pure _ _ ⟨rfl, rfl⟩
  | some head =>
    cases hlater : headIsLaterEpisode head join.workState.stepIndex
        join.deferralOptimStepStageIndex join.workState.stage with
    | true =>
      simp only [hlater, if_true]
      apply yields_pure
      simp [Resumes, staleFanin, hgepa, hlater]
    | false =>
      have hfresh : staleFanin runtime join (some head) = false := by
        simp [staleFanin, hlater]
      simp only [hlater, Bool.false_eq_true, if_false]
      apply yields_after _ _ _ (keeps_evictDeferredIntents _)
      intro _
      split
      · exact yields_pure _ _ ⟨rfl, hfresh⟩
      · exact yields_pure _ _ ⟨rfl, hfresh⟩

theorem finalizeMerged_resumes (runtime : Runtime) (join : DeferralJoinInput)
    (v : Option OptimWorkState) (pending : OptimStepResult) (resolutions : List IntentResolution)
    (hgepa : runtime.gepa = false) :
    Yields Store.head v (Resumes runtime join v)
      (finalizeMerged join.workState pending resolutions) := by
  have hfresh : staleFanin runtime join v = false := by
    cases v <;> simp [staleFanin, hgepa]
  apply yields_after _ _ _ (keeps_evictDeferredIntents _)
  intro _
  apply yields_after _ _ _ (keeps_bindStepResult _ _)
  intro _
  exact yields_pure _ _ ⟨rfl, hfresh⟩

theorem finalizeDeferredStep_resumes (runtime : Runtime) (join : DeferralJoinInput)
    (v : Option OptimWorkState) (pending : OptimStepResult) (resolutions : List IntentResolution) :
    Yields Store.head v (Resumes runtime join v)
      (finalizeDeferredStep runtime join.workState pending resolutions
        join.deferralOptimStepStageIndex) := by
  apply yields_after _ _ _ (keeps_ofExcept _ _)
  intro _
  cases hgepa : runtime.gepa with
  | true =>
    simp only [if_true]
    exact finalizeGepa_resumes runtime join v hgepa
  | false =>
    simp only [Bool.false_eq_true, if_false]
    exact finalizeMerged_resumes runtime join v pending resolutions hgepa

theorem keeps_recordFanin (join : DeferralJoinInput) (resolutions : List IntentResolution) :
    Keeps Store.head (recordFanin join resolutions) := by
  apply keeps_bind _ _ _ (keeps_read _)
  intro s
  split
  · exact keeps_pure _ _
  · refine keeps_bind _ _ _ (keeps_update _ _ ?_) fun _ => keeps_pure _ _
    exact fun _ => rfl

theorem keeps_resolveEpisodeIntents (records : List RowRecord) (answer : FaninAnswer)
    (intents : List OptimEvalRequest) :
    Keeps Store.head (resolveEpisodeIntents records answer intents) := by
  induction intents with
  | nil => exact keeps_pure _ _
  | cons intent rest ih =>
    have hintent : Keeps Store.head (resolveEpisodeIntent records answer intent) := by
      apply keeps_bind _ _ _ (keeps_read _)
      intro s
      split
      · exact keeps_pure _ _
      · apply keeps_bind _ _ _ (keeps_ofExcept _ _)
        intro _
        apply keeps_bind _ _ _ (keeps_ofExcept _ _)
        intro resolution
        refine keeps_bind _ _ _ (keeps_update _ _ ?_) fun _ => keeps_pure _ _
        exact fun _ => rfl
    apply keeps_bind _ _ _ hintent
    intro resolution
    apply keeps_bind _ _ _ ih
    exact fun _ => keeps_pure _ _

/- A stale fan-in leaves the head; another takes it one stage beyond the barrier. -/
def FaninLands (runtime : Runtime) (join : DeferralJoinInput) (v head : Option OptimWorkState) :
    Prop :=
  if staleFanin runtime join v then head = v else LandsAt join.workState.stage (.ok 1) head

theorem completeFaninHandoff_lands (runtime : Runtime) (join : DeferralJoinInput)
    (v : Option OptimWorkState) (pending : OptimStepResult) (resolutions : List IntentResolution) :
    Moves Store.head v (FaninLands runtime join v)
      (completeFaninHandoff runtime join pending resolutions) := by
  apply moves_after _ _ (keeps_ofExcept _ _)
  intro _
  apply moves_after _ _ (keeps_recordFanin _ _)
  intro recorded
  apply moves_yields _ _ _ (finalizeDeferredStep_resumes runtime join v pending recorded)
  intro resumed hresumed
  cases resumed with
  | none =>
    have hstale : staleFanin runtime join v = true := hresumed
    apply moves_keeps _ (keeps_pure _ _)
    simp [FaninLands, hstale]
  | some state =>
    obtain ⟨hstage,hfresh⟩ := hresumed
    apply moves_before
    · apply moves_mono (LandsAt join.workState.stage (.ok 1))
      · apply persistWorkState_lands v _ _ 1 _ rfl
        change state.stage + 1 = join.workState.stage + 1
        rw [hstage]
      · intro head hlands
        rw [FaninLands, hfresh]
        exact hlands
    · exact fun _ => keeps_pure _ _

theorem executeEvalFanin_lands (runtime : Runtime) (join : DeferralJoinInput)
    (stageIndex : Option Nat) (answer : FaninAnswer) (v : Option OptimWorkState) :
    Moves Store.head v (FaninLands runtime join v)
      (executeEvalFanin runtime join stageIndex answer) := by
  apply moves_after _ _ (keeps_read _)
  intro s
  apply moves_after _ _ (keeps_ofExcept _ _)
  intro _
  apply moves_after _ _ (keeps_ofExcept _ _)
  intro _
  split
  · exact moves_raise _
  · rename_i pending _
    apply moves_after _ _ (keeps_ofExcept _ _)
    intro records
    apply moves_after _ _ (keeps_ofExcept _ _)
    intro _
    split
    · exact completeFaninHandoff_lands runtime join v pending _
    · apply moves_after _ _ (keeps_ofExcept _ _)
      intro _
      apply moves_after _ _ (keeps_ofExcept _ _)
      intro _
      apply moves_after _ _ (keeps_resolveEpisodeIntents _ _ _)
      exact fun resolutions => completeFaninHandoff_lands runtime join v pending resolutions

/- Where each kind of execution leaves the head when it returns. -/
def Landed (runtime : Runtime) (s : Store) (execution : Execution)
    (head : Option OptimWorkState) : Prop :=
  match execution with
  | .optimStep input _ answer => ∃ state, loadWorkState runtime s input = .ok state ∧
      LandsAt state.stage (stepAdvance runtime s state answer) head
  | .evalRow _ _ _ => head = s.head
  | .evalFanin join _ _ => FaninLands runtime join s.head head

/-- An execution that returns has landed; one that raises has landed or left the head. -/
theorem execute_landed (runtime : Runtime) (execution : Execution) (s : Store) :
    Landed runtime s execution (execute runtime execution s).2.head ∨
      (execute runtime execution s).2.head = s.head ∧
        ∃ message, (execute runtime execution s).1 = .error message := by
  cases execution with
  | optimStep input stageIndex answer =>
    exact optimStepFrom_lands runtime s s.head input stageIndex answer s rfl
  | evalRow input stageIndex executor =>
    exact .inl (executeEvalRow_head runtime input stageIndex executor s)
  | evalFanin join stageIndex answer =>
    exact executeEvalFanin_lands runtime join stageIndex answer s.head s rfl

theorem headAdvances_of_eq (s s' : Store) (h : s'.head = s.head) : HeadAdvances s s' := by
  intro head hhead
  exact ⟨head, h.trans hhead, Nat.le_refl _⟩

/-- Landing keeps the watermark exactly when the execution is current. -/
theorem headAdvances_iff_current (runtime : Runtime) (execution : Execution) (s s' : Store)
    (hlanded : Landed runtime s execution s'.head) :
    HeadAdvances s s' ↔ Current runtime s execution := by
  cases execution with
  | optimStep input stageIndex answer =>
    obtain ⟨state,hstate,next,n,hnext,hadvance,hstage⟩ := hlanded
    constructor
    · intro hadvances head state' n' hhead hstate' hadvance'
      rw [hstate, Except.ok.injEq] at hstate'
      subst hstate'
      rw [hadvance, Except.ok.injEq] at hadvance'
      subst hadvance'
      obtain ⟨next',hnext',hle⟩ := hadvances head hhead
      rw [hnext, Option.some.injEq] at hnext'
      subst hnext'
      omega
    · intro hcurrent head hhead
      have hle := hcurrent head state n hhead hstate hadvance
      exact ⟨next, hnext, by omega⟩
  | evalRow input stageIndex executor =>
    exact iff_of_true (headAdvances_of_eq s s' hlanded) trivial
  | evalFanin join stageIndex answer =>
    cases hhead : s.head with
    | none =>
      refine iff_of_true ?_ ?_
      · intro head h
        rw [hhead] at h
        cases h
      · intro head h
        rw [hhead] at h
        cases h
    | some old =>
      have hlands : FaninLands runtime join s.head s'.head := hlanded
      rw [hhead, FaninLands] at hlands
      cases hstale : staleFanin runtime join (some old) with
      | true =>
        rw [hstale, if_pos rfl] at hlands
        refine iff_of_true (headAdvances_of_eq s s' (hlands.trans hhead.symm)) ?_
        intro head h
        rw [hhead, Option.some.injEq] at h
        subst h
        simpa [staleFanin] using Or.inr hstale
      | false =>
        rw [hstale, if_neg (by decide)] at hlands
        obtain ⟨next,n,hnext,hone,hstage⟩ := hlands
        cases hone
        constructor
        · intro hadvances head h
          obtain ⟨next',hnext',hle⟩ := hadvances head h
          rw [hnext, Option.some.injEq] at hnext'
          subst hnext'
          exact .inl (by omega)
        · intro hcurrent head h
          refine ⟨next, hnext, ?_⟩
          rcases hcurrent head h with hle | hlater
          · omega
          · rw [hhead, Option.some.injEq] at h
            subst h
            rw [staleFanin, hlater.1, hlater.2] at hstale
            cases hstale

/-- One execution of a current input does not lower the head. -/
theorem execute_headAdvances (runtime : Runtime) (execution : Execution) (s : Store)
    (hcurrent : Current runtime s execution) :
    HeadAdvances s (execute runtime execution s).2 := by
  rcases execute_landed runtime execution s with hlanded | ⟨hkept,_⟩
  · exact (headAdvances_iff_current runtime execution s _ hlanded).mpr hcurrent
  · exact headAdvances_of_eq _ _ hkept

/- The execution returns a stage completion. -/
def Returns (runtime : Runtime) (s : Store) (execution : Execution) : Prop :=
  ∃ completion, (execute runtime execution s).1 = .ok completion

def AllSteps (runtime : Runtime) (member : Member) (executions : List Execution)
    (P : Store → Execution → Prop) : Prop :=
  ∀ before execution after, executions = before ++ execution :: after →
    P (run runtime member before).store execution

/-- Along a run of current executions the stage of the head never decreases, and a run whose
executions all return keeps the watermark only if they are all current. -/
theorem head_watermark_monotone_when_current (runtime : Runtime) (workInput : OptimWorkInput)
    (executions : List Execution) :
    (AllSteps runtime (launched workInput) executions (Current runtime) →
      HeadMonotone runtime (launched workInput) executions) ∧
    (AllSteps runtime (launched workInput) executions (Returns runtime) →
      HeadMonotone runtime (launched workInput) executions →
      AllSteps runtime (launched workInput) executions (Current runtime)) := by
  constructor
  · intro hcurrent before execution after hsplit
    exact execute_headAdvances runtime execution _ (hcurrent before execution after hsplit)
  · intro hreturns hmonotone before execution after hsplit
    obtain ⟨completion,hok⟩ := hreturns before execution after hsplit
    have hadvances := hmonotone before execution after hsplit
    rcases execute_landed runtime execution (run runtime (launched workInput) before).store with
      hlanded | ⟨_,message,herror⟩
    · exact (headAdvances_iff_current runtime execution _ _ hlanded).mp hadvances
    · rw [hok] at herror
      cases herror

section Replay

def replayRuntime : Runtime where
  runtimeHash := "controller"
  launchBound := true
  launchControlHash := "control"
  launchHasControl := true
  launchPoolsClaimStageIndex := false
  gepa := false
  taskIds := fun _ => .ok ["t1", "t2"]
  numSeeds := 1
  requestHash := fun stepIndex _ _ => .ok (toString stepIndex)

def replayInput (stageIndex : Nat) : OptimWorkInput :=
  ⟨"run", "controller", "control", .platform, stageIndex, "platform-run", "member"⟩

def replayIntent (requestId : String) : OptimEvalRequest := ⟨requestId, none⟩

def replayResult (stepIndex : Nat) (resolved : List IntentResolution) : OptimStepResult :=
  ⟨toString stepIndex, stepIndex, "proposal", resolved, .continue⟩

def replayResolution : IntentResolution := ⟨replayIntent "q0", .completed, ""⟩

def replayParked : OptimWorkState where
  workInput := replayInput 3
  pendingStepResultRef := some (replayResult 0 [])
  deferralOptimStepStageIndex := some 0
  pendingDeferredIntents := [replayIntent "q0"]

def replayRow (ordinal : Nat) (taskId : String) : EvalRowInput :=
  ⟨replayParked, 0, ordinal, replayIntent "q0", taskId, 0⟩

def replayJoin : DeferralJoinInput :=
  ⟨replayParked, 0, replayIntent "q0", [replayRow 0 "t1", replayRow 1 "t2"]⟩

def replayResumed : OptimWorkState where
  workInput := replayInput 4
  stepIndex := 1
  stepResultRefs := [replayResult 0 [replayResolution]]

def replayFanin : Execution :=
  .evalFanin replayJoin (some 3) ⟨none, fun intent => .ok ⟨intent, .completed, ""⟩⟩

/- Two steps that defer, with the fan-in of the first between them. -/
def replayRun : List Execution :=
  [.optimStep (.workInput (replayInput 0)) (some 0)
      (.steps "proposal" .continue [] [replayIntent "q0"]),
    .evalRow (replayRow 0 "t1") (some 1) (.ok (some (.evidence "e1"))),
    .evalRow (replayRow 1 "t2") (some 2) (.ok (some (.evidence "e2"))),
    replayFanin,
    .optimStep (.workState replayResumed) (some 4)
      (.steps "proposal" .continue [] [replayIntent "q1"])]

def headStage (member : Member) : Option Nat := member.store.head.map OptimWorkState.stage

/-- The fan-in of a finished episode, executed again while the next episode is parked, takes
the head from stage 7 back to stage 4. -/
theorem replayed_fanin_lowers_head :
    admissible replayRuntime (launched (replayInput 0)) (replayRun ++ [replayFanin]) = true ∧
      headStage (run replayRuntime (launched (replayInput 0)) replayRun) = some 7 ∧
      headStage (run replayRuntime (launched (replayInput 0)) (replayRun ++ [replayFanin])) =
        some 4 ∧
      ¬ HeadMonotone replayRuntime (launched (replayInput 0)) (replayRun ++ [replayFanin]) := by
  have hbefore : headStage (run replayRuntime (launched (replayInput 0)) replayRun) = some 7 := by
    decide +kernel
  have hafter : headStage (step replayRuntime
      (run replayRuntime (launched (replayInput 0)) replayRun) replayFanin) = some 4 := by
    decide +kernel
  refine ⟨by decide +kernel, hbefore, by decide +kernel, ?_⟩
  intro hmonotone
  have hadvances := hmonotone replayRun replayFanin [] rfl
  obtain ⟨head,hhead,hstage⟩ := Option.map_eq_some_iff.mp hbefore
  obtain ⟨next,hnext,hle⟩ := hadvances head hhead
  rw [headStage, hnext, Option.map_some, Option.some.injEq] at hafter
  omega

end Replay
end Whetstone.Platform
