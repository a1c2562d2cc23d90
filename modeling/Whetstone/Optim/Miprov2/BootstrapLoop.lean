import Whetstone.Lib.NestedLoop
import Whetstone.Optim.Miprov2.BootstrapReplay

/-! The nested loop that the resumable bootstrap compiler unrolls: for each task, while too few
were accepted, for each round until one is. -/
namespace Whetstone.Optim.Miprov2
open Whetstone.Core Whetstone.Lib

/-! ### The loop -/

structure LoopState where
  accepted : List (Nat × Nat)
  errors : Nat

inductive LoopStop where
  | errorLimit (state : LoopState)
  | collision (task round : Nat)

section Loop

variable {F : Type} [FiniteFloats F]

/- The result of each attempt, by its task and its round. -/
abbrev ResultsOf (F : Type) [FiniteFloats F] : Type := Nat → Nat → BootstrapGenerationResult F

def collidesIn (componentIds : List String) (result : BootstrapGenerationResult F) : Bool :=
  componentIds.any fun componentId => collides (stepsOf componentId result.traceSteps)

def bootstrapTurn (plan : FewshotCandidatePlan F) (results : ResultsOf F) (i r : Nat)
    (s : LoopState) : Turn LoopState LoopStop :=
  match (results i r).error with
  | some _ =>
    let failed : LoopState := { s with errors := s.errors + 1 }
    if plan.maxErrors ≤ failed.errors then .stop (.errorLimit failed) else .again failed
  | none =>
    if accepts plan.metricThreshold (results i r).toResultFields then
      if collidesIn plan.componentIds (results i r) then .stop (.collision i r)
      else .leave { s with accepted := s.accepted ++ [(i, r)] }
    else .again s

theorem bootstrapTurn_again {plan : FewshotCandidatePlan F} {results : ResultsOf F} {i r : Nat}
    {s s' : LoopState} (h : bootstrapTurn plan results i r s = .again s') :
    s'.accepted = s.accepted := by
  unfold bootstrapTurn at h
  split at h
  · simp only at h
    split at h
    · cases h
    · cases h
      rfl
  · split at h
    · split at h <;> cases h
    · cases h
      rfl

def bootstrapLoop (plan : FewshotCandidatePlan F) (results : ResultsOf F) :
    NestedLoop LoopState LoopStop where
  items := plan.trainsetTaskHashes.length
  rounds := plan.maxRounds.toNat
  rounds_pos := Int.lt_toNat.mpr plan.maxRounds_pos
  enough := fun s => plan.maxBootstrappedDemos ≤ s.accepted.length
  turn := bootstrapTurn plan results
  again_enough := fun _ _ _ _ h => by rw [bootstrapTurn_again h]

/- The steps that the accepted attempts show for a component. -/
def shownSteps [TraceChoice] (results : ResultsOf F) (componentId : String)
    (accepted : List (Nat × Nat)) : List ((Nat × Nat) × ObservedTraceStep) :=
  accepted.filterMap fun turn =>
    (chosenStep (stepsOf componentId (results turn.1 turn.2).traceSteps)).map fun step =>
      (turn, step)

theorem shownSteps_append [TraceChoice] (results : ResultsOf F) (componentId : String)
    (accepted : List (Nat × Nat)) (i r : Nat) :
    shownSteps results componentId (accepted ++ [(i, r)]) =
      shownSteps results componentId accepted ++
        ((chosenStep (stepsOf componentId (results i r).traceSteps)).map fun step =>
          ((i, r), step)).toList := by
  rw [shownSteps, List.filterMap_append]
  congr 1

theorem shownSteps_sublist [TraceChoice] (results : ResultsOf F) (componentId : String)
    (accepted : List (Nat × Nat)) :
    ((shownSteps results componentId accepted).map fun entry => entry.1.1).Sublist
      (accepted.map Prod.fst) := by
  induction accepted with
  | nil => exact List.Sublist.refl _
  | cons turn rest ih =>
    rw [shownSteps, List.filterMap_cons]
    cases chosenStep (stepsOf componentId (results turn.1 turn.2).traceSteps) with
    | none => exact ih.cons _
    | some step => exact ih.cons_cons _

/-! ### The bounds of the loop -/

/-- The tasks are accepted in order, and no more of them than the plan takes. -/
structure LoopState.Ordered (plan : FewshotCandidatePlan F) (s : LoopState) : Prop where
  few : (s.accepted.length : Int) ≤ plan.maxBootstrappedDemos
  ordered : (s.accepted.map Prod.fst).Pairwise (· < ·)

structure Bounded (plan : FewshotCandidatePlan F) (c : NestedLoop.Cursor LoopState) : Prop
    extends c.state.Ordered plan where
  errors : (c.state.errors : Int) < plan.maxErrors
  before : ∀ turn ∈ c.state.accepted, turn.1 < c.item

variable {plan : FewshotCandidatePlan F} {results : ResultsOf F}
variable {c : NestedLoop.Cursor LoopState}

/- What a turn keeps of the bounds. -/
def KeepsBounds (plan : FewshotCandidatePlan F) (results : ResultsOf F)
    (c : NestedLoop.Cursor LoopState) : Turn LoopState LoopStop → Prop
  | .leave s => Bounded plan ((bootstrapLoop plan results).advance c s true)
  | .again s => Bounded plan ((bootstrapLoop plan results).advance c s false)
  | .stop (.errorLimit s) => s.Ordered plan ∧ (s.errors : Int) = plan.maxErrors
  | .stop (.collision _ _) => True

theorem advance_item (s : LoopState) (success : Bool) :
    c.item ≤ ((bootstrapLoop plan results).advance c s success).item := by
  unfold NestedLoop.advance
  split
  · exact Nat.le_succ c.item
  · exact Nat.le_refl c.item

/- A turn that accepts nothing. -/
theorem Bounded.again (h : Bounded plan c) {s : LoopState} (hsame : s.accepted = c.state.accepted)
    (herrors : (s.errors : Int) < plan.maxErrors) :
    Bounded plan ((bootstrapLoop plan results).advance c s false) := by
  have hstate : ((bootstrapLoop plan results).advance c s false).state = s := by
    unfold NestedLoop.advance
    split <;> rfl
  refine ⟨⟨?_, ?_⟩, ?_, fun turn hmem => ?_⟩
  · rw [hstate, hsame]
    exact h.few
  · rw [hstate, hsame]
    exact h.ordered
  · rw [hstate]
    exact herrors
  · rw [hstate, hsame] at hmem
    exact Nat.lt_of_lt_of_le (h.before turn hmem) (advance_item s false)

/-- The bounds hold of the state that the next turn finds. -/
theorem Bounded.turn (h : Bounded plan c)
    (hopen : (bootstrapLoop plan results).finished c = false) :
    KeepsBounds plan results c (bootstrapTurn plan results c.item c.round c.state) := by
  have herrors := h.errors
  have hfew : c.state.accepted.length < plan.maxBootstrappedDemos ∧
      c.item < plan.trainsetTaskHashes.length := by
    simpa [← Bool.not_eq_true, NestedLoop.finished_iff, bootstrapLoop] using hopen
  unfold bootstrapTurn
  cases (results c.item c.round).error with
  | some error =>
    by_cases hlimit : plan.maxErrors ≤ ((c.state.errors + 1 : Nat) : Int)
    · simp only [hlimit, if_true]
      refine ⟨⟨h.few, h.ordered⟩, ?_⟩
      change ((c.state.errors + 1 : Nat) : Int) = plan.maxErrors
      omega
    · simp only [hlimit, if_false]
      refine h.again rfl ?_
      change ((c.state.errors + 1 : Nat) : Int) < plan.maxErrors
      omega
  | none =>
    cases accepts plan.metricThreshold (results c.item c.round).toResultFields with
    | false => exact h.again rfl herrors
    | true =>
      cases collidesIn plan.componentIds (results c.item c.round) with
      | true => exact trivial
      | false =>
        refine ⟨⟨?_, ?_⟩, herrors, fun turn hmem => ?_⟩
        · change ((c.state.accepted ++ [(c.item, c.round)]).length : Int) ≤ _
          rw [List.length_append, List.length_singleton]
          omega
        · change ((c.state.accepted ++ [(c.item, c.round)]).map Prod.fst).Pairwise (· < ·)
          rw [List.map_append, List.pairwise_append]
          refine ⟨h.ordered, List.pairwise_singleton _ _, fun earlier hmem later hlater => ?_⟩
          obtain ⟨turn,hturn,rfl⟩ := List.mem_map.mp hmem
          rw [List.mem_singleton.mp hlater]
          exact h.before turn hturn
        · rcases List.mem_append.mp hmem with hold | hnew
          · exact Nat.lt_succ_of_lt (h.before turn hold)
          · rw [List.mem_singleton.mp hnew]
            exact Nat.lt_succ_self c.item

end Loop

/-! ### The compiler -/

section Compile

variable {F : Type} [FiniteFloats F] [FloatJson F] [IdentityHasher] [TraceChoice]

inductive RunEnd (F : Type) [FiniteFloats F] [FloatJson F] [IdentityHasher] where
  | finished (state : BootstrapCompilerState F)
  | errorLimit (state : BootstrapCompilerState F)
  | raised (message : String)
  | unfinished

structure CompilerRun (F : Type) [FiniteFloats F] [FloatJson F] [IdentityHasher] where
  attempts : List (BootstrapAttemptPlan F)
  states : List (BootstrapCompilerState F)
  ending : RunEnd F

def CompilerRun.after (attempt : BootstrapAttemptPlan F) (state : BootstrapCompilerState F)
    (rest : CompilerRun F) : CompilerRun F :=
  ⟨attempt :: rest.attempts, state :: rest.states, rest.ending⟩

/- Takes the next attempt and folds its result, again and again. -/
def compile (plan : FewshotCandidatePlan F) (results : ResultsOf F) :
    Nat → BootstrapCompilerState F → CompilerRun F
  | 0, state => ⟨[], [state], .unfinished⟩
  | fuel + 1, state => match nextBootstrapAttempt plan state with
    | .error (.value message) => ⟨[], [state], .raised message⟩
    | .error (.errorLimitReached _ _ _) => ⟨[], [state], .errorLimit state⟩
    | .ok none => ⟨[], [state], .finished state⟩
    | .ok (some attempt) =>
      match foldBootstrapResult plan state attempt (results attempt.taskIndex attempt.roundIndex)
          plan.metricThreshold plan.componentIds with
      | .error message => ⟨[attempt], [state], .raised message⟩
      | .ok next => (compile plan results fuel next).after attempt state

theorem nextBootstrapAttempt_running [LawfulEq F] {plan : FewshotCandidatePlan F}
    {state : BootstrapCompilerState F} (hkind : plan.kind = .bootstrap) (h : Replayed plan state)
    (hrunning : state.terminalFailure = none) : nextBootstrapAttempt plan state =
      (nextBootstrapAttemptUnchecked plan state).mapError .value := by
  rw [nextBootstrapAttempt, h.valid hkind, hrunning]
  rfl

theorem nextBootstrapAttempt_failed [LawfulEq F] {plan : FewshotCandidatePlan F}
    {state : BootstrapCompilerState F} (hkind : plan.kind = .bootstrap) (h : Replayed plan state)
    {failure : BootstrapTerminalFailure} (hfailed : state.terminalFailure = some failure) :
    nextBootstrapAttempt plan state =
      .error (.errorLimitReached failure.errorCount failure.maxErrors failure.error) := by
  rw [nextBootstrapAttempt, h.valid hkind, hfailed]
  rfl

variable {plan : FewshotCandidatePlan F} {results : ResultsOf F}
variable {state next : BootstrapCompilerState F} {attempt : BootstrapAttemptPlan F}

theorem compile_finished (fuel : Nat) (h : nextBootstrapAttempt plan state = .ok none) :
    compile plan results (fuel + 1) state = ⟨[], [state], .finished state⟩ := by
  rw [compile, h]

theorem compile_failed [LawfulEq F] (fuel : Nat) (hkind : plan.kind = .bootstrap)
    (h : Replayed plan state) {failure : BootstrapTerminalFailure}
    (hfailed : state.terminalFailure = some failure) :
    compile plan results (fuel + 1) state = ⟨[], [state], .errorLimit state⟩ := by
  rw [compile, nextBootstrapAttempt_failed hkind h hfailed]

theorem compile_raised (fuel : Nat) (h : nextBootstrapAttempt plan state = .ok (some attempt))
    {message : String} (hfold : foldBootstrapResult plan state attempt
      (results attempt.taskIndex attempt.roundIndex) plan.metricThreshold plan.componentIds =
        .error message) :
    compile plan results (fuel + 1) state = ⟨[attempt], [state], .raised message⟩ := by
  rw [compile, h]
  simp only [hfold]

theorem compile_folded (fuel : Nat) (h : nextBootstrapAttempt plan state = .ok (some attempt))
    (hfold : foldBootstrapResult plan state attempt
      (results attempt.taskIndex attempt.roundIndex) plan.metricThreshold plan.componentIds =
        .ok next) :
    compile plan results (fuel + 1) state =
      (compile plan results fuel next).after attempt state := by
  rw [compile, h]
  simp only [hfold]

end Compile

/-! ### States that agree with the loop -/

section Agree

variable {F : Type} [FiniteFloats F] [FloatJson F] [IdentityHasher] [FullHashes] [LawfulEq F]

/- Every result is that of its attempt. -/
def Answers (plan : FewshotCandidatePlan F) (results : ResultsOf F) : Prop :=
  ∀ (i r : Nat) taskHash (h : plan.trainsetTaskHashes[i]? = some taskHash),
    (results i r).attemptIdentityHash = (attemptAt plan h r).identityHash

/-- A demonstration is the one that an accepted attempt gives of a step. -/
def MadeOf (plan : FewshotCandidatePlan F) (results : ResultsOf F) (componentId : String)
    (demo : ComponentDemo F) (shown : (Nat × Nat) × ObservedTraceStep) : Prop :=
  ∃ taskHash, ∃ h : plan.trainsetTaskHashes[shown.1.1]? = some taskHash,
    ∃ acceptance : BootstrapAcceptance F,
      acceptanceFor (attemptAt plan h shown.1.2) (results shown.1.1 shown.1.2).toResultFields
        plan.metricThreshold = .ok acceptance ∧
      bootstrappedDemo ⟨attemptAt plan h shown.1.2, results shown.1.1 shown.1.2, some acceptance⟩
        acceptance componentId shown.2 = .ok demo

variable [TraceChoice]

/-- The state has accepted what the loop has, and shows its steps. -/
structure Agrees (plan : FewshotCandidatePlan F) (results : ResultsOf F)
    (state : BootstrapCompilerState F) (s : LoopState) : Prop where
  replayed : Replayed plan state
  errors : state.errorCount = s.errors
  accepted : state.bootstrappedTaskIndices = s.accepted.map Prod.fst
  demos : ∀ componentId ∈ plan.componentIds,
    List.Forall₂ (MadeOf plan results componentId)
      ((state.augmentedDemos.get? componentId).getD [])
      (shownSteps results componentId s.accepted)

/-- It has not failed, and its cursors are those of the loop. -/
structure Follows (plan : FewshotCandidatePlan F) (results : ResultsOf F)
    (state : BootstrapCompilerState F) (c : NestedLoop.Cursor LoopState) : Prop
    extends Agrees plan results state c.state where
  running : state.terminalFailure = none
  task : state.taskCursor = c.item
  round : state.roundCursor = c.round

variable {plan : FewshotCandidatePlan F} {results : ResultsOf F}
variable {state : BootstrapCompilerState F} {c : NestedLoop.Cursor LoopState}

theorem follows_initial : Follows plan results (emptyCompilerState plan) ⟨0, 0, ⟨[], 0⟩⟩ where
  replayed := replayed_empty
  errors := rfl
  accepted := rfl
  demos := fun componentId hknown => by
    rw [emptyCompilerState, noDemos_get?, if_pos hknown]
    exact .nil
  running := rfl
  task := rfl
  round := rfl

/-- The compiler is done where the loop is. -/
theorem Follows.done (h : Follows plan results state c) (hkind : plan.kind = .bootstrap)
    (hdone : (bootstrapLoop plan results).finished c = true) :
    nextBootstrapAttempt plan state = .ok none := by
  rw [nextBootstrapAttempt_running hkind h.replayed h.running, next_none]
  · rfl
  · rw [h.accepted, List.length_map, h.task]
    simpa [NestedLoop.finished_iff, bootstrapLoop] using hdone

/-- Elsewhere its next attempt is the turn of the loop. -/
theorem Follows.next (h : Follows plan results state c)
    (hopen : (bootstrapLoop plan results).finished c = false) :
    ∃ taskHash, ∃ htask : plan.trainsetTaskHashes[c.item]? = some taskHash,
      nextBootstrapAttemptUnchecked plan state = .ok (some (attemptAt plan htask c.round)) := by
  have hboth : c.state.accepted.length < plan.maxBootstrappedDemos ∧
      c.item < plan.trainsetTaskHashes.length := by
    simpa [← Bool.not_eq_true, NestedLoop.finished_iff, bootstrapLoop] using hopen
  refine ⟨_, List.getElem?_eq_getElem hboth.2, ?_⟩
  refine next_some h.replayed.plan_hash h.task h.round _ ?_
  rw [h.accepted, List.length_map]
  exact hboth.1

/-! ### One turn -/

/-- A cursor that advances with the state. -/
theorem follows_advanced {attempted : BootstrapCompilerState F} {success : Bool} {s : LoopState}
    (hreplayed : Replayed plan (advanceState plan attempted success))
    (herrors : attempted.errorCount = s.errors)
    (haccepted : attempted.bootstrappedTaskIndices = s.accepted.map Prod.fst)
    (hdemos : ∀ componentId ∈ plan.componentIds,
      List.Forall₂ (MadeOf plan results componentId)
        ((attempted.augmentedDemos.get? componentId).getD [])
        (shownSteps results componentId s.accepted))
    (hrunning : attempted.terminalFailure = none) (htask : attempted.taskCursor = c.item)
    (hround : attempted.roundCursor = c.round) :
    Follows plan results (advanceState plan attempted success)
      ((bootstrapLoop plan results).advance c s success) := by
  have hrounds := plan.maxRounds_pos
  have hlast : plan.maxRounds ≤ attempted.roundCursor + 1 ↔
      (bootstrapLoop plan results).rounds ≤ c.round + 1 := by
    rw [hround]
    change _ ↔ plan.maxRounds.toNat ≤ c.round + 1
    omega
  unfold advanceState NestedLoop.advance at *
  by_cases hleave : success = true ∨ plan.maxRounds ≤ attempted.roundCursor + 1
  · rw [if_pos hleave] at hreplayed ⊢
    rw [if_pos (hleave.imp_right hlast.mp)]
    exact
      { replayed := hreplayed, errors := herrors, accepted := haccepted, demos := hdemos
        running := hrunning, task := congrArg (· + 1) htask, round := rfl }
  · rw [if_neg hleave] at hreplayed ⊢
    rw [if_neg fun h => hleave (h.imp_right hlast.mpr)]
    exact
      { replayed := hreplayed, errors := herrors, accepted := haccepted, demos := hdemos
        running := hrunning, task := htask, round := congrArg (· + 1) hround }

/- The state after an accepted attempt. -/
def acceptedState (state : BootstrapCompilerState F) (event : BootstrapFoldEvidence F)
    (augmented : Dict String (List (ComponentDemo F))) : BootstrapCompilerState F :=
  { state with
    attemptCount := state.attemptCount + 1
    bootstrappedTaskIndices := state.bootstrappedTaskIndices ++ [event.attempt.taskIndex]
    augmentedDemos := augmented, evidence := state.evidence ++ [event] }

/- What the fold of a result is to be, by what the turn of the loop does. -/
def FoldsTo (plan : FewshotCandidatePlan F) (results : ResultsOf F)
    (c : NestedLoop.Cursor LoopState) (folded : Except String (BootstrapCompilerState F)) :
    Turn LoopState LoopStop → Prop
  | .leave s => ∃ next, folded = .ok next ∧
      Follows plan results next ((bootstrapLoop plan results).advance c s true)
  | .again s => ∃ next, folded = .ok next ∧
      Follows plan results next ((bootstrapLoop plan results).advance c s false)
  | .stop (.errorLimit s) => ∃ next, folded = .ok next ∧ Agrees plan results next s ∧
      next.terminalFailure.isSome
  | .stop (.collision _ _) => ∃ message, folded = .error message

/-- The demonstrations of an accepted result are those of the steps that the loop shows. -/
theorem accepted_demos {acceptance : BootstrapAcceptance F} {taskHash : String}
    (htask : plan.trainsetTaskHashes[c.item]? = some taskHash)
    (hacceptance : acceptanceFor (attemptAt plan htask c.round)
      (results c.item c.round).toResultFields plan.metricThreshold = .ok acceptance)
    {augmented next : Dict String (List (ComponentDemo F))} {accepted : List (Nat × Nat)}
    (hadded : addDemos ⟨attemptAt plan htask c.round, results c.item c.round, some acceptance⟩
      acceptance (groupSteps plan.componentIds (results c.item c.round).traceSteps
        Dict.empty).pairs augmented = .ok next)
    {componentId : String} (hknown : componentId ∈ plan.componentIds)
    (hdemos : List.Forall₂ (MadeOf plan results componentId)
      ((augmented.get? componentId).getD []) (shownSteps results componentId accepted)) :
    List.Forall₂ (MadeOf plan results componentId) ((next.get? componentId).getD [])
      (shownSteps results componentId (accepted ++ [(c.item, c.round)])) := by
  obtain ⟨hmade,hkept⟩ := addGroups_get? hadded componentId
  rw [shownSteps_append]
  by_cases hsteps : stepsOf componentId (results c.item c.round).traceSteps = []
  · rw [hkept (.inr hsteps), hsteps]
    simpa [chosenStep] using hdemos
  · obtain ⟨demo,hdemo,hnext⟩ := hmade hknown hsteps
    obtain ⟨chosen,hchosen,hbuilt⟩ := (bind_eq_ok _ _ _).mp hdemo
    have hclear : collides (stepsOf componentId (results c.item c.round).traceSteps) = false :=
      Bool.eq_false_iff.mpr fun hcollides => chooseTraceStep_not_ok hcollides chosen hchosen
    obtain ⟨first,_,hfirst,hshown⟩ := chooseTraceStep_ok hsteps hclear
    cases hchosen.symm.trans hfirst
    rw [hnext, hshown]
    exact List.rel_append hdemos
      (.cons ⟨taskHash, htask, acceptance, hacceptance, hbuilt⟩ .nil)

/-- The fold of the result of a turn does what the turn does. -/
theorem Follows.turn (h : Follows plan results state c) (hkind : plan.kind = .bootstrap)
    (hanswers : Answers plan results) {taskHash : String}
    (htask : plan.trainsetTaskHashes[c.item]? = some taskHash)
    (hnext : nextBootstrapAttemptUnchecked plan state = .ok (some (attemptAt plan htask c.round))) :
    FoldsTo plan results c
      (foldBootstrapResult plan state (attemptAt plan htask c.round) (results c.item c.round)
        plan.metricThreshold plan.componentIds)
      (bootstrapTurn plan results c.item c.round c.state) := by
  obtain ⟨event,hattempt,hresult,haccepted,happlied,hrefused⟩ := fold_step hkind h.replayed
    h.running hnext (attemptAt_self plan htask c.round) (hanswers _ c.round _ htask)
  unfold bootstrapTurn
  cases herror : (results c.item c.round).error with
  | some error =>
    have happly : applyBootstrapEventUnchecked plan state event =
        applyError plan state event error := by
      rw [applyBootstrapEventUnchecked, hresult, herror]
    by_cases hlimit : plan.maxErrors ≤ ((c.state.errors + 1 : Nat) : Int)
    · simp only [hlimit, if_true]
      rw [← h.errors] at hlimit
      obtain ⟨failure,hfailed⟩ := applyError_limit hlimit (hresult ▸ herror)
      obtain ⟨hreplayed,hfold⟩ := happlied _ (happly.trans hfailed)
      exact ⟨_, hfold, { replayed := hreplayed, errors := congrArg (· + 1) h.errors
                         accepted := h.accepted, demos := h.demos }, rfl⟩
    · simp only [hlimit, if_false]
      rw [← h.errors] at hlimit
      obtain ⟨hreplayed,hfold⟩ := happlied _ (happly.trans (applyError_below hlimit event error))
      exact ⟨_, hfold, follows_advanced hreplayed (congrArg (· + 1) h.errors) h.accepted h.demos
        h.running h.task h.round⟩
  | none =>
    obtain ⟨acceptance,hacceptance,hverdict,hmade⟩ := haccepted herror
    have hevent : event.toEvidenceFields =
        ⟨attemptAt plan htask c.round, results c.item c.round, some acceptance⟩ := by
      rw [← hattempt, ← hresult, ← hacceptance]
    cases hok : accepts plan.metricThreshold (results c.item c.round).toResultFields with
    | false =>
      have happly : applyBootstrapEventUnchecked plan state event =
          .ok (applyRejection plan state event) := by
        rw [applyBootstrapEventUnchecked, hresult, herror, hacceptance]
        simp [hverdict, hok]
      obtain ⟨hreplayed,hfold⟩ := happlied _ happly
      exact ⟨_, hfold, follows_advanced hreplayed h.errors h.accepted h.demos h.running h.task
        h.round⟩
    | true =>
      have happly : applyBootstrapEventUnchecked plan state event =
          applyAcceptance plan state event acceptance := by
        rw [applyBootstrapEventUnchecked, hresult, herror, hacceptance]
        simp [hverdict, hok]
      cases hcollides : collidesIn plan.componentIds (results c.item c.round) with
      | true =>
        obtain ⟨componentId,hknown,hcollides⟩ := List.any_eq_true.mp hcollides
        have hstuck := addGroups_not_ok event.toEvidenceFields acceptance hknown hcollides
          state.augmentedDemos
        cases hadded : addDemos event.toEvidenceFields acceptance
            (groupSteps plan.componentIds event.result.traceSteps Dict.empty).pairs
            state.augmentedDemos with
        | ok augmented =>
          rw [hresult] at hadded
          exact absurd hadded (hstuck augmented)
        | error message =>
          refine ⟨message, hrefused message ?_⟩
          rw [happly, applyAcceptance, hadded]
          rfl
      | false =>
        have hclear : ∀ componentId ∈ plan.componentIds,
            collides (stepsOf componentId (results c.item c.round).traceSteps) = false := by
          simpa [collidesIn] using hcollides
        obtain ⟨augmented,hadded⟩ :=
          addGroups_ok event.toEvidenceFields acceptance hclear state.augmentedDemos
        have hdone : applyAcceptance plan state event acceptance = .ok (advanceState plan
            (acceptedState state event augmented) true) := by
          rw [applyAcceptance, hresult, hadded]
          rfl
        obtain ⟨hreplayed,hfold⟩ := happlied _ (happly.trans hdone)
        rw [hevent] at hadded
        have haccepted : (acceptedState state event augmented).bootstrappedTaskIndices =
            (c.state.accepted ++ [(c.item, c.round)]).map Prod.fst := by
          rw [List.map_append, ← h.accepted, acceptedState, hattempt]
          rfl
        exact ⟨_, hfold, follows_advanced hreplayed h.errors haccepted
          (fun componentId hknown => accepted_demos htask hmade hadded hknown
            (h.demos componentId hknown)) h.running h.task h.round⟩

/-! ### The whole run -/

/-- A state that a run passes. -/
def Reached (plan : FewshotCandidatePlan F) (results : ResultsOf F)
    (state : BootstrapCompilerState F) : Prop :=
  ∃ s : LoopState, Agrees plan results state s ∧ s.Ordered plan

/- The run ends as the loop does: with what it has accepted, or at the last error that the plan
   allows. A collision raises. -/
def EndsAs (plan : FewshotCandidatePlan F) (results : ResultsOf F) :
    RunEnd F → Except LoopStop LoopState → Prop
  | .finished state, .ok s => Agrees plan results state s
  | .errorLimit state, .error (.errorLimit s) =>
    Agrees plan results state s ∧ (state.errorCount : Int) = plan.maxErrors
  | .raised _, .error (.collision _ _) => True
  | _, _ => False

def position (attempt : BootstrapAttemptPlan F) : Nat × Nat :=
  (attempt.taskIndex, attempt.roundIndex)

/-- From a state that follows the loop on, the run takes the turns of the loop and ends as it. -/
theorem compile_run (hkind : plan.kind = .bootstrap) (hanswers : Answers plan results) {fuel : Nat}
    (hfollows : Follows plan results state c) (hbounded : Bounded plan c)
    {turns : List (Nat × Nat)} {ending : Except LoopStop LoopState}
    (hrun : (bootstrapLoop plan results).run fuel c = (turns, some ending)) :
    (compile plan results (fuel + 1) state).attempts.map position = turns ∧
      (∀ passed ∈ (compile plan results (fuel + 1) state).states, Reached plan results passed) ∧
      EndsAs plan results (compile plan results (fuel + 1) state).ending ending := by
  induction fuel generalizing state c turns ending with
  | zero => cases hrun
  | succ fuel ih =>
    have hreached : Reached plan results state :=
      ⟨c.state, hfollows.toAgrees, hbounded.toOrdered⟩
    rw [NestedLoop.run] at hrun
    by_cases hdone : (bootstrapLoop plan results).finished c = true
    · rw [if_pos hdone] at hrun
      cases hrun
      rw [compile_finished _ (hfollows.done hkind hdone)]
      exact ⟨rfl, by simpa using hreached, hfollows.toAgrees⟩
    · rw [if_neg hdone] at hrun
      have hopen := Bool.eq_false_iff.mpr hdone
      obtain ⟨taskHash,htask,hunchecked⟩ := hfollows.next hopen
      have hnext : nextBootstrapAttempt plan state = .ok (some (attemptAt plan htask c.round)) := by
        rw [nextBootstrapAttempt_running hkind hfollows.replayed hfollows.running, hunchecked]
        rfl
      have hfolds := hfollows.turn hkind hanswers htask hunchecked
      have hkeeps := hbounded.turn hopen
      -- the turns after this one are those of the run from the next state on
      have hlater : ∀ next c', foldBootstrapResult plan state (attemptAt plan htask c.round)
          (results c.item c.round) plan.metricThreshold plan.componentIds = .ok next →
          Follows plan results next c' → Bounded plan c' →
          ((c.item, c.round) :: ((bootstrapLoop plan results).run fuel c').1,
            ((bootstrapLoop plan results).run fuel c').2) = (turns, some ending) →
          (compile plan results (fuel + 2) state).attempts.map position = turns ∧
            (∀ passed ∈ (compile plan results (fuel + 2) state).states,
              Reached plan results passed) ∧
            EndsAs plan results (compile plan results (fuel + 2) state).ending ending := by
        intro next c' hfold hfollows' hbounded' hrest
        obtain ⟨rfl,hending⟩ := Prod.mk.inj hrest
        obtain ⟨hturns,hstates,hends⟩ := ih hfollows' hbounded' (Prod.ext rfl hending)
        rw [compile_folded _ hnext hfold]
        exact ⟨congrArg (List.cons (c.item, c.round)) hturns,
          List.forall_mem_cons.mpr ⟨hreached, hstates⟩, hends⟩
      have hturn : (bootstrapLoop plan results).turn c.item c.round c.state =
        bootstrapTurn plan results c.item c.round c.state := rfl
      rw [hturn] at hrun
      cases htaken : bootstrapTurn plan results c.item c.round c.state with
      | leave s =>
        rw [htaken] at hrun hfolds hkeeps
        obtain ⟨next,hfold,hfollows'⟩ := hfolds
        exact hlater next _ hfold hfollows' hkeeps hrun
      | again s =>
        rw [htaken] at hrun hfolds hkeeps
        obtain ⟨next,hfold,hfollows'⟩ := hfolds
        exact hlater next _ hfold hfollows' hkeeps hrun
      | stop reason =>
        rw [htaken] at hrun hfolds hkeeps
        cases hrun
        cases reason with
        | errorLimit s =>
          obtain ⟨next,hfold,hagrees,hfailed⟩ := hfolds
          obtain ⟨failure,hfailure⟩ := Option.isSome_iff_exists.mp hfailed
          rw [compile_folded _ hnext hfold, compile_failed _ hkind hagrees.replayed hfailure]
          refine ⟨rfl, ?_, hagrees, ?_⟩
          · exact List.forall_mem_cons.mpr
              ⟨hreached, List.forall_mem_singleton.mpr ⟨s, hagrees, hkeeps.1⟩⟩
          · rw [hagrees.errors]
            exact hkeeps.2
        | collision i r =>
          obtain ⟨message,hfold⟩ := hfolds
          rw [compile_raised _ hnext hfold]
          exact ⟨rfl, List.forall_mem_singleton.mpr hreached, trivial⟩

end Agree

end Whetstone.Optim.Miprov2
