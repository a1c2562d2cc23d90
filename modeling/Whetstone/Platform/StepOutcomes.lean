import Whetstone.Platform.FaninHandoff

/-! What one execution of the optimizer step of an open work state can do: it leaves the
head, advances it past a bound result, or parks it on an episode. -/
namespace Whetstone.Platform
open Whetstone.Lib Whetstone.Lib.Act

variable {runtime : Runtime} {state : OptimWorkState} {s s' : Store}
  {r : Except String StageCompletion}

/- The results of a work state are those of its earlier positions, in order. -/
def Numbered (state : OptimWorkState) : Prop :=
  state.stepResultRefs.map OptimStepResult.stepIndex = List.range state.stepIndex

/- A work state that no episode waits on. -/
structure Open (state : OptimWorkState) : Prop where
  pending : state.pendingStepResultRef = none
  origin : state.deferralOptimStepStageIndex = none
  intents : state.pendingDeferredIntents = []
  numbered : Numbered state

/- No bound step result waits for persisted intents. -/
def Quiet (mode : EvalDispatchMode) (s : Store) : Prop :=
  ∀ stepIndex result, s.stepResults.get? stepIndex = some result → result.stepIndex = stepIndex ∧
    (mode = .platform → result.status = .continue → result.resolvedIntents = [] →
      loadPersistedDeferredIntents s stepIndex = [])

theorem Quiet.unresolved (h : Quiet .platform s) (stepIndex : Nat) :
    unresolvedDeferralAt s stepIndex = none := by
  unfold unresolvedDeferralAt
  cases hget : s.stepResults.get? stepIndex with
  | none => rfl
  | some result =>
    have hwaits := (h stepIndex result hget).2 rfl
    simp only
    rw [if_neg]
    rintro ⟨hstatus,hresolved,hdeferred⟩
    exact hdeferred (hwaits hstatus hresolved)

theorem Quiet.crashWindow (h : Quiet state.workInput.dispatchMode s) :
    Platform.crashWindow s state = none := by
  unfold Platform.crashWindow
  split
  · rename_i hmode
    rw [hmode] at h
    unfold boundUnresolvedDeferral
    simp [h.unresolved state.stepIndex, h.unresolved (state.stepIndex - 1)]
  · rfl

/-- Evicting intents wakes no result. -/
theorem Quiet.evict {mode : EvalDispatchMode} (h : Quiet mode s) (stepIndex : Nat)
    (hresults : s'.stepResults = s.stepResults)
    (hintents : s'.deferredIntents = s.deferredIntents.erase stepIndex) : Quiet mode s' := by
  intro other result hget
  rw [hresults] at hget
  obtain ⟨hindex,hwaits⟩ := h other result hget
  refine ⟨hindex, ?_⟩
  intro hmode hstatus hresolved
  have hnone := hwaits hmode hstatus hresolved
  unfold loadPersistedDeferredIntents at hnone ⊢
  rw [hintents, Dict.get?_erase]
  split
  · rfl
  · exact hnone

theorem Quiet.congr {mode : EvalDispatchMode} (h : Quiet mode s)
    (hresults : s'.stepResults = s.stepResults)
    (hintents : s'.deferredIntents = s.deferredIntents) : Quiet mode s' := by
  unfold Quiet loadPersistedDeferredIntents
  rw [hresults, hintents]
  exact h

theorem bindKey_ok {κ ν : Type} [DecidableEq κ] [DecidableEq ν] {d d' : Dict κ ν} {key : κ}
    {value : ν} (h : bindKey d key value = .ok d') (k : κ) :
    d'.get? k = if k = key then some value else d.get? k := by
  unfold bindKey at h
  cases hget : d.get? key with
  | none =>
    rw [hget] at h
    cases h
    exact Dict.get?_set _ _ _ _
  | some bound =>
    rw [hget] at h
    simp only at h
    split at h
    · rename_i hbound
      cases h
      split
      · rename_i hk
        rw [hk, hget, hbound]
      · rfl
    · cases h

theorem persistDeferredIntents_cases {stepIndex : Nat} {intents : List OptimEvalRequest}
    {r : Except String Unit} (h : persistDeferredIntents stepIndex intents s = (r, s')) :
    (∃ message, r = .error message ∧ s' = s) ∨ ∃ bound, s' = { s with deferredIntents := bound } ∧
      ∀ k, bound.get? k = if k = stepIndex then some intents else s.deferredIntents.get? k := by
  unfold persistDeferredIntents at h
  rw [read_bind] at h
  rcases ofExcept_bind_cases h with ⟨message,_,hr,hs⟩ | ⟨bound,hbound,h⟩
  · exact .inl ⟨message, hr, hs⟩
  · cases h
    exact .inr ⟨bound, rfl, bindKey_ok hbound⟩

theorem bindStepResult_cases {stepIndex : Nat} {result : OptimStepResult}
    {r : Except String Unit} (h : bindStepResult stepIndex result s = (r, s')) :
    (∃ message, r = .error message ∧ s' = s) ∨ ∃ bound, s' = { s with stepResults := bound } ∧
      ∀ k, bound.get? k = if k = stepIndex then some result else s.stepResults.get? k := by
  unfold bindStepResult at h
  rw [read_bind] at h
  rcases ofExcept_bind_cases h with ⟨message,_,hr,hs⟩ | ⟨bound,hbound,h⟩
  · exact .inl ⟨message, hr, hs⟩
  · cases h
    exact .inr ⟨bound, rfl, bindKey_ok hbound⟩

/- The head a deferral leaves. -/
structure ParksAt (state parked : OptimWorkState) : Prop where
  stepIndex : parked.stepIndex = state.stepIndex
  origin : parked.deferralOptimStepStageIndex = some state.stage
  beyond : state.stage < parked.stage
  waits : parked.pendingStepResultRef.isSome = true
  numbered : Numbered parked
  mode : parked.workInput.dispatchMode = state.workInput.dispatchMode

/- The inputs of an episode: its rows, and the fan-in that joins them. -/
def EpisodeInputs (parked : OptimWorkState) (origin : Nat) (inputs : List StageInput) : Prop :=
  ∀ input ∈ inputs, (∃ row, input = .evalRow row) ∨
    ∃ join, input = .join join ∧ join.workState = parked ∧
      join.deferralOptimStepStageIndex = origin

/- What executing the step of an open work state can do to the head. -/
inductive ReadyStep (s s' : Store) (state : OptimWorkState) :
    Except String StageCompletion → Prop
  | kept (r : Except String StageCompletion) (head : s'.head = s.head)
      (emitted : emittedBy r = []) : ReadyStep s s' state r
  | advanced (r : Except String StageCompletion) (next : OptimWorkState)
      (head : s'.head = some next) (stepIndex : next.stepIndex = state.stepIndex + 1)
      (opened : Open next) (quiet : Quiet next.workInput.dispatchMode s')
      (emitted : emittedBy r = [] ∨ emittedBy r = [.workState next]) : ReadyStep s s' state r
  | deferred (r : Except String StageCompletion) (parked : OptimWorkState)
      (head : s'.head = some parked) (parks : ParksAt state parked)
      (emitted : emittedBy r = [] ∨ Quiet parked.workInput.dispatchMode s' ∧
        EpisodeInputs parked state.stage (emittedBy r)) : ReadyStep s s' state r

theorem emitDeferredSuccessors_inputs {intents : List OptimEvalRequest} {origin : Nat}
    {parked : OptimWorkState} {successors : List StageSuccessor}
    (h : emitDeferredSuccessors runtime intents origin parked = .ok successors) :
    EpisodeInputs parked origin (successors.map fun successor => successor.input) := by
  unfold emitDeferredSuccessors at h
  rw [bind_eq_ok] at h
  obtain ⟨rows,_,h⟩ := h
  rw [bind_eq_ok] at h
  obtain ⟨join,hjoin,h⟩ := h
  cases h
  have hjoined : join.workState = parked ∧ join.deferralOptimStepStageIndex = origin := by
    unfold joinInput at hjoin
    cases intents with
    | nil => cases hjoin
    | cons primary rest =>
      simp only [raiseIf_bind_eq_ok] at hjoin
      obtain ⟨_,hjoin⟩ := hjoin
      cases hjoin
      exact ⟨rfl, rfl⟩
  intro input hinput
  rw [List.map_append, List.mem_append] at hinput
  rcases hinput with hrow | hlast
  · left
    obtain ⟨successor,hsuccessor,rfl⟩ := List.mem_map.mp hrow
    obtain ⟨k,hk,rfl⟩ := List.mem_mapIdx.mp hsuccessor
    exact ⟨_, rfl⟩
  · right
    rw [List.map_singleton, List.mem_singleton] at hlast
    exact ⟨join, hlast, hjoined.1, hjoined.2⟩

theorem persistWorkState_bind {α : Type} (k : OptimWorkState → Stage α) (state : OptimWorkState)
    (s : Store) : (persistWorkState state >>= k) s = k state { s with head := some state } := rfl

theorem platformDeferredSuccessors_cases {state : OptimWorkState}
    {deferred : List OptimEvalRequest} {current : Nat} {pending : OptimStepResult}
    (h : platformDeferredSuccessors runtime state deferred current pending s = (r, s')) :
    ((∃ message, r = .error message) ∧ s' = s) ∨ ∃ rowCount parked,
      parked = (⟨nextWorkInput state (current + rowCount + 1), state.stepIndex,
        state.stepResultRefs, false, some pending, some current, deferred⟩ : OptimWorkState) ∧
      s' = { s with head := some parked } ∧ ((∃ message, r = .error message) ∨
        ∃ completion, r = .ok completion ∧ EpisodeInputs parked current (emittedBy r)) := by
  unfold platformDeferredSuccessors at h
  rcases ofExcept_bind_cases h with ⟨message,_,hr,hs⟩ | ⟨rowCount,_,h⟩
  · exact .inl ⟨⟨message, hr⟩, hs⟩
  right
  refine ⟨rowCount, _, rfl, ?_⟩
  rw [persistWorkState_bind] at h
  rcases ofExcept_bind_cases h with ⟨message,_,hr,hs⟩ | ⟨successors,hsuccessors,h⟩
  · exact ⟨hs, .inl ⟨message, hr⟩⟩
  · cases h
    exact ⟨rfl, .inr ⟨_, rfl, emitDeferredSuccessors_inputs hsuccessors⟩⟩

theorem Numbered.take (h : Numbered state) :
    state.stepResultRefs.take state.stepIndex = state.stepResultRefs := by
  apply List.take_of_length_le
  have hlength := congrArg List.length h
  rw [List.length_map, List.length_range] at hlength
  exact Nat.le_of_eq hlength

/- Everything the stages of an episode keep of the store. -/
def SameRecords (s s' : Store) : Prop := s'.rows = s.rows ∧ s'.fanins = s.fanins

theorem deferStep_cases {pending : OptimStepResult} {deferred : List OptimEvalRequest}
    (hopen : Open state)
    (h : deferStep runtime state state.stepIndex pending deferred s = (r, s')) :
    SameRecords s s' ∧ (((∃ message, r = .error message) ∧ s'.head = s.head) ∨
      ∃ parked, s'.head = some parked ∧ ParksAt state parked ∧ ((∃ message, r = .error message) ∨
        EpisodeInputs parked state.stage (emittedBy r) ∧
        s'.stepResults = s.stepResults.erase state.stepIndex ∧
        ∀ k, k ≠ state.stepIndex → s'.deferredIntents.get? k = s.deferredIntents.get? k)) := by
  unfold deferStep at h
  rcases bind_cases h with ⟨message,hpersist,hr⟩ | ⟨_,t,hpersist,h⟩
  · rcases persistDeferredIntents_cases hpersist with ⟨_,_,rfl⟩ | ⟨bound,rfl,_⟩
    · exact ⟨⟨rfl, rfl⟩, .inl ⟨⟨message, hr⟩, rfl⟩⟩
    · exact ⟨⟨rfl, rfl⟩, .inl ⟨⟨message, hr⟩, rfl⟩⟩
  rcases persistDeferredIntents_cases hpersist with ⟨_,herror,_⟩ | ⟨bound,rfl,hbound⟩
  · cases herror
  have hparks (rowCount : Nat) : ParksAt state
      ⟨nextWorkInput (emitState state state.stepIndex) (state.stage + rowCount + 1),
        state.stepIndex, state.stepResultRefs.take state.stepIndex, false, some pending,
        some state.stage, deferred⟩ := by
    refine ⟨rfl, rfl, ?_, rfl, ?_, rfl⟩
    · change state.stage < state.stage + rowCount + 1
      omega
    · unfold Numbered
      rw [hopen.numbered.take]
      exact hopen.numbered
  rcases bind_cases h with ⟨message,hemit,hr⟩ | ⟨completion,t,hemit,h⟩
  · rcases platformDeferredSuccessors_cases hemit with ⟨_,rfl⟩ | ⟨rowCount,parked,rfl,rfl,_⟩
    · exact ⟨⟨rfl, rfl⟩, .inl ⟨⟨message, hr⟩, rfl⟩⟩
    · exact ⟨⟨rfl, rfl⟩, .inr ⟨_, rfl, hparks rowCount, .inl ⟨message, hr⟩⟩⟩
  rcases platformDeferredSuccessors_cases hemit with ⟨⟨_,herror⟩,_⟩ | ⟨rowCount,parked,rfl,rfl,hout⟩
  · cases herror
  rcases hout with ⟨_,herror⟩ | ⟨_,_,hinputs⟩
  · cases herror
  cases h
  refine ⟨⟨rfl, rfl⟩, .inr ⟨_, rfl, hparks rowCount, .inr ⟨hinputs, rfl, ?_⟩⟩⟩
  intro k hk
  change (bound.erase state.stepIndex).get? k = _
  rw [Dict.get?_erase, if_neg hk, hbound, if_neg hk]

theorem Numbered.last (h : Numbered state) {prior : OptimStepResult}
    (hprior : state.stepResultRefs.getLast? = some prior) :
    prior.stepIndex + 1 = state.stepIndex := by
  have hlast := congrArg List.getLast? h
  rw [List.getLast?_map, hprior, List.getLast?_range] at hlast
  split at hlast
  · cases hlast
  · rename_i hne
    simp only [Option.map_some, Option.some.injEq] at hlast
    omega

theorem stepRequest_index (h : Numbered state) {stepIndex : Nat} {requestHash : String}
    (hrequest : stepRequest runtime state = .ok (stepIndex, requestHash)) :
    stepIndex = state.stepIndex := by
  unfold stepRequest at hrequest
  simp only [raiseIf_bind_eq_ok] at hrequest
  obtain ⟨_,_,hrequest⟩ := hrequest
  split at hrequest
  · rename_i hzero
    rw [bind_eq_ok] at hrequest
    obtain ⟨_,_,hrequest⟩ := hrequest
    cases hrequest
    exact hzero.symm
  · cases hprior : state.stepResultRefs.getLast? with
    | none =>
      rw [hprior] at hrequest
      cases hrequest
    | some prior =>
      rw [hprior] at hrequest
      simp only [bind_eq_ok] at hrequest
      obtain ⟨_,_,_,_,hrequest⟩ := hrequest
      cases hrequest
      exact h.last hprior

theorem runStepResult_index {mode : EvalDispatchMode} (hquiet : Quiet mode s) {stepIndex : Nat}
    {requestHash : String} {answer : HarnessAnswer} {result : OptimStepResult}
    {deferred : List OptimEvalRequest}
    (h : runStepResult s stepIndex requestHash answer = .ok (result, deferred)) :
    result.stepIndex = stepIndex := by
  unfold runStepResult at h
  cases hget : s.stepResults.get? stepIndex with
  | some existing =>
    rw [hget] at h
    simp only at h
    split at h
    · cases h
      exact (hquiet stepIndex result hget).1
    · cases h
  | none =>
    rw [hget] at h
    cases answer with
    | raises message => cases h
    | steps body status resolved intents =>
      cases h
      rfl

/- The harness binds the result of the position, and its intents when there are some. -/
structure StepBound (s s' : Store) (stepIndex : Nat) (result : OptimStepResult)
    (deferred : List OptimEvalRequest) : Prop where
  head : s'.head = s.head
  records : SameRecords s s'
  result : ∀ k, s'.stepResults.get? k =
    if k = stepIndex then some result else s.stepResults.get? k
  others : ∀ k, k ≠ stepIndex → s'.deferredIntents.get? k = s.deferredIntents.get? k
  undeferred : deferred = [] → s'.deferredIntents = s.deferredIntents

/- What the harness has written when it binds the result: at most the intents. -/
structure IntentsBound (s t : Store) (stepIndex : Nat) (deferred : List OptimEvalRequest) :
    Prop where
  head : t.head = s.head
  records : SameRecords s t
  results : t.stepResults = s.stepResults
  others : ∀ k, k ≠ stepIndex → t.deferredIntents.get? k = s.deferredIntents.get? k
  undeferred : deferred = [] → t.deferredIntents = s.deferredIntents

theorem bindStepResult_bound {t : Store} {stepIndex : Nat} {result : OptimStepResult}
    {deferred : List OptimEvalRequest}
    {r : Except String (OptimStepResult × List OptimEvalRequest)}
    (ht : IntentsBound s t stepIndex deferred)
    (h : (do bindStepResult stepIndex result; return (result, deferred) : Stage _) t = (r, s')) :
    ((∃ message, r = .error message) ∧ s'.head = s.head ∧ SameRecords s s') ∨
      r = .ok (result, deferred) ∧ StepBound s s' stepIndex result deferred := by
  rcases bind_cases h with ⟨message,hwrite,hr⟩ | ⟨_,u,hwrite,h⟩
  · rcases bindStepResult_cases hwrite with ⟨_,_,rfl⟩ | ⟨bound,rfl,_⟩
    · exact .inl ⟨⟨message, hr⟩, ht.head, ht.records⟩
    · exact .inl ⟨⟨message, hr⟩, ht.head, ht.records⟩
  · rcases bindStepResult_cases hwrite with ⟨_,herror,_⟩ | ⟨bound,rfl,hbound⟩
    · cases herror
    · cases h
      rw [ht.results] at hbound
      exact .inr ⟨rfl, ht.head, ht.records, hbound, ht.others, ht.undeferred⟩

theorem runStep_cases {stepIndex : Nat} {requestHash : String} {answer : HarnessAnswer}
    {r : Except String (OptimStepResult × List OptimEvalRequest)}
    (h : runStep s stepIndex requestHash answer s = (r, s')) :
    ((∃ message, r = .error message) ∧ s'.head = s.head ∧ SameRecords s s') ∨
      ∃ result deferred, runStepResult s stepIndex requestHash answer = .ok (result, deferred) ∧
        r = .ok (result, deferred) ∧ StepBound s s' stepIndex result deferred := by
  unfold runStep at h
  rcases ofExcept_bind_cases h with ⟨message,_,hr,rfl⟩ | ⟨⟨result,deferred⟩,hfound,h⟩
  · exact .inl ⟨⟨message, hr⟩, rfl, rfl, rfl⟩
  dsimp only at h
  by_cases hdeferred : deferred = []
  · rw [if_neg (not_not.mpr hdeferred)] at h
    have hbound : IntentsBound s s stepIndex deferred :=
      ⟨rfl, ⟨rfl, rfl⟩, rfl, fun _ _ => rfl, fun _ => rfl⟩
    exact (bindStepResult_bound hbound h).imp_right fun hok => ⟨result, deferred, hfound, hok⟩
  · rw [if_pos hdeferred] at h
    rcases bind_cases h with ⟨message,hwrite,hr⟩ | ⟨_,t,hwrite,h⟩
    · rcases persistDeferredIntents_cases hwrite with ⟨_,_,rfl⟩ | ⟨bound,rfl,_⟩
      · exact .inl ⟨⟨message, hr⟩, rfl, rfl, rfl⟩
      · exact .inl ⟨⟨message, hr⟩, rfl, rfl, rfl⟩
    · rcases persistDeferredIntents_cases hwrite with ⟨_,herror,_⟩ | ⟨bound,rfl,hget⟩
      · cases herror
      · have hbound : IntentsBound s { s with deferredIntents := bound } stepIndex deferred := by
          refine ⟨rfl, ⟨rfl, rfl⟩, rfl, ?_, fun hnil => absurd hnil hdeferred⟩
          intro k hk
          rw [hget, if_neg hk]
        exact (bindStepResult_bound hbound h).imp_right fun hok => ⟨result, deferred, hfound, hok⟩

theorem bindRunMemberTerminal_cases {bound : OptimWorkState} {r : Except String Unit}
    (h : bindRunMemberTerminal bound s = (r, s')) :
    ∃ terminal, s' = { s with memberTerminal := terminal } := by
  unfold bindRunMemberTerminal at h
  split at h
  · cases h
    exact ⟨s.memberTerminal, rfl⟩
  · rw [read_bind] at h
    cases hget : s.memberTerminal with
    | none =>
      rw [hget] at h
      cases h
      exact ⟨_, rfl⟩
    | some found =>
      rw [hget] at h
      cases h
      exact ⟨s.memberTerminal, rfl⟩

/- The work state behind a result that defers nothing. -/
def nextState (state : OptimWorkState) (result : OptimStepResult) : OptimWorkState where
  workInput := nextWorkInput state (state.stage + 1)
  stepIndex := state.stepIndex + 1
  stepResultRefs := state.stepResultRefs ++ [result]
  terminal := decide (result.status ≠ .continue)

theorem nextState_open {result : OptimStepResult} (h : Numbered state)
    (hindex : result.stepIndex = state.stepIndex) : Open (nextState state result) := by
  refine ⟨rfl, rfl, rfl, ?_⟩
  unfold Numbered nextState
  rw [List.map_append, h, List.range_succ, List.map_singleton, hindex]

theorem advanceStep_cases {t : Store} {result : OptimStepResult}
    (hbound : t.stepResults.get? state.stepIndex = some result)
    (h : advanceStep state state.stepIndex result t = (r, s')) :
    (∃ terminal, s' = { t with head := some (nextState state result), memberTerminal := terminal }) ∧
      (emittedBy r = [] ∨ emittedBy r = [.workState (nextState state result)]) := by
  have hagain : bindStepResult state.stepIndex result t = (.ok (), t) := by
    unfold bindStepResult bindKey
    rw [read_bind, hbound]
    simp only [if_true]
    rfl
  unfold advanceStep at h
  rw [bind_ok hagain, persistWorkState_bind] at h
  split at h
  · rcases bind_cases h with ⟨message,hterminal,rfl⟩ | ⟨_,u,hterminal,h⟩
    · obtain ⟨terminal,rfl⟩ := bindRunMemberTerminal_cases hterminal
      exact ⟨⟨terminal, rfl⟩, .inl rfl⟩
    · obtain ⟨terminal,rfl⟩ := bindRunMemberTerminal_cases hterminal
      cases h
      exact ⟨⟨terminal, rfl⟩, .inl rfl⟩
  · cases h
    exact ⟨⟨t.memberTerminal, rfl⟩, .inr rfl⟩

/-- A position whose result defers nothing has no persisted intents to wait for. -/
theorem deferredIntents_nil {mode : EvalDispatchMode} (hmode : state.workInput.dispatchMode = mode)
    {stepIndex : Nat} {result : OptimStepResult} {deferred : List OptimEvalRequest}
    (h : deferredIntents s state stepIndex result deferred = []) (hplatform : mode = .platform)
    (hstatus : result.status = .continue) (hresolved : result.resolvedIntents = []) :
    deferred = [] ∧ loadPersistedDeferredIntents s stepIndex = [] := by
  unfold deferredIntents at h
  rw [if_pos ⟨hmode.trans hplatform, hresolved, hstatus⟩] at h
  by_cases hdeferred : deferred = []
  · refine ⟨hdeferred, ?_⟩
    rw [if_neg (not_not.mpr hdeferred)] at h
    split at h
    · rename_i hpending
      exact absurd h hpending
    · exact h
  · rw [if_pos hdeferred] at h
    exact absurd h hdeferred

theorem harnessStep_step {answer : HarnessAnswer} (hopen : Open state)
    (hquiet : Quiet state.workInput.dispatchMode s)
    (h : harnessStep runtime s state answer s = (r, s')) :
    ReadyStep s s' state r ∧ SameRecords s s' := by
  unfold harnessStep at h
  rcases ofExcept_bind_cases h with ⟨message,_,rfl,rfl⟩ | ⟨⟨stepIndex,requestHash⟩,hrequest,h⟩
  · exact ⟨.kept _ rfl rfl, rfl, rfl⟩
  obtain rfl := stepRequest_index hopen.numbered hrequest
  dsimp only at h
  rcases bind_cases h with ⟨message,hrun,rfl⟩ | ⟨⟨result,deferred⟩,t,hrun,h⟩
  · rcases runStep_cases hrun with ⟨_,hhead,hrecords⟩ | ⟨_,_,_,herror,_⟩
    · exact ⟨.kept _ hhead rfl, hrecords⟩
    · cases herror
  rcases runStep_cases hrun with ⟨⟨_,herror⟩,_⟩ | ⟨_,_,hfound,heq,hbound⟩
  · cases herror
  cases heq
  have hindex := runStepResult_index hquiet hfound
  have hresult : t.stepResults.get? state.stepIndex = some result := by
    rw [hbound.result, if_pos rfl]
  dsimp only at h
  cases hdeferred : deferredIntents s state state.stepIndex result deferred with
  | nil =>
    rw [hdeferred] at h
    obtain ⟨⟨terminal,rfl⟩,hemitted⟩ := advanceStep_cases hresult h
    refine ⟨.advanced r _ rfl rfl (nextState_open hopen.numbered hindex) ?_ hemitted, hbound.records⟩
    -- Every other position is as it was; this one defers nothing, so nothing is persisted for it.
    intro k other hother
    change t.stepResults.get? k = some other at hother
    change other.stepIndex = k ∧ (_ → _ → _ → (t.deferredIntents.get? k).getD [] = [])
    rw [hbound.result] at hother
    split at hother
    · rename_i hk
      cases hother
      subst hk
      refine ⟨hindex, ?_⟩
      intro hmode hstatus hresolved
      obtain ⟨hnone,hpersisted⟩ := deferredIntents_nil rfl hdeferred hmode hstatus hresolved
      rw [hbound.undeferred hnone]
      exact hpersisted
    · rename_i hk
      rw [hbound.others k hk]
      exact hquiet k other hother
  | cons intent rest =>
    rw [hdeferred] at h
    obtain ⟨hrecords,hcases⟩ := deferStep_cases hopen h
    have hsame : SameRecords s s' :=
      ⟨hrecords.1.trans hbound.records.1, hrecords.2.trans hbound.records.2⟩
    refine ⟨?_, hsame⟩
    rcases hcases with ⟨⟨message,rfl⟩,hhead⟩ | ⟨parked,hhead,hparks,hout⟩
    · exact .kept _ (hhead.trans hbound.head) rfl
    · apply ReadyStep.deferred r parked hhead hparks
      rcases hout with ⟨message,rfl⟩ | ⟨hinputs,hresults,hothers⟩
      · exact .inl rfl
      · refine .inr ⟨?_, hinputs⟩
        intro k other hother
        rw [hresults, Dict.get?_erase] at hother
        split at hother
        · cases hother
        · rename_i hk
          rw [hbound.result, if_neg hk] at hother
          unfold loadPersistedDeferredIntents
          rw [hothers k hk, hbound.others k hk, hparks.mode]
          exact hquiet k other hother

/-- Executing the step of an open work state. -/
theorem executeOptimStep_step {input : StageInput} {stageIndex : Option Nat}
    {answer : HarnessAnswer} (hload : loadWorkState runtime s input = .ok state)
    (hopen : Open state) (hquiet : Quiet state.workInput.dispatchMode s)
    (hterminal : state.terminal = true → s.head = some state)
    (h : executeOptimStep runtime input stageIndex answer s = (r, s')) :
    ReadyStep s s' state r ∧ SameRecords s s' := by
  unfold executeOptimStep at h
  rw [read_bind] at h
  unfold optimStepFrom at h
  rcases ofExcept_bind_cases h with ⟨_,hraised,_⟩ | ⟨_,hloaded,h⟩
  · rw [hload] at hraised
    cases hraised
  rw [hload] at hloaded
  cases hloaded
  rcases ofExcept_bind_cases h with ⟨message,_,rfl,rfl⟩ | ⟨_,_,h⟩
  · exact ⟨.kept _ rfl rfl, rfl, rfl⟩
  rcases ofExcept_bind_cases h with ⟨message,_,rfl,rfl⟩ | ⟨_,_,h⟩
  · exact ⟨.kept _ rfl rfl, rfl, rfl⟩
  have hparked : parked state = false := by
    simp [parked, hopen.pending]
  rw [hparked, hquiet.crashWindow] at h
  split at h
  · rename_i hends
    rw [persistWorkState_bind] at h
    have hhead := (hterminal hends).symm
    rcases bind_cases h with ⟨message,hbind,rfl⟩ | ⟨_,t,hbind,h⟩
    · obtain ⟨terminal,rfl⟩ := bindRunMemberTerminal_cases hbind
      exact ⟨.kept _ hhead rfl, rfl, rfl⟩
    · obtain ⟨terminal,rfl⟩ := bindRunMemberTerminal_cases hbind
      cases h
      exact ⟨.kept _ hhead rfl, rfl, rfl⟩
  · exact harnessStep_step hopen hquiet h

end Whetstone.Platform
