import Whetstone.Optim.Gepa.EffectReplay

/-! A search run in steps. Each step drives the search from its seed to one metric call more
than the last checkpoint, on the effects the store has recorded; an attempt may stop anywhere,
and its checkpoint may be lost. The steps come to what one run of the whole search comes to on
the same results. -/
namespace Whetstone.Optim.Gepa
open Whetstone.Core Whetstone.Lib Whetstone.Experiment Whetstone.Optim.Step

section Stepped

variable {F : Type} [FiniteFloats F] [RewardIdentity F] [GepaIdentity F] [PythonRandom]

/-! ### Searches to a budget -/

section Searches

variable (u : Upstream F) (inputs : GepaInputs F)

/- The search to a budget, and the search to the whole of it. -/
def searchTo (maxMetricCalls : Nat) :
    Prog (GepaEffect F) GepaEffect.Result SearchError (u.State × AdapterState F) :=
  inputs.adapter.drive (u.search inputs.control inputs.seedCandidate inputs.trainset
    inputs.valset maxMetricCalls) inputs.adapter.resetEffectOrdinal

def wholeSearch : Prog (GepaEffect F) GepaEffect.Result SearchError (u.State × AdapterState F) :=
  searchTo u inputs inputs.control.resolvedMaxMetricCalls

/-- What the optimizer promises: its total grows in every iteration, and its result at a
boundary is well formed and names that total, if it names one. -/
structure Upstream.Lawful : Prop where
  advances : u.Advances
  reports : u.Reports
  projects : ∀ s, ∃ detailed,
    projectResult (u.result s) inputs.control inputs.validationNumSeeds = .ok detailed

end Searches

variable {u : Upstream F} {inputs : GepaInputs F}

theorem increasing_wholeSearch :
    Increasing inputs.adapter.context (fun _ _ => True) 0 (wholeSearch u inputs) :=
  inputs.adapter.increasing_drive _ _ _ (Nat.zero_le _)

/-- A search to part of the budget is the first part of the whole one. -/
theorem wholeSearch_split (h : u.Advances) {budget : Nat}
    (hle : budget ≤ inputs.control.resolvedMaxMetricCalls) :
    wholeSearch u inputs = (searchTo u inputs budget).bind fun out =>
      inputs.adapter.drive (u.searchUntil inputs.control.resolvedMaxMetricCalls
        inputs.control.resolvedMaxMetricCalls out.1) out.2 := by
  unfold searchTo
  rw [← inputs.adapter.drive_bind]
  unfold wholeSearch searchTo Upstream.search
  rw [Prog.bind_assoc]
  congr 2
  funext s
  exact Upstream.searchUntil_split h _ _ _ _ _ s hle (by omega) (by omega) (Nat.le_refl _)

theorem searchTo_reaches (h : u.Advances) (budget : Nat) :
    (searchTo u inputs budget).Ensures fun out => budget ≤ u.total out.1 := by
  refine inputs.adapter.ensures_drive (Q := fun s => budget ≤ u.total s) ?_ _
  exact Prog.ensures_bind (Prog.ensures_trivial _) fun s _ =>
    Upstream.searchUntil_reaches h budget budget s (by omega)

theorem driveTo_search (budget : Nat) : driveTo u.optimize inputs budget =
    (searchTo u inputs budget).bind fun out =>
      (Prog.ofExcept (SearchError.ofValue (projectResult (u.result out.1) inputs.control
        inputs.validationNumSeeds))).bind fun detailed => .done (detailed, out.2) := by
  unfold driveTo Upstream.optimize searchTo
  rw [inputs.adapter.drive_bind, Prog.bind_assoc]
  rfl

/-! ### The one-shot engine -/

section OneShot

variable {record : (e : GepaEffect F) → Option e.Result}

theorem runGepaEngine_ok (hauthorities : validateAdapterAuthorities inputs.control inputs.adapter =
      .ok ()) (hvalid : inputs.validate = .ok ()) {out : u.State × AdapterState F}
    {detailed : GepaDetailedResult F}
    (hdetailed : projectResult (u.result out.1) inputs.control inputs.validationNumSeeds =
      .ok detailed) (h : (wholeSearch u inputs).replayed record = some (.ok out)) :
    (runGepaEngine u.optimize inputs).replayed record = some (.ok detailed) := by
  have hdrive : (driveTo u.optimize inputs inputs.control.resolvedMaxMetricCalls).replayed record =
      some (.ok (detailed, out.2)) := by
    rw [driveTo_search, ← wholeSearch, Prog.replayed_bind h, hdetailed]
    rfl
  unfold runGepaEngine
  rw [hauthorities, hvalid]
  change ((driveTo u.optimize inputs inputs.control.resolvedMaxMetricCalls).bind _).replayed record = _
  rw [Prog.replayed_bind hdrive]
  rfl

theorem runGepaEngine_error (hauthorities : validateAdapterAuthorities inputs.control
      inputs.adapter = .ok ()) (hvalid : inputs.validate = .ok ()) {error : SearchError}
    (h : (wholeSearch u inputs).replayed record = some (.error error)) :
    (runGepaEngine u.optimize inputs).replayed record = some (.error error) := by
  unfold runGepaEngine
  rw [hauthorities, hvalid]
  change ((driveTo u.optimize inputs inputs.control.resolvedMaxMetricCalls).bind _).replayed
    record = _
  rw [driveTo_search, Prog.bind_assoc, ← wholeSearch, Prog.replayed_bind_error h]

theorem runGepaEngine_refused {message : String}
    (h : validateAdapterAuthorities inputs.control inputs.adapter = .error message) :
    (runGepaEngine u.optimize inputs).replayed record = some (.error (.value message)) := by
  unfold runGepaEngine
  rw [h]
  rfl

end OneShot

/-! ### Runs -/

/- One attempt of a step: what the environment answers, and whether the process lives on to
   make its checkpoint durable. -/
structure StepAttempt (F : Type) [FiniteFloats F] [RewardIdentity F] where
  answers : List (GepaAnswer F)
  kept : Bool

structure SteppedRun (F : Type) [FiniteFloats F] [RewardIdentity F] where
  state : GepaState F
  checkpoint : GepaStepCheckpoint
  steps : List (GepaDetailedResult F × GepaStepCheckpoint)
  errors : List GepaError
  events : List (GepaOp F × GepaState F)

def SteppedRun.start (s : GepaState F) : SteppedRun F := ⟨s, {}, [], [], []⟩

variable [DecidableEq F]

section Runs

variable (u : Upstream F) (inputs : GepaInputs F)

def attemptStep (checkpoint : GepaStepCheckpoint) (answers : List (GepaAnswer F))
    (s : GepaState F) : Attempt (GepaOp F) (GepaState F) GepaError
      (GepaDetailedResult F × GepaStepCheckpoint × AdapterState F) :=
  (brokered directAuthority (runOneGepaIteration u.optimize inputs (some checkpoint))).attempt execOp
    answers s

def SteppedRun.resume (run : SteppedRun F) (a : StepAttempt F) : SteppedRun F :=
  if run.checkpoint.terminal then run
  else
    let made := attemptStep u inputs run.checkpoint a.answers run.state
    let driven := { run with state := made.state, events := run.events ++ made.events }
    match made.outcome with
    | .crashed => driven
    | .raised error => { driven with errors := run.errors ++ [error] }
    | .returned (detailed, checkpoint, _) =>
      if a.kept then
        { driven with checkpoint := checkpoint, steps := run.steps ++ [(detailed, checkpoint)] }
      else driven

def steppedRun (s : GepaState F) (attempts : List (StepAttempt F)) : SteppedRun F :=
  attempts.foldl (SteppedRun.resume u inputs) (.start s)

end Runs

/-! ### One step -/

/- What an attempt of a step leaves, from a checkpoint on. -/
def StepOutcome (u : Upstream F) (inputs : GepaInputs F) (checkpoint : GepaStepCheckpoint)
    (s : GepaState F) :
    Except GepaError (GepaDetailedResult F × GepaStepCheckpoint × AdapterState F) → Prop
  | .ok (detailed, next, _) => checkpoint.metricCallsConsumed < next.metricCallsConsumed ∧
      (next.terminal = false → next.metricCallsConsumed < inputs.control.resolvedMaxMetricCalls) ∧
      (next.terminal = true → inputs.validate = .ok () →
        (runGepaEngine u.optimize inputs).replayed (recordedResult s) = some (.ok detailed))
  | .error error => error.Fault ∨ ∃ own, error = .search own ∧ (inputs.validate = .ok () →
      (runGepaEngine u.optimize inputs).replayed (recordedResult s) = some (.error own))

omit [RewardIdentity F] [GepaIdentity F] [PythonRandom] [DecidableEq F] in
theorem projectResult_total {result : UpstreamResult F} {control : GepaControl F} {seeds : Nat}
    {detailed : GepaDetailedResult F} (h : projectResult result control seeds = .ok detailed) :
    detailed.totalMetricCalls = result.totalMetricCalls := by
  unfold projectResult at h
  obtain ⟨valSubscores,_,h⟩ := (bind_eq_ok _ _ _).mp h
  obtain ⟨perVal,_,h⟩ := (bind_eq_ok _ _ _).mp h
  obtain ⟨outputs,_,h⟩ := (bind_eq_ok _ _ _).mp h
  unfold DetailedFields.create at h
  split at h
  · cases h
    rfl
  · cases h

omit [RewardIdentity F] [GepaIdentity F] [PythonRandom] [DecidableEq F] in
/-- The checkpoint behind a search whose total has reached the step's budget. -/
theorem checkpointAfter_total (hlawful : u.Lawful inputs) {budget : Nat} {s : u.State}
    (hreached : budget ≤ u.total s) {detailed : GepaDetailedResult F}
    (hdetailed : projectResult (u.result s) inputs.control inputs.validationNumSeeds =
      .ok detailed) :
    let next := checkpointAfter inputs budget detailed
    budget ≤ next.metricCallsConsumed ∧ next.metricCallsConsumed ≤ u.total s ∧
      (next.terminal = true ↔
        inputs.control.resolvedMaxMetricCalls ≤ next.metricCallsConsumed) := by
  have htotal := projectResult_total hdetailed
  simp only [checkpointAfter, htotal, decide_eq_true_eq]
  cases hresult : (u.result s).totalMetricCalls with
  | none => exact ⟨Nat.le_refl _, hreached, trivial⟩
  | some n =>
    have hn := hlawful.reports s n hresult
    subst hn
    exact ⟨hreached, Nat.le_refl _, trivial⟩

/-- Every effect the whole search comes to is served by the broker. -/
theorem holds_serveEffect (hseparates : Separates F inputs.adapter.context) (e : GepaEffect F)
    (n : Nat) (s : GepaState F)
    (hs : (recording inputs.adapter.context (wholeSearch u inputs) fun _ => True).durable s)
    (he : (wholeSearch u inputs).requested (recordedResult s) n = some e) :
    (settled (serveEffect directAuthority e)).Holds execOp
      (recording inputs.adapter.context (wholeSearch u inputs) fun _ => True)
      (fun x t => Extends (recordedResult s) (recordedResult t) ∧ match x with
        | .ok r => recordedResult t e = some r ∧ True
        | .error error => error.Fault) s := by
  cases e with
  | evaluate request =>
    refine Prog.holds_mono (holds_brokerEvaluate (fun _ _ _ h => h) hseparates
      increasing_wholeSearch hs he) fun x t _ hx => ⟨hx.1.extends, ?_⟩
    cases x with
    | ok r => exact ⟨hx.2, trivial⟩
    | error error => exact hx.2
  | propose request =>
    refine Prog.holds_mono (holds_proposeRecorded (fun _ _ _ h => h) hseparates
      increasing_wholeSearch hs he) fun x t _ hx => ⟨hx.1.extends, ?_⟩
    cases x with
    | ok r => exact ⟨hx.2.1, trivial⟩
    | error error => exact hx.2

theorem holds_step (hlawful : u.Lawful inputs) (hseparates : Separates F inputs.adapter.context)
    {checkpoint : GepaStepCheckpoint}
    (hleft : checkpoint.metricCallsConsumed < inputs.control.resolvedMaxMetricCalls)
    {s : GepaState F}
    (hs : (recording inputs.adapter.context (wholeSearch u inputs) fun _ => True).durable s) :
    (settled (brokered directAuthority (runOneGepaIteration u.optimize inputs (some checkpoint)))).Holds
      execOp (recording inputs.adapter.context (wholeSearch u inputs) fun _ => True)
      (fun x t => Extends (recordedResult s) (recordedResult t) ∧
        StepOutcome u inputs checkpoint t x) s := by
  have hsome : inputs.control.resolvedMaxMetricCalls ≠ 0 := by omega
  have hbudget : min inputs.control.resolvedMaxMetricCalls (checkpoint.metricCallsConsumed + 1) =
      checkpoint.metricCallsConsumed + 1 := by omega
  have hmore : ¬ checkpoint.metricCallsConsumed + 1 ≤ checkpoint.metricCallsConsumed := by omega
  unfold runOneGepaIteration
  simp only [Option.getD_some, hsome, if_false, hbudget, hmore]
  cases hauthorities : validateAdapterAuthorities inputs.control inputs.adapter with
  | error message =>
    exact ⟨hs, Extends.refl _, .inr ⟨_, rfl, fun _ => runGepaEngine_refused hauthorities⟩⟩
  | ok _ =>
    have hle : checkpoint.metricCallsConsumed + 1 ≤ inputs.control.resolvedMaxMetricCalls := hleft
    have hstart : (wholeSearch u inputs).after (recordedResult s) 0 = some
        ((searchTo u inputs (checkpoint.metricCallsConsumed + 1)).bind fun out =>
          inputs.adapter.drive (u.searchUntil inputs.control.resolvedMaxMetricCalls
            inputs.control.resolvedMaxMetricCalls out.1) out.2) := by
      rw [← wholeSearch_split hlawful.advances hle]
      rfl
    change (settled (brokered directAuthority ((driveTo u.optimize inputs
      (checkpoint.metricCallsConsumed + 1)).bind _))).Holds _ _ _ s
    rw [driveTo_search, Prog.bind_assoc, brokered, Prog.interpret_bind]
    refine Prog.holds_reify_bind (Prog.holds_interpret (I := fun _ _ => True)
      (fun e n s hs _ he => Prog.holds_mono (holds_serveEffect hseparates e n s hs he)
        fun x t _ hx => ⟨hx.1, by cases x <;> exact hx.2⟩) hs trivial
      (searchTo_reaches hlawful.advances _) hstart)
      (fun out t ht hq => ?_) fun error t _ hq => ?_
    · obtain ⟨hext,hreached,m,hat,_⟩ := hq
      obtain ⟨detailed,hdetailed⟩ := hlawful.projects out.1
      obtain ⟨hlow,hhigh,hterminal⟩ := checkpointAfter_total hlawful hreached hdetailed
      rw [hdetailed]
      refine ⟨ht, hext, Nat.lt_of_succ_le hlow, fun hopen => ?_, fun hclosed hvalid => ?_⟩
      · have hnot := mt hterminal.mpr (by simp [hopen])
        exact Nat.lt_of_not_le hnot
      · -- the whole search ends where this one does
        have hend : inputs.control.resolvedMaxMetricCalls ≤ u.total out.1 :=
          (hterminal.mp hclosed).trans hhigh
        refine runGepaEngine_ok hauthorities hvalid hdetailed ?_
        rw [Prog.replayed_after hat]
        cases hmax : inputs.control.resolvedMaxMetricCalls with
        | zero => omega
        | succ left =>
          rw [hmax] at hend
          simp [Upstream.searchUntil, hend, WhetstoneGepaAdapter.drive, Prog.replayed]
    · obtain ⟨hext,hfault | ⟨own,m,rfl,hat,_⟩⟩ := hq
      · exact ⟨hext, .inl hfault⟩
      · refine ⟨hext, .inr ⟨own, rfl, fun hvalid => runGepaEngine_error hauthorities hvalid ?_⟩⟩
        rw [Prog.replayed_after hat]
        rfl

/-! ### Runs keep what a step leaves -/

/- A store the search has not used: its slots are free, and each result binding names the result
   of an effect. -/
structure Untouched (context : GepaEffectContext) (s : GepaState F) : Prop where
  results : ∀ hash ref, s.bindings.get? (.result hash) = some ref →
    ∃ (e : GepaEffect F) (r : e.Result), e.identityHash = hash ∧ resultHash e r = hash ∧
      ref = (resultRecord e r).ref ∧ s.objects.get? ref = some (resultRecord e r)
  slots : ∀ i, s.bindings.get? (.slot (GepaIdentity.slotHash F ⟨context, i⟩)) = none

omit [PythonRandom] [DecidableEq F] in
theorem Untouched.consistent {β : Type} {context : GepaEffectContext} {s : GepaState F}
    (h : Untouched context s) (full : Prog (GepaEffect F) GepaEffect.Result SearchError β) :
    Consistent context full s :=
  ⟨h.results, fun i ref hbound => by simp [h.slots i] at hbound⟩

structure StepsKept (u : Upstream F) (inputs : GepaInputs F) (run : SteppedRun F) : Prop where
  store : Consistent inputs.adapter.context (wholeSearch u inputs) run.state
  events : ∀ event ∈ run.events, asked event.1 event.2
  left : run.checkpoint.terminal = false →
    run.checkpoint.metricCallsConsumed < inputs.control.resolvedMaxMetricCalls
  counted : run.checkpoint.terminal = false →
    run.steps.length ≤ run.checkpoint.metricCallsConsumed
  bounded : run.steps.length ≤ inputs.control.resolvedMaxMetricCalls
  below : ∀ step ∈ run.steps,
    step.2.metricCallsConsumed ≤ run.checkpoint.metricCallsConsumed
  increasing : (0 :: run.steps.map fun step => step.2.metricCallsConsumed).Pairwise (· < ·)
  last : run.checkpoint = (run.steps.getLast?.map Prod.snd).getD {}
  errors : ∀ error ∈ run.errors, error.Fault ∨ ∃ own, error = .search own ∧
    (inputs.validate = .ok () →
      (runGepaEngine u.optimize inputs).replayed (recordedResult run.state) = some (.error own))
  terminal : ∀ step ∈ run.steps, step.2.terminal = true → inputs.validate = .ok () →
    (runGepaEngine u.optimize inputs).replayed (recordedResult run.state) = some (.ok step.1)

omit [DecidableEq F] in
theorem StepsKept.drive {run : SteppedRun F} (h : StepsKept u inputs run) {s : GepaState F}
    (hs : Consistent inputs.adapter.context (wholeSearch u inputs) s)
    (hext : Extends (recordedResult run.state) (recordedResult s))
    {events : List (GepaOp F × GepaState F)} (hevents : ∀ event ∈ events, asked event.1 event.2) :
    StepsKept u inputs { run with state := s, events := run.events ++ events } where
  store := hs
  events event hevent := by
    rcases List.mem_append.mp hevent with hold | hnew
    · exact h.events event hold
    · exact hevents event hnew
  left := h.left
  counted := h.counted
  bounded := h.bounded
  below := h.below
  increasing := h.increasing
  last := h.last
  errors error herror := by
    rcases h.errors error herror with hfault | ⟨own,rfl,hown⟩
    · exact .inl hfault
    · exact .inr ⟨own, rfl, fun hvalid => Prog.replayed_mono hext (hown hvalid)⟩
  terminal step hstep hclosed hvalid :=
    Prog.replayed_mono hext (h.terminal step hstep hclosed hvalid)

omit [DecidableEq F] in
theorem StepsKept.raise {run : SteppedRun F} (h : StepsKept u inputs run) {error : GepaError}
    (herror : error.Fault ∨ ∃ own, error = .search own ∧ (inputs.validate = .ok () →
      (runGepaEngine u.optimize inputs).replayed (recordedResult run.state) = some (.error own))) :
    StepsKept u inputs { run with errors := run.errors ++ [error] } := by
  refine { h with errors := fun e he => ?_ }
  rcases List.mem_append.mp he with hold | hnew
  · exact h.errors e hold
  · rw [List.mem_singleton.mp hnew]
    exact herror

omit [DecidableEq F] in
/-- A step that returns moves the checkpoint forward. -/
theorem StepsKept.advance {run : SteppedRun F} (h : StepsKept u inputs run)
    (hopen : run.checkpoint.terminal = false) {detailed : GepaDetailedResult F}
    {next : GepaStepCheckpoint} {st : AdapterState F}
    (hstep : StepOutcome u inputs run.checkpoint run.state (.ok (detailed, next, st))) :
    StepsKept u inputs { run with checkpoint := next, steps := run.steps ++ [(detailed, next)] } := by
  obtain ⟨hmore,hleft,hterminal⟩ := hstep
  have hcounted := h.counted hopen
  have hbudget := h.left hopen
  refine { h with left := hleft, counted := fun _ => ?_, bounded := ?_, below := ?_, increasing := ?_,
                  last := ?_, terminal := ?_ }
  · simp only [List.length_append, List.length_singleton]
    omega
  · simp only [List.length_append, List.length_singleton]
    omega
  · intro step hmem
    rcases List.mem_append.mp hmem with hold | hnew
    · exact (h.below step hold).trans hmore.le
    · rw [List.mem_singleton.mp hnew]
  · rw [List.map_append, ← List.cons_append, List.pairwise_append]
    refine ⟨h.increasing, List.pairwise_singleton _ _, fun a ha b hb => ?_⟩
    rw [List.map_singleton, List.mem_singleton] at hb
    subst hb
    rcases List.mem_cons.mp ha with rfl | ha
    · exact Nat.zero_lt_of_lt hmore
    · obtain ⟨step,hmem,rfl⟩ := List.mem_map.mp ha
      exact (h.below step hmem).trans_lt hmore
  · simp
  · intro step hmem hclosed hvalid
    rcases List.mem_append.mp hmem with hold | hnew
    · exact h.terminal step hold hclosed hvalid
    · rw [List.mem_singleton.mp hnew] at hclosed ⊢
      exact hterminal hclosed hvalid

theorem StepsKept.resume (hlawful : u.Lawful inputs)
    (hseparates : Separates F inputs.adapter.context) {run : SteppedRun F}
    (h : StepsKept u inputs run) (a : StepAttempt F) :
    StepsKept u inputs (run.resume u inputs a) := by
  unfold SteppedRun.resume
  cases hopen : run.checkpoint.terminal with
  | true => exact h
  | false =>
    have hholds := holds_step hlawful hseparates (h.left hopen) ⟨h.store, trivial⟩
    obtain ⟨hdurable,hevents,hraised,hreturned⟩ := hholds.reified a.answers
    have hgrows := grows_attempt (brokered directAuthority
      (runOneGepaIteration u.optimize inputs (some run.checkpoint))) a.answers run.state
    have hdriven := h.drive hdurable.1 hgrows.extends hevents
    simp only [Bool.false_eq_true, if_false, attemptStep]
    split
    · exact hdriven
    · rename_i error herror
      exact hdriven.raise (hraised error herror).2
    · rename_i detailed next st hout
      split
      · exact hdriven.advance hopen (hreturned _ hout).2
      · exact hdriven

/- The environment lets the process go on. -/
def GepaAnswer.Replies : GepaAnswer F → Prop
  | .stopsBefore => False
  | .stopsBehind => False
  | _ => True

omit [PythonRandom] in
theorem execOp_replies (o : GepaOp F) {answer : GepaAnswer F} (h : answer.Replies)
    (s : GepaState F) : (execOp o answer s).1.isSome = true := by
  cases answer with
  | stopsBefore => exact h.elim
  | stopsBehind => exact h.elim
  | _ => rfl

theorem steppedRun_kept (hlawful : u.Lawful inputs)
    (hseparates : Separates F inputs.adapter.context)
    (hbudget : 1 ≤ inputs.control.resolvedMaxMetricCalls) {s : GepaState F}
    (hstart : Untouched inputs.adapter.context s) (attempts : List (StepAttempt F)) :
    StepsKept u inputs (steppedRun u inputs s attempts) := by
  have hinit : StepsKept u inputs (.start s) :=
    { store := hstart.consistent _
      events := fun _ h => by cases h
      left := fun _ => hbudget
      counted := fun _ => Nat.le_refl _
      bounded := Nat.zero_le _
      below := fun _ h => by cases h
      increasing := List.pairwise_singleton _ _
      last := rfl
      errors := fun _ h => by cases h
      terminal := fun _ h => by cases h }
  unfold steppedRun
  generalize SteppedRun.start s = run at hinit
  induction attempts generalizing run with
  | nil => exact hinit
  | cons a rest ih => exact ih _ (hinit.resume hlawful hseparates a)

end Stepped

/-! ### A search of two metric calls -/

section Example

attribute [local instance] exactFiniteFloats

@[reducible] def titledRewards : RewardIdentity Rat := 
  ⟨RewardPolicy.policyName, fun reward => reward.rewardName⟩

@[reducible] def firstChoice : PythonRandom where
  Rng := Unit
  seeded _ := ()
  choice _ _ := (0, ())

attribute [local instance] titledRewards firstChoice

def marked (mark : Char) (n : Nat) : String := String.ofList (mark :: List.replicate n 'i')

@[reducible] def ordinalHashes : GepaIdentity Rat where
  slotHash slot := marked 's' slot.invocationOrdinal
  evaluationHash request := marked 'e' request.slot.invocationOrdinal
  proposalHash request := marked 'p' request.slot.invocationOrdinal
  requestContent e := marked 'r' e.slot.invocationOrdinal
  evaluationContent result := result.requestHash
  proposalContent result := result.requestHash
  intentHash intent := intent.evalRequest.requestId

attribute [local instance] ordinalHashes

theorem marked_inj {mark : Char} {n m : Nat} (h : marked mark n = marked mark m) : n = m := by
  have hlist := String.ofList_injective h
  have hlength := congrArg List.length hlist
  simpa using hlength

theorem marked_ne (n m : Nat) : marked 'e' n ≠ marked 'p' m := by
  intro h
  have hlist := String.ofList_injective h
  simp at hlist

def oneTask : GepaDataInstance := ⟨0, "task", "task-hash", ⟨"whetstone.task", "task"⟩, "loader"⟩

def seedText : Dict String String := Dict.empty.set "instruction" "Answer."

def toyControl (maxMetricCalls : Nat) : GepaControl Rat where
  identityHash := "control"
  resolvedMaxMetricCalls := maxMetricCalls
  seed := 0
  componentNames := ["instruction"]
  mutationField := "instruction"
  trainsetTaskHashes := ["task-hash"]
  sourceValsetTaskHashes := none
  valsetTaskHashes := ["task-hash"]
  upstreamSettings := []
  metricConfigHash := "metric"
  rewardPolicyHash := "policy"
  taskModelIdentityHash := "model"
  evaluationExecutionPolicyHash := "evaluation-policy"
  failureScore := exactFinite 0
  addFormatFailureAsFeedback := false
  warnOnScoreMismatch := true
  reflectionModelHash := "reflection"
  promptBindingIdentityHash := "binding"
  promptFormatIdentityHash := "format"
  proposalExecutionPolicyHash := "proposal-policy"
  proposalPromptAdapterIdentityHash := "prompt-adapter"
  proposalDurabilityPolicyIdentityHash := "durability"
  gepaSourceManifestHash := "manifest"

def toyAdapter : WhetstoneGepaAdapter Rat where
  context := ⟨"run", "control", "manifest", gepaUpstreamAdapterIdentityHash⟩
  evaluationAuthority := {
    authorityIdentityHash := "evaluation-authority"
    evaluationConfigHash := "metric"
    rewardPolicyIdentityHash := "policy"
    providerRouteIdentityHash := "model"
    executionPolicyIdentityHash := "evaluation-policy"
    promptAdapterIdentityHash := "prompt-adapter"
    responseParserIdentityHash := "parser"
    dataRegistryIdentityHash := "registry"
    failureScore := exactFinite 0
    addFormatFailureAsFeedback := false
    warnOnScoreMismatch := true
    selectionSeed := 0 }
  proposalAuthority := ⟨"proposal-authority", "transport", "binding", "proposal-policy",
    "prompt-adapter", "durability", "reflection"⟩
  promptServices := {
    componentNames := ["instruction"]
    validateReplacement := fun _ text => .ok text
    render := fun _ => .ok ⟨"Improve the instruction.", none⟩
    formatIdentityHash := "format"
    bindingIdentityHash := "binding" }

def toyInputs (maxMetricCalls : Nat) : GepaInputs Rat :=
  ⟨toyControl maxMetricCalls, seedText, [oneTask], none, toyAdapter, 1⟩

/- A search whose every score is perfect: each iteration evaluates the seed on one task and
   reflects on nothing. Its state is its total. -/
def perfectSearch : Upstream Rat where
  State := Nat
  start _ seed _ _ := .call (.evaluate [oneTask] seed false) fun
    | .ok _ => .done 1
    | .error error => .raise error
  iterate total := .call (.evaluate [oneTask] seedText true) fun
    | .ok _ => .done (total + 1)
    | .error error => .raise error
  total s := s
  result total := {
    candidates := [seedText]
    parents := [[none]]
    valAggregateScores := [1]
    valSubscores := [.empty]
    perValInstanceBestCandidates := .empty
    discoveryEvalCounts := [0]
    bestOutputsValset := none
    valAggregateSubscores := none
    perObjectiveBestCandidates := none
    objectiveParetoFront := none
    totalMetricCalls := some total
    numFullValEvals := some 1
    bestIdx := 0 }

def perfectDetailed (total : Nat) : DetailedFields Rat where
  candidates := [seedText]
  parents := [[none]]
  valAggregateScores := [1]
  valSubscores := [.empty]
  perValInstanceBestCandidates := .empty
  discoveryEvalCounts := [0]
  bestOutputsValset := none
  valAggregateSubscores := none
  perObjectiveBestCandidates := none
  objectiveParetoFront := none
  totalMetricCalls := some total
  numFullValEvals := some 1
  seed := 0
  validationNumSeeds := 1
  bestIdx := 0
  controlIdentityHash := "control"

theorem perfectSearch_lawful (maxMetricCalls : Nat) :
    perfectSearch.Lawful (toyInputs maxMetricCalls) where
  advances s r := by
    cases r with
    | ok batch => exact Nat.lt_succ_self s
    | error error => trivial
  reports s n h := (Option.some.inj h).symm
  projects s := ⟨⟨perfectDetailed s, rfl⟩, rfl⟩

theorem ordinalHashes_separates : Separates Rat toyAdapter.context where
  slots _ _ h := marked_inj h
  kinds _ _ := marked_ne _ _

def emptyStore : GepaState Rat := ⟨.empty, .empty, .empty, [], []⟩

theorem emptyStore_untouched : Untouched toyAdapter.context emptyStore where
  results _ _ h := by cases h
  slots _ := rfl

def perfectRow (captureTraces : Bool) : GepaEvaluationRow Rat where
  data := oneTask
  output := .str "answer"
  score := exactFinite 1
  objectiveScores := none
  trajectory := if captureTraces then
      some ⟨"task", .null, .null, "right", .empty, false, some 1, []⟩ else none
  evidenceRefs := [⟨"whetstone.evidence", "row"⟩]
  providerAttemptRefs := []
  failureRef := none
  valid := by cases captureTraces <;> decide

def perfectResult (ordinal : Nat) : GepaEvaluationEffectResult Rat where
  requestHash := marked 'e' ordinal
  rows := [perfectRow (ordinal ≠ 0)]
  logicalMetricCalls := 1
  resolution := none
  valid := rfl

/- The answers to an evaluation that is asked for, and to one on record. -/
def freshAnswers (ordinal : Nat) : List (GepaAnswer Rat) :=
  List.replicate 4 .goesOn ++ [.evaluated (.ok (perfectResult ordinal))] ++
    List.replicate 4 .goesOn

def replayAnswers : List (GepaAnswer Rat) := List.replicate 5 .goesOn

/- A process that stops behind its first recorded result, one whose checkpoint is lost, and two
   that return. -/
def crashedThenStepped : List (StepAttempt Rat) :=
  [⟨(freshAnswers 0).take 7, true⟩, ⟨replayAnswers, false⟩, ⟨replayAnswers, true⟩,
    ⟨replayAnswers ++ freshAnswers 1, true⟩]

end Example

end Whetstone.Optim.Gepa
