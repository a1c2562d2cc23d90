import Whetstone.Eval.SamplingClosure
import Whetstone.Lib.FirstSeen
import Whetstone.Platform.HeadWatermark
import Whetstone.Platform.IntentTasks
import Mathlib.Algebra.Ring.Nat

/-! The arithmetic of a deferral episode. The rows of the deferred intents, the stages they are
enqueued at, the barrier the head is parked on and the counts and stages that rows and fan-in
check are computed in different places; they agree. -/
namespace Whetstone.Platform
open Whetstone.Core Whetstone.Lib Whetstone.Eval Whetstone.Lib.Act

/- A row of an episode before it has an ordinal. -/
structure RowSlot where
  optimEvalRequest : OptimEvalRequest
  taskId : String
  seedIndex : Nat
deriving DecidableEq

def RowSlot.rowInput (slot : RowSlot) (state : OptimWorkState) (origin ordinal : Nat) :
    EvalRowInput :=
  { workState := state, deferralOriginStageIndex := origin, rowOrdinal := ordinal
    optimEvalRequest := slot.optimEvalRequest, taskId := slot.taskId
    seedIndex := slot.seedIndex }

def RowRecord.slot (record : RowRecord) : RowSlot :=
  ⟨record.optimEvalRequest, record.taskId, record.seedIndex⟩

section Rows

variable (runtime : Runtime) (taskIds : OptimEvalRequest → List String)

/- Every trial of every task of an intent, in the order of its rows. -/
def intentSlots (intent : OptimEvalRequest) : List RowSlot :=
  (taskIds intent).flatMap fun taskId =>
    (List.range runtime.numSeeds).map fun seedIndex => ⟨intent, taskId, seedIndex⟩

def episodeSlots (intents : List OptimEvalRequest) : List RowSlot :=
  intents.flatMap (intentSlots runtime taskIds)

def episodeRows (intents : List OptimEvalRequest) (state : OptimWorkState) (origin : Nat) :
    List EvalRowInput :=
  (episodeSlots runtime taskIds intents).mapIdx fun ordinal slot =>
    slot.rowInput state origin ordinal

/- The records the rows leave, whatever they came to. -/
def episodeRecords (rows : List EvalRowInput) (outcome : EvalRowInput → Option RowOutcome) :
    List RowRecord :=
  rows.map fun row => rowRecord row (outcome row)

def pairs (records : List RowRecord) : List (String × Nat) :=
  records.map fun record => (record.taskId, record.seedIndex)

theorem intentSlots_length (intent : OptimEvalRequest) :
    (intentSlots runtime taskIds intent).length =
      (taskIds intent).length * runtime.numSeeds := by
  simp only [intentSlots, List.length_flatMap, List.length_map, List.length_range,
    List.map_const', List.sum_replicate_nat]

theorem intentSlots_intent (intent : OptimEvalRequest) :
    ∀ slot ∈ intentSlots runtime taskIds intent, slot.optimEvalRequest = intent := by
  intro slot hslot
  obtain ⟨taskId,_,hslot⟩ := List.mem_flatMap.mp hslot
  obtain ⟨seedIndex,_,hslot⟩ := List.mem_map.mp hslot
  rw [← hslot]

theorem intentSlots_taskId (intent : OptimEvalRequest) :
    ∀ slot ∈ intentSlots runtime taskIds intent, slot.taskId ∈ taskIds intent := by
  intro slot hslot
  obtain ⟨taskId,htask,hslot⟩ := List.mem_flatMap.mp hslot
  obtain ⟨seedIndex,_,hslot⟩ := List.mem_map.mp hslot
  rw [← hslot]
  exact htask

theorem intentSlots_pairs (intent : OptimEvalRequest) :
    (intentSlots runtime taskIds intent).map (fun slot => (slot.taskId, slot.seedIndex)) =
      taskIds intent ×ˢ List.range runtime.numSeeds := by
  rw [intentSlots, List.map_flatMap]
  change _ = (taskIds intent).flatMap fun taskId => (List.range runtime.numSeeds).map (taskId, ·)
  simp only [List.map_map]
  rfl

/-- The slots of one intent are those of the episode that name it. -/
theorem episodeSlots_filter {intents : List OptimEvalRequest} (hnodup : intents.Nodup)
    {intent : OptimEvalRequest} (hmem : intent ∈ intents) :
    (episodeSlots runtime taskIds intents).filter (fun slot => slot.optimEvalRequest = intent) =
      intentSlots runtime taskIds intent := by
  induction intents with
  | nil => cases hmem
  | cons head rest ih =>
    obtain ⟨hhead,hrest⟩ := List.nodup_cons.mp hnodup
    rw [episodeSlots, List.flatMap_cons, List.filter_append]
    change _ ++ (episodeSlots runtime taskIds rest).filter _ = _
    rcases List.mem_cons.mp hmem with rfl | hin
    · have hown : (intentSlots runtime taskIds intent).filter
          (fun slot => slot.optimEvalRequest = intent) = intentSlots runtime taskIds intent := by
        rw [List.filter_eq_self]
        intro slot hslot
        simp [intentSlots_intent runtime taskIds intent slot hslot]
      have hothers : (episodeSlots runtime taskIds rest).filter
          (fun slot => slot.optimEvalRequest = intent) = [] := by
        rw [List.filter_eq_nil_iff]
        intro slot hslot
        obtain ⟨other,hother,hslot⟩ := List.mem_flatMap.mp hslot
        rw [decide_eq_true_eq, intentSlots_intent runtime taskIds other slot hslot]
        rintro rfl
        exact hhead hother
      rw [hown, hothers, List.append_nil]
    · have hother : (intentSlots runtime taskIds head).filter
          (fun slot => slot.optimEvalRequest = intent) = [] := by
        rw [List.filter_eq_nil_iff]
        intro slot hslot
        rw [decide_eq_true_eq, intentSlots_intent runtime taskIds head slot hslot]
        rintro rfl
        exact hhead hin
      rw [hother, List.nil_append]
      exact ih hrest hin

/-- The intents of the slots, each where it first occurs, are the intents. -/
theorem episodeSlots_firstSeen {intents : List OptimEvalRequest} (hnodup : intents.Nodup)
    (hseeds : 1 ≤ runtime.numSeeds) (hne : ∀ intent ∈ intents, taskIds intent ≠ []) :
    firstSeen ((episodeSlots runtime taskIds intents).map RowSlot.optimEvalRequest) =
      intents := by
  rw [episodeSlots, List.map_flatMap]
  apply firstSeen_flatMap _ _ _ hnodup
  intro intent hmem
  constructor
  · rw [ne_eq, List.map_eq_nil_iff, ← List.length_eq_zero_iff, intentSlots_length]
    have hlength := List.length_pos_iff.mpr (hne intent hmem)
    exact (Nat.mul_pos hlength hseeds).ne'
  · intro other hother
    obtain ⟨slot,hslot,rfl⟩ := List.mem_map.mp hother
    exact intentSlots_intent runtime taskIds intent slot hslot

theorem episodeRows_length (intents : List OptimEvalRequest) (state : OptimWorkState)
    (origin : Nat) : (episodeRows runtime taskIds intents state origin).length =
      (intents.map fun intent => (taskIds intent).length * runtime.numSeeds).sum := by
  rw [episodeRows, List.length_mapIdx, episodeSlots, List.length_flatMap]
  simp only [intentSlots_length]

theorem episodeRows_getElem (intents : List OptimEvalRequest) (state : OptimWorkState)
    (origin i : Nat) (row : EvalRowInput)
    (h : (episodeRows runtime taskIds intents state origin)[i]? = some row) :
    row.rowOrdinal = i ∧ row.deferralOriginStageIndex = origin ∧ row.workState = state := by
  rw [episodeRows, List.getElem?_mapIdx] at h
  obtain ⟨slot,_,hrow⟩ := Option.map_eq_some_iff.mp h
  rw [← hrow]
  exact ⟨rfl, rfl, rfl⟩

theorem episodeRecords_slots (intents : List OptimEvalRequest) (state : OptimWorkState)
    (origin : Nat) (outcome : EvalRowInput → Option RowOutcome) :
    (episodeRecords (episodeRows runtime taskIds intents state origin) outcome).map
      RowRecord.slot = episodeSlots runtime taskIds intents := by
  apply List.ext_getElem
  · simp [episodeRecords, episodeRows]
  · intro i _ _
    simp [episodeRecords, episodeRows, RowSlot.rowInput, rowRecord, RowRecord.slot]

end Rows

/-! ### The checks of the stages -/

theorem validatePlatformStageIndex_expected (expected : Nat) :
    validatePlatformStageIndex (some expected) expected = .ok () :=
  raiseIf_neg _ _ (not_not.mpr rfl)

theorem executeEvalRow_expected (runtime : Runtime) (row : EvalRowInput) (stageIndex : Nat)
    (h : stageIndex = row.deferralOriginStageIndex + 1 + row.rowOrdinal)
    (executor : Except String (Option RowOutcome)) :
    executeEvalRow runtime row (some stageIndex) executor =
      executeEvalRow runtime row none executor := by
  unfold executeEvalRow
  rw [h, validatePlatformStageIndex_expected]
  rfl

theorem executeEvalFanin_expected (runtime : Runtime) (join : DeferralJoinInput)
    (stageIndex : Nat) (h : stageIndex = join.workState.stage) (answer : FaninAnswer) :
    executeEvalFanin runtime join (some stageIndex) answer =
      executeEvalFanin runtime join none answer := by
  unfold executeEvalFanin
  rw [h, validatePlatformStageIndex_expected]
  rfl

/- What the rows, the stages and the counts of an episode have to agree on. -/
structure FannedOut (runtime : Runtime) (deferred : List OptimEvalRequest) (origin : Nat)
    (parked : OptimWorkState) (rows : List EvalRowInput) (join : DeferralJoinInput)
    (successors : List StageSuccessor) : Prop where
  numbered : successors.map StageSuccessor.stageIndex =
    List.range' (origin + 1) successors.length
  barrierLast : successors.map (fun successor =>
      (successor.stageKey, successor.input, successor.barrier)) =
    rows.map (fun row => (.evalRow, .evalRow row, false)) ++ [(.evalFanin, .join join, true)]
  persisted : join.workState = parked ∧ join.rowInputs = rows ∧
    parked.pendingDeferredIntents = deferred ∧ ∀ row ∈ rows, row.workState = parked
  rowsPass : ∀ successor ∈ successors, ∀ row, successor.input = .evalRow row → ∀ executor,
    executeEvalRow runtime row (some successor.stageIndex) executor =
      executeEvalRow runtime row none executor
  faninPasses : ∀ successor ∈ successors, successor.input = .join join → ∀ answer,
    executeEvalFanin runtime join (some successor.stageIndex) answer =
      executeEvalFanin runtime join none answer
  counted : deferredRowCount runtime parked.pendingDeferredIntents = .ok rows.length
  grouped : ∀ outcome records, records.Perm (episodeRecords rows outcome) →
    (uniqueIntents records).Perm deferred ∧ ∀ intent ∈ deferred, ∃ taskIds,
      runtime.taskIds intent = .ok taskIds ∧
      (pairs (records.filter fun record => record.optimEvalRequest = intent)).Perm
        (taskIds ×ˢ List.range runtime.numSeeds)
  ordered : ∀ outcome, uniqueIntents (episodeRecords rows outcome) = deferred

/-! ### The successors of a deferral -/

section Emit

variable {runtime : Runtime} {taskIds : OptimEvalRequest → List String}
  {deferred : List OptimEvalRequest}
  (hids : ∀ intent ∈ deferred, runtime.taskIds intent = .ok (taskIds intent))
include hids

theorem deferredRowCount_ok (state : OptimWorkState) (origin : Nat) :
    deferredRowCount runtime deferred =
      .ok (episodeRows runtime taskIds deferred state origin).length := by
  unfold deferredRowCount
  rw [mapM_ok _ (fun intent => (taskIds intent).length * runtime.numSeeds), ok_bind,
    episodeRows_length, ← List.sum_eq_foldl]
  · rfl
  · intro intent hmem
    rw [hids intent hmem]
    rfl

theorem expandEvalRows_ok (hnamed : ∀ intent ∈ deferred, "" ∉ taskIds intent)
    (state : OptimWorkState) (origin : Nat) :
    expandEvalRows runtime deferred origin state =
      .ok (episodeRows runtime taskIds deferred state origin) := by
  have hmakers : deferred.mapM (intentRows runtime state origin) = .ok (deferred.map fun intent =>
      (intentSlots runtime taskIds intent).map fun slot ordinal =>
        slot.rowInput state origin ordinal) := by
    apply mapM_ok
    intro intent hmem
    rw [intentRows, hids intent hmem, ok_bind, intentSlots, List.map_flatMap]
    simp only [List.map_map]
    rfl
  have hrows : (deferred.map fun intent => (intentSlots runtime taskIds intent).map
      fun slot ordinal => slot.rowInput state origin ordinal).flatten.mapIdx
        (fun ordinal row => row ordinal) = episodeRows runtime taskIds deferred state origin := by
    rw [← List.flatMap_def, ← List.map_flatMap]
    apply List.ext_getElem
    · simp [episodeRows, episodeSlots]
    · intro i _ _
      simp [episodeRows, episodeSlots]
  unfold expandEvalRows
  rw [hmakers, ok_bind]
  simp only [hrows]
  rw [raiseIf_neg]
  · rfl
  · rintro ⟨row,hrow,hempty⟩
    obtain ⟨i,hi,rfl⟩ := List.mem_mapIdx.mp hrow
    obtain ⟨intent,hmem,hslot⟩ := List.mem_flatMap.mp (List.getElem_mem hi)
    apply hnamed intent hmem
    have htask := intentSlots_taskId runtime taskIds intent _ hslot
    rwa [← hempty]

end Emit

def fanoutSuccessors (origin : Nat) (rows : List EvalRowInput) (join : DeferralJoinInput) :
    List StageSuccessor :=
  rows.mapIdx (fun ordinal row =>
    { stageKey := .evalRow, stageIndex := origin + 1 + ordinal, input := .evalRow row }) ++
  [{ stageKey := .evalFanin, stageIndex := origin + 1 + rows.length, input := .join join
     barrier := true }]

theorem fanoutSuccessors_numbered (origin : Nat) (rows : List EvalRowInput)
    (join : DeferralJoinInput) :
    (fanoutSuccessors origin rows join).map StageSuccessor.stageIndex =
      List.range' (origin + 1) (fanoutSuccessors origin rows join).length := by
  rw [fanoutSuccessors, List.length_append, List.length_mapIdx, List.length_singleton,
    List.range'_concat, List.map_append, List.map_singleton, Nat.one_mul]
  congr 1
  apply List.ext_getElem
  · simp
  · intro i _ _
    simp

theorem fanoutSuccessors_staged (origin : Nat) (rows : List EvalRowInput)
    (join : DeferralJoinInput) :
    (fanoutSuccessors origin rows join).map (fun successor =>
        (successor.stageKey, successor.input, successor.barrier)) =
      rows.map (fun row => (.evalRow, .evalRow row, false)) ++
        [(.evalFanin, .join join, true)] := by
  rw [fanoutSuccessors, List.map_append, List.map_singleton]
  congr 1
  apply List.ext_getElem
  · simp
  · intro i _ _
    simp

theorem fanoutSuccessors_row {origin : Nat} {rows : List EvalRowInput} {join : DeferralJoinInput}
    {successor : StageSuccessor} {row : EvalRowInput}
    (hmem : successor ∈ fanoutSuccessors origin rows join)
    (hrow : successor.input = .evalRow row) :
    ∃ i, rows[i]? = some row ∧ successor.stageIndex = origin + 1 + i := by
  rcases List.mem_append.mp hmem with hin | hin
  · obtain ⟨i,hi,rfl⟩ := List.mem_mapIdx.mp hin
    cases hrow
    exact ⟨i, List.getElem?_eq_getElem hi, rfl⟩
  · cases List.mem_singleton.mp hin
    cases hrow

theorem fanoutSuccessors_join {origin : Nat} {rows : List EvalRowInput} {join : DeferralJoinInput}
    {successor : StageSuccessor} (hmem : successor ∈ fanoutSuccessors origin rows join)
    (hjoin : successor.input = .join join) :
    successor.stageIndex = origin + 1 + rows.length := by
  rcases List.mem_append.mp hmem with hin | hin
  · obtain ⟨i,hi,rfl⟩ := List.mem_mapIdx.mp hin
    cases hjoin
  · cases List.mem_singleton.mp hin
    rfl

section Episode

variable {runtime : Runtime} {taskIds : OptimEvalRequest → List String}
  {deferred : List OptimEvalRequest} {parked : OptimWorkState} {origin : Nat}
  {join : DeferralJoinInput}

/-- The rows of distinct intents that have tasks, and a fan-in parked behind them. -/
theorem episodeRows_fannedOut (hdistinct : deferred.Nodup) (hseeds : 1 ≤ runtime.numSeeds)
    (hids : ∀ intent ∈ deferred, runtime.taskIds intent = .ok (taskIds intent))
    (hne : ∀ intent ∈ deferred, taskIds intent ≠ [])
    (hstage : parked.stage =
      origin + (episodeRows runtime taskIds deferred parked origin).length + 1)
    (hpending : parked.pendingDeferredIntents = deferred) (hjoin : join.workState = parked)
    (hinputs : join.rowInputs = episodeRows runtime taskIds deferred parked origin) :
    FannedOut runtime deferred origin parked (episodeRows runtime taskIds deferred parked origin)
      join (fanoutSuccessors origin (episodeRows runtime taskIds deferred parked origin) join) where
  numbered := fanoutSuccessors_numbered _ _ _
  barrierLast := fanoutSuccessors_staged _ _ _
  persisted := by
    refine ⟨hjoin, hinputs, hpending, ?_⟩
    intro row hrow
    obtain ⟨i,hi⟩ := List.mem_iff_getElem?.mp hrow
    exact (episodeRows_getElem _ _ _ _ _ _ _ hi).2.2
  rowsPass := by
    intro successor hmem row hrow executor
    obtain ⟨i,hi,hindex⟩ := fanoutSuccessors_row hmem hrow
    obtain ⟨hordinal,horigin,_⟩ := episodeRows_getElem _ _ _ _ _ _ _ hi
    apply executeEvalRow_expected
    rw [hindex, hordinal, horigin]
  faninPasses := by
    intro successor hmem hinput answer
    apply executeEvalFanin_expected
    have hindex := fanoutSuccessors_join hmem hinput
    rw [hjoin, hstage]
    omega
  counted := by
    rw [hpending]
    exact deferredRowCount_ok hids parked origin
  grouped := by
    intro outcome records hperm
    have hslots := hperm.map RowRecord.slot
    rw [episodeRecords_slots] at hslots
    refine ⟨?_, ?_⟩
    · change (firstSeen (records.map RowRecord.optimEvalRequest)).Perm deferred
      rw [List.perm_ext_iff_of_nodup (firstSeen_nodup _) hdistinct]
      intro intent
      have hsame := (hslots.map RowSlot.optimEvalRequest).mem_iff (a := intent)
      rw [List.map_map] at hsame
      rw [mem_firstSeen, ← episodeSlots_firstSeen runtime taskIds hdistinct hseeds hne,
        mem_firstSeen]
      exact hsame
    · intro intent hmem
      refine ⟨taskIds intent, hids intent hmem, ?_⟩
      rw [← intentSlots_pairs, ← episodeSlots_filter runtime taskIds hdistinct hmem]
      have hgroup := (hslots.filter fun slot => slot.optimEvalRequest = intent).map
        fun slot => (slot.taskId, slot.seedIndex)
      rw [List.filter_map, List.map_map] at hgroup
      exact hgroup
  ordered := by
    intro outcome
    have hslots := congrArg (List.map RowSlot.optimEvalRequest)
      (episodeRecords_slots runtime taskIds deferred parked origin outcome)
    rw [List.map_map] at hslots
    change firstSeen (List.map (RowSlot.optimEvalRequest ∘ RowRecord.slot) _) = deferred
    rw [hslots]
    exact episodeSlots_firstSeen runtime taskIds hdistinct hseeds hne

/- The head a deferral of so many rows leaves. -/
def parkedBehind (state : OptimWorkState) (deferred : List OptimEvalRequest)
    (origin rowCount : Nat) (pending : OptimStepResult) : OptimWorkState :=
  { workInput := nextWorkInput state (origin + rowCount + 1)
    stepIndex := state.stepIndex
    stepResultRefs := state.stepResultRefs
    pendingStepResultRef := some pending
    deferralOptimStepStageIndex := some origin
    pendingDeferredIntents := deferred }

/-- The head is parked before the successors are emitted. -/
theorem platformDeferredSuccessors_eq {rowCount : Nat} {successors : Except String _}
    (hcount : deferredRowCount runtime deferred = .ok rowCount) (state : OptimWorkState)
    (pending : OptimStepResult) (s : Store)
    (hemit : emitDeferredSuccessors runtime deferred origin
      (parkedBehind state deferred origin rowCount pending) = successors) :
    platformDeferredSuccessors runtime state deferred origin pending s =
      (successors.map fun emitted =>
          ⟨.workState (parkedBehind state deferred origin rowCount pending), emitted⟩,
        { s with head := some (parkedBehind state deferred origin rowCount pending) }) := by
  unfold platformDeferredSuccessors
  rw [hcount]
  change (ofExcept (emitDeferredSuccessors runtime deferred origin
    (parkedBehind state deferred origin rowCount pending)) >>= _) _ = _
  rw [hemit]
  cases successors with
  | error message => rfl
  | ok emitted => rfl

variable (origin) in
/-- A deferral parks the head and emits the fan-out of its rows. -/
theorem platformDeferredSuccessors_fannedOut (hne : deferred ≠ []) (hdistinct : deferred.Nodup)
    (hseeds : 1 ≤ runtime.numSeeds)
    (hids : ∀ intent ∈ deferred, runtime.taskIds intent = .ok (taskIds intent))
    (htasks : ∀ intent ∈ deferred, taskIds intent ≠ [] ∧ "" ∉ taskIds intent)
    (state : OptimWorkState) (pending : OptimStepResult) (s : Store) :
    ∃ parked rows join successors,
      platformDeferredSuccessors runtime state deferred origin pending s =
        (.ok ⟨.workState parked, successors⟩, { s with head := some parked }) ∧
      FannedOut runtime deferred origin parked rows join successors := by
  obtain ⟨primary,rest,rfl⟩ := List.exists_cons_of_ne_nil hne
  obtain ⟨rowCount,hcount⟩ : ∃ n, deferredRowCount runtime (primary :: rest) = .ok n :=
    ⟨_, deferredRowCount_ok hids state origin⟩
  let parked := parkedBehind state (primary :: rest) origin rowCount pending
  let rows := episodeRows runtime taskIds (primary :: rest) parked origin
  -- the count is taken before the state that the rows carry exists
  have hlength : rowCount = rows.length :=
    Except.ok.inj (hcount.symm.trans (deferredRowCount_ok hids parked origin))
  have hrows : rows ≠ [] := by
    rw [ne_eq, ← List.length_eq_zero_iff, episodeRows_length, List.map_cons, List.sum_cons]
    have hprimary := List.length_pos_iff.mpr (htasks primary List.mem_cons_self).1
    have hpos := Nat.mul_pos hprimary hseeds
    omega
  have hemit : emitDeferredSuccessors runtime (primary :: rest) origin parked =
      .ok (fanoutSuccessors origin rows ⟨parked, origin, primary, rows⟩) := by
    unfold emitDeferredSuccessors
    rw [expandEvalRows_ok hids (fun intent hmem => (htasks intent hmem).2), ok_bind, joinInput,
      raiseIf_neg _ _ hrows]
    rfl
  have hstage : parked.stage = origin + rows.length + 1 := by
    rw [← hlength]
    rfl
  refine ⟨parked, rows, ⟨parked, origin, primary, rows⟩, _,
    platformDeferredSuccessors_eq hcount state pending s hemit, ?_⟩
  exact episodeRows_fannedOut hdistinct hseeds hids (fun intent hmem => (htasks intent hmem).1)
    hstage rfl rfl rfl

variable (origin) in
/-- A deferral of intents without tasks has no rows to join. -/
theorem platformDeferredSuccessors_idle
    (hids : ∀ intent ∈ deferred, runtime.taskIds intent = .ok [])
    (state : OptimWorkState) (pending : OptimStepResult) (s : Store) :
    ∃ message s', platformDeferredSuccessors runtime state deferred origin pending s =
      (.error message, s') := by
  have hcount := deferredRowCount_ok hids state origin
  have hemit : ∀ parked, ∃ message,
      emitDeferredSuccessors runtime deferred origin parked = .error message := by
    intro parked
    have hnone : episodeRows runtime (fun _ => []) deferred parked origin = [] := by
      rw [← List.length_eq_zero_iff, episodeRows_length]
      simp
    unfold emitDeferredSuccessors
    rw [expandEvalRows_ok hids (fun _ _ => List.not_mem_nil), ok_bind, hnone]
    cases deferred with
    | nil => exact ⟨_, rfl⟩
    | cons primary rest => exact ⟨_, rfl⟩
  obtain ⟨message,herror⟩ := hemit (parkedBehind state deferred origin
    (episodeRows runtime (fun _ => []) deferred state origin).length pending)
  exact ⟨message, _, platformDeferredSuccessors_eq hcount state pending s herror⟩

end Episode

section Engine

variable [IdentityHasher]

theorem taskIdsForIntent_nil {engine : EngineSampling} {intent : OptimEvalRequest}
    {taskIds : List String} (hnil : engine.sampling.tasks = [])
    (h : taskIdsForIntent engine intent = .ok taskIds) : taskIds = [] := by
  cases hsubset : intent.taskHashes with
  | none =>
    rw [taskIdsForIntent_full hsubset h, hnil]
    rfl
  | some taskHashes =>
    obtain ⟨hnamed,_,_⟩ := taskIdsForIntent_subset hsubset h
    cases taskHashes with
    | nil =>
      cases hnamed
      rfl
    | cons taskHash rest =>
      obtain ⟨taskId,hid⟩ := mapM_mem_ok hnamed taskHash List.mem_cons_self
      rw [taskIdOfHash, idByHash, hnil, List.map_nil, List.zip_nil_right] at hid
      cases hid

/- The full list names the tasks of the engine, a subset those of its hashes, each once. -/
def TasksOf (engine : EngineSampling) (intent : OptimEvalRequest) (taskIds : List String) :
    Prop :=
  match intent.taskHashes with
  | none => taskIds = engine.sampling.tasks.map (fun task => task.taskId)
  | some taskHashes =>
    taskHashes.mapM (taskIdOfHash engine.sampling) = .ok taskIds ∧ taskIds.Nodup

/-- Deferral fan-out is self-consistent. A deferral of distinct intents raises only where the
tasks of an intent cannot be resolved or the engine has none. Otherwise the head is parked, the
successors are numbered from the stage behind the deferral with one barrier fan-in last, every
stage passes its own check, the fan-in expects as many rows as there are row successors, and the
row records fall into the deferred intents, each with every trial of its tasks. -/
theorem deferral_fanout_consistent (runtime : Runtime) (engine : EngineSampling)
    (deferred : List OptimEvalRequest) (hne : deferred ≠ []) (hdistinct : deferred.Nodup)
    (state : OptimWorkState) (origin : Nat) (pending : OptimStepResult) (s : Store) :
    (∃ message s', platformDeferredSuccessors (runtime.servedBy engine) state deferred origin
        pending s = (.error message, s') ∧
      ((∃ intent ∈ deferred, taskIdsForIntent engine intent = .error message) ∨
        engine.sampling.tasks = [])) ∨
    ∃ parked rows join successors,
      platformDeferredSuccessors (runtime.servedBy engine) state deferred origin pending s =
        (.ok ⟨.workState parked, successors⟩, { s with head := some parked }) ∧
      FannedOut (runtime.servedBy engine) deferred origin parked rows join successors ∧
      ∀ intent ∈ deferred, ∃ taskIds, taskIdsForIntent engine intent = .ok taskIds ∧
        TasksOf engine intent taskIds := by
  cases hcount : deferredRowCount (runtime.servedBy engine) deferred with
  | error message =>
    refine .inl ⟨message, s, ?_, .inl ?_⟩
    · unfold platformDeferredSuccessors
      rw [hcount]
      rfl
    · unfold deferredRowCount at hcount
      cases hcounts : deferred.mapM fun intent => do
          return (← (runtime.servedBy engine).taskIds intent).length *
            (runtime.servedBy engine).numSeeds with
      | ok counts =>
        rw [hcounts] at hcount
        cases hcount
      | error e =>
        rw [hcounts] at hcount
        cases hcount
        obtain ⟨intent,hmem,herror⟩ := mapM_error_mem hcounts
        refine ⟨intent, hmem, ?_⟩
        change (taskIdsForIntent engine intent >>= _) = _ at herror
        cases htask : taskIdsForIntent engine intent with
        | error e =>
          rw [htask] at herror
          cases herror
          rfl
        | ok taskIds =>
          rw [htask] at herror
          cases herror
  | ok rowCount =>
    obtain ⟨counts,hcounts,_⟩ := (bind_eq_ok _ _ _).mp hcount
    have hserved : ∀ intent ∈ deferred, ∃ taskIds,
        taskIdsForIntent engine intent = .ok taskIds := by
      intro intent hmem
      obtain ⟨count,hone⟩ := mapM_mem_ok hcounts intent hmem
      obtain ⟨taskIds,htask,_⟩ := (bind_eq_ok _ _ _).mp hone
      exact ⟨taskIds, htask⟩
    let taskIds : OptimEvalRequest → List String := fun intent =>
      ((taskIdsForIntent engine intent).toOption).getD []
    have hids : ∀ intent ∈ deferred,
        (runtime.servedBy engine).taskIds intent = .ok (taskIds intent) := by
      intro intent hmem
      obtain ⟨own,hown⟩ := hserved intent hmem
      change taskIdsForIntent engine intent = _
      simp only [taskIds, hown]
      rfl
    by_cases hnil : engine.sampling.tasks = []
    · have hidle : ∀ intent ∈ deferred, (runtime.servedBy engine).taskIds intent = .ok [] := by
        intro intent hmem
        rw [hids intent hmem, taskIdsForIntent_nil hnil (hids intent hmem)]
      obtain ⟨message,s',hrun⟩ := platformDeferredSuccessors_idle origin hidle state
        pending s
      exact .inl ⟨message, s', hrun, .inr hnil⟩
    · have hvalid := engine.sampling.seedPlan.valid
      rw [validateSlots, raiseIf_bind_eq_ok] at hvalid
      have hseeds : 1 ≤ (runtime.servedBy engine).numSeeds := Nat.le_of_not_lt hvalid.1
      obtain ⟨parked,rows,join,successors,hrun,hfanned⟩ :=
        platformDeferredSuccessors_fannedOut origin hne hdistinct hseeds hids
          (fun intent hmem => ⟨taskIdsForIntent_ne_nil hnil (hids intent hmem),
            taskIdsForIntent_named (hids intent hmem)⟩) state pending s
      refine .inr ⟨parked, rows, join, successors, hrun, hfanned, ?_⟩
      intro intent hmem
      refine ⟨taskIds intent, hids intent hmem, ?_⟩
      unfold TasksOf
      cases hsubset : intent.taskHashes with
      | none => exact taskIdsForIntent_full hsubset (hids intent hmem)
      | some taskHashes =>
        obtain ⟨hnamed,_,hnodup⟩ := taskIdsForIntent_subset hsubset (hids intent hmem)
        exact ⟨hnamed, hnodup⟩

end Engine

section Solo

attribute [local instance] schemaHasher

def soloDeferred : List OptimEvalRequest := [⟨"q0", none⟩, ⟨"q1", some [soloHash]⟩]

theorem soloDeferred_returns :
    (platformDeferredSuccessors (replayRuntime.servedBy soloEngine) replayParked soloDeferred 3
      (replayResult 0 []) (launched (replayInput 0)).store).1.toBool = true := by decide +kernel

/-- Non-vacuity: the full list and a subset of one task with two seeds fan out to four rows and
their fan-in. -/
theorem solo_fans_out :
    ∃ parked rows join successors,
      platformDeferredSuccessors (replayRuntime.servedBy soloEngine) replayParked soloDeferred 3
          (replayResult 0 []) (launched (replayInput 0)).store =
        (.ok ⟨.workState parked, successors⟩,
          { (launched (replayInput 0)).store with head := some parked }) ∧
      FannedOut (replayRuntime.servedBy soloEngine) soloDeferred 3 parked rows join
        successors := by
  have hreturns := soloDeferred_returns
  rcases deferral_fanout_consistent replayRuntime soloEngine soloDeferred (by decide) (by decide)
      replayParked 3 (replayResult 0 []) (launched (replayInput 0)).store with
    ⟨message,s',hrun,_⟩ | ⟨parked,rows,join,successors,hrun,hfanned,_⟩
  · rw [hrun] at hreturns
    cases hreturns
  · exact ⟨parked, rows, join, successors, hrun, hfanned⟩

end Solo

end Whetstone.Platform
