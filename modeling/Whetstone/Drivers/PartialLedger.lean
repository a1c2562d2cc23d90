import Whetstone.Drivers.RowAccumulation
import Whetstone.Execution.PartialLog
import Mathlib.Algebra.Ring.Int.Defs
import Mathlib.Algebra.Ring.Rat

/-! A row beside the log of its calls. The attempts of a row issue one request, so that their
records have one key and each replaces the one before it. -/
namespace Whetstone.Drivers
open Whetstone.Core Whetstone.Lib Whetstone.Eval Whetstone.Provider Whetstone.Execution

attribute [local instance] exactFloats

/- What identifies the calls of a row, beside the request they share. -/
def ScheduledRow.partialKey (row : ScheduledRow) (requestHash : String) : PartialKey :=
  ⟨row.splitRole, row.taskId, row.candidateId, row.seedIndex, requestHash⟩

/- The records under the phase, the task, the unit and the seed of a row. -/
def rowRecords (row : ScheduledRow) (records : List PartialCallRecord) :
    List PartialCallRecord :=
  records.filter fun record => decide (record.key = row.partialKey record.key.requestHash)

section Ledger

variable [PartialNames]

/- The log after the LLM node of an attempt. A node that raised left no record. -/
def logAttempt (row : ScheduledRow) (requestHash : String) (log : PartialLog)
    (attempt : RowAttempt Rat) : Except String PartialLog :=
  match attempt.llm with
  | .raised .. => .ok log
  | .called _ execution =>
    PartialLog.append log (partialCallRecord (row.partialKey requestHash) row.splitRole execution)

/- The log after the first attempts. -/
def logAttempts (row : ScheduledRow) (requestHash : String) (log : PartialLog)
    (attempts : Nat → RowAttempt Rat) : Nat → Except String PartialLog
  | 0 => .ok log
  | count + 1 => do
    let log ← logAttempts row requestHash log attempts count
    logAttempt row requestHash log (attempts count)

variable [JsonText]

/- `attemptLoop` beside a log. -/
def loggedLoop (append : PartialLog → Nat → Except String PartialLog)
    (execute : Nat → Except String (RolloutRowOutput Rat)) :
    (remaining attemptIndex : Nat) → (previous : Option (RolloutRowOutput Rat)) → PartialLog →
      Except String (RolloutRowOutput Rat × PartialLog)
  | 0, _, previous, log => do return (← raised "AssertionError" previous, log)
  | remaining + 1, attemptIndex, previous, log => do
    let log ← append log attemptIndex
    let output ← execute attemptIndex
    let output := withAccumulatedAttemptUsage output previous (attemptIndex + 1)
    if rowIsRetryable output then
      loggedLoop append execute remaining (attemptIndex + 1) (some output) log
    else return (output, log)

variable [Conversions Rat]

/- `run_rollout_row` with a log attached; `requestHash` is the request of the rendered prompt and
   the seed, which every attempt issues. -/
def runLoggedRow (context : RolloutContext Rat) (attempts : Nat → RowAttempt Rat)
    (row : ScheduledRow) (maxRowAttempts : Nat) (requestHash : String) (log : PartialLog) :
    Except String (RolloutRowOutput Rat × PartialLog) := do
  raiseIf (maxRowAttempts < 1) "max_row_attempts must be at least 1"
  raiseIf (row.taskId = "") "task must expose a non-empty task_id"
  let rendered ← context.render row.template row.promptInputs
  loggedLoop (fun log attempt => logAttempt row requestHash log (attempts attempt))
    (executeAttempt (context.driven attempts) row.key rendered row.rngSeed) maxRowAttempts 0 none
    log

omit [Conversions Rat] in
theorem loggedLoop_ok {row : ScheduledRow} {requestHash : String}
    {attempts : Nat → RowAttempt Rat}
    {execute : Nat → Except String (RolloutRowOutput Rat)} {remaining index : Nat}
    {previous : Option (RolloutRowOutput Rat)} {start log last : PartialLog}
    {output : RolloutRowOutput Rat}
    (hprevious : ∀ before, previous = some before → before.rowAttempts = index)
    (hlog : logAttempts row requestHash start attempts index = .ok log)
    (h : loggedLoop (fun log attempt => logAttempt row requestHash log (attempts attempt)) execute
      remaining index previous log = .ok (output, last)) :
    attemptLoop execute remaining index previous = .ok output ∧
      logAttempts row requestHash start attempts output.rowAttempts.toNat = .ok last := by
  induction remaining generalizing index previous log with
  | zero =>
    obtain ⟨before,hbefore,h⟩ := (bind_eq_ok _ _ _).mp h
    cases h
    cases previous with
    | none => cases hbefore
    | some row =>
      cases hbefore
      refine ⟨rfl, ?_⟩
      rw [hprevious _ rfl]
      exact hlog
  | succ remaining ih =>
    rw [loggedLoop] at h
    obtain ⟨next,hnext,h⟩ := (bind_eq_ok _ _ _).mp h
    obtain ⟨executed,hexecuted,h⟩ := (bind_eq_ok _ _ _).mp h
    have hlogged : logAttempts row requestHash start attempts (index + 1) = .ok next := by
      rw [logAttempts, hlog, ok_bind]
      exact hnext
    have hcounted : (withAccumulatedAttemptUsage executed previous (index + 1)).rowAttempts =
        ((index + 1 : Nat) : Int) := by
      cases previous <;> rfl
    rw [attemptLoop, hexecuted, ok_bind]
    dsimp only at h ⊢
    by_cases hretry : rowIsRetryable
        (withAccumulatedAttemptUsage executed previous (index + 1)) = true
    · rw [if_pos hretry] at h ⊢
      refine ih (fun before hbefore => ?_) hlogged h
      rw [← Option.some.inj hbefore]
      exact hcounted
    · rw [if_neg hretry] at h ⊢
      cases h
      refine ⟨rfl, ?_⟩
      rw [hcounted]
      exact hlogged

theorem runLoggedRow_ok {context : RolloutContext Rat} {attempts : Nat → RowAttempt Rat}
    {row : ScheduledRow} {maxRowAttempts : Nat} {requestHash : String} {start last : PartialLog}
    {output : RolloutRowOutput Rat}
    (h : runLoggedRow context attempts row maxRowAttempts requestHash start = .ok (output, last)) :
    runRolloutRow (context.driven attempts) row maxRowAttempts = .ok output ∧
      logAttempts row requestHash start attempts output.rowAttempts.toNat = .ok last := by
  unfold runLoggedRow at h
  simp only [raiseIf_bind_eq_ok] at h
  obtain ⟨hmax,htask,h⟩ := h
  obtain ⟨rendered,hrendered,h⟩ := (bind_eq_ok _ _ _).mp h
  obtain ⟨hloop,hlog⟩ := loggedLoop_ok (fun _ hnone => by cases hnone) rfl h
  refine ⟨?_, hlog⟩
  unfold runRolloutRow
  simp only [raiseIf_neg _ _ hmax, raiseIf_neg _ _ htask, ok_bind]
  have hsame : (context.driven attempts).render row.template row.promptInputs = .ok rendered :=
    hrendered
  rw [hsame, ok_bind]
  exact hloop

/-! ### What the log holds of a row -/

/- The count of the call that the LLM node of an attempt executed. -/
def callField {β : Type} [AddCommMonoid β] (field : Field β) (attempt : RowAttempt Rat) :
    Option β :=
  match attempt.llm with
  | .raised .. => none
  | .called _ execution => completeSum (execution.result.billedResponses.map field)

/- The node called the provider, or the cache, and the call has both token counts. -/
structure ReportsCounts (attempt : RowAttempt Rat) : Prop where
  called : ∃ prompt execution, attempt.llm = .called prompt execution
  prompt : (callField (·.promptTokens) attempt).isSome = true
  completion : (callField (·.completionTokens) attempt).isSome = true

/-- The records account for the row. -/
structure LedgerAgrees (records : List PartialCallRecord) (output : RolloutRowOutput Rat) :
    Prop where
  number : (records.length : Int) = output.rowAttempts
  prompt : output.promptTokens = some (records.map fun record => record.promptTokens.getD 0).sum
  completion :
    output.completionTokens = some (records.map fun record => record.completionTokens.getD 0).sum

/- The records of a log under the coordinates of a row, but for that of its request. -/
def otherRecords (row : ScheduledRow) (requestHash : String) (log : PartialLog) :
    List PartialCallRecord :=
  rowRecords row (log.erase (PartialNames.entryName (row.partialKey requestHash))).values

/-- What the log must hold beside the record of the last attempt: as many records as there are
earlier attempts, with the tokens that the row has beyond those of its last call. -/
structure LedgerComplete (others : List PartialCallRecord) (attempts : Nat → RowAttempt Rat)
    (count : Nat) : Prop where
  number : others.length + 1 = count
  reaches : ∃ i < count, (attempts i).carried.isSome = true
  prompt : (callField (·.promptTokens) (attempts (count - 1))).getD 0 +
      (others.map fun record => record.promptTokens.getD 0).sum =
    ((List.range count).map fun i => (carriedField (·.promptTokens) (attempts i)).getD 0).sum
  completion : (callField (·.completionTokens) (attempts (count - 1))).getD 0 +
      (others.map fun record => record.completionTokens.getD 0).sum =
    ((List.range count).map fun i => (carriedField (·.completionTokens) (attempts i)).getD 0).sum

omit [PartialNames] [JsonText] [Conversions Rat] in
theorem carriedField_eq {β : Type} [AddCommMonoid β] (field : Field β) (attempt : RowAttempt Rat) :
    carriedField field attempt =
      if attempt.carried.isSome then callField field attempt else none := by
  unfold carriedField callField RowAttempt.carried
  cases attempt.llm with
  | raised => rfl
  | called prompt execution => cases attempt.reachesRow <;> rfl

omit [JsonText] [Conversions Rat] in
/- The log after attempts that all called holds the record of the last one. -/
theorem logAttempts_called {row : ScheduledRow} {requestHash : String} {start last : PartialLog}
    {attempts : Nat → RowAttempt Rat} {count : Nat}
    (hcalled : ∀ i ≤ count, ReportsCounts (attempts i))
    (h : logAttempts row requestHash start attempts (count + 1) = .ok last) :
    ∃ record : PartialCallRecord,
      record.key = row.partialKey requestHash ∧
      record.promptTokens = callField (·.promptTokens) (attempts count) ∧
      record.completionTokens = callField (·.completionTokens) (attempts count) ∧
      last = start.set (PartialNames.entryName (row.partialKey requestHash)) record := by
  induction count generalizing last with
  | zero =>
    obtain ⟨prompt,execution,hllm⟩ := (hcalled 0 (Nat.le_refl 0)).called
    simp only [logAttempts, ok_bind, logAttempt, hllm] at h
    refine ⟨_, rfl, ?_, ?_, append_ok h⟩
    · simp only [callField, hllm]
      rfl
    · simp only [callField, hllm]
      rfl
  | succ count ih =>
    rw [logAttempts] at h
    obtain ⟨log,hlog,h⟩ := (bind_eq_ok _ _ _).mp h
    obtain ⟨before,_,_,_,rfl⟩ := ih (fun i hi => hcalled i (by omega)) hlog
    obtain ⟨prompt,execution,hllm⟩ := (hcalled (count + 1) (Nat.le_refl _)).called
    simp only [logAttempt, hllm] at h
    have hlast := append_ok h
    rw [partialCallRecord, Dict.set_set] at hlast
    refine ⟨_, rfl, ?_, ?_, hlast⟩
    · simp only [callField, hllm]
      rfl
    · simp only [callField, hllm]
      rfl

omit [JsonText] [Conversions Rat] in
theorem rowRecords_set {row : ScheduledRow} {requestHash : String} (start : PartialLog)
    {record : PartialCallRecord} (hkey : record.key = row.partialKey requestHash) :
    (rowRecords row (PartialLog.load
      (start.set (PartialNames.entryName (row.partialKey requestHash)) record))).Perm
        (record :: otherRecords row requestHash start) := by
  have hperm := (Dict.values_set_perm start
    (PartialNames.entryName (row.partialKey requestHash)) record).filter fun record =>
      decide (record.key = row.partialKey record.key.requestHash)
  rw [List.filter_cons_of_pos (by simp [hkey, ScheduledRow.partialKey])] at hperm
  exact hperm

omit [PartialNames] [JsonText] [Conversions Rat] in
/- The row has a count when some attempt carries its call. -/
theorem carriedTotal_eq {field : Field Int} {attempts : Nat → RowAttempt Rat} {count : Nat}
    (hreports : ∀ i < count, (callField field (attempts i)).isSome = true) (total : Int) :
    carriedTotal field attempts count = some total ↔
      (∃ i < count, (attempts i).carried.isSome = true) ∧
        total = ((List.range count).map fun i =>
          (carriedField field (attempts i)).getD 0).sum := by
  have hcarried : Carried field attempts count ↔
      ∃ i < count, (attempts i).carried.isSome = true := by
    constructor
    · rintro ⟨i,hi,hsome⟩
      refine ⟨i, hi, ?_⟩
      rw [carriedField_eq] at hsome
      by_contra hnot
      rw [if_neg hnot] at hsome
      cases hsome
    · rintro ⟨i,hi,hsome⟩
      exact ⟨i, hi, by rw [carriedField_eq, if_pos hsome]; exact hreports i hi⟩
  have hsum : ∀ total', carriedTotal field attempts count = some total' →
      total' = ((List.range count).map fun i => (carriedField field (attempts i)).getD 0).sum := by
    intro total' h
    rw [knownSum_eq_some h, sum_reduceOption, List.map_map]
    rfl
  constructor
  · intro h
    exact ⟨hcarried.mp (carriedTotal_isSome.mp (by rw [h]; rfl)), hsum total h⟩
  · rintro ⟨hreaches,htotal⟩
    obtain ⟨total',h⟩ :=
      Option.isSome_iff_exists.mp (carriedTotal_isSome.mpr (hcarried.mpr hreaches))
    rw [h, htotal, hsum total' h]

/-- The log accounts for a row exactly when its other records make up for those that the last
attempt replaced. A log without such records accounts for the rows of a single attempt whose
call reaches the row, and for no others. -/
theorem ledger_agrees (context : RolloutContext Rat) (attempts : Nat → RowAttempt Rat)
    (row : ScheduledRow) (maxRowAttempts : Nat) (requestHash : String) (start last : PartialLog)
    (output : RolloutRowOutput Rat)
    (h : runLoggedRow context attempts row maxRowAttempts requestHash start = .ok (output, last))
    (hreports : ∀ i : Nat, (i : Int) < output.rowAttempts → ReportsCounts (attempts i)) :
    ∃ count : Nat, output.rowAttempts = count ∧
      (LedgerAgrees (rowRecords row last.load) output ↔
        LedgerComplete (otherRecords row requestHash start) attempts count) ∧
      (otherRecords row requestHash start = [] →
        (LedgerAgrees (rowRecords row last.load) output ↔
          count = 1 ∧ (attempts 0).carried.isSome = true)) := by
  obtain ⟨hrow,hlog⟩ := runLoggedRow_ok h
  obtain ⟨count,hpos,_,haccumulated⟩ := runRolloutRow_accumulated hrow
  have hcounted := haccumulated.counted
  rw [hcounted, Int.toNat_natCast] at hlog
  have hcalls : ∀ i < count, ReportsCounts (attempts i) := fun i hi =>
    hreports i (by rw [hcounted]; exact Int.ofNat_lt.mpr hi)
  obtain ⟨earlier,rfl⟩ : ∃ earlier, count = earlier + 1 := ⟨count - 1, by omega⟩
  obtain ⟨record,hkey,hprompt,hcompletion,rfl⟩ :=
    logAttempts_called (fun i hi => hcalls i (by omega)) hlog
  have hperm := rowRecords_set start hkey
  generalize rowRecords row (PartialLog.load _) = records at hperm
  have hsum : ∀ f : PartialCallRecord → Int, (records.map f).sum =
      f record + ((otherRecords row requestHash start).map f).sum := fun f => by
    rw [(hperm.map f).sum_eq, List.map_cons, List.sum_cons]
  have hagrees : LedgerAgrees records output ↔
      LedgerComplete (otherRecords row requestHash start) attempts (earlier + 1) := by
    have hlength := hperm.length_eq
    rw [List.length_cons] at hlength
    constructor
    · intro hagrees
      have hp := hagrees.prompt
      have hc := hagrees.completion
      rw [haccumulated.prompt, carriedTotal_eq fun i hi => (hcalls i hi).prompt, hsum,
        hprompt] at hp
      rw [haccumulated.completion, carriedTotal_eq fun i hi => (hcalls i hi).completion, hsum,
        hcompletion] at hc
      have hnumber := hagrees.number
      rw [hcounted, hlength] at hnumber
      exact ⟨Int.ofNat.inj hnumber, hp.1, hp.2, hc.2⟩
    · intro hcomplete
      refine ⟨?_, ?_, ?_⟩
      · rw [hcounted, hlength, hcomplete.number]
      · rw [haccumulated.prompt, carriedTotal_eq fun i hi => (hcalls i hi).prompt, hsum, hprompt]
        exact ⟨hcomplete.reaches, hcomplete.prompt⟩
      · rw [haccumulated.completion, carriedTotal_eq fun i hi => (hcalls i hi).completion, hsum,
          hcompletion]
        exact ⟨hcomplete.reaches, hcomplete.completion⟩
  refine ⟨earlier + 1, hcounted, hagrees, fun hothers => ?_⟩
  rw [hagrees, hothers]
  constructor
  · intro hcomplete
    have hone : earlier = 0 := by
      have hnumber := hcomplete.number
      simp only [List.length_nil] at hnumber
      omega
    subst hone
    obtain ⟨i,hi,hsome⟩ := hcomplete.reaches
    have hzero : i = 0 := by omega
    rw [hzero] at hsome
    exact ⟨rfl, hsome⟩
  · rintro ⟨hone,hsome⟩
    have hzero : earlier = 0 := by omega
    subst hzero
    have hcarried : ∀ field : Field Int, carriedField field (attempts 0) =
        callField field (attempts 0) := fun field => by rw [carriedField_eq, if_pos hsome]
    exact ⟨rfl, ⟨0, by omega, hsome⟩, by simp [hcarried], by simp [hcarried]⟩

end Ledger

/-! ### A row of two attempts with one record -/

section Example

@[reducible] def keyNames : PartialNames where
  entryName := fun key => "/".intercalate
    [key.phase, key.taskId, key.unit, toString key.seedIndex, key.requestHash]

attribute [local instance] exactConversions shortFloats keyNames

def flakyRequest : String := String.ofList (List.replicate 64 'a')

def ledgerSummary (run : RolloutRowOutput Rat × PartialLog) : Int × Nat :=
  (run.1.rowAttempts, (rowRecords flakyRow run.2.load).length)

theorem ok_of_ledger {attempts : Nat → RowAttempt Rat} {summary : Int × Nat}
    (h : (runLoggedRow flakyContext attempts flakyRow defaultMaxRowAttempts flakyRequest
      Dict.empty).toOption.map ledgerSummary = some summary) :
    ∃ output last, runLoggedRow flakyContext attempts flakyRow defaultMaxRowAttempts flakyRequest
      Dict.empty = .ok (output, last) ∧ ledgerSummary (output, last) = summary := by
  cases hrun : runLoggedRow flakyContext attempts flakyRow defaultMaxRowAttempts flakyRequest
      Dict.empty with
  | error message =>
    rw [hrun] at h
    cases h
  | ok run =>
    rw [hrun] at h
    exact ⟨run.1, run.2, rfl, Option.some.inj h⟩

theorem answered_reports (cost : Option Rat) (evaluation : Except (NodeError Rat) (NodeOutput Rat)) :
    ReportsCounts (RowAttempt.inOrder (answered "42" cost) evaluation) where
  called := ⟨_, _, rfl⟩
  prompt := rfl
  completion := rfl

/-- The record of the second attempt replaces that of the first. -/
theorem retried_row_one_record : ∃ output last,
    runLoggedRow flakyContext unpricedRetry flakyRow defaultMaxRowAttempts flakyRequest
        Dict.empty = .ok (output, last) ∧
      (∀ i : Nat, (i : Int) < output.rowAttempts → ReportsCounts (unpricedRetry i)) ∧
      output.rowAttempts = 2 ∧ (rowRecords flakyRow last.load).length = 1 ∧
      ¬ LedgerAgrees (rowRecords flakyRow last.load) output := by
  have hsummary : (runLoggedRow flakyContext unpricedRetry flakyRow defaultMaxRowAttempts
      flakyRequest Dict.empty).toOption.map ledgerSummary = some (2, 1) := by decide +kernel
  obtain ⟨output,last,hrun,hsummary⟩ := ok_of_ledger hsummary
  simp only [ledgerSummary, Prod.mk.injEq] at hsummary
  refine ⟨output, last, hrun, fun i _ => ?_, hsummary.1, hsummary.2, fun hagrees => ?_⟩
  · unfold unpricedRetry
    split
    · exact answered_reports _ _
    · exact answered_reports _ _
  · have hnumber := hagrees.number
    omega

/-- A row of one attempt is accounted for. -/
theorem single_row_recorded : ∃ output last,
    runLoggedRow flakyContext pricedRow flakyRow defaultMaxRowAttempts flakyRequest
        Dict.empty = .ok (output, last) ∧
      LedgerAgrees (rowRecords flakyRow last.load) output := by
  have hsummary : (runLoggedRow flakyContext pricedRow flakyRow defaultMaxRowAttempts
      flakyRequest Dict.empty).toOption.map ledgerSummary = some (1, 1) := by decide +kernel
  obtain ⟨output,last,hrun,hsummary⟩ := ok_of_ledger hsummary
  simp only [ledgerSummary, Prod.mk.injEq] at hsummary
  obtain ⟨count,hcount,_,hsingle⟩ := ledger_agrees flakyContext pricedRow flakyRow
    defaultMaxRowAttempts flakyRequest Dict.empty last output hrun fun _ _ => answered_reports _ _
  have hreaches : (pricedRow 0).carried.isSome = true := by decide +kernel
  exact ⟨output, last, hrun, (hsingle rfl).mpr ⟨by omega, hreaches⟩⟩

end Example
end Whetstone.Drivers
