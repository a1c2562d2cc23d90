import Whetstone.Drivers.RowAttempts

/-! When the in-process driver and the subprocess driver leave the same row. -/
namespace Whetstone.Drivers
open Whetstone.Core Whetstone.Lib Whetstone.Eval Whetstone.Provider

variable {F : Type}

def evalNodeError (run : GraphRunResult F) : Option (NodeError F) :=
  match run.outcomes.get? evalNodeId with
  | some outcome => if outcome.status = .error then outcome.error else none
  | none => none

/- The error a row reports: the LLM node's, or else the eval node's. -/
def failedNodeError (run : GraphRunResult F) : Option (NodeError F) :=
  if graphRunCancelled run then none
  else match run.outcomes.get? llmNodeId with
    | some outcome => if outcome.status = .error then outcome.error else evalNodeError run
    | none => evalNodeError run

theorem attributeGeneratedRowCell_nodeExecution :
    attributeGeneratedRowCell nodeExecutionFailureCode = none := by decide

/-- A node error that makes its row failed carries no attributed code. -/
theorem unattributed_of_failed (error : NodeError F)
    (h : nodeErrorRowState error = .ok .failed) :
    attributeGeneratedRowCell (nodeErrorFailureCode error) = none := by
  cases hcode : codeText error.metadata.failureCode with
  | none =>
    rw [nodeErrorFailureCode, hcode]
    exact attributeGeneratedRowCell_nodeExecution
  | some code =>
    rw [nodeErrorFailureCode, hcode, Option.getD_some]
    cases hcell : attributeGeneratedRowCell code with
    | none => rfl
    | some cell =>
      have hinvalid := attributeGeneratedRowCell_some code cell hcell
      subst hinvalid
      have hstate : nodeErrorRowState error = .ok .invalid := by
        simp only [nodeErrorRowState, hcode, Option.bind_eq_bind, Option.bind_some, hcell]
        rfl
      rw [hstate] at h
      cases h

/- How a row shows the error it reports, or that it reports none. -/
def ReportsError (error : Option (NodeError F)) (rowState : ExecutedRowState)
    (failureCode : String) : Prop :=
  match error with
  | some error => nodeErrorRowState error = .ok rowState ∧ failureCode = nodeErrorFailureCode error
  | none => rowState ≠ .failed

theorem eq_some_of_requireNodeError (outcome : NodeOutcome F) (error : NodeError F)
    (h : requireNodeError outcome = .ok error) :
    outcome.status = .error ∧ outcome.error = some error := by
  rw [requireNodeError] at h
  split at h
  · rename_i hstatus herror
    cases h
    exact ⟨hstatus, herror⟩
  · cases h

theorem requireNodeError_ok (outcome : NodeOutcome F) (error : NodeError F)
    (hstatus : outcome.status = .error) (herror : outcome.error = some error) :
    requireNodeError outcome = .ok error := by
  rw [requireNodeError, hstatus, herror]

section Scoring
variable [Conversions F]

theorem readScoring_reports (run : GraphRunResult F) (code : String) (scoring : Scoring F)
    (h : readScoring (run.outcomes.get? evalNodeId) code = .ok scoring) :
    ReportsError (evalNodeError run) scoring.rowState scoring.failureCode := by
  unfold evalNodeError
  cases heval : run.outcomes.get? evalNodeId with
  | none =>
    rw [heval, readScoring] at h
    cases h
    simp [ReportsError]
  | some outcome =>
    rw [heval, readScoring] at h
    by_cases herror : outcome.status = .error
    · rw [if_pos herror, bind_eq_ok] at h
      obtain ⟨error,hnode,h⟩ := h
      rw [bind_eq_ok] at h
      obtain ⟨state,hstate,h⟩ := h
      cases h
      simp only [herror, if_true, (eq_some_of_requireNodeError outcome error hnode).2]
      exact ⟨hstate, rfl⟩
    · rw [if_neg herror] at h
      simp only [herror, if_false]
      by_cases hsuccess : outcome.status = .success
      · rw [if_pos hsuccess, bind_eq_ok] at h
        obtain ⟨output,_,h⟩ := h
        rw [bind_eq_ok] at h
        obtain ⟨score,_,h⟩ := h
        cases h
        simp [ReportsError]
      · rw [if_neg hsuccess] at h
        cases h
        simp [ReportsError]

theorem readScoring_ok (run : GraphRunResult F) (code : String) (error : NodeError F)
    (state : ExecutedRowState) (herror : evalNodeError run = some error)
    (hstate : nodeErrorRowState error = .ok state) :
    ∃ scoring, readScoring (run.outcomes.get? evalNodeId) code = .ok scoring := by
  rw [evalNodeError] at herror
  cases heval : run.outcomes.get? evalNodeId with
  | none =>
    rw [heval] at herror
    cases herror
  | some outcome =>
    rw [heval] at herror
    by_cases hstatus : outcome.status = .error
    · simp only [hstatus, if_true] at herror
      rw [readScoring, if_pos hstatus, requireNodeError_ok outcome error hstatus herror, ok_bind,
        hstate]
      exact ⟨_, rfl⟩
    · simp only [hstatus, if_false] at herror
      cases herror

end Scoring

section Projection
variable [JsonText]

/- The run ends in a node error that makes the row failed, and its trace can be read. -/
def FailsUnattributed (run : GraphRunResult F) : Prop :=
  (∃ steps, graphResultToComponentSteps run = .ok steps) ∧
    ∃ error, failedNodeError run = some error ∧ nodeErrorRowState error = .ok .failed

theorem readGeneration_ok (run : GraphRunResult F) (steps : List ExecutedComponentStep)
    (h : graphResultToComponentSteps run = .ok steps) :
    ∃ generation, readGeneration (run.outcomes.get? llmNodeId) = .ok generation := by
  rw [graphResultToComponentSteps] at h
  cases hllm : run.outcomes.get? llmNodeId with
  | none => exact ⟨_, rfl⟩
  | some outcome =>
    rw [hllm] at h
    simp only at h
    rw [readGeneration]
    by_cases hstatus : outcome.status ≠ .success
    · rw [if_pos hstatus]
      exact ⟨_, rfl⟩
    · rw [if_neg hstatus, bind_eq_ok] at h
      obtain ⟨output,houtput,h⟩ := h
      rw [bind_eq_ok] at h
      obtain ⟨prompt,_,h⟩ := h
      rw [bind_eq_ok] at h
      obtain ⟨generation,htext,_⟩ := h
      rw [if_neg hstatus, houtput, ok_bind, htext]
      exact ⟨_, rfl⟩

/- What every row of the projection shares. -/
structure ProjectedRow (run : GraphRunResult F) (output : RolloutRowOutput F) : Prop where
  reports : ReportsError (failedNodeError run) output.rowState output.failureCode
  noMaxBudget : output.maxBudget = none
  noOverBudget : output.overBudget = none
  attempts : output.rowAttempts = 1

theorem llmErrorRow_projected (run : GraphRunResult F) (key : RowKey)
    (steps : List ExecutedComponentStep) (outcome : NodeOutcome F) (output : RolloutRowOutput F)
    (herror : failedNodeError run = outcome.error)
    (h : llmErrorRow key steps outcome = .ok output) : ProjectedRow run output := by
  rw [llmErrorRow, bind_eq_ok] at h
  obtain ⟨error,hnode,h⟩ := h
  simp only [bind_eq_ok] at h
  obtain ⟨state,hstate,h⟩ := h
  cases h
  have hsome := (eq_some_of_requireNodeError outcome error hnode).2
  refine ⟨?_, rfl, rfl, rfl⟩
  rw [herror, hsome]
  exact ⟨hstate, rfl⟩

variable [Conversions F]

theorem scoredRow_projected (run : GraphRunResult F) (key : RowKey)
    (steps : List ExecutedComponentStep) (output : RolloutRowOutput F)
    (herror : failedNodeError run = evalNodeError run)
    (h : graphResultToRowFields.scoredRow run key steps = .ok output) :
    ProjectedRow run output := by
  rw [graphResultToRowFields.scoredRow, bind_eq_ok] at h
  obtain ⟨generation,_,h⟩ := h
  rw [bind_eq_ok] at h
  obtain ⟨scoring,hscoring,h⟩ := h
  cases h
  refine ⟨?_, rfl, rfl, rfl⟩
  rw [herror]
  exact readScoring_reports run generation.failureCode scoring hscoring

theorem graphResultToRowFields_projected (run : GraphRunResult F) (key : RowKey)
    (output : RolloutRowOutput F) (h : graphResultToRowFields run key = .ok output) :
    ProjectedRow run output := by
  rw [graphResultToRowFields] at h
  by_cases hcancelled : graphRunCancelled run = true
  · rw [if_pos hcancelled] at h
    cases h
    refine ⟨?_, rfl, rfl, rfl⟩
    rw [failedNodeError, if_pos hcancelled]
    simp [ReportsError, missingRow]
  · rw [if_neg hcancelled, bind_eq_ok] at h
    obtain ⟨steps,_,h⟩ := h
    cases hllm : run.outcomes.get? llmNodeId with
    | none =>
      rw [hllm] at h
      apply scoredRow_projected run key steps output _ h
      rw [failedNodeError, if_neg hcancelled, hllm]
    | some outcome =>
      rw [hllm] at h
      by_cases hstatus : outcome.status = .error
      · simp only [hstatus, if_true] at h
        apply llmErrorRow_projected run key steps outcome output _ h
        rw [failedNodeError, if_neg hcancelled, hllm]
        simp only [hstatus, if_true]
      · simp only [hstatus, if_false] at h
        apply scoredRow_projected run key steps output _ h
        rw [failedNodeError, if_neg hcancelled, hllm]
        simp only [hstatus, if_false]

/-- A run that fails without an attribution does leave a row. -/
theorem graphResultToRowFields_ok (run : GraphRunResult F) (key : RowKey)
    (h : FailsUnattributed run) : ∃ output, graphResultToRowFields run key = .ok output := by
  obtain ⟨⟨steps,hsteps⟩,error,herror,hstate⟩ := h
  obtain ⟨generation,hgeneration⟩ := readGeneration_ok run steps hsteps
  have hscored : evalNodeError run = some error →
      ∃ output, graphResultToRowFields.scoredRow run key steps = .ok output := by
    intro heval
    obtain ⟨scoring,hscoring⟩ :=
      readScoring_ok run generation.failureCode error .failed heval hstate
    rw [graphResultToRowFields.scoredRow, hgeneration, ok_bind, hscoring]
    exact ⟨_, rfl⟩
  rw [failedNodeError] at herror
  by_cases hcancelled : graphRunCancelled run = true
  · rw [if_pos hcancelled] at herror
    cases herror
  · rw [if_neg hcancelled] at herror
    rw [graphResultToRowFields, if_neg hcancelled, hsteps, ok_bind]
    cases hllm : run.outcomes.get? llmNodeId with
    | none =>
      rw [hllm] at herror
      exact hscored herror
    | some outcome =>
      rw [hllm] at herror
      by_cases hstatus : outcome.status = .error
      · simp only [hstatus, if_true] at herror ⊢
        rw [llmErrorRow, requireNodeError_ok outcome error hstatus herror, ok_bind, hstate]
        exact ⟨_, rfl⟩
      · simp only [hstatus, if_false] at herror ⊢
        exact hscored herror

theorem steps_of_row (run : GraphRunResult F) (key : RowKey) (output : RolloutRowOutput F)
    (h : graphResultToRowFields run key = .ok output) :
    graphRunCancelled run = true ∨ ∃ steps, graphResultToComponentSteps run = .ok steps := by
  rw [graphResultToRowFields] at h
  by_cases hcancelled : graphRunCancelled run = true
  · exact .inl hcancelled
  · rw [if_neg hcancelled, bind_eq_ok] at h
    obtain ⟨steps,hsteps,_⟩ := h
    exact .inr ⟨steps, hsteps⟩

/-- The row of a run is re-executed exactly when the run fails without an attribution. -/
theorem rowIsRetryable_iff (run : GraphRunResult F) (key : RowKey)
    (output : RolloutRowOutput F) (h : graphResultToRowFields run key = .ok output) :
    rowIsRetryable output = true ↔ FailsUnattributed run := by
  have hreports := (graphResultToRowFields_projected run key output h).reports
  simp only [rowIsRetryable, Bool.and_eq_true, decide_eq_true_eq, Option.isNone_iff_eq_none]
  constructor
  · rintro ⟨hfailed,_⟩
    cases herror : failedNodeError run with
    | none =>
      rw [herror] at hreports
      exact absurd hfailed hreports
    | some error =>
      rw [herror] at hreports
      rcases steps_of_row run key output h with hcancelled | hsteps
      · rw [failedNodeError, if_pos hcancelled] at herror
        cases herror
      · exact ⟨hsteps, error, herror, by rw [hreports.1, hfailed]⟩
  · rintro ⟨_,error,herror,hstate⟩
    rw [herror] at hreports
    have hsame := hreports.1
    rw [hstate] at hsame
    refine ⟨(Except.ok.inj hsame).symm, ?_⟩
    rw [hreports.2]
    exact unattributed_of_failed error hstate

end Projection

section Attempts
variable [JsonText] [FloatOps F]

theorem rowAttempts_accumulated (output : RolloutRowOutput F)
    (previous : Option (RolloutRowOutput F)) (attempts : Nat) :
    (withAccumulatedAttemptUsage output previous attempts).rowAttempts = attempts := by
  cases previous <;> rfl

/-- The row the loop returns counts at least one attempt more than were made before it. -/
theorem attemptLoop_attempts (execute : Nat → Except String (RolloutRowOutput F))
    (remaining attemptIndex : Nat) (previous output : RolloutRowOutput F)
    (hprevious : (attemptIndex : Int) ≤ previous.rowAttempts)
    (h : attemptLoop execute remaining attemptIndex (some previous) = .ok output) :
    (attemptIndex : Int) ≤ output.rowAttempts := by
  induction remaining generalizing attemptIndex previous with
  | zero =>
    cases h
    exact hprevious
  | succ remaining ih =>
    rw [attemptLoop, bind_eq_ok] at h
    obtain ⟨attempt,_,h⟩ := h
    have hcount := rowAttempts_accumulated attempt (some previous) (attemptIndex + 1)
    simp only at h
    split at h
    · have hnext := ih (attemptIndex + 1) _ (Int.le_of_eq hcount.symm) h
      push_cast at hnext
      omega
    · cases h
      rw [hcount]
      push_cast
      omega

/-- A row that is not re-executed keeps its first attempt as it is. -/
theorem attemptLoop_first (execute : Nat → Except String (RolloutRowOutput F))
    (output : RolloutRowOutput F) (hattempt : execute 0 = .ok output)
    (hcount : output.rowAttempts = 1) (hretry : rowIsRetryable output = false) :
    attemptLoop execute 3 0 none = .ok output := by
  have hsame : withAccumulatedAttemptUsage output none 1 = output := by
    cases output
    cases hcount
    rfl
  rw [attemptLoop, hattempt, ok_bind, Nat.zero_add, hsame]
  simp only [hretry]
  rfl

/-- A row that is re-executed never comes back with one attempt. -/
theorem attemptLoop_retried (execute : Nat → Except String (RolloutRowOutput F))
    (first output : RolloutRowOutput F) (hattempt : execute 0 = .ok first)
    (hretry : rowIsRetryable first = true) (h : attemptLoop execute 3 0 none = .ok output) :
    output.rowAttempts ≠ 1 := by
  have hsame : rowIsRetryable (withAccumulatedAttemptUsage first none 1) = true := hretry
  rw [attemptLoop, hattempt, ok_bind, Nat.zero_add] at h
  simp only [hsame, if_true] at h
  rw [attemptLoop, bind_eq_ok] at h
  obtain ⟨second,_,h⟩ := h
  have hcount := rowAttempts_accumulated second
    (some (withAccumulatedAttemptUsage first none 1)) 2
  simp only at h
  split at h
  · have hle := attemptLoop_attempts execute 1 2 _ output (Int.le_of_eq hcount.symm) h
    omega
  · cases h
    rw [hcount]
    decide

end Attempts

section FirstExecution
variable [JsonText] [Conversions F]

/- The first execution of the row leaves a graph run that fails without an attribution. -/
def FirstExecutionFails (context : RolloutContext F) (row : ScheduledRow) : Prop :=
  ∃ rendered run, context.render row.template row.promptInputs = .ok rendered ∧
    executeRolloutGraph (context.execute rendered row.rngSeed 0) = .ok run ∧
    FailsUnattributed run

theorem firstExecutionFails_iff (context : RolloutContext F) (row : ScheduledRow)
    (rendered : String) (hrender : context.render row.template row.promptInputs = .ok rendered) :
    FirstExecutionFails context row ↔
      ∃ output, executeAttempt context row.key rendered row.rngSeed 0 = .ok output ∧
        rowIsRetryable output = true := by
  constructor
  · rintro ⟨rendered',run,hsame,hrun,hfails⟩
    rw [hrender, Except.ok.injEq] at hsame
    subst hsame
    obtain ⟨output,hfields⟩ := graphResultToRowFields_ok run row.key hfails
    refine ⟨output, ?_, (rowIsRetryable_iff run row.key output hfields).mpr hfails⟩
    rw [executeAttempt, hrun, ok_bind, hfields]
  · rintro ⟨output,hattempt,hretry⟩
    rw [executeAttempt, bind_eq_ok] at hattempt
    obtain ⟨run,hrun,hfields⟩ := hattempt
    exact ⟨rendered, run, hrender, hrun,
      (rowIsRetryable_iff run row.key output hfields).mp hretry⟩

/-- With no deadline the subprocess driver obtains the row of the first execution. -/
theorem subprocessRow_eq (context : RolloutContext F) (row : ScheduledRow) (rendered : String)
    (hrender : context.render row.template row.promptInputs = .ok rendered) :
    (subprocessRow context row undisturbed).toOption =
      (executeAttempt context row.key rendered row.rngSeed 0).toOption := by
  simp only [subprocessRow, buildGraphRowRequest, hrender, ok_bind, pure, Except.pure, runRow,
    ne_eq, not_true_eq_false, raiseIf, if_false]
  cases hattempt : executeAttempt context row.key rendered row.rngSeed 0 with
  | error message => rfl
  | ok output =>
    have hprojected : ∃ run, ProjectedRow run output := by
      rw [executeAttempt, bind_eq_ok] at hattempt
      obtain ⟨run,_,hfields⟩ := hattempt
      exact ⟨run, graphResultToRowFields_projected run row.key output hfields⟩
    obtain ⟨run,hrow⟩ := hprojected
    simp only [ok_bind, undisturbed, interpretCompletion, decodeGraphRowOutput]
    rw [rolloutRowOutput_roundtrip output _ hrow.noMaxBudget hrow.noOverBudget
      (by rw [hrow.attempts]; decide)]

end FirstExecution

section Agreement
variable [JsonText] [FloatOps F] [Conversions F]

def DriversAgree (context : RolloutContext F) (row : ScheduledRow) : Prop :=
  (subprocessRow context row undisturbed).toOption =
    (runRolloutRow context row defaultMaxRowAttempts).toOption

theorem runRolloutRow_eq (context : RolloutContext F) (row : ScheduledRow) (rendered : String)
    (hrender : context.render row.template row.promptInputs = .ok rendered) :
    runRolloutRow context row defaultMaxRowAttempts =
      attemptLoop (executeAttempt context row.key rendered row.rngSeed) 3 0 none := by
  rw [runRolloutRow, raiseIf_neg _ _ (by decide), raiseIf_neg _ _ row.named, hrender]
  rfl

/-- The two drivers obtain the same row exactly when its first execution does not fail
without an attribution: the worker never re-executes a row. -/
theorem drivers_agree_iff_first_execution_stands (context : RolloutContext F)
    (row : ScheduledRow) : DriversAgree context row ↔ ¬ FirstExecutionFails context row := by
  unfold DriversAgree
  cases hrender : context.render row.template row.promptInputs with
  | error message =>
    have hworker : subprocessRow context row undisturbed = .error message := by
      simp only [subprocessRow, buildGraphRowRequest, hrender, error_bind]
    have hprocess : runRolloutRow context row defaultMaxRowAttempts = .error message := by
      rw [runRolloutRow, raiseIf_neg _ _ (by decide), raiseIf_neg _ _ row.named, hrender]
      rfl
    rw [hworker, hprocess]
    refine iff_of_true rfl ?_
    rintro ⟨rendered,_,hok,_⟩
    rw [hrender] at hok
    cases hok
  | ok rendered =>
    rw [firstExecutionFails_iff context row rendered hrender,
      subprocessRow_eq context row rendered hrender, runRolloutRow_eq context row rendered hrender]
    cases hattempt : executeAttempt context row.key rendered row.rngSeed 0 with
    | error message =>
      have hloop : attemptLoop (executeAttempt context row.key rendered row.rngSeed) 3 0 none =
          .error message := by
        rw [attemptLoop, hattempt, error_bind]
      rw [hloop]
      simp
    | ok output =>
      have hcount : output.rowAttempts = 1 := by
        rw [executeAttempt, bind_eq_ok] at hattempt
        obtain ⟨run,_,hfields⟩ := hattempt
        exact (graphResultToRowFields_projected run row.key output hfields).attempts
      by_cases hretry : rowIsRetryable output = true
      · refine iff_of_false ?_ (fun h => h ⟨output, rfl, hretry⟩)
        intro hsame
        cases hloop : attemptLoop (executeAttempt context row.key rendered row.rngSeed) 3 0 none with
        | error message =>
          rw [hloop] at hsame
          cases hsame
        | ok final =>
          rw [hloop] at hsame
          cases hsame
          exact attemptLoop_retried _ output output hattempt hretry hloop hcount
      · rw [attemptLoop_first _ output hattempt hcount (by simpa using hretry)]
        refine iff_of_true rfl ?_
        rintro ⟨other,hother,h⟩
        cases hother
        exact hretry h

end Agreement

section Flaky
attribute [local instance] exactFloats exactConversions

@[reducible] def shortFloats : JsonText := ⟨fun _ => 3⟩
attribute [local instance] shortFloats

def flakyPlan : SeedPlan where
  planId := "plan"
  version := "1"
  taskHashes := ["h1"]
  numSeeds := 1
  rngSeeds := [("h1#0", 7)]
  valid := by decide +kernel

def flakyRow : ScheduledRow where
  candidateId := "c1"
  template := .str "Solve."
  taskId := "t1"
  taskHash := "h1"
  taskIndex := 0
  seedIndex := 0
  promptInputs := Dict.empty
  seedPlan := flakyPlan
  splitRole := "train"
  named := by decide

/- The LLM node raises on the first execution and answers on the second. -/
def flakyRun (driveOrdinal : Nat) : GraphRunResult Rat :=
  if driveOrdinal = 0 then
    { outcomes := Dict.ofPairs [(llmNodeId,
        { nodeId := llmNodeId, status := .error, output := none
          error := some { errorType := "GenerationNodeError", message := "connection reset"
                          failureClass := none, metadata := {} } })] }
  else
    { outcomes := Dict.ofPairs
        [(llmNodeId,
          { nodeId := llmNodeId, status := .success, error := none
            output := some { values := Dict.ofPairs
                               [(providerGenerationOutputField, .json (.str "42"))]
                             metadata := { prompt := .str "Solve." } } }),
         (evalNodeId,
          { nodeId := evalNodeId, status := .success, error := none
            output := some { values := Dict.ofPairs [(evalOutputField, .float 1)]
                             metadata := {} } })] }

def flakyContext : RolloutContext Rat where
  render := fun template _ => match template with
    | .str text => .ok text
    | _ => .error "template must be a strict string"
  execute := fun _ _ driveOrdinal => .completed (flakyRun driveOrdinal)
  identities := fun _ _ _ => ["request"]
  executionPolicy := .obj []
  policyIdentityHash := fun _ => "policy"

def rowSummary (output : RolloutRowOutput Rat) : ExecutedRowState × Option Rat × Int :=
  (output.rowState, output.score, output.rowAttempts)

/-- The worker reports the failed first execution; in process the row is executed again. -/
theorem flaky_row_not_retried_in_worker :
    (subprocessRow flakyContext flakyRow undisturbed).toOption.map rowSummary =
        some (.failed, none, 1) ∧
      (runRolloutRow flakyContext flakyRow defaultMaxRowAttempts).toOption.map rowSummary =
        some (.success, some 1, 2) ∧
      ¬ DriversAgree flakyContext flakyRow := by
  have hworker : (subprocessRow flakyContext flakyRow undisturbed).toOption.map rowSummary =
      some (.failed, none, 1) := by decide +kernel
  have hprocess : (runRolloutRow flakyContext flakyRow defaultMaxRowAttempts).toOption.map
      rowSummary = some (.success, some 1, 2) := by decide +kernel
  refine ⟨hworker, hprocess, ?_⟩
  intro hagree
  rw [DriversAgree] at hagree
  rw [hagree, hprocess] at hworker
  cases hworker

end Flaky
end Whetstone.Drivers
