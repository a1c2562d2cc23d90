import Whetstone.Drivers.RowAgreement

/-! The records that persist a projected row, an output row and a trace row. The graph driver
records no submission result. -/
namespace Whetstone.Drivers
open Whetstone.Core Whetstone.Lib Whetstone.Eval

variable {F : Type}

/- A row of the sampling plan, whose identities are not blank. -/
structure PlannedRow extends RowKey where
  taskHash : String
  candidateNamed : strip candidateId ≠ ""
  taskNamed : strip taskId ≠ ""
  hashNamed : strip taskHash ≠ ""
  taskPlaced : 0 ≤ taskIndex
  seedPlaced : 0 ≤ seedIndex

section Records

variable [JsonText]

structure EvalOutputRow (F : Type) where
  candidateId : String
  taskId : String
  taskHash : String
  taskIndex : Int
  seedIndex : Int
  renderedPrompt : String
  outputText : Option String
  score : Option F
  failed : Bool
  missing : Bool
  invalid : Bool
  failureCode : String
  finishReason : Option String
  providerError : Option (Dict String Json)
  maxBudget : Option Int
  overBudget : Option Bool
  promptTokens : Option Int
  completionTokens : Option Int
  providerCost : Option F
  cacheHit : Bool
  errorType : Option String
  errorMessage : Option String
  failedNodeId : Option String
  rowAttempts : Int

def checkNamed (name value : String) : Except String Unit :=
  raiseIf (strip value = "") (name ++ " must be non-empty")

def checkTokens (name : String) (tokens : Option Int) : Except String Unit :=
  tokens.forM fun count => raiseIf (count < 0) (name ++ " must be non-negative")

def checkFinite [FloatOps F] (value : Option F) : Except String Unit :=
  value.forM fun x => raiseIf (FloatOps.isFinite x = false) "Input should be a finite number"

/- The finite floats of its fields, and its contract. -/
def EvalOutputRow.validate [FloatOps F] (row : EvalOutputRow F) : Except String Unit := do
  checkFinite row.score
  checkFinite row.providerCost
  checkNamed "candidate_id" row.candidateId
  checkNamed "task_id" row.taskId
  checkNamed "task_hash" row.taskHash
  raiseIf (row.seedIndex < 0) "seed_index must be non-negative"
  raiseIf (row.taskIndex < 0) "task_index must be non-negative"
  raiseIf (row.maxBudget.any (fun budget => budget < 0) = true) "max_budget must be non-negative"
  checkTokens "prompt_tokens" row.promptTokens
  checkTokens "completion_tokens" row.completionTokens
  row.providerCost.forM fun cost =>
    raiseIf (FloatOps.lt cost FloatOps.zero) "provider_cost must be non-negative"
  raiseIf (row.rowAttempts < 1) "row_attempts must be at least one"
  requireExclusiveRowState row.score.isSome row.failed row.missing row.invalid

def outputRow (plan : PlannedRow) (renderedPrompt : String) (output : RolloutRowOutput F) :
    EvalOutputRow F where
  candidateId := output.candidateId
  taskId := output.taskId
  taskHash := plan.taskHash
  taskIndex := plan.taskIndex
  seedIndex := output.seedIndex
  renderedPrompt := renderedPrompt
  outputText := output.outputText
  score := output.score
  failed := decide (output.rowState = .failed)
  missing := decide (output.rowState = .missing)
  invalid := decide (output.rowState = .invalid)
  failureCode := output.failureCode
  finishReason := output.finishReason
  providerError := output.providerError
  maxBudget := output.maxBudget
  overBudget := output.overBudget
  promptTokens := output.promptTokens
  completionTokens := output.completionTokens
  providerCost := output.providerCost
  cacheHit := output.cacheHit
  errorType := output.errorType
  errorMessage := output.errorMessage
  failedNodeId := output.failedNodeId
  rowAttempts := output.rowAttempts

structure EvalTraceRow where
  taskId : String
  taskHash : String
  taskIndex : Int
  seedIndex : Int
  rowState : ExecutedRowState
  traceSteps : List ExecutedComponentStep

/- Its trace payload, and its contract. -/
def EvalTraceRow.validate (row : EvalTraceRow) : Except String Unit := do
  validateTrace row.traceSteps
  raiseIf (row.rowState = .missing ∧ row.traceSteps ≠ [])
    "a missing row cannot contain executed components"
  checkNamed "task_id" row.taskId
  checkNamed "task_hash" row.taskHash
  raiseIf (row.seedIndex < 0) "seed_index must be non-negative"
  raiseIf (row.taskIndex < 0) "task_index must be non-negative"

def traceRow (plan : PlannedRow) (output : RolloutRowOutput F) : EvalTraceRow where
  taskId := output.taskId
  taskHash := plan.taskHash
  taskIndex := plan.taskIndex
  seedIndex := output.seedIndex
  rowState := output.rowState
  traceSteps := output.traceSteps

/- The two records of one row. -/
def evaluationRecords [FloatOps F] (plan : PlannedRow) (renderedPrompt : String)
    (output : RolloutRowOutput F) : Except String (EvalTraceRow × EvalOutputRow F) := do
  let trace := traceRow plan output
  trace.validate
  let row := outputRow plan renderedPrompt output
  row.validate
  return (trace, row)

/- The cell of a row in the inline aggregate. -/
def inlineRowValue (output : RolloutRowOutput F) : RowValue F :=
  attributeGeneratedRow output.rowState output.score
    (if output.failureCode = "" then none else some output.failureCode)

/-- The row is persisted, and its persisted flags stand for the cell of the inline aggregate. -/
def Persists [FloatOps F] (plan : PlannedRow) (renderedPrompt : String)
    (output : RolloutRowOutput F) : Prop :=
  ∃ trace row, evaluationRecords plan renderedPrompt output = .ok (trace, row) ∧
    attributePublishedRow row.score row.failed row.missing row.invalid =
      .ok (inlineRowValue output)

/-! ### What persists a row -/

/- Counts and a price that an output row takes. -/
structure Storable [FloatOps F] (prompt completion : Option Int) (cost : Option F) : Prop where
  prompt : ∀ count, prompt = some count → 0 ≤ count
  completion : ∀ count, completion = some count → 0 ≤ count
  cost : ∀ price, cost = some price → FloatOps.isFinite price = true ∧
    FloatOps.lt price FloatOps.zero = false

omit [JsonText] in
theorem exclusive_iff (scored : Bool) (state : ExecutedRowState) :
    requireExclusiveRowState scored (decide (state = .failed)) (decide (state = .missing))
      (decide (state = .invalid)) = .ok () ↔ (scored = true ↔ state = .success) := by
  cases scored <;> cases state <;> decide

/- The fields that a row has from its projection. -/
structure Projected (plan : PlannedRow) (output : RolloutRowOutput F) : Prop where
  candidate : output.candidateId = plan.candidateId
  task : output.taskId = plan.taskId
  seed : output.seedIndex = plan.seedIndex
  budget : output.maxBudget = none
  attempts : output.rowAttempts = 1

theorem outputRow_valid_iff [FloatOps F] {plan : PlannedRow} {output : RolloutRowOutput F}
    (h : Projected plan output) (renderedPrompt : String) :
    (outputRow plan renderedPrompt output).validate = .ok () ↔
      (∀ score, output.score = some score → FloatOps.isFinite score = true) ∧
      Storable output.promptTokens output.completionTokens output.providerCost ∧
      (output.score.isSome = true ↔ output.rowState = .success) := by
  have hcandidate := plan.candidateNamed
  have htask := plan.taskNamed
  have hhash := plan.hashNamed
  have hplaced := plan.taskPlaced
  have hseed := plan.seedPlaced
  simp only [EvalOutputRow.validate, outputRow, checkFinite, checkNamed, checkTokens, h.candidate,
    h.task, h.seed, h.budget, h.attempts, check_bind_eq_ok, raiseIf_eq_ok, optionForM_eq_ok,
    exclusive_iff]
  simp only [hcandidate, htask, hhash, Int.not_lt, hplaced, hseed, Option.any_none,
    Bool.false_eq_true, not_false_eq_true, true_and, Bool.not_eq_false, Bool.not_eq_true]
  constructor
  · rintro ⟨hscore,hfinite,hprompt,hcompletion,hcost,_,hexclusive⟩
    exact ⟨hscore, ⟨hprompt, hcompletion, fun price hprice =>
      ⟨hfinite price hprice, hcost price hprice⟩⟩, hexclusive⟩
  · rintro ⟨hscore,hstorable,hexclusive⟩
    exact ⟨hscore, fun price hprice => (hstorable.cost price hprice).1, hstorable.prompt,
      hstorable.completion, fun price hprice => (hstorable.cost price hprice).2, by decide,
      hexclusive⟩

/-! ### The trace -/

omit [JsonText] in
theorem addBytes_eq_ok {limit total count size : Nat} :
    addBytes limit total count = .ok size ↔ size = total + count ∧ total + count ≤ limit := by
  unfold addBytes
  by_cases h : total + count > limit
  · rw [if_pos h]
    constructor
    · intro hok
      cases hok
    · rintro ⟨_,hle⟩
      omega
  · rw [if_neg h, Except.ok.injEq]
    exact ⟨fun hsame => ⟨hsame.symm, by omega⟩, fun hsame => hsame.1.symm⟩

/- A step leaves room for the brackets of its trace. -/
theorem canonicalJsonBytes_le (step : ExecutedComponentStep) :
    step.canonicalJsonBytes ≤ maxExecutedComponentJsonBytes - 2 := by
  have hvalid := step.valid
  unfold validStep at hvalid
  obtain ⟨_,hvalid⟩ := (check_bind_eq_ok _ _ _).mp hvalid
  obtain ⟨size,hsize,hvalid⟩ := (bind_eq_ok _ _ _).mp hvalid
  have hsame : step.canonicalJsonBytes = size := (congrArg Prod.snd (Except.ok.inj hvalid)).symm
  simp only [boundedCanonicalJsonSize, StepFields.toJson, addValue] at hsize
  obtain ⟨_,hsize⟩ := (check_bind_eq_ok _ _ _).mp hsize
  obtain ⟨_,_,hsize⟩ := (bind_eq_ok _ _ _).mp hsize
  obtain ⟨_,_,hsize⟩ := (bind_eq_ok _ _ _).mp hsize
  have hbound := addBytes_eq_ok.mp hsize
  omega

theorem validateTrace_single {step : ExecutedComponentStep} (h : step.traceIndex = 0) :
    validateTrace [step] = .ok () := by
  have hbytes := canonicalJsonBytes_le step
  have hindex : ([step].map fun step => step.traceIndex) =
      (List.range [step].length).map Int.ofNat := by
    simp [h]
  have htwo : addBytes maxExecutedComponentJsonBytes 0 2 = .ok 2 := by decide
  have hsum : addBytes maxExecutedComponentJsonBytes 2 step.canonicalJsonBytes =
      .ok (2 + step.canonicalJsonBytes) :=
    addBytes_eq_ok.mpr ⟨rfl, by
      have : (2 : Nat) ≤ maxExecutedComponentJsonBytes := by decide
      omega⟩
  unfold validateTrace
  rw [raiseIf_neg _ _ (by simp [maxExecutedComponentSteps]), ok_bind,
    raiseIf_neg _ _ (not_not.mpr hindex), ok_bind,
    boundedTraceJsonSize, htwo, ok_bind]
  simp only [List.map_cons, List.map_nil, List.foldlM_cons, List.foldlM_nil, if_true]
  rw [show (pure 2 : Except String Nat) = .ok 2 from rfl, ok_bind, hsum]
  rfl

theorem create_traceIndex {fields : StepFields} {step : ExecutedComponentStep}
    (h : ExecutedComponentStep.create fields = .ok step) : step.traceIndex = fields.traceIndex := by
  unfold ExecutedComponentStep.create at h
  split at h
  · rename_i stored size hvalid
    cases h
    unfold validStep at hvalid
    obtain ⟨_,hvalid⟩ := (check_bind_eq_ok _ _ _).mp hvalid
    obtain ⟨_,_,hvalid⟩ := (bind_eq_ok _ _ _).mp hvalid
    cases hvalid
    rfl
  · cases h

/- The steps of a projection: none, or the one of its generation. -/
theorem projected_trace {run : GraphRunResult F} {steps : List ExecutedComponentStep}
    (h : graphResultToComponentSteps run = .ok steps) : validateTrace steps = .ok () := by
  have hnone : validateTrace [] = .ok () := rfl
  unfold graphResultToComponentSteps at h
  split at h
  · cases h
    exact hnone
  · split at h
    · cases h
      exact hnone
    · obtain ⟨_,_,h⟩ := (bind_eq_ok _ _ _).mp h
      obtain ⟨_,_,h⟩ := (bind_eq_ok _ _ _).mp h
      obtain ⟨_,_,h⟩ := (bind_eq_ok _ _ _).mp h
      obtain ⟨step,hstep,h⟩ := (bind_eq_ok _ _ _).mp h
      cases h
      exact validateTrace_single (create_traceIndex hstep)

theorem traceRow_valid_iff {plan : PlannedRow} {output : RolloutRowOutput F}
    (h : Projected plan output) (htrace : validateTrace output.traceSteps = .ok ()) :
    (traceRow plan output).validate = .ok () ↔
      (output.rowState = .missing → output.traceSteps = []) := by
  have htask := plan.taskNamed
  have hhash := plan.hashNamed
  have hplaced := plan.taskPlaced
  have hseed := plan.seedPlaced
  simp only [EvalTraceRow.validate, traceRow, checkNamed, h.task, h.seed, htrace, check_bind_eq_ok,
    raiseIf_eq_ok]
  simp only [htask, hhash, Int.not_lt, hplaced, hseed, not_false_eq_true, true_and, and_true,
    not_and, not_not]

/-! ### The cell of a row -/

/- The cell that the failure code of a node error attributes to. -/
def codeCell (error : NodeError F) : Option AccountingCell :=
  (codeText error.metadata.failureCode).bind attributeGeneratedRowCell

/- A node error has a row state when its code or its class has one. -/
def Attributable (error : NodeError F) : Prop :=
  codeCell error ≠ none ∨ attributeOutcome (failureKind error.failureClass) ≠ .invalid

/- The error is of a class that leaves the row missing. -/
def LeavesMissing (error : NodeError F) : Prop :=
  codeCell error = none ∧ attributeOutcome (failureKind error.failureClass) = .missing

omit [JsonText] in
theorem codeCell_some {error : NodeError F} {cell : AccountingCell}
    (h : codeCell error = some cell) : cell = .invalid ∧
      ∃ code, codeText error.metadata.failureCode = some code ∧
        attributeGeneratedRowCell code = some .invalid := by
  obtain ⟨code,hcode,hcell⟩ := Option.bind_eq_some_iff.mp h
  have hinvalid := attributeGeneratedRowCell_some code cell hcell
  rw [hinvalid] at hcell
  exact ⟨hinvalid, code, hcode, hcell⟩

omit [JsonText] in
theorem nodeErrorRowState_eq (error : NodeError F) :
    nodeErrorRowState error =
      if (codeCell error).isSome then .ok .invalid
      else rowStateForOutcomeKind (failureKind error.failureClass) := by
  cases hcell : codeCell error with
  | none =>
    have hnone : (do
        let code ← codeText error.metadata.failureCode
        let cell ← attributeGeneratedRowCell code
        rowStateByAccountingCell cell : Option ExecutedRowState) = none := by
      have hbind : (do
          let code ← codeText error.metadata.failureCode
          let cell ← attributeGeneratedRowCell code
          rowStateByAccountingCell cell : Option ExecutedRowState) =
          (codeCell error).bind rowStateByAccountingCell := by
        rw [codeCell, Option.bind_assoc]
        rfl
      rw [hbind, hcell]
      rfl
    simp only [nodeErrorRowState, hnone]
    rfl
  | some cell =>
    obtain ⟨rfl,code,hcode,hattributed⟩ := codeCell_some hcell
    simp only [nodeErrorRowState, hcode, Option.bind_eq_bind, Option.bind_some, hattributed]
    rfl

omit [JsonText] in
theorem nodeErrorRowState_ok_iff (error : NodeError F) :
    (∃ state, nodeErrorRowState error = .ok state) ↔ Attributable error := by
  rw [nodeErrorRowState_eq, Attributable]
  cases hcell : codeCell error with
  | some cell => simp
  | none =>
    have hscored := attributeOutcome_ne_scored (failureKind error.failureClass)
    unfold rowStateForOutcomeKind rowStateByCell
    cases hkind : attributeOutcome (failureKind error.failureClass) <;> simp_all

omit [JsonText] in
theorem nodeErrorRowState_missing_iff (error : NodeError F) :
    nodeErrorRowState error = .ok .missing ↔ LeavesMissing error := by
  rw [nodeErrorRowState_eq, LeavesMissing]
  cases hcell : codeCell error with
  | some cell => simp
  | none =>
    unfold rowStateForOutcomeKind rowStateByCell
    cases hkind : attributeOutcome (failureKind error.failureClass) <;> simp

omit [JsonText] in
theorem unscored_invalid {outcome : AttributedOutcome} (h : attributeOutcome outcome = .invalid) :
    unscoredRowValue (F := F) outcome = .invalid := by
  cases outcome <;> first | rfl | cases h

omit [JsonText] in
theorem generated_attributed {code : String} {cell : AccountingCell}
    (h : attributeGeneratedRowCell code = some cell) :
    unscoredRowValue (F := F) (outcomeForGeneratedFailure (some code)) = .invalid := by
  have hinvalid := attributeGeneratedRowCell_some code cell h
  obtain ⟨outcome,houtcome,hcell⟩ := Option.map_eq_some_iff.mp h
  rw [outcomeForGeneratedFailure, houtcome, Option.getD_some]
  exact unscored_invalid (hcell.trans hinvalid)

omit [JsonText] in
theorem generated_unattributed {code : String} (h : attributeGeneratedRowCell code = none) :
    unscoredRowValue (F := F) (outcomeForGeneratedFailure (some code)) = .failed := by
  rw [outcomeForGeneratedFailure, Option.map_eq_none_iff.mp h]
  rfl

omit [JsonText] in
theorem codeText_some {value : Json} {code : String} (h : codeText value = some code) :
    code ≠ "" := by
  unfold codeText at h
  split at h
  · split at h
    · cases h
    · cases h
      assumption
  · cases h

omit [JsonText] in
theorem nodeErrorFailureCode_ne (error : NodeError F) : nodeErrorFailureCode error ≠ "" := by
  unfold nodeErrorFailureCode
  cases hcode : codeText error.metadata.failureCode with
  | none => decide
  | some code => exact codeText_some hcode

omit [JsonText] in
/-- The state that a node error leaves stands for the cell of its code. -/
theorem nodeError_cells {error : NodeError F} {state : ExecutedRowState}
    (h : nodeErrorRowState error = .ok state) : state ≠ .success ∧
      attributePublishedRow (none : Option F) (decide (state = .failed))
        (decide (state = .missing)) (decide (state = .invalid)) =
        .ok (attributeGeneratedRow state none
          (if nodeErrorFailureCode error = "" then none
            else some (nodeErrorFailureCode error))) := by
  rw [if_neg (nodeErrorFailureCode_ne error)]
  have hfailed := unattributed_of_failed error
  have hstate := nodeErrorRowState_eq error
  cases hcell : codeCell error with
  | some cell =>
    obtain ⟨_,code,hcode,hattributed⟩ := codeCell_some hcell
    rw [h, hcell] at hstate
    simp only [Option.isSome_some, if_true, Except.ok.injEq] at hstate
    subst hstate
    have hname : nodeErrorFailureCode error = code := by rw [nodeErrorFailureCode, hcode]; rfl
    refine ⟨by decide, ?_⟩
    rw [attributeGeneratedRow, hname]
    exact congrArg Except.ok (generated_attributed hattributed).symm
  | none =>
    rw [h, hcell] at hstate
    simp only [Option.isSome_none, Bool.false_eq_true, if_false] at hstate
    unfold rowStateForOutcomeKind rowStateByCell at hstate
    cases hkind : attributeOutcome (failureKind error.failureClass) with
    | scored => simp [hkind] at hstate
    | invalid => simp [hkind] at hstate
    | missing =>
      simp only [hkind, Except.ok.injEq] at hstate
      subst hstate
      exact ⟨by decide, rfl⟩
    | failed =>
      simp only [hkind, Except.ok.injEq] at hstate
      subst hstate
      refine ⟨by decide, ?_⟩
      rw [attributeGeneratedRow]
      exact congrArg Except.ok (generated_unattributed (hfailed h)).symm

/-! ### Which runs leave a persisted row -/

variable [FloatOps F]

theorem persists_iff {plan : PlannedRow} {renderedPrompt : String} {output : RolloutRowOutput F}
    (h : Projected plan output) (htrace : validateTrace output.traceSteps = .ok ())
    (hcells : (output.score.isSome = true ↔ output.rowState = .success) →
      attributePublishedRow output.score (decide (output.rowState = .failed))
        (decide (output.rowState = .missing)) (decide (output.rowState = .invalid)) =
          .ok (inlineRowValue output)) :
    Persists plan renderedPrompt output ↔
      (∀ score, output.score = some score → FloatOps.isFinite score = true) ∧
      Storable output.promptTokens output.completionTokens output.providerCost ∧
      (output.score.isSome = true ↔ output.rowState = .success) ∧
      (output.rowState = .missing → output.traceSteps = []) := by
  unfold Persists evaluationRecords
  constructor
  · rintro ⟨trace,row,hrecords,_⟩
    obtain ⟨htraced,hrecords⟩ := (check_bind_eq_ok _ _ _).mp hrecords
    obtain ⟨hvalid,_⟩ := (check_bind_eq_ok _ _ _).mp hrecords
    obtain ⟨hscore,hstorable,hexclusive⟩ := (outputRow_valid_iff h renderedPrompt).mp hvalid
    exact ⟨hscore, hstorable, hexclusive, (traceRow_valid_iff h htrace).mp htraced⟩
  · rintro ⟨hscore,hstorable,hexclusive,hmissing⟩
    refine ⟨traceRow plan output, outputRow plan renderedPrompt output, ?_, hcells hexclusive⟩
    exact (check_bind_eq_ok _ _ _).mpr ⟨(traceRow_valid_iff h htrace).mpr hmissing,
      (check_bind_eq_ok _ _ _).mpr
        ⟨(outputRow_valid_iff h renderedPrompt).mpr ⟨hscore, hstorable, hexclusive⟩, rfl⟩⟩

def TelemetryStorable (telemetry : CallTelemetry F) : Prop :=
  Storable telemetry.promptTokens telemetry.completionTokens telemetry.providerCost

omit [JsonText] in
theorem storable_none : TelemetryStorable ({} : CallTelemetry F) where
  prompt := fun _ h => by cases h
  completion := fun _ h => by cases h
  cost := fun _ h => by cases h

theorem missingRow_persists (plan : PlannedRow) (renderedPrompt code : String) :
    Persists plan renderedPrompt (missingRow plan.toRowKey code : RolloutRowOutput F) := by
  refine (persists_iff ⟨rfl, rfl, rfl, rfl, rfl⟩ rfl fun _ => rfl).mpr
    ⟨fun _ h => (by cases h), storable_none, ?_, fun _ => rfl⟩
  exact ⟨fun h => (by cases h), fun h => (by cases h)⟩

/- The LLM node failed: its error has a row state and telemetry that is stored. -/
def ErrorStorable (outcome : NodeOutcome F) : Prop :=
  ∃ error, outcome.error = some error ∧ Attributable error ∧
    TelemetryStorable error.metadata.telemetry

theorem llmErrorRow_persists {outcome : NodeOutcome F} (hstatus : outcome.status = .error)
    (plan : PlannedRow) (renderedPrompt : String) :
    (∃ output, llmErrorRow plan.toRowKey [] outcome = .ok output ∧
      Persists plan renderedPrompt output) ↔ ErrorStorable outcome := by
  constructor
  · rintro ⟨output,h,hpersists⟩
    unfold llmErrorRow at h
    obtain ⟨error,herror,h⟩ := (bind_eq_ok _ _ _).mp h
    obtain ⟨state,hstate,h⟩ := (bind_eq_ok _ _ _).mp h
    obtain ⟨hne,hcells⟩ := nodeError_cells hstate
    cases h
    refine ⟨error, (eq_some_of_requireNodeError outcome error herror).2,
      (nodeErrorRowState_ok_iff error).mp ⟨state, hstate⟩, ?_⟩
    exact ((persists_iff ⟨rfl, rfl, rfl, rfl, rfl⟩ rfl fun _ => hcells).mp hpersists).2.1
  · rintro ⟨error,herror,hattributable,htelemetry⟩
    obtain ⟨state,hstate⟩ := (nodeErrorRowState_ok_iff error).mpr hattributable
    obtain ⟨hne,hcells⟩ := nodeError_cells hstate
    unfold llmErrorRow
    rw [requireNodeError_ok outcome error hstatus herror, ok_bind, hstate, ok_bind]
    refine ⟨_, rfl, (persists_iff ⟨rfl, rfl, rfl, rfl, rfl⟩ rfl fun _ => hcells).mpr
      ⟨fun _ h => (by cases h), htelemetry, ?_, fun _ => rfl⟩⟩
    exact ⟨fun h => (by cases h), fun h => absurd h hne⟩

def llmGenerated (run : GraphRunResult F) : Bool :=
  match run.outcomes.get? llmNodeId with
  | none => false
  | some outcome => outcome.status = .success

/- The generation has its prompt and its text, fits a trace step and has telemetry that is
   stored. -/
def GenerationStorable (run : GraphRunResult F) : Prop :=
  match run.outcomes.get? llmNodeId with
  | none => True
  | some outcome => outcome.status = .success → ∃ output prompt text step,
      outcome.output = some output ∧ output.metadata.prompt = .str prompt ∧
      output.values.get? providerGenerationOutputField = some (.json (.str text)) ∧
      llmComponentStep 0 llmNodeId prompt text = .ok step ∧
      TelemetryStorable output.metadata.telemetry

/- What the row takes from its generation. -/
theorem generation_iff {run : GraphRunResult F} :
    (∃ steps generation, graphResultToComponentSteps run = .ok steps ∧
      readGeneration (run.outcomes.get? llmNodeId) = .ok generation ∧
      TelemetryStorable generation.telemetry) ↔ GenerationStorable run := by
  unfold GenerationStorable graphResultToComponentSteps readGeneration
  cases run.outcomes.get? llmNodeId with
  | none => exact ⟨fun _ => trivial, fun _ => ⟨[], {}, rfl, rfl, storable_none⟩⟩
  | some outcome =>
    dsimp only
    by_cases hstatus : outcome.status = .success
    · simp only [hstatus, ne_eq, not_true_eq_false, if_false, forall_const]
      constructor
      · rintro ⟨steps,generation,hsteps,hgeneration,htelemetry⟩
        obtain ⟨output,houtput,hsteps⟩ := (bind_eq_ok _ _ _).mp hsteps
        obtain ⟨prompt,hprompt,hsteps⟩ := (bind_eq_ok _ _ _).mp hsteps
        obtain ⟨text,htext,hsteps⟩ := (bind_eq_ok _ _ _).mp hsteps
        obtain ⟨step,hstep,_⟩ := (bind_eq_ok _ _ _).mp hsteps
        rw [houtput, ok_bind, htext, ok_bind] at hgeneration
        cases hgeneration
        refine ⟨output, prompt, text, step, ?_, ?_, ?_, hstep, htelemetry⟩
        · unfold requireNodeSuccess at houtput
          rw [hstatus] at houtput
          split at houtput
          · rename_i hsome
            cases houtput
            exact hsome
          · cases houtput
        · unfold metadataPrompt at hprompt
          split at hprompt
          · rename_i hvalue
            cases hprompt
            exact hvalue
          · cases hprompt
        · unfold nodeText at htext
          split at htext
          · cases htext
          · rename_i hvalue
            cases htext
            exact hvalue
          · cases htext
      · rintro ⟨output,prompt,text,step,houtput,hprompt,htext,hstep,htelemetry⟩
        have hrequired : requireNodeSuccess outcome = .ok output := by
          rw [requireNodeSuccess, hstatus, houtput]
        have hread : nodeText output providerGenerationOutputField = .ok text := by
          rw [nodeText, htext]
        have hwire : metadataPrompt output.metadata = .ok prompt := by rw [metadataPrompt, hprompt]
        simp only [hrequired, hread, hwire, hstep, ok_bind]
        exact ⟨[step], _, rfl, rfl, htelemetry⟩
    · simp only [hstatus, ne_eq, not_false_eq_true, if_true, false_implies, iff_true]
      exact ⟨[], {}, rfl, rfl, storable_none⟩

omit [FloatOps F] in
/- A run has steps exactly beside a generation. -/
theorem steps_generated {run : GraphRunResult F} {steps : List ExecutedComponentStep}
    (h : graphResultToComponentSteps run = .ok steps) :
    steps = [] ↔ llmGenerated run = false := by
  unfold graphResultToComponentSteps at h
  unfold llmGenerated
  cases hllm : run.outcomes.get? llmNodeId with
  | none =>
    rw [hllm] at h
    cases h
    simp
  | some outcome =>
    simp only [hllm] at h
    by_cases hstatus : outcome.status = .success
    · simp only [hstatus, ne_eq, not_true_eq_false, if_false] at h
      obtain ⟨_,_,h⟩ := (bind_eq_ok _ _ _).mp h
      obtain ⟨_,_,h⟩ := (bind_eq_ok _ _ _).mp h
      obtain ⟨_,_,h⟩ := (bind_eq_ok _ _ _).mp h
      obtain ⟨_,_,h⟩ := (bind_eq_ok _ _ _).mp h
      cases h
      simp [hstatus]
    · simp only [hstatus, ne_eq, not_false_eq_true, if_true] at h
      cases h
      simp [hstatus]

variable [Conversions F]

/- The eval node scored, or its error has a row state; a row is missing only beside no
   generation. -/
def EvalStorable (run : GraphRunResult F) (generated : Bool) : Prop :=
  match run.outcomes.get? evalNodeId with
  | none => generated = false
  | some outcome =>
    if outcome.status = .error then ∃ error, outcome.error = some error ∧ Attributable error ∧
      (LeavesMissing error → generated = false)
    else if outcome.status = .success then ∃ output score, outcome.output = some output ∧
      numericScore (output.values.get? evalOutputField) = .ok (some score) ∧
      FloatOps.isFinite score = true
    else generated = false

/-- The runs whose row is persisted: cancelled ones; those whose LLM node failed with an error
that has a row state; and those with a generation that is stored, if there is one, and a score,
or an error with a row state that fits the generation. -/
def RowStorable (run : GraphRunResult F) : Prop :=
  graphRunCancelled run = true ∨
    match run.outcomes.get? llmNodeId with
    | none => EvalStorable run false
    | some outcome =>
      if outcome.status = .error then ErrorStorable outcome
      else GenerationStorable run ∧ EvalStorable run (llmGenerated run)

/- What persists the scoring of a row. -/
structure ScoringStorable (scoring : Scoring F) (generated : Bool) : Prop where
  finite : ∀ score, scoring.score = some score → FloatOps.isFinite score = true
  exclusive : scoring.score.isSome = true ↔ scoring.rowState = .success
  generated : scoring.rowState = .missing → generated = false

omit [JsonText] in
theorem scoring_iff {run : GraphRunResult F} (code : String) (generated : Bool) :
    (∃ scoring, readScoring (run.outcomes.get? evalNodeId) code = .ok scoring ∧
      ScoringStorable scoring generated) ↔ EvalStorable run generated := by
  unfold EvalStorable readScoring
  cases run.outcomes.get? evalNodeId with
  | none =>
    constructor
    · rintro ⟨scoring,h,hstorable⟩
      cases h
      exact hstorable.generated rfl
    · intro hgenerated
      exact ⟨_, rfl, fun _ h => (by cases h), ⟨fun h => (by cases h), fun h => (by cases h)⟩,
        fun _ => hgenerated⟩
  | some outcome =>
    dsimp only
    by_cases hfailed : outcome.status = .error
    · rw [if_pos hfailed, if_pos hfailed]
      constructor
      · rintro ⟨scoring,h,hstorable⟩
        obtain ⟨error,herror,h⟩ := (bind_eq_ok _ _ _).mp h
        obtain ⟨state,hstate,h⟩ := (bind_eq_ok _ _ _).mp h
        cases h
        refine ⟨error, (eq_some_of_requireNodeError outcome error herror).2,
          (nodeErrorRowState_ok_iff error).mp ⟨state, hstate⟩, fun hmissing => ?_⟩
        have hsame := (nodeErrorRowState_missing_iff error).mpr hmissing
        rw [hstate, Except.ok.injEq] at hsame
        exact hstorable.generated hsame
      · rintro ⟨error,herror,hattributable,hgenerated⟩
        obtain ⟨state,hstate⟩ := (nodeErrorRowState_ok_iff error).mpr hattributable
        rw [requireNodeError_ok outcome error hfailed herror, ok_bind, hstate, ok_bind]
        refine ⟨_, rfl, fun _ h => (by cases h), ⟨fun h => (by cases h), fun h => ?_⟩,
          fun hmissing => ?_⟩
        · exact absurd h (nodeError_cells hstate).1
        · refine hgenerated ((nodeErrorRowState_missing_iff error).mp ?_)
          rw [hstate]
          exact congrArg Except.ok hmissing
    · rw [if_neg hfailed, if_neg hfailed]
      by_cases hscored : outcome.status = .success
      · rw [if_pos hscored, if_pos hscored]
        constructor
        · rintro ⟨scoring,h,hstorable⟩
          obtain ⟨output,houtput,h⟩ := (bind_eq_ok _ _ _).mp h
          obtain ⟨found,hfound,h⟩ := (bind_eq_ok _ _ _).mp h
          cases h
          obtain ⟨score,hscore⟩ := Option.isSome_iff_exists.mp (hstorable.exclusive.mpr rfl)
          dsimp only at hscore
          refine ⟨output, score, ?_, hscore ▸ hfound, hstorable.finite score hscore⟩
          unfold requireNodeSuccess at houtput
          rw [hscored] at houtput
          split at houtput
          · rename_i hsome
            cases houtput
            exact hsome
          · cases houtput
        · rintro ⟨output,score,houtput,hscore,hfinite⟩
          have hrequired : requireNodeSuccess outcome = .ok output := by
            rw [requireNodeSuccess, hscored, houtput]
          rw [hrequired, ok_bind, hscore, ok_bind]
          refine ⟨_, rfl, fun score' h => ?_, ⟨fun _ => rfl, fun _ => rfl⟩,
            fun h => (by cases h)⟩
          rw [← Option.some.inj h]
          exact hfinite
      · rw [if_neg hscored, if_neg hscored]
        constructor
        · rintro ⟨scoring,h,hstorable⟩
          cases h
          exact hstorable.generated rfl
        · intro hgenerated
          exact ⟨_, rfl, fun _ h => (by cases h),
            ⟨fun h => (by cases h), fun h => (by cases h)⟩, fun _ => hgenerated⟩

omit [JsonText] [FloatOps F] in
/- The state of a scoring stands for the cell of its score or of its code. -/
theorem scoring_cells {run : GraphRunResult F} {code : String} {scoring : Scoring F}
    (h : readScoring (run.outcomes.get? evalNodeId) code = .ok scoring)
    (hexclusive : scoring.score.isSome = true ↔ scoring.rowState = .success) :
    attributePublishedRow scoring.score (decide (scoring.rowState = .failed))
      (decide (scoring.rowState = .missing)) (decide (scoring.rowState = .invalid)) =
        .ok (attributeGeneratedRow scoring.rowState scoring.score
          (if scoring.failureCode = "" then none else some scoring.failureCode)) := by
  unfold readScoring at h
  cases heval : run.outcomes.get? evalNodeId with
  | none =>
    rw [heval] at h
    cases h
    rfl
  | some outcome =>
    simp only [heval] at h
    by_cases hfailed : outcome.status = .error
    · rw [if_pos hfailed] at h
      obtain ⟨error,_,h⟩ := (bind_eq_ok _ _ _).mp h
      obtain ⟨state,hstate,h⟩ := (bind_eq_ok _ _ _).mp h
      cases h
      exact (nodeError_cells hstate).2
    · rw [if_neg hfailed] at h
      by_cases hscored : outcome.status = .success
      · rw [if_pos hscored] at h
        obtain ⟨output,_,h⟩ := (bind_eq_ok _ _ _).mp h
        obtain ⟨found,_,h⟩ := (bind_eq_ok _ _ _).mp h
        cases h
        obtain ⟨score,hscore⟩ := Option.isSome_iff_exists.mp (hexclusive.mpr rfl)
        dsimp only at hscore ⊢
        rw [hscore]
        rfl
      · rw [if_neg hscored] at h
        cases h
        rfl

theorem scoredRow_persists {run : GraphRunResult F} {steps : List ExecutedComponentStep}
    (hsteps : graphResultToComponentSteps run = .ok steps) (plan : PlannedRow)
    (renderedPrompt : String) :
    (∃ output, graphResultToRowFields.scoredRow run plan.toRowKey steps = .ok output ∧
      Persists plan renderedPrompt output) ↔
    GenerationStorable run ∧ EvalStorable run (llmGenerated run) := by
  have htrace := projected_trace hsteps
  constructor
  · rintro ⟨output,h,hpersists⟩
    unfold graphResultToRowFields.scoredRow at h
    obtain ⟨generation,hgeneration,h⟩ := (bind_eq_ok _ _ _).mp h
    obtain ⟨scoring,hscoring,h⟩ := (bind_eq_ok _ _ _).mp h
    cases h
    obtain ⟨hfinite,htelemetry,hexclusive,hmissing⟩ :=
      (persists_iff ⟨rfl, rfl, rfl, rfl, rfl⟩ htrace (scoring_cells hscoring)).mp hpersists
    refine ⟨generation_iff.mp ⟨steps, generation, hsteps, hgeneration, htelemetry⟩,
      (scoring_iff generation.failureCode _).mp ⟨scoring, hscoring, hfinite, hexclusive,
        fun h => (steps_generated hsteps).mp (hmissing h)⟩⟩
  · rintro ⟨hgenerated,hscored⟩
    obtain ⟨steps',generation,hsame,hgeneration,htelemetry⟩ := generation_iff.mpr hgenerated
    obtain ⟨scoring,hscoring,hstorable⟩ := (scoring_iff generation.failureCode _).mpr hscored
    unfold graphResultToRowFields.scoredRow
    rw [hgeneration, ok_bind, hscoring, ok_bind]
    refine ⟨_, rfl,
      (persists_iff ⟨rfl, rfl, rfl, rfl, rfl⟩ htrace (scoring_cells hscoring)).mpr
      ⟨hstorable.finite, htelemetry, hstorable.exclusive, fun h => ?_⟩⟩
    exact (steps_generated hsteps).mpr (hstorable.generated h)

end Records

/-! ### A score that is null -/

section Example

attribute [local instance] exactFloats exactConversions shortFloats

def flakyPlanned : PlannedRow where
  candidateId := "c1"
  taskId := "t1"
  taskIndex := 0
  seedIndex := 0
  taskHash := "h1"
  candidateNamed := by decide
  taskNamed := by decide
  hashNamed := by decide
  taskPlaced := by decide
  seedPlaced := by decide

/- The LLM node answers and the eval node leaves no score. -/
def unscoredRun : GraphRunResult Rat where
  outcomes := Dict.ofPairs
    [(llmNodeId,
      { nodeId := llmNodeId, status := .success, error := none
        output := some { values := Dict.ofPairs
                           [(providerGenerationOutputField, .json (.str "42"))]
                         metadata := { prompt := .str "Solve." } } }),
     (evalNodeId,
      { nodeId := evalNodeId, status := .success, error := none
        output := some { values := Dict.ofPairs [(evalOutputField, .json .null)]
                         metadata := {} } })]

def unscoredRecords : Except String (ExecutedRowState × Option String) := do
  let output ← graphResultToRowFields unscoredRun flakyPlanned.toRowKey
  match evaluationRecords flakyPlanned "Solve." output with
  | .ok _ => return (output.rowState, none)
  | .error message => return (output.rowState, some message)

end Example
end Whetstone.Drivers
