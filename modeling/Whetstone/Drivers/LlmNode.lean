import Whetstone.Drivers.RowAgreement
import Whetstone.Provider.CallExecution

/-! The LLM node of a rollout graph, from the call it executes to the telemetry its row
carries. -/
namespace Whetstone.Drivers
open Whetstone.Core Whetstone.Lib Whetstone.Eval Whetstone.Provider

variable {F : Type}

/- How the node of one execution ran. An exception that keeps no execution may still leave
   responses it was billed for; of its metadata the node keeps the failure code. -/
inductive LlmNodeRun (F : Type) where
  | raised (errorType message : String) (failureClass : Option String) (failureCode : Json)
      (billed : List (ProviderTransportResponse F))
  | called (prompt : String) (execution : CallExecution F)

/- The text of a result and the code that marks it, or the failure class of its error. -/
def providerResultText (result : ProviderCallResult F) :
    Except (SemanticFailureClass × String) (String × Json) :=
  match result.terminal with
  | .ok response => .ok (response.text, .null)
  | .error failure =>
    if failure.failureClass = .blankProviderGeneration then
      .ok ("", .str failure.failureClass.value)
    else .error (failure.failureClass,
      "provider call failed with " ++ failure.failureClass.value ++ ": " ++ failure.message)

/- The keys of `call_execution_metadata` that a row reads. -/
def callExecutionMetadata [AddCommMonoid F] (execution : CallExecution F) : NodeMetadata F where
  cacheHit := .bool execution.cacheHit
  telemetry :=
    { promptTokens := execution.telemetry.promptTokens
      completionTokens := execution.telemetry.completionTokens
      finishReason := execution.telemetry.finishReason
      providerError := execution.telemetry.providerError
      providerCost := execution.telemetry.providerCost }

/- What the node leaves of an execution. -/
def generationOutput [AddCommMonoid F] (prompt : String) (execution : CallExecution F) :
    Except (NodeError F) (NodeOutput F) :=
  match providerResultText execution.result with
  | .error (failureClass, message) =>
    .error { errorType := "GenerationNodeError", message := message
             failureClass := some AttributedOutcome.infrastructure.value
             metadata := { failureCode := .str failureClass.value } }
  | .ok (text, failureCode) =>
    .ok { values := Dict.ofPairs [(providerGenerationOutputField, .json (.str text))]
          metadata := { callExecutionMetadata execution with
            prompt := .str prompt, failureCode := failureCode } }

/- `run_llm_node` -/
def runLlmNode [AddCommMonoid F] : LlmNodeRun F → Except (NodeError F) (NodeOutput F)
  | .raised errorType message failureClass failureCode _ =>
    .error { errorType := errorType, message := message, failureClass := failureClass
             metadata := { failureCode := failureCode } }
  | .called prompt execution => generationOutput prompt execution

/- The responses that the node was billed for. -/
def LlmNodeRun.freshResponses : LlmNodeRun F → List (ProviderTransportResponse F)
  | .raised _ _ _ _ billed => billed
  | .called _ execution => execution.freshResponses

def GraphExecution.result? : GraphExecution F → Option (GraphRunResult F)
  | .completed run => some run
  | .interrupted run => some run
  | .raised _ => none

/- An outcome that the engine reports for a node is what the node left. -/
def NodeOutcome.Reports (outcome : NodeOutcome F) (left : Except (NodeError F) (NodeOutput F)) :
    Prop :=
  (outcome.status = .success → ∃ output, left = .ok output ∧ outcome.output = some output) ∧
    (outcome.status = .error → ∃ error, left = .error error ∧ outcome.error = some error)

variable [AddCommMonoid F]

/-- One execution of the graph: the run of its LLM node, and what the engine made of it. -/
structure RowAttempt (F : Type) [AddCommMonoid F] where
  llm : LlmNodeRun F
  execution : GraphExecution F
  reported : ∀ run, execution.result? = some run → ∀ outcome,
    run.outcomes.get? llmNodeId = some outcome → outcome.Reports (runLlmNode llm)

namespace RowAttempt

variable (attempt : RowAttempt F)

def freshResponses : List (ProviderTransportResponse F) := attempt.llm.freshResponses

/- The node succeeded in a run that was not cancelled, so that its row has its telemetry. -/
def reachesRow : Bool :=
  match attempt.execution.result? with
  | none => false
  | some run => !graphRunCancelled run &&
      match run.outcomes.get? llmNodeId with
      | some outcome => outcome.status = .success
      | none => false

/- The execution whose telemetry the row of this attempt has. -/
def carried : Option (CallExecution F) :=
  match attempt.llm with
  | .called _ execution => if attempt.reachesRow then some execution else none
  | .raised .. => none

end RowAttempt

def NodeOutcome.ofNode (nodeId : String) : Except (NodeError F) (NodeOutput F) → NodeOutcome F
  | .ok output => { nodeId := nodeId, status := .success, output := some output, error := none }
  | .error error => { nodeId := nodeId, status := .error, output := none, error := some error }

omit [AddCommMonoid F] in
theorem NodeOutcome.reports_ofNode (nodeId : String) (left : Except (NodeError F) (NodeOutput F)) :
    (NodeOutcome.ofNode nodeId left).Reports left := by
  cases left with
  | ok output => exact ⟨fun _ => ⟨output, rfl, rfl⟩, fun h => by cases h⟩
  | error error => exact ⟨fun h => (by cases h), fun _ => ⟨error, rfl, rfl⟩⟩

/- The engine evaluates what the LLM node generated, and nothing when it raised. -/
def graphInOrder (llm : LlmNodeRun F) (evaluation : Except (NodeError F) (NodeOutput F)) :
    GraphRunResult F where
  outcomes := Dict.ofPairs ((llmNodeId, NodeOutcome.ofNode llmNodeId (runLlmNode llm)) ::
    if (runLlmNode llm).isOk then [(evalNodeId, NodeOutcome.ofNode evalNodeId evaluation)] else [])

theorem graphInOrder_llm (llm : LlmNodeRun F)
    (evaluation : Except (NodeError F) (NodeOutput F)) :
    (graphInOrder llm evaluation).outcomes.get? llmNodeId =
      some (NodeOutcome.ofNode llmNodeId (runLlmNode llm)) := by
  have hnames : evalNodeId ≠ llmNodeId := by decide
  unfold graphInOrder
  by_cases h : (runLlmNode llm).isOk = true
  · rw [if_pos h]
    exact Dict.get?_ofPairs_of_mem _ (by simp [hnames.symm]) _ _ List.mem_cons_self
  · rw [if_neg h]
    exact Dict.get?_ofPairs_of_mem _ (by simp) _ _ List.mem_cons_self

def RowAttempt.inOrder (llm : LlmNodeRun F) (evaluation : Except (NodeError F) (NodeOutput F)) :
    RowAttempt F where
  llm := llm
  execution := .completed (graphInOrder llm evaluation)
  reported := by
    intro run hrun outcome houtcome
    cases hrun
    rw [graphInOrder_llm, Option.some.injEq] at houtcome
    rw [← houtcome]
    exact NodeOutcome.reports_ofNode _ _

/- The rows of an experiment whose graph runs go as these attempts. -/
def RolloutContext.driven (context : RolloutContext F) (attempts : Nat → RowAttempt F) :
    RolloutContext F :=
  { context with execute := fun _ _ driveOrdinal => (attempts driveOrdinal).execution }

/-! ### The row of one attempt -/

theorem runLlmNode_ok {llm : LlmNodeRun F} {output : NodeOutput F}
    (h : runLlmNode llm = .ok output) : ∃ prompt execution, llm = .called prompt execution ∧
      output.metadata.telemetry = (callExecutionMetadata execution).telemetry ∧
      output.metadata.cacheHit = .bool execution.cacheHit := by
  cases llm with
  | raised => cases h
  | called prompt execution =>
    refine ⟨prompt, execution, rfl, ?_⟩
    unfold runLlmNode generationOutput at h
    cases htext : providerResultText execution.result with
    | error failure =>
      simp only [htext] at h
      cases h
    | ok text =>
      simp only [htext] at h
      cases h
      exact ⟨rfl, rfl⟩

theorem runLlmNode_error {llm : LlmNodeRun F} {error : NodeError F}
    (h : runLlmNode llm = .error error) :
    error.metadata.telemetry = {} ∧ error.metadata.cacheHit = .null := by
  cases llm with
  | raised =>
    cases h
    exact ⟨rfl, rfl⟩
  | called prompt execution =>
    unfold runLlmNode generationOutput at h
    cases htext : providerResultText execution.result with
    | error failure =>
      simp only [htext] at h
      cases h
      exact ⟨rfl, rfl⟩
    | ok text =>
      simp only [htext] at h
      cases h

theorem carried_of_not_reaches {attempt : RowAttempt F} (h : attempt.reachesRow = false) :
    attempt.carried = none := by
  unfold RowAttempt.carried
  rw [h]
  cases attempt.llm <;> rfl

section Rows

variable [JsonText]

/- What a row has of the telemetry of a call. -/
structure Carries (output : RolloutRowOutput F) (carried : Option (CallExecution F)) : Prop where
  prompt : output.promptTokens = carried.bind fun e => e.telemetry.promptTokens
  completion : output.completionTokens = carried.bind fun e => e.telemetry.completionTokens
  cost : output.providerCost = carried.bind fun e => e.telemetry.providerCost
  cacheHit : output.cacheHit = carried.any CallExecution.cacheHit

omit [AddCommMonoid F] [JsonText] in
theorem executeRolloutGraph_ok {execution : GraphExecution F} {run : GraphRunResult F}
    (h : executeRolloutGraph execution = .ok run) : execution.result? = some run := by
  cases execution with
  | completed result =>
    cases h
    rfl
  | interrupted result =>
    cases h
    rfl
  | raised message => cases h

omit [AddCommMonoid F] in
theorem llmErrorRow_ok {key : RowKey} {steps : List ExecutedComponentStep}
    {outcome : NodeOutcome F} {output : RolloutRowOutput F}
    (h : llmErrorRow key steps outcome = .ok output) : ∃ error, outcome.error = some error ∧
      output.promptTokens = error.metadata.telemetry.promptTokens ∧
      output.completionTokens = error.metadata.telemetry.completionTokens ∧
      output.providerCost = error.metadata.telemetry.providerCost ∧
      output.cacheHit = decide (error.metadata.cacheHit = .bool true) := by
  unfold llmErrorRow at h
  obtain ⟨error,herror,h⟩ := (bind_eq_ok _ _ _).mp h
  obtain ⟨rowState,_,h⟩ := (bind_eq_ok _ _ _).mp h
  cases h
  exact ⟨error, (eq_some_of_requireNodeError outcome error herror).2, rfl, rfl, rfl, rfl⟩

variable [Conversions F]

omit [AddCommMonoid F] in
theorem scoredRow_ok {run : GraphRunResult F} {key : RowKey} {steps : List ExecutedComponentStep}
    {output : RolloutRowOutput F} (h : graphResultToRowFields.scoredRow run key steps = .ok output) :
    ∃ generation, readGeneration (run.outcomes.get? llmNodeId) = .ok generation ∧
      output.promptTokens = generation.telemetry.promptTokens ∧
      output.completionTokens = generation.telemetry.completionTokens ∧
      output.providerCost = generation.telemetry.providerCost ∧
      output.cacheHit = generation.cacheHit := by
  unfold graphResultToRowFields.scoredRow at h
  obtain ⟨generation,hgeneration,h⟩ := (bind_eq_ok _ _ _).mp h
  obtain ⟨scoring,_,h⟩ := (bind_eq_ok _ _ _).mp h
  cases h
  exact ⟨generation, hgeneration, rfl, rfl, rfl, rfl⟩

/-- The row of an attempt has the telemetry of the call that reaches it. -/
theorem attempt_carries {attempt : RowAttempt F} {run : GraphRunResult F} {key : RowKey}
    {output : RolloutRowOutput F} (hrun : attempt.execution.result? = some run)
    (h : graphResultToRowFields run key = .ok output) : Carries output attempt.carried := by
  unfold graphResultToRowFields at h
  by_cases hcancelled : graphRunCancelled run = true
  · rw [if_pos hcancelled] at h
    cases h
    rw [carried_of_not_reaches (by simp [RowAttempt.reachesRow, hrun, hcancelled])]
    exact ⟨rfl, rfl, rfl, rfl⟩
  · rw [if_neg hcancelled] at h
    obtain ⟨steps,_,h⟩ := (bind_eq_ok _ _ _).mp h
    cases houtcome : run.outcomes.get? llmNodeId with
    | none =>
      simp only [houtcome] at h
      obtain ⟨generation,hgeneration,hprompt,hcompletion,hcost,hhit⟩ := scoredRow_ok h
      rw [houtcome] at hgeneration
      cases hgeneration
      rw [carried_of_not_reaches (by simp [RowAttempt.reachesRow, hrun, houtcome])]
      exact ⟨hprompt, hcompletion, hcost, hhit⟩
    | some outcome =>
      obtain ⟨hsuccess,herror⟩ := attempt.reported run hrun outcome houtcome
      simp only [houtcome] at h
      by_cases hstatus : outcome.status = .error
      · rw [if_pos hstatus] at h
        obtain ⟨error,hleft,herror⟩ := herror hstatus
        obtain ⟨error',hsame,hprompt,hcompletion,hcost,hhit⟩ := llmErrorRow_ok h
        rw [herror, Option.some.injEq] at hsame
        obtain ⟨htelemetry,hmark⟩ := runLlmNode_error hleft
        rw [← hsame, htelemetry] at hprompt hcompletion hcost
        rw [← hsame, hmark] at hhit
        rw [carried_of_not_reaches (by simp [RowAttempt.reachesRow, hrun, houtcome, hstatus])]
        exact ⟨hprompt, hcompletion, hcost, hhit⟩
      · rw [if_neg hstatus] at h
        obtain ⟨generation,hgeneration,hprompt,hcompletion,hcost,hhit⟩ := scoredRow_ok h
        rw [houtcome] at hgeneration
        by_cases hok : outcome.status = .success
        · obtain ⟨output',hleft,houtput⟩ := hsuccess hok
          obtain ⟨prompt,execution,hcalled,htelemetry,hmark⟩ := runLlmNode_ok hleft
          simp only [readGeneration, hok, ne_eq, not_true_eq_false, if_false, requireNodeSuccess,
            houtput, ok_bind] at hgeneration
          obtain ⟨text,_,hgeneration⟩ := (bind_eq_ok _ _ _).mp hgeneration
          cases hgeneration
          have hcarried : attempt.carried = some execution := by
            simp [RowAttempt.carried, hcalled, RowAttempt.reachesRow, hrun, hcancelled, houtcome, hok]
          rw [hcarried]
          rw [htelemetry] at hprompt hcompletion hcost
          refine ⟨hprompt, hcompletion, hcost, ?_⟩
          rw [hhit, hmark]
          simp
        · simp only [readGeneration, hok, ne_eq, not_false_eq_true, if_true] at hgeneration
          cases hgeneration
          rw [carried_of_not_reaches (by simp [RowAttempt.reachesRow, hrun, houtcome, hok])]
          exact ⟨hprompt, hcompletion, hcost, hhit⟩

end Rows
end Whetstone.Drivers
