import Whetstone.Core.Floats
import Whetstone.Eval.Attribution

/-! One execution of the rollout graph, and the row it leaves. The graph engine is outside
this repository: a run is what it reports, an outcome for each node it reached. -/
namespace Whetstone.Drivers
open Whetstone.Core Whetstone.Lib Whetstone.Eval

variable {F : Type}

/- The telemetry keys of a node's metadata that a row carries. -/
structure CallTelemetry (F : Type) where
  promptTokens : Option Int := none
  completionTokens : Option Int := none
  finishReason : Option String := none
  providerError : Option (Dict String Json) := none
  providerCost : Option F := none
deriving DecidableEq

/- `null` stands for an absent key. The keys whose type the source checks hold any value. -/
structure NodeMetadata (F : Type) where
  prompt : Json := .null
  failureCode : Json := .null
  cacheHit : Json := .null
  submissionResult : Json := .null
  telemetry : CallTelemetry F := {}
deriving DecidableEq

structure NodeOutput (F : Type) where
  values : Dict String (PyValue F)
  metadata : NodeMetadata F
deriving DecidableEq

structure NodeError (F : Type) where
  errorType : String
  message : String
  failureClass : Option String
  metadata : NodeMetadata F
deriving DecidableEq

inductive NodeOutcomeStatus where
  | success
  | error
  | cancelled
  | other (status : String)
deriving DecidableEq

structure NodeOutcome (F : Type) where
  nodeId : String
  status : NodeOutcomeStatus
  output : Option (NodeOutput F)
  error : Option (NodeError F)
deriving DecidableEq

structure GraphRunResult (F : Type) where
  outcomes : Dict String (NodeOutcome F)
deriving DecidableEq

def llmNodeId : String := "generate"
def evalNodeId : String := "evaluate"
def evalOutputField : String := "evaluation"

def graphRunCancelled (run : GraphRunResult F) : Bool :=
  run.outcomes.values.any (fun outcome => outcome.status = .cancelled)

def rowStateByCell : AccountingCell → Option ExecutedRowState
  | .failed => some .failed
  | .missing => some .missing
  | _ => none

def rowStateForOutcomeKind (kind : AttributedOutcome) : Except String ExecutedRowState :=
  match rowStateByCell (attributeOutcome kind) with
  | some rowState => .ok rowState
  | none => .error ("outcome kind '" ++ kind.value ++ "' attributes to cell '" ++
      (attributeOutcome kind).value ++ "', which has no executed-row state")

def rowStateByAccountingCell : AccountingCell → Option ExecutedRowState
  | .failed => some .failed
  | .missing => some .missing
  | .invalid => some .invalid
  | .scored => none

/- The text under the failure-code key when it is nonempty text. -/
def codeText : Json → Option String
  | .str code => if code = "" then none else some code
  | _ => none

def failureKind (failureClass : Option String) : AttributedOutcome :=
  match failureClass with
  | none => .infrastructure
  | some text => (AttributedOutcome.ofValue? text).getD .infrastructure

/- The code is consulted before the class that raised. -/
def nodeErrorRowState (error : NodeError F) : Except String ExecutedRowState :=
  let attributed := do
    let code ← codeText error.metadata.failureCode
    let cell ← attributeGeneratedRowCell code
    rowStateByAccountingCell cell
  match attributed with
  | some rowState => .ok rowState
  | none => rowStateForOutcomeKind (failureKind error.failureClass)

def nodeExecutionFailureCode : String := "node_execution_error"

def nodeErrorFailureCode (error : NodeError F) : String :=
  (codeText error.metadata.failureCode).getD nodeExecutionFailureCode

def metadataFailureCode (metadata : NodeMetadata F) : String :=
  (codeText metadata.failureCode).getD ""

def maxNodeErrorMessageChars : Nat := 2000

def boundedNodeErrorMessage (message : String) : String :=
  if message.length ≤ maxNodeErrorMessageChars then message
  else String.ofList (message.toList.take maxNodeErrorMessageChars) ++ "...[truncated]"

def requireNodeError (outcome : NodeOutcome F) : Except String (NodeError F) :=
  match outcome.status, outcome.error with
  | .error, some error => .ok error
  | _, _ => .error ("node '" ++ outcome.nodeId ++ "' was expected to carry an error")

def requireNodeSuccess (outcome : NodeOutcome F) : Except String (NodeOutput F) :=
  match outcome.status, outcome.output with
  | .success, some output => .ok output
  | _, _ => .error ("node '" ++ outcome.nodeId ++ "' was expected to have succeeded")

def nodeText (output : NodeOutput F) (field : String) : Except String String :=
  match output.values.get? field with
  | none => .error field
  | some (.json (.str text)) => .ok text
  | some _ => .error ("node output field '" ++ field ++ "' was expected to be text")

def metadataPrompt (metadata : NodeMetadata F) : Except String String :=
  match metadata.prompt with
  | .str prompt => .ok prompt
  | _ => .error "LLM node metadata must record its wire prompt"

section Rows
variable [JsonText]

structure RolloutRowOutput (F : Type) where
  candidateId : String
  taskId : String
  taskIndex : Int
  seedIndex : Int
  rowState : ExecutedRowState
  traceSteps : List ExecutedComponentStep
  outputText : Option String
  score : Option F
  failureCode : String := ""
  finishReason : Option String := none
  providerError : Option (Dict String Json) := none
  maxBudget : Option Int := none
  overBudget : Option Bool := none
  /-- `null` when the procedure left no submission. -/
  submissionResult : Json := .null
  promptTokens : Option Int := none
  completionTokens : Option Int := none
  providerCost : Option F := none
  cacheHit : Bool := false
  errorType : Option String := none
  errorMessage : Option String := none
  failedNodeId : Option String := none
  rowAttempts : Int := 1
deriving DecidableEq

/- The coordinates of a row in its plan. -/
structure RowKey where
  candidateId : String
  taskId : String
  taskIndex : Int
  seedIndex : Int
deriving DecidableEq

def missingRow (key : RowKey) (failureCode : String) : RolloutRowOutput F :=
  { candidateId := key.candidateId, taskId := key.taskId, taskIndex := key.taskIndex
    seedIndex := key.seedIndex, rowState := .missing, traceSteps := [], outputText := none
    score := none, failureCode := failureCode }

def graphResultToComponentSteps (run : GraphRunResult F) :
    Except String (List ExecutedComponentStep) :=
  match run.outcomes.get? llmNodeId with
  | none => .ok []
  | some outcome =>
    if outcome.status ≠ .success then .ok []
    else do
      let output ← requireNodeSuccess outcome
      let prompt ← metadataPrompt output.metadata
      let generation ← nodeText output providerGenerationOutputField
      let step ← llmComponentStep 0 llmNodeId prompt generation
      return [step]

def llmErrorRow (key : RowKey) (steps : List ExecutedComponentStep) (outcome : NodeOutcome F) :
    Except String (RolloutRowOutput F) := do
  let error ← requireNodeError outcome
  let telemetry := error.metadata.telemetry
  let rowState ← nodeErrorRowState error
  return { candidateId := key.candidateId, taskId := key.taskId, taskIndex := key.taskIndex
           seedIndex := key.seedIndex, rowState := rowState, traceSteps := steps
           outputText := none, score := none, failureCode := nodeErrorFailureCode error
           finishReason := telemetry.finishReason, providerError := telemetry.providerError
           promptTokens := telemetry.promptTokens
           completionTokens := telemetry.completionTokens
           providerCost := telemetry.providerCost
           cacheHit := decide (error.metadata.cacheHit = .bool true)
           errorType := some error.errorType
           errorMessage := some (boundedNodeErrorMessage error.message)
           failedNodeId := some llmNodeId }

/- What the row takes from the LLM node when it did not fail. -/
structure Generation (F : Type) where
  outputText : Option String := none
  failureCode : String := ""
  telemetry : CallTelemetry F := {}
  cacheHit : Bool := false

def readGeneration (llmOutcome : Option (NodeOutcome F)) : Except String (Generation F) :=
  match llmOutcome with
  | none => .ok {}
  | some outcome =>
    if outcome.status ≠ .success then .ok {}
    else do
      let output ← requireNodeSuccess outcome
      let text ← nodeText output providerGenerationOutputField
      return { outputText := some text
               failureCode := metadataFailureCode output.metadata
               telemetry := output.metadata.telemetry
               cacheHit := decide (output.metadata.cacheHit = .bool true) }

/- What the row takes from the eval node. -/
structure Scoring (F : Type) where
  rowState : ExecutedRowState := .success
  failureCode : String
  score : Option F := none
  submissionResult : Json := .null
  errorType : Option String := none
  errorMessage : Option String := none
  failedNodeId : Option String := none

def numericScore [Conversions F] (rawScore : Option (PyValue F)) : Except String (Option F) :=
  match rawScore with
  | none => .ok none
  | some (.json .null) => .ok none
  | some (.json (.int n)) => do return some (← pyFloat (.json (.int n)))
  | some (.json (.float q)) => do return some (← pyFloat (.json (.float q)))
  | some (.float x) => .ok (some x)
  | some _ => .error "eval node score must be numeric or null"

def readScoring [Conversions F] (evalOutcome : Option (NodeOutcome F))
    (generationFailureCode : String) : Except String (Scoring F) :=
  match evalOutcome with
  | none => .ok { rowState := .missing, failureCode := "missing_eval_outcome" }
  | some outcome =>
    if outcome.status = .error then do
      let error ← requireNodeError outcome
      let rowState ← nodeErrorRowState error
      return { rowState := rowState
               failureCode := nodeErrorFailureCode error
               errorType := some error.errorType
               errorMessage := some (boundedNodeErrorMessage error.message)
               failedNodeId := some evalNodeId }
    else if outcome.status = .success then do
      let output ← requireNodeSuccess outcome
      let score ← numericScore (output.values.get? evalOutputField)
      return { failureCode := generationFailureCode, score := score
               submissionResult := output.metadata.submissionResult }
    else .ok { rowState := .missing, failureCode := "eval_not_successful" }

def graphResultToRowFields [Conversions F] (run : GraphRunResult F) (key : RowKey) :
    Except String (RolloutRowOutput F) :=
  if graphRunCancelled run then .ok (missingRow key "cancelled")
  else do
    let steps ← graphResultToComponentSteps run
    match run.outcomes.get? llmNodeId with
    | some outcome =>
      if outcome.status = .error then llmErrorRow key steps outcome
      else scoredRow steps
    | none => scoredRow steps
where
  scoredRow (steps : List ExecutedComponentStep) : Except String (RolloutRowOutput F) := do
    let generation ← readGeneration (run.outcomes.get? llmNodeId)
    let scoring ← readScoring (run.outcomes.get? evalNodeId) generation.failureCode
    return { candidateId := key.candidateId, taskId := key.taskId, taskIndex := key.taskIndex
             seedIndex := key.seedIndex, rowState := scoring.rowState, traceSteps := steps
             outputText := generation.outputText, score := scoring.score
             failureCode := scoring.failureCode
             finishReason := generation.telemetry.finishReason
             providerError := generation.telemetry.providerError
             promptTokens := generation.telemetry.promptTokens
             completionTokens := generation.telemetry.completionTokens
             providerCost := generation.telemetry.providerCost
             cacheHit := generation.cacheHit, submissionResult := scoring.submissionResult
             errorType := scoring.errorType, errorMessage := scoring.errorMessage
             failedNodeId := scoring.failedNodeId }

end Rows
end Whetstone.Drivers
