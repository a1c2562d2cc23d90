import Whetstone.Core.Json
import Whetstone.Lib.Dict
import Whetstone.Lib.OptionalSum
import Whetstone.Lib.Text

/-! One logical provider call: the outcomes of its transport attempts, their classification and
the accounting of the responses it was billed for. Times are left out, with the latency that is
read from them. -/
namespace Whetstone.Provider
open Whetstone.Core Whetstone.Lib

inductive SemanticFailureClass where
  | transportError
  | rateLimit
  | timeout
  | providerRejection
  | blankProviderGeneration
  | malformedResponse
deriving DecidableEq

def SemanticFailureClass.value : SemanticFailureClass → String
  | .transportError => "transport-error"
  | .rateLimit => "rate-limit"
  | .timeout => "timeout"
  | .providerRejection => "provider-rejection"
  | .blankProviderGeneration => "blank-provider-generation"
  | .malformedResponse => "malformed-response"

inductive RecoverabilityClass where
  | rateLimited
  | resourceExhaustion
  | transient
  | permanent
  | unknown
deriving DecidableEq

structure TransportUsage where
  promptTokens : Option Int
  completionTokens : Option Int
  totalTokens : Option Int
  reasoningTokens : Option Int
deriving DecidableEq

/- `document` is the response as `model_dump` writes it. -/
structure ProviderTransportResponse (F : Type) where
  text : String
  usage : Option TransportUsage
  cost : Option F
  stopReason : Option String
  document : Json
deriving DecidableEq

structure ProviderTransportFailure where
  code : Option String
  message : String
  statusCode : Option Int
  recoverability : RecoverabilityClass
  document : Json
deriving DecidableEq

inductive ProviderTransportOutcome (F : Type) where
  | response (response : ProviderTransportResponse F)
  | failure (failure : ProviderTransportFailure)
deriving DecidableEq

variable {F : Type}

namespace ProviderTransportResponse

variable (response : ProviderTransportResponse F)

def promptTokens : Option Int := response.usage.bind TransportUsage.promptTokens
def completionTokens : Option Int := response.usage.bind TransportUsage.completionTokens
def totalTokens : Option Int := response.usage.bind TransportUsage.totalTokens
def reasoningTokens : Option Int := response.usage.bind TransportUsage.reasoningTokens

end ProviderTransportResponse

def isBlank (text : String) : Bool := strip text = ""

def classifyTransportFailure (failure : ProviderTransportFailure) : SemanticFailureClass :=
  if failure.statusCode = some 408 then .timeout
  else match failure.recoverability with
    | .rateLimited => .rateLimit
    | .resourceExhaustion => .rateLimit
    | .transient => .transportError
    | .permanent => .providerRejection
    | .unknown => .malformedResponse

/- What a failed attempt retains: a transport failure or a rejected response. -/
structure ProviderSemanticFailure (F : Type) where
  failureClass : SemanticFailureClass
  message : String
  cause : ProviderTransportOutcome F
deriving DecidableEq

/- A generation is its response, whose text is not blank. -/
def classifyOutcome : ProviderTransportOutcome F →
    Except (ProviderSemanticFailure F) (ProviderTransportResponse F)
  | .response response =>
    if isBlank response.text then
      .error ⟨.blankProviderGeneration,
        "provider returned a blank or whitespace-only generation", .response response⟩
    else .ok response
  | .failure failure =>
    .error ⟨classifyTransportFailure failure, failure.message, .failure failure⟩

/- The attempts of a call, each as the outcome that its classification repeats, up to the last
   one, whose classification is the result's. -/
structure ProviderCallResult (F : Type) where
  earlier : List (ProviderTransportOutcome F)
  last : ProviderTransportOutcome F
deriving DecidableEq

namespace ProviderCallResult

variable (result : ProviderCallResult F)

def attempts : List (ProviderTransportOutcome F) := result.earlier ++ [result.last]

def terminal : Except (ProviderSemanticFailure F) (ProviderTransportResponse F) :=
  classifyOutcome result.last

/- A response is billed whether or not it is accepted. -/
def billedResponses : List (ProviderTransportResponse F) :=
  result.attempts.filterMap fun outcome => match outcome with
    | .response response => some response
    | .failure _ => none

end ProviderCallResult

/- `_provider_error_of`; the body has the document of what the failure retains. -/
def providerErrorOf (result : ProviderCallResult F) : Option (Dict String Json) :=
  match result.terminal with
  | .ok _ => none
  | .error failure => some (Dict.ofPairs
      [("failure_class", .str failure.failureClass.value), ("message", .str failure.message),
        match failure.cause with
        | .failure transport => ("transport_failure", transport.document)
        | .response response => ("rejected_response", response.document)])

structure CallTelemetry (F : Type) where
  promptTokens : Option Int
  completionTokens : Option Int
  totalTokens : Option Int
  reasoningTokens : Option Int
  finishReason : Option String
  providerError : Option (Dict String Json)
  providerCost : Option F
deriving DecidableEq

/- The accounting of a call. A count or a price is withheld when a billed response lacks it. -/
def callTelemetry [AddCommMonoid F] (result : ProviderCallResult F) : CallTelemetry F where
  promptTokens := completeSum (result.billedResponses.map (·.promptTokens))
  completionTokens := completeSum (result.billedResponses.map (·.completionTokens))
  totalTokens := completeSum (result.billedResponses.map (·.totalTokens))
  reasoningTokens := completeSum (result.billedResponses.map (·.reasoningTokens))
  finishReason := match result.terminal with
    | .ok response => response.stopReason
    | .error _ => none
  providerError := providerErrorOf result
  providerCost := completeSum (result.billedResponses.map (·.cost))

structure CacheProvenance where
  key : String
  sourcePhase : String
  sourceUnit : String
  sourceLogicalCallId : String
  storedAt : String
deriving DecidableEq

/- A call the prompt cache served has the provenance of the stored result, and no other has. -/
structure CallExecution (F : Type) where
  result : ProviderCallResult F
  provenance : Option CacheProvenance
deriving DecidableEq

namespace CallExecution

variable (execution : CallExecution F)

def cacheHit : Bool := execution.provenance.isSome

def telemetry [AddCommMonoid F] : CallTelemetry F := callTelemetry execution.result

/- The responses that this execution was billed for. -/
def freshResponses : List (ProviderTransportResponse F) :=
  if execution.cacheHit then [] else execution.result.billedResponses

end CallExecution

end Whetstone.Provider
