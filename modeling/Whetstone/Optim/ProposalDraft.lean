import Whetstone.Optim.CostAggregation
import Whetstone.Provider.CallExecution
import Mathlib.Algebra.Ring.Int.Defs
import Mathlib.Algebra.Ring.Rat

/-! The draft that one proposer call leaves, and the usage that run cost reads of it. Of the
evidence of a draft only what the usage reads is listed; prices are exact rationals. -/
namespace Whetstone.Optim.Step
open Whetstone.Core Whetstone.Lib Whetstone.Provider

attribute [local instance] exactFiniteFloats

def providerErrorKey : String := "provider_error"

def validateDraft (template : String) (terminalFailure : Option TerminalFailure) :
    Except String Unit :=
  match terminalFailure with
  | some _ => raiseIf (template ≠ "") "a failed ProposalDraft carries no template"
  | none => raiseIf (template = "") "a successful ProposalDraft requires a non-empty template"

structure ProposalDraft where
  template : String
  terminalFailure : Option TerminalFailure
  requestEvidence : List (String × Json)
  responseEvidence : List (String × Json)
  usage : List (String × Json)
  cost : Option Rat
  valid : validateDraft template terminalFailure = .ok ()

namespace ProposalDraft

def create (template : String) (terminalFailure : Option TerminalFailure)
    (requestEvidence responseEvidence usage : List (String × Json)) (cost : Option Rat) :
    Except String ProposalDraft :=
  match h : validateDraft template terminalFailure with
  | .ok () => .ok ⟨template, terminalFailure, requestEvidence, responseEvidence, usage, cost, h⟩
  | .error message => .error message

def failure (detail : String) (requestEvidence responseEvidence usage : List (String × Json))
    (cost : Option Rat) : ProposalDraft where
  template := ""
  terminalFailure := some ⟨"proposal_failed", detail, .obj []⟩
  requestEvidence := requestEvidence
  responseEvidence := responseEvidence
  usage := usage
  cost := cost
  valid := rfl

variable (draft : ProposalDraft)

def failed : Bool := draft.terminalFailure.isSome

def logicalCallId : String :=
  match draft.requestEvidence.lookup "logical_call_id" with
  | some (.str value) => value
  | _ => ""

def responseRejected : Bool :=
  match draft.responseEvidence.lookup providerErrorKey with
  | some (.obj body) => evidencesProviderResponse (some body)
  | _ => false

/- A directional count, which is an integer and counts as zero below zero. -/
def usageTokens (usage : List (String × Json)) (key : String) : Option Int :=
  match usage.lookup key with
  | some (.int value) => some (max 0 value)
  | _ => none

def promptTokens : Option Int := usageTokens draft.usage "prompt_tokens"

def completionTokens : Option Int := usageTokens draft.usage "completion_tokens"

/- Nothing shows that the provider answered. -/
def unbilled : Bool :=
  draft.failed = true ∧ draft.promptTokens = none ∧ draft.completionTokens = none ∧
    draft.cost = none ∧ draft.responseRejected = false

def callUsage : Except String (Option (ProposerCallUsage Rat)) :=
  if draft.logicalCallId = "" then .ok none
  else if draft.unbilled = true then .ok none
  else match h : validateUsage draft.promptTokens draft.completionTokens draft.cost with
    | .ok () => .ok (some
        ⟨draft.logicalCallId, draft.promptTokens, draft.completionTokens, draft.cost, h⟩)
    | .error message => .error message

end ProposalDraft

/-! ### The draft of one slot -/

/- What names the call of a slot. -/
structure DraftSlot where
  configHash : String
  executionPolicyHash : String
  promptAdapterIdentityHash : String
  proposalRequestHash : String
  slot : Nat

def DraftSlot.logicalCallId (slot : DraftSlot) : String :=
  "proposer:" ++ slot.configHash ++ ":" ++ slot.executionPolicyHash ++ ":" ++
    slot.promptAdapterIdentityHash ++ ":" ++ slot.proposalRequestHash ++ ":" ++ toString slot.slot

/- The usage of `_billed_accounting`, without what the call withholds. -/
def billedUsage (telemetry : CallTelemetry Rat) : List (String × Json) :=
  [("prompt_tokens", telemetry.promptTokens), ("completion_tokens", telemetry.completionTokens),
    ("total_tokens", telemetry.totalTokens),
    ("reasoning_tokens", telemetry.reasoningTokens)].filterMap
      fun entry => entry.2.map fun value => (entry.1, .int value)

/- `_draft_slot`, once the call has returned. -/
def draftSlot (slot : DraftSlot) (result : ProviderCallResult Rat) : Except String ProposalDraft :=
  let telemetry := callTelemetry result
  let callId := ("logical_call_id", Json.str slot.logicalCallId)
  match result.terminal with
  | .error failure =>
    .ok (ProposalDraft.failure
      ("provider proposer failed with " ++ failure.failureClass.value ++ ": " ++ failure.message)
      [callId]
      [callId, (providerErrorKey, match telemetry.providerError with
        | some body => .obj body.pairs
        | none => .null)]
      (billedUsage telemetry) telemetry.providerCost)
  | .ok response =>
    ProposalDraft.create response.text none [callId] [callId] (billedUsage telemetry)
      telemetry.providerCost

end Whetstone.Optim.Step
