import Whetstone.Optim.ProposalDraft
import Whetstone.Optim.RowSpend
import Whetstone.Provider.Driver

/-! Which answered calls run cost counts. A call is answered when one of its attempts received a
response; its draft and its row keep only sums of what the responses report, the outcome of the
last attempt and the state of the row. -/
namespace Whetstone.Optim.Step
open Whetstone.Core Whetstone.Lib Whetstone.Eval Whetstone.Provider Whetstone.Drivers

attribute [local instance] exactFiniteFloats

/-! ### What a call leaves -/

/- An attempt of the call received a response. -/
def Answered (result : ProviderCallResult Rat) : Prop :=
  ∃ response, ProviderTransportOutcome.response response ∈ result.attempts

def LastAnswered (result : ProviderCallResult Rat) : Prop :=
  ∃ response, result.last = .response response

/- The responses report one of the directional counts, or a price, without exception. -/
def ReportsTelemetry (result : ProviderCallResult Rat) : Prop :=
  (∀ response ∈ result.billedResponses, response.promptTokens.isSome = true) ∨
    (∀ response ∈ result.billedResponses, response.completionTokens.isSome = true) ∨
    ∀ response ∈ result.billedResponses, response.cost.isSome = true

/- The price of the call, where it has one, is not negative. -/
def PriceAccepted (result : ProviderCallResult Rat) : Prop :=
  (∀ response ∈ result.billedResponses, response.cost.isSome = true) →
    0 ≤ (result.billedResponses.filterMap (·.cost)).sum

/- The document of a response is an object. -/
def Documented (result : ProviderCallResult Rat) : Prop :=
  ∀ response, ProviderTransportOutcome.response response ∈ result.attempts →
    ∃ fields, response.document = .obj fields

theorem mem_billedResponses {result : ProviderCallResult Rat}
    {response : ProviderTransportResponse Rat} :
    response ∈ result.billedResponses ↔
      ProviderTransportOutcome.response response ∈ result.attempts := by
  unfold ProviderCallResult.billedResponses
  rw [List.mem_filterMap]
  constructor
  · intro h
    obtain ⟨outcome,hmem,hsome⟩ := h
    cases outcome with
    | response other =>
      cases hsome
      exact hmem
    | failure failure => cases hsome
  · intro h
    exact ⟨_, h, rfl⟩

theorem answered_iff_billed {result : ProviderCallResult Rat} :
    Answered result ↔ result.billedResponses ≠ [] := by
  constructor
  · intro h hnil
    obtain ⟨response,hresponse⟩ := h
    have hmem := mem_billedResponses.mpr hresponse
    rw [hnil] at hmem
    cases hmem
  · intro h
    obtain ⟨response,hmem⟩ := List.exists_mem_of_ne_nil _ h
    exact ⟨response, mem_billedResponses.mp hmem⟩

theorem LastAnswered.answered {result : ProviderCallResult Rat} (h : LastAnswered result) :
    Answered result := by
  obtain ⟨response,hlast⟩ := h
  exact ⟨response, by simp [ProviderCallResult.attempts, hlast]⟩

/- A sum over the responses is known when they are there and all have it. -/
theorem completeSum_isSome {β : Type} [AddCommMonoid β] (result : ProviderCallResult Rat)
    (field : ProviderTransportResponse Rat → Option β) :
    (completeSum (result.billedResponses.map field)).isSome = true ↔
      Answered result ∧ ∀ response ∈ result.billedResponses, (field response).isSome = true := by
  rw [answered_iff_billed]
  unfold completeSum
  simp

theorem telemetry_isSome (result : ProviderCallResult Rat) :
    ((callTelemetry result).promptTokens.isSome = true ∨
      (callTelemetry result).completionTokens.isSome = true ∨
      (callTelemetry result).providerCost.isSome = true) ↔
    Answered result ∧ ReportsTelemetry result := by
  simp only [callTelemetry, completeSum_isSome]
  unfold ReportsTelemetry
  tauto

theorem providerCost_accepted {result : ProviderCallResult Rat} (h : Answered result) :
    (∀ usd, (callTelemetry result).providerCost = some usd → 0 ≤ usd) ↔ PriceAccepted result := by
  have hne := answered_iff_billed.mp h
  unfold PriceAccepted
  rw [← sum_filterMap]
  constructor
  · intro hsum hall
    refine hsum _ (completeSum_eq_some.mpr ⟨⟨by simpa using hne, ?_⟩, rfl⟩)
    simpa using hall
  · intro hpriced usd husd
    obtain ⟨⟨_,hall⟩,hsum⟩ := completeSum_eq_some.mp husd
    rw [← hsum]
    exact hpriced (by simpa using hall)

/-! ### The draft of a call -/

/- Run cost takes the call from the draft. -/
def ProposalDraft.Counted (draft : ProposalDraft) : Prop :=
  ∃ usage, draft.callUsage = .ok (some usage)

/-- When the draft of an answered call is counted. -/
def DraftKeepsCall (result : ProviderCallResult Rat) : Prop :=
  Answered result → PriceAccepted result ∧ (LastAnswered result ∨ ReportsTelemetry result)

theorem DraftSlot.logicalCallId_ne (slot : DraftSlot) : slot.logicalCallId ≠ "" := by
  intro h
  have hlist := congrArg String.toList h
  unfold DraftSlot.logicalCallId at hlist
  simp at hlist

theorem usageTokens_nonneg {usage : List (String × Json)} {key : String} {value : Int}
    (h : ProposalDraft.usageTokens usage key = some value) : 0 ≤ value := by
  unfold ProposalDraft.usageTokens at h
  split at h
  · rw [← Option.some.inj h]
    exact Int.le_max_left _ _
  · cases h

/- The one check that the usage of a draft can fail is the one on its price. -/
theorem validateUsage_draft (draft : ProposalDraft) :
    validateUsage draft.promptTokens draft.completionTokens draft.cost = .ok () ↔
      ∀ usd, draft.cost = some usd → 0 ≤ usd := by
  have hcount : ∀ name key, validateCount name (ProposalDraft.usageTokens draft.usage key) =
      .ok () := by
    intro name key
    cases htokens : ProposalDraft.usageTokens draft.usage key with
    | none => rfl
    | some value =>
      rw [validateCount, raiseIf_eq_ok]
      have := usageTokens_nonneg htokens
      omega
  unfold validateUsage ProposalDraft.promptTokens ProposalDraft.completionTokens
  rw [hcount, hcount]
  cases hcost : draft.cost with
  | none => simp [validatePrice]
  | some usd =>
    simp only [validatePrice, rational_finite, Bool.true_eq_false, raiseIf_bind_eq_ok,
      raiseIf_eq_ok, not_false_eq_true, true_and, FloatOps.lt, ok_bind, Option.some.injEq,
      forall_eq', decide_eq_true_eq]
    exact Rat.not_lt

theorem counted_iff {draft : ProposalDraft} (hid : draft.logicalCallId ≠ "") :
    draft.Counted ↔ draft.unbilled = false ∧ ∀ usd, draft.cost = some usd → 0 ≤ usd := by
  unfold ProposalDraft.Counted ProposalDraft.callUsage
  rw [if_neg hid, ← validateUsage_draft]
  cases hunbilled : draft.unbilled with
  | true => simp
  | false =>
    rw [if_neg Bool.false_ne_true]
    split
    · rename_i hvalid
      simp [hvalid]
    · rename_i message hinvalid
      simp [hinvalid]

theorem usageTokens_prompt (telemetry : Provider.CallTelemetry Rat) :
    (ProposalDraft.usageTokens (billedUsage telemetry) "prompt_tokens").isSome =
      telemetry.promptTokens.isSome := by
  unfold ProposalDraft.usageTokens billedUsage
  cases telemetry.promptTokens with
  | some value => rfl
  | none =>
    cases telemetry.completionTokens <;> cases telemetry.totalTokens <;>
      cases telemetry.reasoningTokens <;> rfl

theorem usageTokens_completion (telemetry : Provider.CallTelemetry Rat) :
    (ProposalDraft.usageTokens (billedUsage telemetry) "completion_tokens").isSome =
      telemetry.completionTokens.isSome := by
  unfold ProposalDraft.usageTokens billedUsage
  cases telemetry.promptTokens <;> cases telemetry.completionTokens <;>
    cases telemetry.totalTokens <;> cases telemetry.reasoningTokens <;> rfl

/- What a failed draft of a call shows of its responses. -/
theorem unbilled_iff {draft : ProposalDraft} {result : ProviderCallResult Rat}
    (husage : draft.usage = billedUsage (callTelemetry result))
    (hcost : draft.cost = (callTelemetry result).providerCost) :
    draft.unbilled = false ↔ draft.failed = false ∨ draft.responseRejected = true ∨
      Answered result ∧ ReportsTelemetry result := by
  have hprompt := usageTokens_prompt (callTelemetry result)
  have hcompletion := usageTokens_completion (callTelemetry result)
  rw [← telemetry_isSome, ← hprompt, ← hcompletion]
  unfold ProposalDraft.unbilled ProposalDraft.promptTokens ProposalDraft.completionTokens
  rw [husage, hcost]
  cases draft.failed <;> cases draft.responseRejected <;>
    simp [Option.isSome_iff_ne_none]
  tauto

theorem providerErrorOf_response {result : ProviderCallResult Rat}
    {response : ProviderTransportResponse Rat} (hdocuments : Documented result)
    (hlast : result.last = .response response) :
    evidencesProviderResponse ((providerErrorOf result).map Dict.pairs) = true ↔
      isBlank response.text = true := by
  obtain ⟨fields,hfields⟩ := hdocuments response (by simp [ProviderCallResult.attempts, hlast])
  by_cases hblank : isBlank response.text = true
  · simp only [providerErrorOf, ProviderCallResult.terminal, hlast, classifyOutcome, hblank,
      if_true, hfields, iff_true]
    rfl
  · simp [providerErrorOf, ProviderCallResult.terminal, hlast, classifyOutcome, hblank,
      evidencesProviderResponse]

/- What a draft keeps of a call. -/
structure DraftOf (slot : DraftSlot) (result : ProviderCallResult Rat) (draft : ProposalDraft) :
    Prop where
  callId : draft.logicalCallId = slot.logicalCallId
  usage : draft.usage = billedUsage (callTelemetry result)
  cost : draft.cost = (callTelemetry result).providerCost
  answered : draft.failed = false ∨ draft.responseRejected = true ↔ LastAnswered result

theorem create_ok {template : String} {terminalFailure : Option TerminalFailure}
    {requestEvidence responseEvidence usage : List (String × Json)} {cost : Option Rat}
    (h : validateDraft template terminalFailure = .ok ()) :
    ProposalDraft.create template terminalFailure requestEvidence responseEvidence usage cost =
      .ok ⟨template, terminalFailure, requestEvidence, responseEvidence, usage, cost, h⟩ := by
  unfold ProposalDraft.create
  split
  · rfl
  · rename_i message hinvalid
    rw [h] at hinvalid
    cases hinvalid

theorem draftSlot_failure (slot : DraftSlot) {result : ProviderCallResult Rat}
    {failure : ProviderSemanticFailure Rat} (h : result.terminal = .error failure)
    (hanswered : evidencesProviderResponse ((providerErrorOf result).map Dict.pairs) = true ↔
      LastAnswered result) :
    ∃ draft, draftSlot slot result = .ok draft ∧ DraftOf slot result draft := by
  refine ⟨_, by simp only [draftSlot, h]; rfl, rfl, rfl, rfl, ?_⟩
  rw [← hanswered]
  cases herror : providerErrorOf result with
  | none =>
    unfold providerErrorOf at herror
    simp only [h] at herror
    cases herror
  | some body =>
    have hrejected : (callTelemetry result).providerError = some body := herror
    simp [ProposalDraft.failed, ProposalDraft.failure, ProposalDraft.responseRejected, hrejected,
      providerErrorKey, List.lookup_cons]

theorem draftSlot_ok (slot : DraftSlot) {result : ProviderCallResult Rat}
    (hdocuments : Documented result) :
    ∃ draft, draftSlot slot result = .ok draft ∧ DraftOf slot result draft := by
  cases hlast : result.last with
  | failure failure =>
    refine draftSlot_failure slot (by rw [ProviderCallResult.terminal, hlast]; rfl) ?_
    simp only [providerErrorOf, ProviderCallResult.terminal, hlast, classifyOutcome, LastAnswered]
    simp
    rfl
  | response response =>
    have hanswered : LastAnswered result := ⟨response, hlast⟩
    by_cases hblank : isBlank response.text = true
    · have hterminal : result.terminal = .error ⟨.blankProviderGeneration,
          "provider returned a blank or whitespace-only generation", .response response⟩ := by
        simp [ProviderCallResult.terminal, hlast, classifyOutcome, hblank]
      exact draftSlot_failure slot hterminal
        (iff_of_true ((providerErrorOf_response hdocuments hlast).mpr hblank) hanswered)
    · have hterminal : result.terminal = .ok response := by
        simp [ProviderCallResult.terminal, hlast, classifyOutcome, hblank]
      have htext : response.text ≠ "" := by
        intro hempty
        rw [hempty] at hblank
        exact hblank (by decide +kernel)
      have hvalid : validateDraft response.text none = .ok () := by
        rw [validateDraft, raiseIf_eq_ok]
        exact htext
      have hcreate : draftSlot slot result = ProposalDraft.create response.text none
          [("logical_call_id", .str slot.logicalCallId)]
          [("logical_call_id", .str slot.logicalCallId)]
          (billedUsage (callTelemetry result)) (callTelemetry result).providerCost := by
        simp only [draftSlot, hterminal]
      exact ⟨_, hcreate.trans (create_ok hvalid), rfl, rfl, rfl, iff_of_true (.inl rfl) hanswered⟩

/- The draft of one call is counted as its condition says. -/
theorem draftSlot_counted (slot : DraftSlot) {result : ProviderCallResult Rat}
    (hdocuments : Documented result) : ∃ draft, draftSlot slot result = .ok draft ∧
      ((draft.Counted ↔ Answered result) ↔ DraftKeepsCall result) := by
  obtain ⟨draft,hdraft,hof⟩ := draftSlot_ok slot hdocuments
  refine ⟨draft, hdraft, ?_⟩
  have hid : draft.logicalCallId ≠ "" := by
    rw [hof.callId]
    exact slot.logicalCallId_ne
  rw [counted_iff hid, unbilled_iff hof.usage hof.cost, ← or_assoc, hof.answered, hof.cost]
  unfold DraftKeepsCall
  have hlast : LastAnswered result → Answered result := LastAnswered.answered
  by_cases hanswered : Answered result
  · rw [providerCost_accepted hanswered]
    tauto
  · tauto

/-! ### The row of a call -/

/- The eval node leaves a row that shows the generation before it without any telemetry. -/
def EvalKeepsCall (text : String) : Option (NodeOutcome Rat) → Prop
  | none => False
  | some outcome =>
    if outcome.status = .error then
      ∀ error, outcome.error = some error → ∀ rowState, nodeErrorRowState error = .ok rowState →
        rowState ≠ .missing ∧ (rowState = .failed → isBlank text = true)
    else outcome.status = .success

/-- When the row of a call is observed exactly if the call was answered. -/
def RowKeepsCall (run : GraphRunResult Rat) (result : ProviderCallResult Rat) : Prop :=
  if graphRunCancelled run then ¬ Answered result
  else match result.last with
    | .failure failure => classifyTransportFailure failure = .providerRejection ↔ Answered result
    | .response response =>
      ReportsTelemetry result ∨ EvalKeepsCall response.text (run.outcomes.get? evalNodeId)

theorem classifyTransportFailure_ne_blank (failure : ProviderTransportFailure) :
    classifyTransportFailure failure ≠ .blankProviderGeneration := by
  unfold classifyTransportFailure
  split
  · decide
  · cases failure.recoverability <;> decide

theorem runLlmNode_failure {result : ProviderCallResult Rat}
    {failure : ProviderTransportFailure} (hlast : result.last = .failure failure)
    (prompt : String) : ∃ error, runLlmNode (.called prompt ⟨result, none⟩) = .error error ∧
      error.failureClass = some AttributedOutcome.infrastructure.value ∧
      error.metadata = { failureCode := .str (classifyTransportFailure failure).value } := by
  simp only [runLlmNode, generationOutput, providerResultText, ProviderCallResult.terminal, hlast,
    classifyOutcome, classifyTransportFailure_ne_blank failure, if_false]
  exact ⟨_, rfl, rfl, rfl⟩

theorem runLlmNode_response {result : ProviderCallResult Rat}
    {response : ProviderTransportResponse Rat} (hlast : result.last = .response response)
    (prompt : String) : ∃ output, runLlmNode (.called prompt ⟨result, none⟩) = .ok output := by
  simp only [runLlmNode, generationOutput, providerResultText, ProviderCallResult.terminal, hlast,
    classifyOutcome]
  by_cases hblank : isBlank response.text = true
  · simp [hblank]
  · simp [hblank]

theorem readGeneration_called {nodeId prompt : String} {result : ProviderCallResult Rat}
    {response : ProviderTransportResponse Rat} {generation : Generation Rat}
    (hlast : result.last = .response response)
    (h : readGeneration (some (NodeOutcome.ofNode nodeId
      (runLlmNode (.called prompt ⟨result, none⟩)))) = .ok generation) :
    generation.telemetry = (callExecutionMetadata ⟨result, none⟩).telemetry ∧
      generation.cacheHit = false := by
  obtain ⟨output,hok⟩ := runLlmNode_response hlast prompt
  obtain ⟨_,_,hcalled,htelemetry,hmark⟩ := runLlmNode_ok hok
  cases hcalled
  rw [hok] at h
  simp only [readGeneration, NodeOutcome.ofNode, ne_eq, not_true_eq_false, if_false,
    requireNodeSuccess, ok_bind] at h
  obtain ⟨text,_,h⟩ := (bind_eq_ok _ _ _).mp h
  cases h
  exact ⟨htelemetry, by simp [hmark, CallExecution.cacheHit]⟩

/- The row state that the eval node gives, as its condition reads it. -/
theorem readScoring_keeps [Conversions Rat] {text code : String}
    {evalOutcome : Option (NodeOutcome Rat)}
    {scoring : Scoring Rat} (h : readScoring evalOutcome code = .ok scoring) :
    (scoring.rowState ≠ .missing ∧ (scoring.rowState = .failed → isBlank text = true)) ↔
      EvalKeepsCall text evalOutcome := by
  cases evalOutcome with
  | none =>
    cases h
    simp [EvalKeepsCall]
  | some outcome =>
    unfold readScoring at h
    unfold EvalKeepsCall
    by_cases herror : outcome.status = .error
    · simp only [herror, if_true] at h ⊢
      obtain ⟨error,hrequired,h⟩ := (bind_eq_ok _ _ _).mp h
      obtain ⟨rowState,hstate,h⟩ := (bind_eq_ok _ _ _).mp h
      cases h
      have hsome := (eq_some_of_requireNodeError outcome error hrequired).2
      constructor
      · intro hkept error' herror' rowState' hstate'
        rw [hsome, Option.some.injEq] at herror'
        rw [← herror', hstate, Except.ok.injEq] at hstate'
        rw [← hstate']
        exact hkept
      · intro hkept
        exact hkept error hsome rowState hstate
    · simp only [herror, if_false] at h ⊢
      by_cases hsuccess : outcome.status = .success
      · simp only [hsuccess, if_true] at h
        obtain ⟨evalOutput,_,h⟩ := (bind_eq_ok _ _ _).mp h
        obtain ⟨score,_,h⟩ := (bind_eq_ok _ _ _).mp h
        cases h
        simp [hsuccess]
      · simp only [hsuccess, if_false] at h
        cases h
        simp [hsuccess]

section Row

variable [JsonText]

theorem rowObservation_isSome {output : RolloutRowOutput Rat} (hmark : output.cacheHit = false) :
    (rowObservation (outputUsage output)).isSome = true ↔
      (output.promptTokens.isSome = true ∨ output.completionTokens.isSome = true ∨
        output.providerCost.isSome = true) ∨
      output.rowState ≠ .missing ∧ (output.rowState = .failed →
        evidencesProviderResponse (output.providerError.map Dict.pairs) = true) := by
  unfold rowObservation EvalOutputRowUsage.responseRejected
  simp only [outputUsage, hmark, Bool.false_eq_true, if_false]
  cases output.promptTokens <;> cases output.completionTokens <;> cases output.providerCost <;>
    cases output.rowState <;>
    cases evidencesProviderResponse (output.providerError.map Dict.pairs) <;> simp

theorem unobserved_of_cancelled (key : RowKey) (code : String) :
    (rowObservation (outputUsage (missingRow (F := Rat) key code))).isSome = false := by
  rfl

/- Of a call whose last attempt got no response the node keeps the failure class alone. -/
theorem failure_row_observed {key : RowKey} {prompt : String} {result : ProviderCallResult Rat}
    {failure : ProviderTransportFailure} {steps : List ExecutedComponentStep}
    {output : RolloutRowOutput Rat} (hlast : result.last = .failure failure)
    (h : llmErrorRow key steps
      (NodeOutcome.ofNode llmNodeId (runLlmNode (.called prompt ⟨result, none⟩))) = .ok output) :
    (rowObservation (outputUsage output)).isSome = true ↔
      classifyTransportFailure failure = .providerRejection := by
  obtain ⟨error,herror,hclass,hmetadata⟩ := runLlmNode_failure hlast prompt
  rw [herror] at h
  simp only [llmErrorRow, NodeOutcome.ofNode, requireNodeError, ok_bind, bind_eq_ok, pure,
    Except.pure, Except.ok.injEq, hmetadata] at h
  obtain ⟨rowState,hstate,rfl⟩ := h
  rw [rowObservation_isSome (by simp)]
  have hstates : nodeErrorRowState error = .ok (if classifyTransportFailure failure =
      .providerRejection then .invalid else .failed) := by
    have hblank := classifyTransportFailure_ne_blank failure
    unfold nodeErrorRowState
    rw [hmetadata, hclass]
    generalize classifyTransportFailure failure = failureClass at hblank ⊢
    revert hblank
    cases failureClass <;> decide +kernel
  rw [hstates] at hstate
  cases hstate
  by_cases hrejection : classifyTransportFailure failure = .providerRejection
  · simp [hrejection]
  · simp [hrejection, evidencesProviderResponse]

variable [Conversions Rat]

theorem response_row_observed {run : GraphRunResult Rat} {key : RowKey} {prompt : String}
    {result : ProviderCallResult Rat} {response : ProviderTransportResponse Rat}
    {steps : List ExecutedComponentStep} {output : RolloutRowOutput Rat}
    (hdocuments : Documented result) (hlast : result.last = .response response)
    (hllm : run.outcomes.get? llmNodeId =
      some (NodeOutcome.ofNode llmNodeId (runLlmNode (.called prompt ⟨result, none⟩))))
    (h : graphResultToRowFields.scoredRow run key steps = .ok output) :
    (rowObservation (outputUsage output)).isSome = true ↔
      ReportsTelemetry result ∨ EvalKeepsCall response.text (run.outcomes.get? evalNodeId) := by
  have hanswered := LastAnswered.answered ⟨response, hlast⟩
  unfold graphResultToRowFields.scoredRow at h
  obtain ⟨generation,hgeneration,h⟩ := (bind_eq_ok _ _ _).mp h
  obtain ⟨scoring,hscoring,h⟩ := (bind_eq_ok _ _ _).mp h
  cases h
  rw [hllm] at hgeneration
  obtain ⟨htelemetry,hmark⟩ := readGeneration_called hlast hgeneration
  rw [rowObservation_isSome hmark, htelemetry, ← readScoring_keeps hscoring,
    ← providerErrorOf_response hdocuments hlast]
  refine or_congr ?_ Iff.rfl
  exact (telemetry_isSome result).trans (and_iff_right hanswered)

/- The row of one call is observed as its condition says. -/
theorem row_observed {run : GraphRunResult Rat} {key : RowKey} {prompt : String}
    {result : ProviderCallResult Rat} {output : RolloutRowOutput Rat}
    (hdocuments : Documented result)
    (hllm : run.outcomes.get? llmNodeId =
      some (NodeOutcome.ofNode llmNodeId (runLlmNode (.called prompt ⟨result, none⟩))))
    (hrow : graphResultToRowFields run key = .ok output) :
    ((rowObservation (outputUsage output)).isSome = true ↔ Answered result) ↔
      RowKeepsCall run result := by
  unfold graphResultToRowFields at hrow
  unfold RowKeepsCall
  by_cases hcancelled : graphRunCancelled run = true
  · rw [if_pos hcancelled] at hrow ⊢
    cases hrow
    simp [unobserved_of_cancelled]
  · rw [if_neg hcancelled] at hrow ⊢
    obtain ⟨steps,_,hrow⟩ := (bind_eq_ok _ _ _).mp hrow
    simp only [hllm] at hrow
    cases hlast : result.last with
    | failure failure =>
      obtain ⟨error,herror,_⟩ := runLlmNode_failure hlast prompt
      have hstatus : (NodeOutcome.ofNode llmNodeId
          (runLlmNode (.called prompt ⟨result, none⟩))).status = .error := by
        rw [herror]
        rfl
      rw [if_pos hstatus] at hrow
      rw [failure_row_observed hlast hrow]
    | response response =>
      obtain ⟨node,hnode⟩ := runLlmNode_response hlast prompt
      have hstatus : (NodeOutcome.ofNode llmNodeId
          (runLlmNode (.called prompt ⟨result, none⟩))).status ≠ .error := by
        rw [hnode]
        simp [NodeOutcome.ofNode]
      rw [if_neg hstatus] at hrow
      rw [response_row_observed hdocuments hlast hllm hrow]
      exact iff_true_right (LastAnswered.answered ⟨response, hlast⟩)

end Row

/-! ### The calls of a policy -/

/- One of the first attempts received a response. -/
def AnsweredWithin (transport : Nat → ProviderInvocationEvidence Rat) (attempts : Nat) : Prop :=
  ∃ number response, 1 ≤ number ∧ number ≤ attempts ∧
    (transport number).outcome = .response response

theorem answeredWithin_iff {transport : Nat → ProviderInvocationEvidence Rat}
    {result : ProviderCallResult Rat} {attempts : Nat}
    (hmade : result.attempts =
      (List.range attempts).map (fun i => (transport (i + 1)).outcome)) :
    AnsweredWithin transport attempts ↔ Answered result := by
  unfold AnsweredWithin Answered
  simp only [hmade, List.mem_map, List.mem_range]
  constructor
  · intro h
    obtain ⟨number,response,hone,hle,houtcome⟩ := h
    exact ⟨response, number - 1, by omega, by rw [Nat.sub_add_cancel hone]; exact houtcome⟩
  · intro h
    obtain ⟨response,i,hi,houtcome⟩ := h
    exact ⟨i + 1, response, by omega, by omega, houtcome⟩

/-- A policy that retries no blank generation retries after transport failures alone. -/
theorem lastAnswered_of_blank_final {policy : ProviderExecutionPolicy}
    (hpolicy : policy.isRetryable .blankProviderGeneration = false)
    {requestHash callId : String} {transport : Nat → ProviderInvocationEvidence Rat}
    {result : ProviderCallResult Rat}
    (hcall : runProviderCall policy requestHash callId transport = .ok result)
    (hanswered : Answered result) : LastAnswered result := by
  obtain ⟨attempts,_,_,hretried,hlast⟩ := runProviderCall_retried hcall
  obtain ⟨response,hmem⟩ := hanswered
  unfold ProviderCallResult.attempts at hmem
  rw [List.mem_append, List.mem_singleton] at hmem
  cases hmem with
  | inr hsame => exact ⟨response, hsame.symm⟩
  | inl hearlier =>
    obtain ⟨failure,hclass,hretry⟩ := hretried.retryable _ hearlier
    unfold classifyOutcome at hclass
    simp only at hclass
    split at hclass
    · cases hclass
      rw [hpolicy] at hretry
      cases hretry
    · cases hclass

/-- The draft and the row of a call are counted exactly if the call was answered, where and only
where their conditions hold. -/
theorem answered_call_counted [JsonText] [Conversions Rat] (policy : ProviderExecutionPolicy)
    (requestHash callId : String) (transport : Nat → ProviderInvocationEvidence Rat)
    (result : ProviderCallResult Rat)
    (hcall : runProviderCall policy requestHash callId transport = .ok result)
    (hdocuments : Documented result) (slot : DraftSlot) (run : GraphRunResult Rat) (key : RowKey)
    (prompt : String) (output : RolloutRowOutput Rat)
    (hllm : run.outcomes.get? llmNodeId =
      some (NodeOutcome.ofNode llmNodeId (runLlmNode (.called prompt ⟨result, none⟩))))
    (hrow : graphResultToRowFields run key = .ok output) :
    ∃ attempts draft, 1 ≤ attempts ∧ attempts ≤ policy.maxAttempts ∧
      result.attempts = (List.range attempts).map (fun i => (transport (i + 1)).outcome) ∧
      draftSlot slot result = .ok draft ∧
      ((draft.Counted ↔ AnsweredWithin transport attempts) ↔ DraftKeepsCall result) ∧
      (((rowObservation (outputUsage output)).isSome = true ↔
        AnsweredWithin transport attempts) ↔ RowKeepsCall run result) := by
  obtain ⟨attempts,hpos,hle,hretried,hlast⟩ := runProviderCall_retried hcall
  have hmade : result.attempts =
      (List.range attempts).map (fun i => (transport (i + 1)).outcome) := by
    obtain ⟨n,rfl⟩ : ∃ n, attempts = n + 1 := ⟨attempts - 1, by omega⟩
    rw [ProviderCallResult.attempts, hretried.answers, hlast, List.range_succ, List.map_append]
    rfl
  obtain ⟨draft,hdraft,hcounted⟩ := draftSlot_counted slot hdocuments
  have hobserved := row_observed hdocuments hllm hrow
  rw [← answeredWithin_iff hmade] at hcounted hobserved
  exact ⟨attempts, draft, hpos, hle, hmade, hdraft, hcounted, hobserved⟩

/-! ### A blank generation before a lost attempt -/

section Example

attribute [local instance] exactConversions shortFloats

/- The policy retries blank generations also. -/
def blankRetrying : ProviderExecutionPolicy where
  transportPolicy := "policy"
  maxAttempts := 2
  retryEligibility := fun failureClass =>
    defaultRetryEligibility failureClass || failureClass = .blankProviderGeneration
  positive := by decide

def blankResponse : ProviderTransportResponse Rat where
  text := ""
  usage := none
  cost := none
  stopReason := none
  document := .obj []

def lostAttempt : ProviderTransportFailure where
  code := none
  message := "connection reset"
  statusCode := none
  recoverability := .transient
  document := .obj []

def blankThenLost (attemptNumber : Nat) : ProviderInvocationEvidence Rat where
  requestHash := "request"
  policyIdentity := "policy"
  outcome := if attemptNumber = 1 then .response blankResponse else .failure lostAttempt

def firstSlot : DraftSlot := ⟨"config", "execution", "adapter", "proposal", 0⟩

def soleKey : RowKey := ⟨"c1", "t1", 0, 0⟩

def lostCall : ProviderCallResult Rat := ⟨[.response blankResponse], .failure lostAttempt⟩

def scoredRun (result : ProviderCallResult Rat) : GraphRunResult Rat :=
  graphInOrder (.called "Solve." ⟨result, none⟩)
    (.ok { values := Dict.ofPairs [(evalOutputField, .float 1)], metadata := {} })

theorem ok_of_rowObserved (run : GraphRunResult Rat) (observed : Bool)
    (h : (graphResultToRowFields run soleKey).toOption.map
      (fun output => (rowObservation (outputUsage output)).isSome) = some observed) :
    ∃ output, graphResultToRowFields run soleKey = .ok output ∧
      (rowObservation (outputUsage output)).isSome = observed := by
  cases hrow : graphResultToRowFields run soleKey with
  | error message =>
    rw [hrow] at h
    cases h
  | ok output =>
    rw [hrow] at h
    exact ⟨output, rfl, Option.some.inj h⟩

/-- The first attempt is answered, and neither the draft nor the row of the call is counted. -/
theorem blank_then_lost_uncounted : ∃ draft output,
    runProviderCall blankRetrying "request" "call" blankThenLost = .ok lostCall ∧
      draftSlot firstSlot lostCall = .ok draft ∧
      graphResultToRowFields (scoredRun lostCall) soleKey = .ok output ∧
      ¬ (draft.Counted ↔ AnsweredWithin blankThenLost 2) ∧
      ¬ ((rowObservation (outputUsage output)).isSome = true ↔
        AnsweredWithin blankThenLost 2) := by
  have hanswered : AnsweredWithin blankThenLost 2 :=
    ⟨1, blankResponse, by decide, by decide, rfl⟩
  obtain ⟨output,hrow,hnone⟩ := ok_of_rowObserved (scoredRun lostCall) false
    (by decide +kernel)
  refine ⟨_, output, by decide +kernel, rfl, hrow, fun hcounted => ?_, fun hobserved => ?_⟩
  · obtain ⟨usage,husage⟩ := hcounted.mpr hanswered
    cases husage
  · rw [hobserved.mpr hanswered] at hnone
    cases hnone

def pricedResult : ProviderCallResult Rat := ⟨[], .response (answer "42" (some (1 / 2)))⟩

def pricedTransport (_ : Nat) : ProviderInvocationEvidence Rat :=
  ⟨"request", "policy", pricedResult.last⟩

/-- An accepted call with a price is counted on both sides. -/
theorem priced_call_counted : ∃ output attempts draft,
    graphResultToRowFields (scoredRun pricedResult) soleKey = .ok output ∧
      1 ≤ attempts ∧ attempts ≤ 2 ∧ draftSlot firstSlot pricedResult = .ok draft ∧
      (draft.Counted ↔ AnsweredWithin pricedTransport attempts) ∧
      ((rowObservation (outputUsage output)).isSome = true ↔
        AnsweredWithin pricedTransport attempts) := by
  obtain ⟨output,hrow,_⟩ := ok_of_rowObserved (scoredRun pricedResult) true
    (by decide +kernel)
  have hdocuments : Documented pricedResult := by
    intro response hmem
    cases List.mem_singleton.mp hmem
    exact ⟨[], rfl⟩
  have hlast : LastAnswered pricedResult := ⟨_, rfl⟩
  obtain ⟨attempts,draft,hpos,hle,_,hdraft,hcounted,hobserved⟩ :=
    answered_call_counted blankRetrying "request" "call" pricedTransport pricedResult
      (by decide +kernel) hdocuments firstSlot (scoredRun pricedResult) soleKey "Solve." output
      (graphInOrder_llm _ _) hrow
  refine ⟨output, attempts, draft, hrow, hpos, hle, hdraft, hcounted.mpr ?_, hobserved.mpr ?_⟩
  · intro _
    refine ⟨fun _ => ?_, .inl hlast⟩
    decide +kernel
  · unfold RowKeepsCall
    rw [if_neg (by decide +kernel)]
    exact .inl (.inl (by decide +kernel))

end Example

end Whetstone.Optim.Step
