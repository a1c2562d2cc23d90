import Whetstone.Drivers.RowAccumulation
import Whetstone.Optim.CostAggregation
import Mathlib.Algebra.Ring.Int.Defs
import Mathlib.Algebra.Ring.Rat

/-! The spend that run cost observes of a row. The counts of the attempts that carry none are
missing from the row's sums, so that a partial sum can stand as the total of the row. -/
namespace Whetstone.Optim.Step
open Whetstone.Core Whetstone.Lib Whetstone.Eval Whetstone.Provider Whetstone.Drivers

attribute [local instance] exactFloats

/-! ### What the row states of its spend -/

/- The responses that the attempts of a row were billed for. -/
def freshIn (attempts : Nat → RowAttempt Rat) (count : Nat) :
    List (ProviderTransportResponse Rat) :=
  (List.range count).flatMap fun i => (attempts i).freshResponses

/- The usage fields of the output row that persists a row. -/
def outputUsage [JsonText] (output : RolloutRowOutput Rat) : EvalOutputRowUsage Rat where
  promptTokens := output.promptTokens
  completionTokens := output.completionTokens
  providerCost := output.providerCost
  cacheHit := output.cacheHit
  failed := decide (output.rowState = .failed)
  missing := decide (output.rowState = .missing)
  providerError := output.providerError.map Dict.pairs

/-- Spend that is complete or withheld. -/
structure SpendStated (observation : UsageObservation Rat)
    (fresh : List (ProviderTransportResponse Rat)) : Prop where
  priced : ∀ usd, observation.usd = some usd →
    (∀ response ∈ fresh, response.cost.isSome = true) ∧ usd = (fresh.filterMap (·.cost)).sum
  counted : observation.missingTokenBreakdown = false →
    (∀ response ∈ fresh, response.promptTokens.isSome = true ∧
      response.completionTokens.isSome = true) ∧
    observation.inputTokens = (fresh.filterMap (·.promptTokens)).sum ∧
    observation.outputTokens = (fresh.filterMap (·.completionTokens)).sum
  cached : observation.cached = true → fresh = []

section Balance

variable {β : Type} [AddCancelCommMonoid β]

/- What a call that the cache served adds to the row. -/
def servedField (field : Drivers.Field β) (attempt : RowAttempt Rat) : β :=
  if attempt.carried.any CallExecution.cacheHit then (carriedField field attempt).getD 0 else 0

/- What a billed call whose telemetry does not reach the row would have added. -/
def lostField (field : Drivers.Field β) (attempt : RowAttempt Rat) : β :=
  if attempt.carried.isSome then 0 else (attempt.freshResponses.filterMap field).sum

/-- Every billed response has the count, and what the cache adds makes up for what is lost. -/
structure Balanced (field : Drivers.Field β) (attempts : Nat → RowAttempt Rat) (count : Nat) :
    Prop where
  reported : ∀ response ∈ freshIn attempts count, (field response).isSome = true
  balance : ((List.range count).map fun i => servedField field (attempts i)).sum =
    ((List.range count).map fun i => lostField field (attempts i)).sum

theorem carried_called {attempt : RowAttempt Rat} {execution : CallExecution Rat}
    (h : attempt.carried = some execution) :
    attempt.freshResponses = execution.freshResponses := by
  unfold RowAttempt.carried at h
  unfold RowAttempt.freshResponses
  cases hllm : attempt.llm with
  | raised =>
    rw [hllm] at h
    cases h
  | called prompt execution' =>
    simp only [hllm, Option.ite_none_right_eq_some, Option.some.injEq] at h
    rw [← h.2]
    rfl

theorem sum_filterMap (field : Drivers.Field β)
    (responses : List (ProviderTransportResponse Rat)) :
    (responses.map field).reduceOption.sum = (responses.filterMap field).sum := by
  change ((responses.map field).filterMap id).sum = _
  rw [List.filterMap_map]
  rfl

/- The four sums of one attempt. -/
theorem attempt_balance (field : Drivers.Field β) (attempt : RowAttempt Rat)
    (h : ∀ response ∈ attempt.freshResponses, (field response).isSome = true) :
    (carriedField field attempt).getD 0 + lostField field attempt =
      (attempt.freshResponses.filterMap field).sum + servedField field attempt := by
  cases hcarried : attempt.carried with
  | none => simp [carriedField, lostField, servedField, hcarried]
  | some execution =>
    have hfresh := carried_called hcarried
    by_cases hhit : execution.cacheHit = true
    · simp [lostField, servedField, hcarried, hhit, hfresh, CallExecution.freshResponses]
    · rw [hfresh, CallExecution.freshResponses, if_neg hhit] at h ⊢
      simp only [carriedField, lostField, servedField, hcarried, hhit, Option.bind_some,
        Option.isSome_some, if_true, Option.any_some, Bool.false_eq_true, if_false, add_zero]
      by_cases hempty : execution.result.billedResponses = []
      · simp [hempty, completeSum]
      · have hsum : completeSum (execution.result.billedResponses.map field) =
            some (execution.result.billedResponses.filterMap field).sum := by
          refine completeSum_eq_some.mpr ⟨⟨by simpa using hempty, ?_⟩, sum_filterMap _ _⟩
          intro value hvalue
          obtain ⟨response,hresponse,rfl⟩ := List.mem_map.mp hvalue
          exact h response hresponse
        rw [hsum, Option.getD_some]

theorem freshIn_succ (attempts : Nat → RowAttempt Rat) (count : Nat) :
    freshIn attempts (count + 1) = freshIn attempts count ++ (attempts count).freshResponses := by
  rw [freshIn, List.range_succ, List.flatMap_append, List.flatMap_singleton]
  rfl

theorem row_balance (field : Drivers.Field β) (attempts : Nat → RowAttempt Rat) (count : Nat)
    (h : ∀ response ∈ freshIn attempts count, (field response).isSome = true) :
    ((List.range count).map fun i => (carriedField field (attempts i)).getD 0).sum +
        ((List.range count).map fun i => lostField field (attempts i)).sum =
      ((freshIn attempts count).filterMap field).sum +
        ((List.range count).map fun i => servedField field (attempts i)).sum := by
  induction count with
  | zero => rfl
  | succ count ih =>
    rw [freshIn_succ] at h ⊢
    have hbefore := ih fun response hresponse => h response (List.mem_append_left _ hresponse)
    have hlast := attempt_balance field (attempts count) fun response hresponse =>
      h response (List.mem_append_right _ hresponse)
    simp only [List.range_succ, List.map_append, List.sum_append, List.map_cons, List.map_nil,
      List.sum_singleton, List.filterMap_append]
    rw [add_add_add_comm, hbefore, hlast, add_add_add_comm]

/-- What the row carries of a count is the count of its billed responses exactly when these
balance. -/
theorem carriedTotal_exact {field : Drivers.Field β} {attempts : Nat → RowAttempt Rat}
    {count : Nat}
    {total : β} (h : carriedTotal field attempts count = some total) :
    ((∀ response ∈ freshIn attempts count, (field response).isSome = true) ∧
      total = ((freshIn attempts count).filterMap field).sum) ↔
    Balanced field attempts count := by
  have htotal : total = ((List.range count).map fun i =>
      (carriedField field (attempts i)).getD 0).sum := by
    rw [knownSum_eq_some h, sum_reduceOption, List.map_map]
    rfl
  constructor
  · rintro ⟨hreported,hexact⟩
    have hsums := row_balance field attempts count hreported
    rw [← htotal, hexact] at hsums
    exact ⟨hreported, (add_left_cancel hsums).symm⟩
  · intro hbalanced
    have hsums := row_balance field attempts count hbalanced.reported
    rw [← htotal, hbalanced.balance] at hsums
    exact ⟨hbalanced.reported, add_right_cancel hsums⟩

end Balance

/-- When the spend of a row is complete or withheld: a row that the cache marks was billed for
nothing; in any other the counts that are carried balance. -/
def SpendComplete (attempts : Nat → RowAttempt Rat) (count : Nat) : Prop :=
  if (attempts (count - 1)).carried.any CallExecution.cacheHit then freshIn attempts count = []
  else (Carried (·.cost) attempts count → Balanced (·.cost) attempts count) ∧
    (Carried (·.promptTokens) attempts count → Carried (·.completionTokens) attempts count →
      Balanced (·.promptTokens) attempts count ∧ Balanced (·.completionTokens) attempts count)

section Row

variable [JsonText]

/- The observation of a row that the cache does not mark, as far as it is observed. -/
theorem rowObservation_unmarked {output : RolloutRowOutput Rat} (hmark : output.cacheHit = false)
    {observation : UsageObservation Rat}
    (h : rowObservation (outputUsage output) = some observation) :
    observation = { inputTokens := output.promptTokens.getD 0
                    outputTokens := output.completionTokens.getD 0
                    usd := output.providerCost
                    missingTokenBreakdown :=
                      !(output.promptTokens.isSome && output.completionTokens.isSome) } := by
  unfold rowObservation at h
  simp only [outputUsage, hmark, Bool.false_eq_true, if_false] at h
  split at h
  · cases h
  · split at h
    · cases h
    · exact (Option.some.inj h).symm

/- A row with any telemetry is observed. -/
theorem rowObservation_telemetry {output : RolloutRowOutput Rat} (hmark : output.cacheHit = false)
    (h : output.promptTokens.isSome = true ∨ output.completionTokens.isSome = true ∨
      output.providerCost.isSome = true) :
    ∃ observation, rowObservation (outputUsage output) = some observation := by
  have htelemetry : (output.promptTokens.isSome || output.completionTokens.isSome ||
      output.providerCost.isSome) = true := by
    rcases h with h | h | h <;> simp [h]
  unfold rowObservation
  simp [outputUsage, hmark, htelemetry]

variable [Conversions Rat]

end Row

/-! ### A retried row whose second call has no price -/

section Example

attribute [local instance] exactConversions shortFloats

def rowSpend (output : RolloutRowOutput Rat) : Int × Option (Option Rat) :=
  (output.rowAttempts, (rowObservation (outputUsage output)).map UsageObservation.usd)

theorem ok_of_spend {attempts : Nat → RowAttempt Rat} {spend : Int × Option (Option Rat)}
    (h : (runRolloutRow (flakyContext.driven attempts) flakyRow defaultMaxRowAttempts).toOption.map
      rowSpend = some spend) :
    ∃ output, runRolloutRow (flakyContext.driven attempts) flakyRow defaultMaxRowAttempts =
      .ok output ∧ rowSpend output = spend := by
  cases hrun : runRolloutRow (flakyContext.driven attempts) flakyRow defaultMaxRowAttempts with
  | error message =>
    rw [hrun] at h
    cases h
  | ok output =>
    rw [hrun] at h
    exact ⟨output, rfl, Option.some.inj h⟩

end Example
end Whetstone.Optim.Step
