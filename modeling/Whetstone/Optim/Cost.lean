import Mathlib.Algebra.Ring.Int.Defs
import Whetstone.Core.Floats
import Whetstone.Lib.Raise

/-! The spend of one role, totalled from the calls observed for it. Token counts are the
integers the rows carry; prices are floats. -/
namespace Whetstone.Optim.Step
open Whetstone.Core Whetstone.Lib

variable {F : Type} [FiniteFloats F]

structure UsageObservation (F : Type) where
  inputTokens : Int := 0
  outputTokens : Int := 0
  usd : Option F := none
  cached : Bool := false
  missingTokenBreakdown : Bool := false

/- A float field of a model that allows neither infinities nor nan. -/
def validatePrice (name : String) : Option F → Except String Unit
  | none => .ok ()
  | some usd => do
    raiseIf (FloatOps.isFinite usd = false) (name ++ " must be a finite number")
    raiseIf (FloatOps.lt usd FloatOps.zero) (name ++ " must be non-negative")

def validateCount (name : String) : Option Int → Except String Unit
  | none => .ok ()
  | some value => raiseIf (value < 0) (name ++ " must be non-negative")

def validateUsage (promptTokens completionTokens : Option Int) (usd : Option F) :
    Except String Unit := do
  validateCount "prompt_tokens" promptTokens
  validateCount "completion_tokens" completionTokens
  validatePrice "usd" usd

structure ProposerCallUsage (F : Type) [FiniteFloats F] where
  callId : String
  promptTokens : Option Int
  completionTokens : Option Int
  usd : Option F
  valid : validateUsage promptTokens completionTokens usd = .ok ()
deriving DecidableEq

def ProposerCallUsage.observation (usage : ProposerCallUsage F) : UsageObservation F where
  inputTokens := usage.promptTokens.getD 0
  outputTokens := usage.completionTokens.getD 0
  usd := usage.usd
  missingTokenBreakdown := usage.promptTokens.isNone || usage.completionTokens.isNone

structure RoleCostFields (F : Type) where
  calls : Int
  inputTokens : Int
  outputTokens : Int
  pricedCalls : Int
  unpricedCalls : Int
  cachedCalls : Int
  rowsMissingTokenBreakdown : Int
  usd : Option F
deriving DecidableEq

def RoleCostFields.counts (cost : RoleCostFields F) : List (String × Int) :=
  [("calls", cost.calls), ("input_tokens", cost.inputTokens),
    ("output_tokens", cost.outputTokens), ("priced_calls", cost.pricedCalls),
    ("unpriced_calls", cost.unpricedCalls), ("cached_calls", cost.cachedCalls),
    ("rows_missing_token_breakdown", cost.rowsMissingTokenBreakdown)]

def RoleCostFields.validateUsd (cost : RoleCostFields F) (usd : F) : Except String Unit := do
  raiseIf (cost.unpricedCalls ≠ 0) "usd must be absent when any call lacks a price"
  raiseIf (cost.calls = 0) "usd requires at least one priced call"
  raiseIf (FloatOps.lt usd FloatOps.zero) "usd must be non-negative"

def RoleCostFields.validate (cost : RoleCostFields F) : Except String Unit := do
  raiseIf (cost.usd.any (fun usd => FloatOps.isFinite usd = false) = true)
    "usd must be a finite number"
  cost.counts.forM fun count => raiseIf (count.2 < 0) (count.1 ++ " must be non-negative")
  raiseIf (cost.pricedCalls + cost.unpricedCalls ≠ cost.calls)
    "priced_calls and unpriced_calls must sum to calls"
  raiseIf (cost.calls < cost.rowsMissingTokenBreakdown)
    "rows_missing_token_breakdown cannot exceed calls"
  cost.usd.forM cost.validateUsd

structure RoleCost (F : Type) [FiniteFloats F] extends RoleCostFields F where
  valid : toRoleCostFields.validate = .ok ()

instance [DecidableEq F] : DecidableEq (RoleCost F) := fun a b =>
  decidable_of_iff (a.toRoleCostFields = b.toRoleCostFields)
    ⟨fun h => by cases a; cases b; cases h; rfl, fun h => congrArg RoleCost.toRoleCostFields h⟩

def RoleCostFields.modelValidate (cost : RoleCostFields F) : Except String (RoleCost F) :=
  match h : cost.validate with
  | .ok () => .ok ⟨cost, h⟩
  | .error message => .error message

section Totals

variable (observations : List (UsageObservation F))

def billable : List (UsageObservation F) := observations.filter fun item => item.cached = false

def prices : List F := (billable observations).filterMap UsageObservation.usd

def complete : Bool :=
  billable observations ≠ [] ∧ (prices observations).length = (billable observations).length

def roleTotals : RoleCostFields F where
  calls := (billable observations).length
  inputTokens := ((billable observations).map UsageObservation.inputTokens).sum
  outputTokens := ((billable observations).map UsageObservation.outputTokens).sum
  pricedCalls := (prices observations).length
  unpricedCalls := (billable observations).length - (prices observations).length
  cachedCalls := (observations.filter UsageObservation.cached).length
  rowsMissingTokenBreakdown :=
    ((billable observations).filter UsageObservation.missingTokenBreakdown).length
  usd := if complete observations then some (FloatOps.sum (prices observations)) else none

def aggregateRoleCost : Except String (RoleCost F) := (roleTotals observations).modelValidate

end Totals

structure RunCostReport (F : Type) [FiniteFloats F] where
  taskModel : RoleCost F
  proposer : RoleCost F
deriving DecidableEq

/- Totals are refused for one of two reasons: a token sum below zero, or a price sum that is
   not a non-negative number. -/
structure Payable (observations : List (UsageObservation F)) : Prop where
  input : 0 ≤ ((billable observations).map UsageObservation.inputTokens).sum
  output : 0 ≤ ((billable observations).map UsageObservation.outputTokens).sum
  finite : complete observations = true →
    FloatOps.isFinite (FloatOps.sum (prices observations)) = true
  positive : complete observations = true →
    FloatOps.lt (FloatOps.sum (prices observations)) FloatOps.zero = false

omit [FiniteFloats F] in
theorem prices_length_le (observations : List (UsageObservation F)) :
    (prices observations).length ≤ (billable observations).length :=
  List.length_filterMap_le _ _

theorem RoleCostFields.exists_modelValidate (cost : RoleCostFields F) :
    (∃ made, cost.modelValidate = .ok made) ↔ cost.validate = .ok () := by
  unfold modelValidate
  constructor
  · rintro ⟨made,h⟩
    split at h
    · assumption
    · cases h
  · intro h
    split
    · exact ⟨_, rfl⟩
    · rename_i message he
      rw [h] at he
      cases he

theorem RoleCostFields.validate_eq_ok (cost : RoleCostFields F) :
    cost.validate = .ok () ↔
      (∀ usd, cost.usd = some usd → FloatOps.isFinite usd = true) ∧
      (∀ count ∈ cost.counts, 0 ≤ count.2) ∧
      cost.pricedCalls + cost.unpricedCalls = cost.calls ∧
      cost.rowsMissingTokenBreakdown ≤ cost.calls ∧
      ∀ usd, cost.usd = some usd → cost.unpricedCalls = 0 ∧ cost.calls ≠ 0 ∧
        FloatOps.lt usd FloatOps.zero = false := by
  have hfinite : ¬ cost.usd.any (fun usd => FloatOps.isFinite usd = false) = true ↔
      ∀ usd, cost.usd = some usd → FloatOps.isFinite usd = true := by
    cases cost.usd <;> simp
  simp only [validate, validateUsd, check_bind_eq_ok, raiseIf_eq_ok, forM_eq_ok, optionForM_eq_ok,
    hfinite, Int.not_lt, not_not, Bool.not_eq_true, ne_eq]

/-- The totals of a role are refused for no other reason. -/
theorem aggregateRoleCost_isOk (observations : List (UsageObservation F)) :
    (∃ cost, aggregateRoleCost observations = .ok cost) ↔ Payable observations := by
  have hprices := prices_length_le observations
  have hmissing : ((billable observations).filter
      UsageObservation.missingTokenBreakdown).length ≤ (billable observations).length :=
    List.length_filter_le _ _
  have hfull : complete observations = true →
      (prices observations).length = (billable observations).length ∧
        (billable observations).length ≠ 0 := by
    intro h
    simp only [complete, decide_eq_true_eq] at h
    exact ⟨h.2, fun h0 => h.1 (List.eq_nil_of_length_eq_zero h0)⟩
  rw [aggregateRoleCost, RoleCostFields.exists_modelValidate, RoleCostFields.validate_eq_ok]
  constructor
  · rintro ⟨hfinite,hcounts,_,_,husd⟩
    have hin := hcounts ("input_tokens", (roleTotals observations).inputTokens)
      (by simp [RoleCostFields.counts])
    have hout := hcounts ("output_tokens", (roleTotals observations).outputTokens)
      (by simp [RoleCostFields.counts])
    refine ⟨hin, hout, ?_, ?_⟩
    · intro h
      exact hfinite _ (by simp [roleTotals, h])
    · intro h
      exact (husd _ (by simp [roleTotals, h])).2.2
  · intro h
    refine ⟨?_, ?_, ?_, ?_, ?_⟩
    · intro usd husd
      by_cases hc : complete observations = true
      · simp only [roleTotals, hc, if_true, Option.some.injEq] at husd
        rw [← husd]
        exact h.finite hc
      · simp [roleTotals, hc] at husd
    · have hin := h.input
      have hout := h.output
      simp only [RoleCostFields.counts, roleTotals, List.mem_cons, List.not_mem_nil, or_false]
      rintro count (rfl | rfl | rfl | rfl | rfl | rfl | rfl) <;> simp <;> omega
    · simp only [roleTotals]
      omega
    · simp only [roleTotals]
      omega
    · intro usd husd
      by_cases hc : complete observations = true
      · obtain ⟨hlength,hpos⟩ := hfull hc
        simp only [roleTotals, hc, if_true, Option.some.injEq] at husd ⊢
        rw [← husd]
        exact ⟨by omega, by omega, h.positive hc⟩
      · simp [roleTotals, hc] at husd

end Whetstone.Optim.Step
