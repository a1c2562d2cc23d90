import Whetstone.Drivers.LlmNode

/-! What a row adds up over its attempts. Each call withholds a count it cannot complete; the row
adds the counts that the calls of its attempts carry. Prices are exact rationals. -/
namespace Whetstone.Drivers
open Whetstone.Core Whetstone.Lib Whetstone.Eval Whetstone.Provider

attribute [local instance] exactFloats

theorem sumOptional_eq (left right : Option Int) : sumOptional left right = addKnown left right := by
  cases left <;> cases right <;> rfl

theorem sumOptionalCost_eq (left right : Option Rat) :
    sumOptionalCost left right = addKnown left right := by
  cases left <;> cases right <;> rfl

/- One count of a billed response: its tokens of one direction, or its price. -/
abbrev Field (β : Type) := ProviderTransportResponse Rat → Option β

/- The count of the call whose telemetry reaches the row of an attempt. -/
def carriedField {β : Type} [AddCommMonoid β] (field : Field β) (attempt : RowAttempt Rat) :
    Option β :=
  attempt.carried.bind fun execution => completeSum (execution.result.billedResponses.map field)

def carriedTotal {β : Type} [AddCommMonoid β] (field : Field β) (attempts : Nat → RowAttempt Rat)
    (count : Nat) : Option β :=
  knownSum ((List.range count).map fun i => carriedField field (attempts i))

theorem carriedTotal_succ {β : Type} [AddCommMonoid β] (field : Field β)
    (attempts : Nat → RowAttempt Rat) (count : Nat) :
    carriedTotal field attempts (count + 1) =
      addKnown (carriedTotal field attempts count) (carriedField field (attempts count)) := by
  rw [carriedTotal, List.range_succ, List.map_append]
  exact knownSum_append _ _

section Row

variable [JsonText]

/- A row after the first attempts. -/
structure Accumulated (attempts : Nat → RowAttempt Rat) (count : Nat)
    (output : RolloutRowOutput Rat) : Prop where
  counted : output.rowAttempts = count
  prompt : output.promptTokens = carriedTotal (·.promptTokens) attempts count
  completion : output.completionTokens = carriedTotal (·.completionTokens) attempts count
  cost : output.providerCost = carriedTotal (·.cost) attempts count
  cacheHit : output.cacheHit = (attempts (count - 1)).carried.any CallExecution.cacheHit

theorem accumulated_first {attempts : Nat → RowAttempt Rat} {output : RolloutRowOutput Rat}
    (h : Carries output (attempts 0).carried) :
    Accumulated attempts 1 (withAccumulatedAttemptUsage output none 1) where
  counted := rfl
  prompt := h.prompt
  completion := h.completion
  cost := h.cost
  cacheHit := h.cacheHit

theorem accumulated_next {attempts : Nat → RowAttempt Rat} {count : Nat}
    {previous output : RolloutRowOutput Rat} (hprevious : Accumulated attempts count previous)
    (h : Carries output (attempts count).carried) :
    Accumulated attempts (count + 1)
      (withAccumulatedAttemptUsage output (some previous) (count + 1)) where
  counted := rfl
  prompt := by
    rw [carriedTotal_succ, ← hprevious.prompt, ← sumOptional_eq]
    exact congrArg (sumOptional previous.promptTokens) h.prompt
  completion := by
    rw [carriedTotal_succ, ← hprevious.completion, ← sumOptional_eq]
    exact congrArg (sumOptional previous.completionTokens) h.completion
  cost := by
    rw [carriedTotal_succ, ← hprevious.cost, ← sumOptionalCost_eq]
    exact congrArg (sumOptionalCost previous.providerCost) h.cost
  cacheHit := h.cacheHit

/- The attempt loop, from the row that its earlier attempts left. -/
theorem attemptLoop_accumulated {attempts : Nat → RowAttempt Rat}
    {execute : Nat → Except String (RolloutRowOutput Rat)}
    (hexecute : ∀ i output, execute i = .ok output → Carries output (attempts i).carried)
    {remaining index : Nat} {previous : Option (RolloutRowOutput Rat)}
    {output : RolloutRowOutput Rat}
    (hprevious : (previous = none ∧ index = 0) ∨
      ∃ row, previous = some row ∧ 0 < index ∧ Accumulated attempts index row)
    (h : attemptLoop execute remaining index previous = .ok output) :
    ∃ count, 0 < count ∧ count ≤ index + remaining ∧ Accumulated attempts count output := by
  induction remaining generalizing index previous with
  | zero =>
    rcases hprevious with ⟨rfl,_⟩ | ⟨row,rfl,hpos,hrow⟩
    · cases h
    · cases h
      exact ⟨index, hpos, Nat.le_refl _, hrow⟩
  | succ remaining ih =>
    rw [attemptLoop] at h
    obtain ⟨row,hrow,h⟩ := (bind_eq_ok _ _ _).mp h
    have hnext : Accumulated attempts (index + 1)
        (withAccumulatedAttemptUsage row previous (index + 1)) := by
      have hcarries := hexecute index row hrow
      rcases hprevious with ⟨rfl,rfl⟩ | ⟨before,rfl,_,hbefore⟩
      · exact accumulated_first hcarries
      · exact accumulated_next hbefore hcarries
    dsimp only at h
    split at h
    · obtain ⟨count,hpos,hle,haccumulated⟩ :=
        ih (.inr ⟨_, rfl, Nat.succ_pos index, hnext⟩) h
      exact ⟨count, hpos, by omega, haccumulated⟩
    · cases h
      exact ⟨index + 1, Nat.succ_pos index, by omega, hnext⟩

variable [Conversions Rat]

/-- A row adds up what the calls of its attempts carry, and is marked by the last of them. -/
theorem runRolloutRow_accumulated {context : RolloutContext Rat} {attempts : Nat → RowAttempt Rat}
    {row : ScheduledRow} {maxRowAttempts : Nat} {output : RolloutRowOutput Rat}
    (h : runRolloutRow (context.driven attempts) row maxRowAttempts = .ok output) :
    ∃ count, 0 < count ∧ count ≤ maxRowAttempts ∧ Accumulated attempts count output := by
  unfold runRolloutRow at h
  simp only [raiseIf_bind_eq_ok] at h
  obtain ⟨_,_,h⟩ := h
  obtain ⟨rendered,_,h⟩ := (bind_eq_ok _ _ _).mp h
  have hexecute : ∀ i output, executeAttempt (context.driven attempts) row.key rendered row.rngSeed
      i = .ok output → Carries output (attempts i).carried := by
    intro i output hexecuted
    unfold executeAttempt at hexecuted
    obtain ⟨run,hrun,hexecuted⟩ := (bind_eq_ok _ _ _).mp hexecuted
    exact attempt_carries (executeRolloutGraph_ok hrun) hexecuted
  obtain ⟨count,hpos,hle,haccumulated⟩ := attemptLoop_accumulated hexecute (.inl ⟨rfl, rfl⟩) h
  exact ⟨count, hpos, by omega, haccumulated⟩

end Row

/- Some attempt carries the count into the row. -/
def Carried {β : Type} [AddCommMonoid β] (field : Field β) (attempts : Nat → RowAttempt Rat)
    (count : Nat) : Prop :=
  ∃ i < count, (carriedField field (attempts i)).isSome = true

theorem carriedTotal_isSome {β : Type} [AddCommMonoid β] {field : Field β}
    {attempts : Nat → RowAttempt Rat} {count : Nat} :
    (carriedTotal field attempts count).isSome = true ↔ Carried field attempts count := by
  rw [carriedTotal, knownSum_isSome]
  constructor
  · rintro ⟨a,ha⟩
    obtain ⟨i,hi,hsome⟩ := List.mem_map.mp ha
    exact ⟨i, List.mem_range.mp hi, by rw [hsome]; rfl⟩
  · rintro ⟨i,hi,hsome⟩
    obtain ⟨a,ha⟩ := Option.isSome_iff_exists.mp hsome
    exact ⟨a, List.mem_map.mpr ⟨i, List.mem_range.mpr hi, ha⟩⟩

/-! ### Two rows of calls that have their token counts -/

section Example

/- An answer of three tokens each way. -/
def answer (text : String) (cost : Option Rat) : ProviderTransportResponse Rat where
  text := text
  usage := some ⟨some 3, some 3, none, none⟩
  cost := cost
  stopReason := some "stop"
  document := .obj []

def answered (text : String) (cost : Option Rat) : LlmNodeRun Rat :=
  .called "Solve." ⟨⟨[], .response (answer text cost)⟩, none⟩

/- The eval node raises on the first execution and scores the second. -/
def unpricedRetry (driveOrdinal : Nat) : RowAttempt Rat :=
  if driveOrdinal = 0 then
    RowAttempt.inOrder (answered "42" (some (1 / 2)))
      (.error { errorType := "RuntimeError", message := "scorer lost", failureClass := none
                metadata := {} })
  else
    RowAttempt.inOrder (answered "42" none)
      (.ok { values := Dict.ofPairs [(evalOutputField, .float 1)], metadata := {} })

/- The call has a price, and its row is scored. -/
def pricedRow (_ : Nat) : RowAttempt Rat :=
  RowAttempt.inOrder (answered "42" (some (1 / 2)))
    (.ok { values := Dict.ofPairs [(evalOutputField, .float 1)], metadata := {} })

end Example
end Whetstone.Drivers
