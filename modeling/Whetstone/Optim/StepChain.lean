import Whetstone.Optim.StepReplay

/-! The durable chain of step results: its order, its citations and its budgets. -/
namespace Whetstone.Optim.Step
open Whetstone.Core Whetstone.Lib Whetstone.Experiment Whetstone.Eval Whetstone.Tools

/-! ### Budgets -/

namespace BudgetState

def total (budget : BudgetState) (label : String) : Nat :=
  (budget.consumed.get? label).getD 0 + (budget.remaining.get? label).getD 0

theorem debitLabel_eq_ok (budget after : BudgetState) (label : String) (amount : Nat) :
    budget.debitLabel (label, amount) = .ok after ↔ ∃ left,
      budget.remaining.get? label = some left ∧ amount ≤ left ∧
      after.consumed = budget.consumed.set label ((budget.consumed.get? label).getD 0 + amount) ∧
      after.remaining = budget.remaining.set label (left - amount) := by
  unfold debitLabel
  simp only
  cases hleft : budget.remaining.get? label with
  | none => simp
  | some left =>
    by_cases hshort : left < amount
    · simp only [hshort, if_true, reduceCtorEq, Option.some.injEq, false_iff, not_exists, not_and]
      rintro _ rfl hle
      omega
    · cases after
      simp only [hshort, if_false, Except.ok.injEq, BudgetState.mk.injEq, Option.some.injEq]
      constructor
      · rintro ⟨rfl,rfl⟩
        exact ⟨left, rfl, by omega, rfl, rfl⟩
      · rintro ⟨_,rfl,_,rfl,rfl⟩
        exact ⟨rfl, rfl⟩

theorem debitLabel_total {budget after : BudgetState} {label : String} {amount : Nat}
    (h : budget.debitLabel (label, amount) = .ok after) (other : String) :
    after.total other = budget.total other := by
  obtain ⟨left,hleft,hle,hconsumed,hremaining⟩ := (debitLabel_eq_ok _ _ _ _).mp h
  simp only [total, hconsumed, hremaining, Dict.get?_set]
  by_cases hother : other = label
  · subst hother
    simp only [if_true, hleft, Option.getD_some]
    omega
  · simp [hother]

theorem debitLabels_total {entries : List (String × Nat)} {budget after : BudgetState}
    (h : entries.foldlM debitLabel budget = .ok after) (label : String) :
    after.total label = budget.total label := by
  induction entries generalizing budget with
  | nil =>
    cases h
    rfl
  | cons entry rest ih =>
    obtain ⟨middle,hmiddle,hrest⟩ := (bind_eq_ok _ _ _).mp h
    rw [ih hrest, debitLabel_total hmiddle]

/-- Debits of other labels leave a label as it is. -/
theorem debitLabels_other {entries : List (String × Nat)} {budget after : BudgetState}
    (h : entries.foldlM debitLabel budget = .ok after) {label : String}
    (hlabel : label ∉ entries.map Prod.fst) :
    after.remaining.get? label = budget.remaining.get? label := by
  induction entries generalizing budget with
  | nil =>
    cases h
    rfl
  | cons entry rest ih =>
    obtain ⟨middle,hmiddle,hrest⟩ := (bind_eq_ok _ _ _).mp h
    obtain ⟨left,_,_,_,hremaining⟩ := (debitLabel_eq_ok _ _ _ _).mp hmiddle
    rw [List.map_cons, List.mem_cons, not_or] at hlabel
    rw [ih hrest hlabel.2, hremaining, Dict.get?_set, if_neg hlabel.1]

theorem debitLabels_covered {entries : List (String × Nat)} {budget after : BudgetState}
    (hnodup : (entries.map Prod.fst).Nodup)
    (h : entries.foldlM debitLabel budget = .ok after) {label : String} {amount : Nat}
    (hmem : (label, amount) ∈ entries) :
    ∃ left, budget.remaining.get? label = some left ∧ amount ≤ left ∧
      after.remaining.get? label = some (left - amount) := by
  induction entries generalizing budget with
  | nil => cases hmem
  | cons entry rest ih =>
    obtain ⟨middle,hmiddle,hrest⟩ := (bind_eq_ok _ _ _).mp h
    rw [List.map_cons, List.nodup_cons] at hnodup
    rcases List.mem_cons.mp hmem with rfl | hmem
    · obtain ⟨left,hleft,hle,_,hremaining⟩ := (debitLabel_eq_ok _ _ _ _).mp hmiddle
      refine ⟨left, hleft, hle, ?_⟩
      rw [debitLabels_other hrest hnodup.1, hremaining, Dict.get?_set_self]
    · obtain ⟨left,hleft,hle,hafter⟩ := ih hnodup.2 hrest hmem
      have hne : label ≠ entry.1 := by
        rintro rfl
        exact hnodup.1 (List.mem_map.mpr ⟨_, hmem, rfl⟩)
      obtain ⟨_,_,_,_,hremaining⟩ := (debitLabel_eq_ok _ _ _ _).mp hmiddle
      rw [hremaining, Dict.get?_set, if_neg hne] at hleft
      exact ⟨left, hleft, hle, hafter⟩

theorem same_get? {a b : BudgetState} (h : a.same b = true) (label : String) :
    a.consumed.get? label = b.consumed.get? label ∧
      a.remaining.get? label = b.remaining.get? label := by
  rw [same, Bool.and_eq_true] at h
  exact ⟨Dict.get?_of_sameItems _ _ h.1 label, Dict.get?_of_sameItems _ _ h.2 label⟩

theorem same_total {a b : BudgetState} (h : a.same b = true) (label : String) :
    a.total label = b.total label := by
  obtain ⟨hconsumed,hremaining⟩ := same_get? h label
  rw [total, total, hconsumed, hremaining]

/-- What a debit takes, the budget had. -/
theorem debit_covered {budget after : BudgetState} {delta : BudgetDelta}
    (h : budget.debit delta = .ok after) {label : String} {amount : Nat}
    (hdelta : delta.consumed.get? label = some amount) :
    ∃ left, budget.remaining.get? label = some left ∧ amount ≤ left ∧
      after.remaining.get? label = some (left - amount) :=
  debitLabels_covered delta.consumed.nodup h ((Dict.get?_eq_some_iff _ _ _).mp hdelta)

end BudgetState

section Chains

variable [PyIdentifiers] [CandidateIdentity] [ToolIdentity]
variable {F : Type} [FiniteFloats F] [DecidableEq F] [RewardIdentity F] [ResultIdentity F]
variable [RequestIdentity F]

/-! ### One step result -/

/- The checks of a step result that the terminal result of the run rests on. -/
theorem OptimStepResult.checked (result : OptimStepResult F) :
    result.fields.validateFailure = .ok () ∧ result.fields.validateSeed = .ok () ∧
      result.fields.validateCardinality = .ok () ∧
      (result.status = .complete → result.request.stepOutputContract.honorsTerminal
        result.request.run.terminalOutputContract = true) ∧
      result.fields.validateBudget = .ok () := by
  have hvalid := result.valid
  simp only [StepResultFields.validate, check_bind_eq_ok, raiseIf_eq_ok, not_and,
    Bool.not_eq_false] at hvalid
  obtain ⟨_,_,_,_,_,_,_,hfailure,hseed,hcardinality,_,hhonors,hbudget⟩ := hvalid
  exact ⟨hfailure, hseed, hcardinality, hhonors, hbudget⟩

theorem OptimStepResult.debited (result : OptimStepResult F) :
    ∃ after, result.request.budget.debit result.fields.budgetDelta = .ok after ∧
      result.fields.budget.same after = true := by
  obtain ⟨_,_,_,_,hbudget⟩ := result.checked
  obtain ⟨after,hafter,hsame⟩ := (bind_eq_ok _ _ _).mp hbudget
  exact ⟨after, hafter, by simpa using hsame⟩

theorem OptimStepResult.total_eq (result : OptimStepResult F) (label : String) :
    result.fields.budget.total label = result.request.budget.total label := by
  obtain ⟨after,hafter,hsame⟩ := result.debited
  rw [BudgetState.same_total hsame, BudgetState.debitLabels_total hafter]

theorem OptimStepResult.covered (result : OptimStepResult F) {label : String} {amount : Nat}
    (h : result.fields.budgetDelta.consumed.get? label = some amount) :
    ∃ left, result.request.budget.remaining.get? label = some left ∧ amount ≤ left ∧
      result.fields.budget.remaining.get? label = some (left - amount) := by
  obtain ⟨after,hafter,hsame⟩ := result.debited
  obtain ⟨left,hleft,hle,hremaining⟩ := BudgetState.debit_covered hafter h
  exact ⟨left, hleft, hle, by rw [(BudgetState.same_get? hsame label).2, hremaining]⟩

/-- A failed result accepts no candidates; a complete one as many as the run's terminal contract
asks for, or none when it retains the seed. -/
theorem OptimStepResult.accepted (result : OptimStepResult F) :
    (result.status = .failed → result.fields.acceptedCandidates = []) ∧
      (result.status = .complete → result.fields.acceptedCandidates.length =
        if result.fields.seedRetained then 0
        else result.request.run.terminalOutputContract.acceptedCountFor .complete) := by
  obtain ⟨hfailure,_,hcardinality,hhonors,_⟩ := result.checked
  constructor
  · intro hfailed
    simp only [StepResultFields.validateFailure, raiseIf_bind_eq_ok] at hfailure
    have haccepted := hfailure.2.1
    rw [not_and, not_not] at haccepted
    exact haccepted hfailed
  · intro hcomplete
    have hstatus : result.fields.status = .complete := hcomplete
    have hhonors := hhonors hcomplete
    simp only [OutputContract.honorsTerminal, decide_eq_true_eq] at hhonors
    rw [StepResultFields.validateCardinality, hstatus, if_pos (by decide),
      raiseIf_bind_eq_ok] at hcardinality
    have hadmitted := hcardinality.1
    simp only [StepResultFields.admitted, OutputContract.admitsAcceptedCount] at hadmitted
    cases hseed : result.fields.seedRetained with
    | true => simpa [hseed] using hadmitted
    | false =>
      rw [← hhonors.1]
      simpa [hseed, OptimStepResult.request] using hadmitted

/-! ### The chain -/

variable [StepResultIdentity F] [LeaseText] [HarnessIdentity F]
variable {authority : LeaseAuthority} {run : OptimRun F} {s t : StepState F authority}

/- The bound step results of the run, in order. -/
structure Chain (run : OptimRun F) (s : StepState F authority)
    (results : List (OptimStepResult F)) : Prop where
  bound : ∀ index result, results[index]? = some result → BoundAt run s index result
  ended : ∀ index, results.length ≤ index →
    s.bindings.get? (.stepResult run.runId index) = none
  placed : ∀ (index : Nat) (result : OptimStepResult F), results[index]? = some result →
    result.request.run = run ∧ result.request.stepIndex = index
  initial : ∀ result : OptimStepResult F, results[0]? = some result → result.request.priorStepResultRef = none ∧
    result.request.priorStateRef = none ∧ result.request.priorHistoryRef = none
  linked : ∀ (index : Nat) (prior result : OptimStepResult F), results[index]? = some prior →
    results[index + 1]? = some result → prior.status = .continuing ∧
      result.request.priorStepResultRef = some prior.recordRef ∧
      result.request.priorStateRef = prior.fields.stateRef ∧
      result.request.priorHistoryRef = prior.fields.historyRef ∧
      result.request.budget.same prior.fields.budget = true

/-- A position before a bound one is bound. -/
theorem StepInv.bound_pred (hs : StepInv run s) {index : Nat} {ref : TypedRef}
    (h : s.bindings.get? (.stepResult run.runId (index + 1)) = some ref) :
    ∃ prior, s.bindings.get? (.stepResult run.runId index) = some prior := by
  obtain ⟨result,_,hlinked⟩ := hs.chain _ _ h
  rcases hlinked.follows.prior with ⟨hzero,_⟩ | ⟨_,prior,hprior,_⟩
  · rw [hlinked.index] at hzero
    cases hzero
  · rw [hlinked.index] at hprior
    exact ⟨_, hprior.1⟩

theorem StepInv.bound_below (hs : StepInv run s) {index : Nat}
    (h : s.bindings.get? (.stepResult run.runId index) ≠ none) :
    ∀ lower ≤ index, s.bindings.get? (.stepResult run.runId lower) ≠ none := by
  induction index with
  | zero =>
    intro lower hle
    rw [Nat.le_zero.mp hle]
    exact h
  | succ index ih =>
    intro lower hle
    obtain ⟨ref,href⟩ := Option.ne_none_iff_exists'.mp h
    obtain ⟨prior,hprior⟩ := hs.bound_pred href
    rcases Nat.le_succ_iff.mp hle with hle | rfl
    · exact ih (by rw [hprior]; simp) lower hle
    · exact h

/-- The bound positions are those below some number. -/
theorem StepInv.exists_length (hs : StepInv run s) :
    ∃ n, ∀ index, s.bindings.get? (.stepResult run.runId index) = none ↔ n ≤ index := by
  obtain ⟨bound,hbound⟩ := s.bindings.exists_bound fun
    | .stepResult _ index => index
    | _ => 0
  have hfree : ∀ index, bound ≤ index →
      s.bindings.get? (.stepResult run.runId index) = none := by
    intro index hle
    cases hget : s.bindings.get? (.stepResult run.runId index) with
    | none => rfl
    | some ref =>
      have hlt : index < bound := hbound _ _ hget
      omega
  clear hbound
  induction bound with
  | zero => exact ⟨0, fun index => ⟨fun _ => Nat.zero_le _, fun _ => hfree index (Nat.zero_le _)⟩⟩
  | succ bound ih =>
    cases hlast : s.bindings.get? (.stepResult run.runId bound) with
    | none =>
      refine ih fun index hle => ?_
      rcases Nat.eq_or_lt_of_le hle with rfl | hlt
      · exact hlast
      · exact hfree index hlt
    | some ref =>
      refine ⟨bound + 1, fun index => ⟨fun hnone => ?_, hfree index⟩⟩
      by_contra hlt
      exact hs.bound_below (by rw [hlast]; simp) index (by omega) hnone

theorem StepInv.exists_results (hs : StepInv run s) (n : Nat)
    (hbound : ∀ index < n, s.bindings.get? (.stepResult run.runId index) ≠ none) :
    ∃ results : List (OptimStepResult F), results.length = n ∧
      ∀ index result, results[index]? = some result →
        s.bindings.get? (.stepResult run.runId index) = some result.recordRef ∧
          Linked run s index result := by
  induction n with
  | zero => exact ⟨[], rfl, by simp⟩
  | succ n ih =>
    obtain ⟨results,hlength,hall⟩ := ih fun index hlt => hbound index (by omega)
    obtain ⟨ref,href⟩ := Option.ne_none_iff_exists'.mp (hbound n (by omega))
    obtain ⟨result,rfl,hlinked⟩ := hs.chain _ _ href
    refine ⟨results ++ [result], by simp [hlength], fun index found hfound => ?_⟩
    rcases Nat.lt_or_ge index results.length with hlt | hge
    · rw [List.getElem?_append_left hlt] at hfound
      exact hall index found hfound
    · rw [List.getElem?_append_right hge, List.getElem?_singleton] at hfound
      split at hfound
      · cases hfound
        have hindex : index = n := by omega
        subst hindex
        exact ⟨href, hlinked⟩
      · cases hfound

theorem StepInv.exists_chain (hs : StepInv run s) : ∃ results, Chain run s results := by
  obtain ⟨n,hn⟩ := hs.exists_length
  obtain ⟨results,hlength,hall⟩ := hs.exists_results n fun index hlt hnone =>
    absurd ((hn index).mp hnone) (by omega)
  refine ⟨results, ?_, ?_, ?_, ?_, ?_⟩
  · intro index result hresult
    obtain ⟨hbinding,hlinked⟩ := hall index result hresult
    exact ⟨hbinding, hlinked.stored⟩
  · intro index hle
    exact (hn index).mpr (by omega)
  · intro index result hresult
    obtain ⟨_,hlinked⟩ := hall index result hresult
    exact ⟨hlinked.follows.ofRun, hlinked.index⟩
  · intro result hresult
    obtain ⟨_,hlinked⟩ := hall 0 result hresult
    rcases hlinked.follows.prior with ⟨_,hinitial⟩ | ⟨hpos,_⟩
    · simpa only [validateInitial, raiseIf_bind_eq_ok, raiseIf_eq_ok, not_not] using hinitial
    · rw [hlinked.index] at hpos
      exact absurd hpos (Nat.lt_irrefl 0)
  · intro index prior result hprior hresult
    obtain ⟨hbinding,hpriorLinked⟩ := hall index prior hprior
    obtain ⟨_,hlinked⟩ := hall (index + 1) result hresult
    rcases hlinked.follows.prior with ⟨hzero,_⟩ | ⟨_,found,hfound,hcites,hpreceding⟩
    · rw [hlinked.index] at hzero
      cases hzero
    · rw [hlinked.index, Nat.add_sub_cancel] at hfound
      have hsame := hfound.unique ⟨hbinding, hpriorLinked.stored⟩
      subst hsame
      simp only [validatePreceding, raiseIf_bind_eq_ok, raiseIf_eq_ok, not_not,
        Bool.not_eq_false] at hpreceding
      obtain ⟨_,_,_,hstatus,hbudget,hstate,hhistory⟩ := hpreceding
      exact ⟨hstatus, hcites, hstate, hhistory, hbudget⟩

/-- Along a chain every label keeps what it has in total. -/
theorem Chain.total_eq {results : List (OptimStepResult F)} (h : Chain run s results)
    (label : String) : ∃ amount, ∀ result : OptimStepResult F, result ∈ results →
      result.request.budget.total label = amount ∧ result.fields.budget.total label = amount := by
  cases hfirst : results[0]? with
  | none =>
    refine ⟨0, fun result hmem => ?_⟩
    obtain ⟨index,hlt,_⟩ := List.getElem_of_mem hmem
    rw [List.getElem?_eq_none_iff] at hfirst
    omega
  | some first =>
    have hall : ∀ (index : Nat) (result : OptimStepResult F), results[index]? = some result →
        result.request.budget.total label = first.request.budget.total label := by
      intro index
      induction index with
      | zero =>
        intro result hresult
        rw [hfirst, Option.some.injEq] at hresult
        rw [hresult]
      | succ index ih =>
        intro result hresult
        have hlt : index < results.length := by
          have := (List.getElem?_eq_some_iff.mp hresult).1
          omega
        have hprior := List.getElem?_eq_getElem hlt
        obtain ⟨_,_,_,_,hbudget⟩ := h.linked index _ result hprior hresult
        rw [BudgetState.same_total hbudget, OptimStepResult.total_eq, ih _ hprior]
    refine ⟨first.request.budget.total label, fun result hmem => ?_⟩
    obtain ⟨index,hindex⟩ := List.getElem?_of_mem hmem
    rw [OptimStepResult.total_eq]
    exact ⟨hall index result hindex, hall index result hindex⟩

end Chains
end Whetstone.Optim.Step
