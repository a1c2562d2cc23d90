import Whetstone.Optim.Gepa.StepDrive

/-! The evidence of a run. A step reports every resolution it collected that no ancestor has
recorded, once each; over the chain of Step Results each request that was resolved in a step of
the run stands in exactly one of them. -/
namespace Whetstone.Optim.Gepa
open Whetstone.Core Whetstone.Lib Whetstone.Experiment Whetstone.Optim.Step

section Evidence

variable {F : Type} [FiniteFloats F] [RewardIdentity F] {runId : String} {k : Nat}

/-! ### The evidence of one step -/

/-- The evidence of a resolution is valid where the resolution is. -/
theorem searchFields_valid (resolution : IntentResolution F) (runId : String) (stepIndex : Nat) :
    (searchFields resolution runId stepIndex).validate = .ok () := by
  have h := resolution.valid
  unfold ResolutionFields.validate at h
  simp only [raiseIf_bind_eq_ok, optionForM_eq_ok] at h
  obtain ⟨hresult,hrejected,_,_,_,_,_,_,_,hrewardless,hreward⟩ := h
  unfold SearchFields.validate
  simp only [raiseIf_bind_eq_ok, raiseIf_eq_ok]
  refine ⟨hresult, hrejected, hrewardless, ?_⟩
  cases hsome : resolution.rewardRef with
  | none => simp [searchFields, hsome]
  | some reward =>
    have hrefs := hreward reward hsome
    unfold ResolutionFields.validateReward at hrefs
    simp only [raiseIf_bind_eq_ok] at hrefs
    have hsame := not_not.mp hrefs.1
    simp [searchFields, hsome, hsame]

theorem evidenceOf_ok {resolution : IntentResolution F} {replayed : Bool}
    (hrun : resolution.optimEvalRequest.optimRunId = runId)
    (hstep : replayed = false → resolution.optimEvalRequest.optimStepIndex = k) :
    evidenceOf resolution replayed runId k =
      .ok ⟨searchFields resolution runId k, searchFields_valid resolution runId k⟩ := by
  have hcreate : createEvidence (searchFields resolution runId k) =
      .ok ⟨searchFields resolution runId k, searchFields_valid resolution runId k⟩ := by
    unfold createEvidence
    split
    · rfl
    · rename_i message hmessage
      rw [searchFields_valid] at hmessage
      cases hmessage
  cases replayed with
  | true => simp [evidenceOf, fromReplayedResolution, raiseIf, hrun, hcreate]
  | false => simp [evidenceOf, fromResolution, raiseIf, hrun, hstep rfl, hcreate]

/- What a step reports of the resolutions it collected. -/
structure StepReport (recorded emitted : List String) (runId : String) (k : Nat)
    (collected : List (IntentResolution F × Bool)) (evidence : List (SearchEvidence F)) : Prop where
  nodup : (evidence.map fun e => e.evalRequestId).Nodup
  fresh : ∀ e ∈ evidence, e.evalRequestId ∉ recorded ∧ e.evalRequestId ∉ emitted
  bound : ∀ e ∈ evidence, e.optimRunId = runId ∧ e.optimStepIndex = k
  covers : ∀ entry ∈ collected, entry.1.optimEvalRequest.evalRequest.requestId ∈ recorded ∨
    entry.1.optimEvalRequest.evalRequest.requestId ∈ emitted ∨
    ∃ e ∈ evidence, e.evalRequestId = entry.1.optimEvalRequest.evalRequest.requestId
  collected : ∀ e ∈ evidence, ∃ entry ∈ collected,
    entry.1.optimEvalRequest.evalRequest.requestId = e.evalRequestId

theorem searchEvidence_reports (recorded : List String)
    (collected : List (IntentResolution F × Bool)) (emitted : List String)
    (h : ∀ entry ∈ collected, entry.1.optimEvalRequest.optimRunId = runId ∧
      (entry.2 = false → entry.1.optimEvalRequest.optimStepIndex = k)) :
    ∃ evidence, searchEvidence recorded runId k collected emitted = .ok evidence ∧
      StepReport recorded emitted runId k collected evidence := by
  induction collected generalizing emitted with
  | nil => exact ⟨[], rfl, by constructor <;> simp⟩
  | cons entry rest ih =>
    obtain ⟨resolution,replayed⟩ := entry
    have hrest : ∀ entry ∈ rest, _ := fun entry hmem => h entry (List.mem_cons_of_mem _ hmem)
    obtain ⟨hrun,hstep⟩ := h _ List.mem_cons_self
    unfold searchEvidence
    dsimp only
    by_cases hknown : resolution.optimEvalRequest.evalRequest.requestId ∈ recorded ∨
        resolution.optimEvalRequest.evalRequest.requestId ∈ emitted
    · obtain ⟨evidence,hok,hreports⟩ := ih emitted hrest
      rw [if_pos hknown]
      refine ⟨evidence, hok, { hreports with covers := fun entry hmem => ?_, collected := ?_ }⟩
      · rcases List.mem_cons.mp hmem with rfl | hmem
        · rcases hknown with hknown | hknown
          · exact .inl hknown
          · exact .inr (.inl hknown)
        · exact hreports.covers entry hmem
      · intro e he
        obtain ⟨entry,hmem,hid⟩ := hreports.collected e he
        exact ⟨entry, List.mem_cons_of_mem _ hmem, hid⟩
    · obtain ⟨evidence,hok,hreports⟩ :=
        ih (emitted ++ [resolution.optimEvalRequest.evalRequest.requestId]) hrest
      rw [if_neg hknown, evidenceOf_ok hrun hstep]
      simp only [ok_bind, hok]
      have hid : (SearchEvidence.mk (searchFields resolution runId k)
        (searchFields_valid resolution runId k)).evalRequestId =
          resolution.optimEvalRequest.evalRequest.requestId := rfl
      refine ⟨_, rfl, ?_, ?_, ?_, ?_, ?_⟩
      · rw [List.map_cons, List.nodup_cons]
        refine ⟨fun hmem => ?_, hreports.nodup⟩
        obtain ⟨e,he,heq⟩ := List.mem_map.mp hmem
        have hfresh := (hreports.fresh e he).2
        rw [heq, hid] at hfresh
        exact hfresh (by simp)
      · intro e he
        rcases List.mem_cons.mp he with rfl | he
        · rw [hid]
          exact not_or.mp hknown
        · obtain ⟨hrecorded,hemitted⟩ := hreports.fresh e he
          exact ⟨hrecorded, fun hmem => hemitted (List.mem_append_left _ hmem)⟩
      · intro e he
        rcases List.mem_cons.mp he with rfl | he
        · exact ⟨rfl, rfl⟩
        · exact hreports.bound e he
      · intro entry hmem
        rcases List.mem_cons.mp hmem with rfl | hmem
        · exact .inr (.inr ⟨_, List.mem_cons_self, hid⟩)
        · rcases hreports.covers entry hmem with hold | hold | ⟨e,he,heq⟩
          · exact .inl hold
          · rcases List.mem_append.mp hold with hold | hnew
            · exact .inr (.inl hold)
            · rw [List.mem_singleton.mp hnew]
              exact .inr (.inr ⟨_, List.mem_cons_self, hid⟩)
          · exact .inr (.inr ⟨e, List.mem_cons_of_mem _ he, heq⟩)
      · intro e he
        rcases List.mem_cons.mp he with rfl | he
        · exact ⟨_, List.mem_cons_self, hid.symm⟩
        · obtain ⟨entry,hmem,heq⟩ := hreports.collected e he
          exact ⟨entry, List.mem_cons_of_mem _ hmem, heq⟩

end Evidence

/-! ### The chain of Step Results -/

section Chain

variable {F : Type} [FiniteFloats F] [GepaResultIdentity F]

/- The results of a chain, the last one first. -/
def Linked (results : Dict TypedRef (GepaStepResult F)) :
    List (GepaStepResult F) → Option TypedRef → Prop
  | [], head => head = none
  | result :: earlier, head => head = some result.ref ∧
      results.get? result.ref = some result ∧ result.stepIndex = earlier.length ∧
      Linked results earlier result.priorStepResultRef

variable {results : Dict TypedRef (GepaStepResult F)} {chain : List (GepaStepResult F)}
variable {head : Option TypedRef}

theorem Linked.stored (h : Linked results chain head) :
    ∀ result ∈ chain, results.get? result.ref = some result ∧ result.stepIndex < chain.length := by
  induction chain generalizing head with
  | nil => simp
  | cons first earlier ih =>
    obtain ⟨_,hstored,hindex,hlinked⟩ := h
    intro result hmem
    rcases List.mem_cons.mp hmem with rfl | hmem
    · exact ⟨hstored, by simp [hindex]⟩
    · obtain ⟨hresult,hlt⟩ := ih hlinked result hmem
      exact ⟨hresult, by simp only [List.length_cons]; omega⟩

theorem Linked.chainFrom (h : Linked results chain head) :
    chainFrom results chain.length head = chain := by
  induction chain generalizing head with
  | nil => rfl
  | cons first earlier ih =>
    obtain ⟨rfl,hstored,_,hlinked⟩ := h
    simp [Gepa.chainFrom, hstored, ih hlinked]

theorem Linked.nodup (h : Linked results chain head) :
    (chain.map GepaStepResult.ref).Nodup := by
  induction chain generalizing head with
  | nil => exact List.nodup_nil
  | cons first earlier ih =>
    obtain ⟨_,hstored,hindex,hlinked⟩ := h
    rw [List.map_cons, List.nodup_cons]
    refine ⟨fun hmem => ?_, ih hlinked⟩
    obtain ⟨result,hresult,href⟩ := List.mem_map.mp hmem
    obtain ⟨hsame,hlt⟩ := hlinked.stored result hresult
    rw [href, hstored, Option.some.injEq] at hsame
    subst hsame
    omega

/-- A chain is no longer than the store. -/
theorem Linked.length_le (h : Linked results chain head) :
    chain.length ≤ results.pairs.length := by
  have hsub : chain.map GepaStepResult.ref ⊆ results.keys := by
    intro ref hmem
    obtain ⟨result,hresult,rfl⟩ := List.mem_map.mp hmem
    have hstored := (h.stored result hresult).1
    exact List.mem_map.mpr ⟨(_, result), (Dict.get?_eq_some_iff _ _ _).mp hstored, rfl⟩
  have hle := (h.nodup.subperm hsub).length_le
  simpa [Dict.keys] using hle

theorem Linked.grow {results' : Dict TypedRef (GepaStepResult F)} (h : Linked results chain head)
    (hgrows : ∀ ref result, results.get? ref = some result → results'.get? ref = some result) :
    Linked results' chain head := by
  induction chain generalizing head with
  | nil => exact h
  | cons first earlier ih =>
    obtain ⟨hhead,hstored,hindex,hlinked⟩ := h
    exact ⟨hhead, hgrows _ _ hstored, hindex, ih hlinked⟩

/-- The walk over the ancestors of a step finds what they recorded. -/
theorem Linked.recordedEvidenceIds (h : Linked results chain head) (left : Nat)
    (hleft : chain.length ≤ left) (seen : List TypedRef)
    (hseen : ∀ ref ∈ seen, ∀ result, results.get? ref = some result →
      chain.length ≤ result.stepIndex) :
    recordedEvidenceIds results left seen head =
      .ok (chain.flatMap GepaStepResult.evidenceIds) := by
  induction chain generalizing head left seen with
  | nil =>
    cases h
    cases left <;> rfl
  | cons first earlier ih =>
    obtain ⟨rfl,hstored,hindex,hlinked⟩ := h
    obtain ⟨left,rfl⟩ : ∃ n, left = n + 1 := ⟨left - 1, by simp at hleft; omega⟩
    have hnew : first.ref ∉ seen := by
      intro hmem
      have hle := hseen _ hmem first hstored
      simp only [List.length_cons, hindex] at hle
      omega
    have hnext := ih hlinked left (by simpa using hleft) (first.ref :: seen) fun ref hmem result
      hresult => by
        rcases List.mem_cons.mp hmem with rfl | hmem
        · rw [hstored, Option.some.injEq] at hresult
          rw [← hresult, hindex]
        · have hle := hseen ref hmem result hresult
          simp only [List.length_cons] at hle
          omega
    simp only [Gepa.recordedEvidenceIds, raiseIf, hnew, if_false, ok_bind, hstored, hnext]
    rfl

end Chain
end Whetstone.Optim.Gepa
