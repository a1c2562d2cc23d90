import Whetstone.Optim.Copro.RoundFolding
import Whetstone.Optim.Copro.Adapter

/-! What a round of COPRO puts out, however many drafts come back: mutations with ids of their own,
at ordinals that go on behind the history. -/
namespace Whetstone.Optim.Copro
open Whetstone.Core Whetstone.Lib Whetstone.Experiment Whetstone.Eval Whetstone.Tools
open Whetstone.Optim.Step

attribute [local instance] exactFiniteFloats

/-! ### Ids -/

theorem countP_lt_countP {α : Type} {p q : α → Bool} {l : List α} {a : α}
    (hqp : ∀ x ∈ l, q x = true → p x = true) (ha : a ∈ l) (hp : p a = true) (hq : q a = false) :
    l.countP q < l.countP p := by
  induction l with
  | nil => cases ha
  | cons x rest ih =>
    have hrest := List.countP_mono_left fun y hy => hqp y (List.mem_cons_of_mem _ hy)
    rw [List.countP_cons, List.countP_cons]
    rcases List.mem_cons.mp ha with rfl | ha
    · simp only [hp, hq, if_true, Bool.false_eq_true, if_false]
      omega
    · have hlt := ih (fun y hy => hqp y (List.mem_cons_of_mem _ hy)) ha
      have hx := hqp x List.mem_cons_self
      cases hqx : q x with
      | false =>
        simp only [Bool.false_eq_true, if_false]
        omega
      | true =>
        simp only [hx hqx, if_true]
        omega

/- An id that is still taken when the turns are up has met one reserved id for each turn. -/
theorem unreservedId_turns {reserved : List String} {turns : Nat} {id : String}
    (h : unreservedId reserved turns id ∈ reserved) :
    turns < reserved.countP fun other => decide (id.length ≤ other.length) := by
  induction turns generalizing id with
  | zero => exact List.countP_pos_iff.mpr ⟨id, h, by simp⟩
  | succ turns ih =>
    have hid : id ∈ reserved := by
      by_contra hid
      rw [unreservedId, if_neg hid] at h
      exact hid h
    rw [unreservedId, if_pos hid] at h
    have hlonger : id.length < (id ++ ":generated").length := by
      have hsuffix : 0 < ":generated".length := by decide
      rw [String.length_append]
      omega
    have hless := countP_lt_countP
      (q := fun other : String => decide ((id ++ ":generated").length ≤ other.length))
      (p := fun other => decide (id.length ≤ other.length)) (l := reserved)
      (fun other _ hother => decide_eq_true (by have := of_decide_eq_true hother; omega)) hid
      (decide_eq_true (le_refl _)) (decide_eq_false (by omega))
    have := ih h
    omega

/-- The id of a candidate is none of the reserved. -/
theorem candidateIdFor_fresh (runId : String) (reserved : List String) (ordinal : Nat) :
    candidateIdFor runId reserved ordinal ∉ reserved := by
  intro h
  have hturns := unreservedId_turns h
  have hle := List.countP_le_length (p := fun other : String =>
    decide (("copro:" ++ runId ++ ":" ++ toString ordinal).length ≤ other.length)) (l := reserved)
  omega

/-! ### Request ids -/

theorem colon_not_mem_toDigits (n : Nat) : ':' ∉ Nat.toDigits 10 n := by
  intro h
  exact absurd (Nat.isDigit_of_mem_toDigits (by decide) (by decide) h) (by decide)

theorem append_colon_inj {a a' b b' : List Char} (ha : ':' ∉ a) (ha' : ':' ∉ a')
    (h : a ++ ':' :: b = a' ++ ':' :: b') : a = a' ∧ b = b' := by
  have hreverse := congrArg List.reverse h
  simp only [List.reverse_append, List.reverse_cons, List.append_assoc, List.singleton_append]
    at hreverse
  obtain ⟨hb,ha⟩ := append_cons_inj ':' _ _ _ _ (by simpa using ha) (by simpa using ha') hreverse
  exact ⟨List.reverse_injective ha, List.reverse_injective hb⟩

theorem toDigits_inj {m n : Nat} (h : Nat.toDigits 10 m = Nat.toDigits 10 n) : m = n := by
  rw [← Nat.ofDigitChars_ten_toDigits (n := m), h, Nat.ofDigitChars_ten_toDigits]

/-- The request ids of a run tell its steps and its occurrences apart. -/
theorem requestId_inj [CandidateIdentity] {runId : String} {step step' ordinal ordinal' : Nat}
    {candidate candidate' : Candidate} (h : RoundReport.requestId runId step ordinal candidate =
      RoundReport.requestId runId step' ordinal' candidate') :
    step = step' ∧ ordinal = ordinal' := by
  have hlist := congrArg String.toList h
  simp only [RoundReport.requestId, String.toList_append, List.append_assoc] at hlist
  have hrest := List.append_cancel_left hlist
  simp only [String.reduceToList, Nat.toString_eq_repr, Nat.toList_repr, List.cons_append,
    List.nil_append, List.cons.injEq, true_and] at hrest
  obtain ⟨hstep,hrest⟩ := append_colon_inj (colon_not_mem_toDigits _) (colon_not_mem_toDigits _)
    hrest
  obtain ⟨hordinal,_⟩ := append_colon_inj (colon_not_mem_toDigits _) (colon_not_mem_toDigits _)
    hrest
  exact ⟨toDigits_inj hstep, toDigits_inj hordinal⟩

theorem proposedText_ok {field text : String} {proposed : Candidate}
    (h : proposedText field proposed = .ok text) :
    proposed.payload.lookup field = some (.str text) ∧ text ≠ "" := by
  simp only [proposedText] at h
  split at h
  · rename_i value hvalue
    split at h
    · cases h
    · rename_i hne
      cases h
      exact ⟨hvalue, hne⟩
  · cases h

section Outputs

variable [PyIdentifiers] [CandidateIdentity] [ToolIdentity]
variable {control : CoproControl} {run : OptimRun Rat} {initial : Candidate}

/-! ### Mutations -/

/- A candidate that mutates the base of the step. -/
structure Mutates (run : OptimRun Rat) (base candidate : Candidate) : Prop where
  bound : candidate.baseRef = base.recordRef
  template : validateCandidateTemplate candidate run = .ok ()
  surface : diffCheck run.mutationField base candidate = .ok ()

/-- A mutation has a text of its own, and the rest of its payload is that of the base. -/
theorem Mutates.text {base candidate : Candidate}
    (h : Mutates run base candidate) : ∃ text,
      candidate.payload.lookup run.mutationField = some (.str text) ∧ text ≠ "" ∧
        candidate ≠ base ∧ candidate.payload.filter (·.1 ≠ run.mutationField) =
          base.payload.filter (·.1 ≠ run.mutationField) := by
  have hsurface := h.surface
  rw [diffCheck, raiseIf_bind_eq_ok, bind_eq_ok] at hsurface
  obtain ⟨_,text,htext,hsurface⟩ := hsurface
  rw [bind_eq_ok] at hsurface
  obtain ⟨old,hold,hsurface⟩ := hsurface
  rw [raiseIf_bind_eq_ok, raiseIf_eq_ok, not_not] at hsurface
  obtain ⟨hlookup,hne⟩ := proposedText_ok htext
  refine ⟨text, hlookup, hne, ?_, hsurface.2⟩
  rintro rfl
  rw [baseText, hlookup] at hold
  cases hold
  exact hsurface.1 rfl

/-! ### Drafts -/

omit [PyIdentifiers] [CandidateIdentity] [ToolIdentity] in
theorem mapError_eq_ok {α ε ε' : Type} (f : ε → ε') (x : Except ε α) (a : α) :
    x.mapError f = .ok a ↔ x = .ok a := by
  cases x <;> simp [Except.mapError]

theorem draftCandidate_ok {candidate : Candidate} {candidateId : String} {draft : ProposalDraft}
    (h : draftCandidate control run initial candidateId draft = .ok candidate) :
    candidate.candidateId = candidateId ∧ Mutates run initial candidate := by
  unfold draftCandidate at h
  split at h
  · cases h
  · rw [check_bind_eq_ok, Codex.candidateFromDraft, bind_eq_ok] at h
    obtain ⟨_,observed,htemplate,h⟩ := h
    rw [check_bind_eq_ok] at h
    obtain ⟨hsurface,h⟩ := h
    cases h
    refine ⟨rfl, rfl, ?_, hsurface⟩
    rw [validateCandidateTemplate, Codex.lookup_setField, bind_eq_ok]
    exact ⟨observed, (mapError_eq_ok _ _ _).mp htemplate, rfl⟩

/- What is true of the drafts taken so far. -/
structure Drafted (run : OptimRun Rat) (initial : Candidate) (roundStart count : Nat)
    (round : DraftedRound) : Prop where
  ordinals : round.occurrences.map Prod.fst = List.range' roundStart round.occurrences.length
  next : round.nextOrdinal = roundStart + round.occurrences.length
  reserved : round.reservedCandidateIds.Perm
    (initial.candidateId :: round.occurrences.map fun occurrence => occurrence.2.candidateId)
  distinct : round.reservedCandidateIds.Nodup
  mutates : ∀ occurrence ∈ round.occurrences, Mutates run initial occurrence.2
  short : round.occurrences.length ≤ count

theorem Drafted.take {roundStart count : Nat} {round : DraftedRound}
    (h : Drafted run initial roundStart count round) (draft : ProposalDraft × Nat) :
    Drafted run initial roundStart (count + 1) (round.take control run initial draft) := by
  unfold DraftedRound.take
  dsimp only
  split
  · rename_i candidate hcandidate
    obtain ⟨hid,hmutates⟩ := draftCandidate_ok hcandidate
    refine ⟨?_, ?_, ?_, ?_, ?_, ?_⟩
    · simp [h.ordinals, h.next, List.range'_concat]
    · simp [h.next]
      omega
    · simp only [List.map_append, List.map_cons, List.map_nil, hid]
      refine ((h.reserved.cons _).trans (List.Perm.swap _ _ _)).trans (List.Perm.cons _ ?_)
      exact (List.perm_append_singleton _ _).symm
    · exact List.nodup_cons.mpr ⟨candidateIdFor_fresh _ _ _, h.distinct⟩
    · intro occurrence hmem
      rcases List.mem_append.mp hmem with hmem | hmem
      · exact h.mutates occurrence hmem
      · rw [List.mem_singleton.mp hmem]
        exact hmutates
    · simpa using h.short
  · exact ⟨h.ordinals, h.next, h.reserved, h.distinct, h.mutates, h.short.trans (by omega)⟩

theorem drafted_foldl {roundStart count : Nat} {round : DraftedRound}
    (h : Drafted run initial roundStart count round) (drafts : List (ProposalDraft × Nat)) :
    Drafted run initial roundStart (count + drafts.length)
      (drafts.foldl (DraftedRound.take control run initial) round) := by
  induction drafts generalizing count round with
  | nil => exact h
  | cons draft rest ih =>
    have htaken : Drafted run initial roundStart (count + 1)
        (round.take control run initial draft) := h.take draft
    have hrest := ih htaken
    rw [List.foldl_cons, List.length_cons]
    rwa [Nat.add_assoc, Nat.add_comm 1] at hrest

/-- The drafts of a round have ordinals that go on behind the history and ids of their own, and
each of them mutates the initial candidate. -/
theorem draftedRound_drafted (roundStart : Nat) (drafts : List ProposalDraft) :
    Drafted run initial roundStart drafts.length
      (draftedRound control run initial roundStart drafts) := by
  have hstart : Drafted run initial roundStart 0 ⟨[], [], [initial.candidateId], roundStart⟩ :=
    ⟨rfl, rfl, List.Perm.refl _, by simp, by simp, le_refl _⟩
  have h : Drafted run initial roundStart (0 + drafts.zipIdx.length)
      (draftedRound control run initial roundStart drafts) := drafted_foldl hstart drafts.zipIdx
  rwa [Nat.zero_add, List.length_zipIdx] at h

/-! ### Rounds -/

/- What a report says of the occurrences of its round. -/
structure Reported (run : OptimRun Rat) (initial : Candidate) (roundStart : Nat)
    (report : RoundReport) : Prop where
  ordinals : report.occurrences.map Prod.fst = List.range' roundStart report.occurrences.length
  occurrences : ∀ occurrence ∈ report.occurrences,
    occurrence.2 ∈ initial :: report.proposed.map Prod.snd
  within : ∀ occurrence ∈ report.proposed, occurrence ∈ report.occurrences
  distinct : ((initial :: report.proposed.map Prod.snd).map Candidate.candidateId).Nodup
  mutates : ∀ candidate ∈ report.proposed.map Prod.snd, Mutates run initial candidate
  short : report.proposed.length ≤ report.drafts.length

theorem roundReport_reported (roundStart : Nat) (plan : CoproRoundPlan)
    (drafts : List ProposalDraft) (usage : List (ProposerCallUsage Rat)) :
    Reported run initial roundStart
      (roundReport control run initial roundStart plan drafts usage) := by
  have h : Drafted run initial roundStart drafts.length
      (draftedRound control run initial roundStart drafts) := draftedRound_drafted roundStart drafts
  refine ⟨?_, ?_, ?_, ?_, ?_, h.short⟩
  · simp only [roundReport]
    split_ifs
    · simp [h.ordinals, h.next, List.range'_concat]
    · exact h.ordinals
  · intro occurrence hmem
    simp only [roundReport] at hmem ⊢
    split_ifs at hmem
    · rcases List.mem_append.mp hmem with hmem | hmem
      · exact List.mem_cons_of_mem _ (List.mem_map_of_mem hmem)
      · rw [List.mem_singleton.mp hmem]
        exact List.mem_cons_self
    · exact List.mem_cons_of_mem _ (List.mem_map_of_mem hmem)
  · intro occurrence hmem
    simp only [roundReport] at hmem ⊢
    split_ifs
    · exact List.mem_append_left _ hmem
    · exact hmem
  · have hnodup := h.reserved.nodup_iff.mp h.distinct
    simpa [roundReport, Function.comp_def] using hnodup
  · intro candidate hmem
    obtain ⟨occurrence,hoccurrence,rfl⟩ := List.mem_map.mp hmem
    exact h.mutates occurrence hoccurrence

variable [RewardIdentity Rat]

/- An attempt on the initial candidate or on a mutation of it. -/
abbrev Tried (run : OptimRun Rat) (initial : Candidate) (attempt : CoproAttempt) : Prop :=
  attempt.candidate = initial ∨ Mutates run initial attempt.candidate

end Outputs
end Whetstone.Optim.Copro
