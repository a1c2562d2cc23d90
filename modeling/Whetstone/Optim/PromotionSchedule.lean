import Whetstone.Lib.FirstSeen
import Whetstone.Lib.Ranking
import Whetstone.Optim.StudyClosure
import Mathlib.Tactic.Linarith
import Mathlib.Tactic.Ring

/-! The promotion schedule of a MIPROv2 study. Promotions take trial numbers of their own, so
the cadence is a condition on a number that earlier promotions have shifted; over the run of a
schedule it falls on every `k`-th sample and on the last. -/
namespace Whetstone.Optim
open Whetstone.Core Whetstone.Lib CitedRecords

namespace Miprov2StudySchedule

variable (schedule : Miprov2StudySchedule)

/- The trial number of the sample after `i` samples and their promotions; the baseline is 0. -/
def sampleNumber : Nat → Int
  | 0 => 1
  | i + 1 => if schedule.promotionDue (sampleNumber i) then sampleNumber i + 2
      else sampleNumber i + 1

/- The promotions among the first samples. -/
def promotionCount : Nat → Nat
  | 0 => 0
  | i + 1 => if schedule.promotionDue (schedule.sampleNumber i) then promotionCount i + 1
      else promotionCount i

theorem sampleNumber_eq (i : Nat) :
    schedule.sampleNumber i = i + 1 + schedule.promotionCount i := by
  induction i with
  | zero => rfl
  | succ i ih =>
    rw [sampleNumber, promotionCount]
    split <;> rw [ih] <;> push_cast <;> ring

variable {schedule}

theorem dvd_succ_iff {k : Int} (i : Int) (hk : 0 < k) : k ∣ i + 1 ↔ i % k + 1 = k := by
  have hr := Int.emod_nonneg i (Int.ne_of_gt hk)
  have hlt := Int.emod_lt_of_pos i hk
  rw [Int.dvd_iff_emod_eq_zero, ← Int.emod_add_emod]
  by_cases hlast : i % k + 1 = k
  · rw [hlast, Int.emod_self]
    exact ⟨fun _ => rfl, fun _ => rfl⟩
  · have hsmall : (i % k + 1) % k = i % k + 1 := Int.emod_eq_of_lt (by omega) (by omega)
    rw [hsmall]
    omega

theorem succ_div {k : Int} (i : Int) (hk : 0 < k) :
    (i + 1) / k = if k ∣ i + 1 then i / k + 1 else i / k := by
  have hsplit := Int.mul_ediv_add_emod i k
  have hr := Int.emod_nonneg i (Int.ne_of_gt hk)
  have hlt := Int.emod_lt_of_pos i hk
  have hform : i + 1 = (i % k + 1) + k * (i / k) := by omega
  conv_lhs => rw [hform, Int.add_mul_ediv_left _ _ (Int.ne_of_gt hk)]
  by_cases hlast : i % k + 1 = k
  · rw [if_pos ((dvd_succ_iff i hk).mpr hlast), hlast, Int.ediv_self (Int.ne_of_gt hk)]
    omega
  · rw [if_neg (fun h => hlast ((dvd_succ_iff i hk).mp h)),
      Int.ediv_eq_zero_of_lt (by omega) (by omega), Int.zero_add]

/- The cadence, on the number that the sample after `i` others and `i / k` promotions has. -/
theorem divides_iff {k : Int} (i : Int) (hk : 0 < k) :
    (i + 1 + i / k + 1) % (k + 1) = 0 ↔ k ∣ i + 1 := by
  have hsplit := Int.mul_ediv_add_emod i k
  have hr := Int.emod_nonneg i (Int.ne_of_gt hk)
  have hlt := Int.emod_lt_of_pos i hk
  have hform : i + 1 + i / k + 1 = (i % k + 2) + (k + 1) * (i / k) := by linarith [hsplit]
  rw [hform, Int.add_mul_emod_self_left, dvd_succ_iff i hk]
  by_cases hlast : i % k + 1 = k
  · have hfull : i % k + 2 = k + 1 := by omega
    rw [hfull, Int.emod_self]
    exact ⟨fun _ => hlast, fun _ => rfl⟩
  · have hsmall : (i % k + 2) % (k + 1) = i % k + 2 := Int.emod_eq_of_lt (by omega) (by omega)
    rw [hsmall]
    omega

theorem last_iff {n k : Int} (i : Int) (hk : 0 < k) (hin : i + 1 ≤ n) :
    i + 1 + i / k + 1 = n + n / k + 1 + (if n % k ≠ 0 then 1 else 0) - 1 ↔ i + 1 = n := by
  have hsplit := Int.mul_ediv_add_emod i k
  have hr := Int.emod_nonneg i (Int.ne_of_gt hk)
  have hN := Int.mul_ediv_add_emod n k
  have hR := Int.emod_nonneg n (Int.ne_of_gt hk)
  have hRlt := Int.emod_lt_of_pos n hk
  constructor
  · intro h
    by_contra hne
    have hq : i / k ≤ n / k := Int.ediv_le_ediv hk (by omega)
    by_cases hmod : n % k = 0
    · rw [if_neg (not_not.mpr hmod)] at h
      have heq : i / k = n / k := by omega
      rw [heq] at hsplit
      omega
    · rw [if_pos hmod] at h
      omega
  · intro h
    by_cases hmod : n % k = 0
    · -- the last full group ends one short of the quotient of the end
      have hquot : i / k = n / k - 1 := by
        have hform : i = (k - 1) + k * (n / k - 1) := by
          rw [mul_sub, mul_one]
          omega
        rw [hform, Int.add_mul_ediv_left _ _ (Int.ne_of_gt hk),
          Int.ediv_eq_zero_of_lt (by omega) (by omega), Int.zero_add]
      rw [hquot, if_neg (not_not.mpr hmod)]
      omega
    · have hquot : i / k = n / k := by
        have hform : i = (n % k - 1) + k * (n / k) := by omega
        rw [hform, Int.add_mul_ediv_left _ _ (Int.ne_of_gt hk),
          Int.ediv_eq_zero_of_lt (by omega) (by omega), Int.zero_add]
      rw [hquot, if_pos hmod]
      omega

theorem validate_pos (h : schedule.validate = .ok ()) :
    0 < schedule.numTrials ∧ 0 < schedule.minibatchFullEvalSteps := by
  simp only [validate, raiseIf_bind_eq_ok, Int.not_le] at h
  exact ⟨h.1, h.2.2.2.1⟩

/- Before the sample after `i` samples there is one promotion for each full group of them. -/
theorem promotionCount_before (hvalid : schedule.validate = .ok ())
    (hminibatch : schedule.minibatch = true) (i : Nat) (hi : (i : Int) + 1 ≤ schedule.numTrials) :
    (schedule.promotionCount i : Int) = i / schedule.minibatchFullEvalSteps ∧
      (schedule.promotionDue (schedule.sampleNumber i) = true ↔
        schedule.minibatchFullEvalSteps ∣ (i : Int) + 1 ∨ (i : Int) + 1 = schedule.numTrials) := by
  obtain ⟨_,hk⟩ := validate_pos hvalid
  have hdue : ∀ j : Nat, (j : Int) + 1 ≤ schedule.numTrials →
      (schedule.promotionCount j : Int) = j / schedule.minibatchFullEvalSteps →
      (schedule.promotionDue (schedule.sampleNumber j) = true ↔
        schedule.minibatchFullEvalSteps ∣ (j : Int) + 1 ∨
          (j : Int) + 1 = schedule.numTrials) := by
    intro j hj hcount
    rw [promotionDue, hminibatch, sampleNumber_eq, hcount, adjustedNumTrials, if_pos hminibatch,
      Bool.true_and, decide_eq_true_eq, divides_iff _ hk, last_iff _ hk hj]
  induction i with
  | zero =>
    have hzero : (schedule.promotionCount 0 : Int) =
        ((0 : Nat) : Int) / schedule.minibatchFullEvalSteps := by simp [promotionCount]
    exact ⟨hzero, hdue 0 hi hzero⟩
  | succ i ih =>
    obtain ⟨hcount,hprevious⟩ := ih (by push_cast at hi; omega)
    have hnext : (schedule.promotionCount (i + 1) : Int) =
        ((i + 1 : Nat) : Int) / schedule.minibatchFullEvalSteps := by
      have hlast : (i : Int) + 1 ≠ schedule.numTrials := by push_cast at hi; omega
      rw [promotionCount]
      push_cast
      rw [succ_div _ hk, ← hcount]
      by_cases hdvd : schedule.minibatchFullEvalSteps ∣ (i : Int) + 1
      · rw [if_pos (hprevious.mpr (.inl hdvd)), if_pos hdvd]
      · rw [if_neg (fun h => (hprevious.mp h).elim hdvd hlast), if_neg hdvd]
    exact ⟨hnext, hdue (i + 1) hi hnext⟩

/-- A promotion for every full group of samples, and one more where the last group is short. -/
theorem promotionCount_all (hvalid : schedule.validate = .ok ())
    (hminibatch : schedule.minibatch = true) (n : Nat) (hn : (n : Int) = schedule.numTrials) :
    (schedule.promotionCount n : Int) =
        (schedule.numTrials + schedule.minibatchFullEvalSteps - 1) /
          schedule.minibatchFullEvalSteps ∧
      1 + schedule.numTrials + schedule.promotionCount n = schedule.adjustedNumTrials := by
  obtain ⟨hpos,hk⟩ := validate_pos hvalid
  obtain ⟨i,rfl⟩ : ∃ i, n = i + 1 := ⟨n - 1, by omega⟩
  obtain ⟨hcount,hdue⟩ := promotionCount_before hvalid hminibatch i (by push_cast at hn; omega)
  push_cast at hn
  have hlast : (schedule.promotionCount (i + 1) : Int) =
      (i : Int) / schedule.minibatchFullEvalSteps + 1 := by
    rw [promotionCount, if_pos (hdue.mpr (.inr hn)), Nat.cast_succ, hcount]
  have hends := (last_iff (i : Int) hk (Int.le_of_eq hn)).mpr hn
  refine ⟨?_, ?_⟩
  · rw [hlast, ← hn]
    have hform : (i : Int) + 1 + schedule.minibatchFullEvalSteps - 1 =
        i + schedule.minibatchFullEvalSteps * 1 := by omega
    rw [hform, Int.add_mul_ediv_left _ _ (Int.ne_of_gt hk)]
  · rw [hlast, adjustedNumTrials, if_pos hminibatch]
    omega

end Miprov2StudySchedule

/-! ### The promoted combination -/

/-- The order of the finite floats. -/
class FiniteOrder (F : Type) [FloatOps F] : Prop where
  lt_asymm : ∀ a b : F, FloatOps.isFinite a = true → FloatOps.isFinite b = true →
    FloatOps.lt a b = true → FloatOps.lt b a = false
  not_lt_trans : ∀ a b c : F, FloatOps.isFinite a = true → FloatOps.isFinite b = true →
    FloatOps.isFinite c = true → FloatOps.lt a b = false → FloatOps.lt b c = false →
    FloatOps.lt a c = false

section Selection

variable {F : Type} [DecidableEq F] [StudyFloats F] [CitedRecords F] [StudyChecks F] [StudyHashes]

/- The samples of one combination. -/
def samplesOf (samples : List (SampleObservation F)) (key : String) :
    List (SampleObservation F) :=
  samples.filter fun sample => decide (sample.candidateCombinationIdentityHash = key)

def meanScore (samples : List (SampleObservation F)) (key : String) : F :=
  FloatOps.divNat (FloatOps.sum ((samplesOf samples key).map SampleObservation.score))
    (samplesOf samples key).length

/- The combinations in the order of their first observations. -/
def observedCombinations (samples : List (SampleObservation F)) : List String :=
  firstSeen (samples.map SampleObservation.candidateCombinationIdentityHash)

def promotedCombinations (samples : List (SampleObservation F)) : List String :=
  samples.filterMap fun sample => sample.promotion.map Promotion.candidateCombinationIdentityHash

def unpromotedCombinations (samples : List (SampleObservation F)) : List String :=
  (observedCombinations samples).filter fun key => decide (key ∉ promotedCombinations samples)

omit [DecidableEq F] [StudyChecks F] [StudyHashes] in
omit [StudyFloats F] in
theorem samplesOf_append (samples : List (SampleObservation F)) (sample : SampleObservation F)
    (key : String) : samplesOf (samples ++ [sample]) key =
      if sample.candidateCombinationIdentityHash = key then samplesOf samples key ++ [sample]
      else samplesOf samples key := by
  by_cases h : sample.candidateCombinationIdentityHash = key <;> simp [samplesOf, h]

omit [DecidableEq F] [StudyFloats F] [StudyChecks F] [StudyHashes] in
theorem groupSamples_append (samples : List (SampleObservation F)) (sample : SampleObservation F) :
    groupSamples (samples ++ [sample]) =
      match (groupSamples samples).get? sample.candidateCombinationIdentityHash with
      | none => (groupSamples samples).set sample.candidateCombinationIdentityHash
          (sample, [sample.score])
      | some (first, scores) => (groupSamples samples).set
          sample.candidateCombinationIdentityHash (first, scores ++ [sample.score]) := by
  rw [groupSamples, List.foldl_append]
  rfl

omit [DecidableEq F] [StudyFloats F] [StudyChecks F] [StudyHashes] in
/-- A group is the first sample of its combination and the scores of all of them. -/
theorem groupSamples_get (samples : List (SampleObservation F)) (key : String) :
    (groupSamples samples).get? key =
      match samplesOf samples key with
      | [] => none
      | first :: rest => some (first, (first :: rest).map SampleObservation.score) := by
  induction samples using List.reverseRecOn with
  | nil => rfl
  | append_singleton samples sample ih =>
    rw [groupSamples_append, samplesOf_append]
    by_cases hkey : sample.candidateCombinationIdentityHash = key
    · rw [if_pos hkey, hkey, ih]
      cases samplesOf samples key with
      | nil => simp
      | cons first rest => simp
    · rw [if_neg hkey, ← ih]
      cases (groupSamples samples).get? sample.candidateCombinationIdentityHash with
      | none => exact Dict.get?_set_ne _ _ _ _ (Ne.symm hkey)
      | some found => exact Dict.get?_set_ne _ _ _ _ (Ne.symm hkey)

omit [DecidableEq F] [StudyFloats F] [StudyChecks F] [StudyHashes] in
theorem observedCombinations_append (samples : List (SampleObservation F))
    (sample : SampleObservation F) :
    observedCombinations (samples ++ [sample]) =
      if sample.candidateCombinationIdentityHash ∈ observedCombinations samples then
        observedCombinations samples
      else observedCombinations samples ++ [sample.candidateCombinationIdentityHash] := by
  rw [observedCombinations, List.map_append]
  exact firstSeen_append _ _

omit [DecidableEq F] [StudyFloats F] [StudyChecks F] [StudyHashes] in
theorem groupSamples_keys (samples : List (SampleObservation F)) :
    (groupSamples samples).keys = observedCombinations samples := by
  induction samples using List.reverseRecOn with
  | nil => rfl
  | append_singleton samples sample ih =>
    have hkeys : ∀ (d : Dict String (SampleObservation F × List F)) (k : String)
        (v : SampleObservation F × List F),
        (d.set k v).keys = if k ∈ d.keys then d.keys else d.keys ++ [k] := fun d k v =>
      Dict.keys_setPairs k v d.pairs
    rw [groupSamples_append, observedCombinations_append, ← ih]
    cases (groupSamples samples).get? sample.candidateCombinationIdentityHash with
    | none => exact hkeys _ _ _
    | some found => exact hkeys _ _ _

/- The candidate that stands for a group. -/
def groupCandidate (group : String × SampleObservation F × List F) : PromotionCandidate F where
  params := group.2.1.params
  candidateCombinationIdentityHash := group.1
  evaluatedCandidateIdentityHash := group.2.1.evaluatedCandidateIdentityHash
  candidateAssembly := group.2.1.candidateAssembly
  sourceSampleTrialNumber := group.2.1.trialNumber
  minibatchMean := FloatOps.divNat (FloatOps.sum group.2.2) group.2.2.length

omit [DecidableEq F] [StudyChecks F] [StudyHashes] in
theorem PromotionCandidate.modelValidate_eq_ok {c c' : PromotionCandidate F}
    (h : c.modelValidate = .ok c') : c' = c ∧ FloatOps.isFinite c.minibatchMean = true := by
  unfold PromotionCandidate.modelValidate at h
  obtain ⟨_,h⟩ := (check_bind_eq_ok _ _ _).mp h
  obtain ⟨_,h⟩ := (check_bind_eq_ok _ _ _).mp h
  simp only [raiseIf_bind_eq_ok] at h
  obtain ⟨_,_,h⟩ := h
  obtain ⟨hfinite,h⟩ := (check_bind_eq_ok _ _ _).mp h
  cases h
  exact ⟨rfl, by simpa using (raiseIf_eq_ok _ _).mp hfinite⟩

omit [DecidableEq F] [StudyChecks F] [StudyHashes] in
theorem promotionOf_eq_ok {group : String × SampleObservation F × List F}
    {c : PromotionCandidate F} (h : promotionOf group = .ok c) :
    c = groupCandidate group ∧ FloatOps.isFinite (groupCandidate group).minibatchMean = true :=
  PromotionCandidate.modelValidate_eq_ok h

omit [DecidableEq F] in
/- A combination whose first sample is valid has a candidate unless its mean is not finite. -/
theorem promotionOf_returns {group : String × SampleObservation F × List F}
    (hfirst : group.2.1.validate = .ok ())
    (hkey : group.2.1.candidateCombinationIdentityHash = group.1)
    (hfinite : FloatOps.isFinite (groupCandidate group).minibatchMean = true) :
    promotionOf group = .ok (groupCandidate group) := by
  unfold SampleObservation.validate at hfirst
  obtain ⟨_,hfirst⟩ := (check_bind_eq_ok _ _ _).mp hfirst
  obtain ⟨_,hfirst⟩ := (check_bind_eq_ok _ _ _).mp hfirst
  obtain ⟨_,hfirst⟩ := (check_bind_eq_ok _ _ _).mp hfirst
  obtain ⟨htrial,hfirst⟩ := (raiseIf_bind_eq_ok _ _ _ _).mp hfirst
  obtain ⟨hcombination,hfirst⟩ := (check_bind_eq_ok _ _ _).mp hfirst
  obtain ⟨hevaluated,hfirst⟩ := (check_bind_eq_ok _ _ _).mp hfirst
  simp only [raiseIf_bind_eq_ok] at hfirst
  obtain ⟨_,_,hassembly,_⟩ := hfirst
  have hmean : requireFinite (groupCandidate group).minibatchMean "minibatch_mean" = .ok () :=
    (raiseIf_eq_ok _ _).mpr (by simpa using hfinite)
  rw [hkey] at hcombination
  change (groupCandidate group).modelValidate = _
  unfold PromotionCandidate.modelValidate
  rw [hmean]
  simp only [groupCandidate, hcombination, hevaluated, ok_bind]
  exact (raiseIf_bind_eq_ok _ _ _ _).mpr
    ⟨hassembly, (raiseIf_bind_eq_ok _ _ _ _).mpr ⟨htrial, rfl⟩⟩

/-- What a promotion selects. It stands for the first sample of its combination; while a
combination is unpromoted, it is the first of the unpromoted ones that no other exceeds. -/
structure Selected (samples : List (SampleObservation F)) (c : PromotionCandidate F) : Prop where
  observed : ∃ first rest,
    samplesOf samples c.candidateCombinationIdentityHash = first :: rest ∧
    c.params = first.params ∧
    c.evaluatedCandidateIdentityHash = first.evaluatedCandidateIdentityHash ∧
    c.candidateAssembly = first.candidateAssembly ∧ c.sourceSampleTrialNumber = first.trialNumber
  mean : c.minibatchMean = meanScore samples c.candidateCombinationIdentityHash
  best : unpromotedCombinations samples ≠ [] → ∃ before after,
    unpromotedCombinations samples = before ++ c.candidateCombinationIdentityHash :: after ∧
    (∀ key ∈ before, FloatOps.lt (meanScore samples key) c.minibatchMean = true) ∧
    ∀ key ∈ before ++ after, FloatOps.lt c.minibatchMean (meanScore samples key) = false

omit [DecidableEq F] [StudyFloats F] [StudyChecks F] [StudyHashes] in
/- The groups, as the combinations in their order. -/
theorem mem_groupSamples {samples : List (SampleObservation F)}
    {group : String × SampleObservation F × List F} (h : group ∈ (groupSamples samples).pairs) :
    ∃ rest, samplesOf samples group.1 = group.2.1 :: rest ∧
      group.2.2 = (group.2.1 :: rest).map SampleObservation.score := by
  have hget := (Dict.get?_eq_some_iff _ group.1 group.2).mpr h
  rw [groupSamples_get] at hget
  cases hsamples : samplesOf samples group.1 with
  | nil =>
    rw [hsamples] at hget
    cases hget
  | cons first rest =>
    simp only [hsamples, Option.some.injEq] at hget
    rw [← hget]
    exact ⟨rest, rfl, rfl⟩

omit [DecidableEq F] [StudyChecks F] [StudyHashes] in
theorem groupCandidate_mean {samples : List (SampleObservation F)}
    {group : String × SampleObservation F × List F} (h : group ∈ (groupSamples samples).pairs) :
    (groupCandidate group).minibatchMean = meanScore samples group.1 := by
  obtain ⟨rest,hsamples,hscores⟩ := mem_groupSamples h
  rw [meanScore, hsamples, ← hscores, groupCandidate, hscores, List.length_map]

omit [DecidableEq F] [StudyChecks F] [StudyHashes] in
theorem candidates_eq {samples : List (SampleObservation F)}
    {candidates : List (PromotionCandidate F)}
    (h : (groupSamples samples).pairs.mapM promotionOf = .ok candidates) :
    candidates = (groupSamples samples).pairs.map groupCandidate :=
  mapM_ok_eq h groupCandidate fun _ _ hgroup => (promotionOf_eq_ok hgroup).1

omit [DecidableEq F] [StudyChecks F] [StudyHashes] in
theorem candidates_finite {samples : List (SampleObservation F)}
    {candidates : List (PromotionCandidate F)}
    (h : (groupSamples samples).pairs.mapM promotionOf = .ok candidates) :
    ∀ c ∈ candidates, FloatOps.isFinite c.minibatchMean = true := by
  rw [candidates_eq h]
  intro c hc
  obtain ⟨group,hgroup,rfl⟩ := List.mem_map.mp hc
  obtain ⟨c,hc⟩ := mapM_mem_ok h group hgroup
  exact (promotionOf_eq_ok hc).2

omit [DecidableEq F] [StudyChecks F] [StudyHashes] in
theorem candidates_hashes (samples : List (SampleObservation F)) :
    ((groupSamples samples).pairs.map groupCandidate).map
      PromotionCandidate.candidateCombinationIdentityHash = observedCombinations samples := by
  rw [← groupSamples_keys, List.map_map]
  rfl

omit [DecidableEq F] [StudyChecks F] [StudyHashes] in
theorem candidates_nodup (samples : List (SampleObservation F)) :
    ((groupSamples samples).pairs.map groupCandidate).Nodup := by
  refine List.Nodup.of_map PromotionCandidate.candidateCombinationIdentityHash ?_
  rw [List.map_map]
  exact (groupSamples samples).nodup

omit [DecidableEq F] [StudyChecks F] [StudyHashes] in
/- The order in which the candidates are ranked. -/
theorem means_ranked [FiniteOrder F] {candidates : List (PromotionCandidate F)}
    (h : ∀ c ∈ candidates, FloatOps.isFinite c.minibatchMean = true) :
    RankedOn (fun a b => !FloatOps.lt a.minibatchMean b.minibatchMean) candidates where
  trans := by
    intro a ha b hb c hc hab hbc
    rw [Bool.not_eq_true'] at hab hbc ⊢
    exact FiniteOrder.not_lt_trans _ _ _ (h a ha) (h b hb) (h c hc) hab hbc
  total := by
    intro a ha b hb
    simp only [Bool.not_eq_true']
    cases hlt : FloatOps.lt a.minibatchMean b.minibatchMean with
    | false => exact .inl rfl
    | true => exact .inr (FiniteOrder.lt_asymm _ _ (h a ha) (h b hb) hlt)

omit [DecidableEq F] [StudyChecks F] [StudyHashes] in
theorem unpromoted_filter (samples : List (SampleObservation F)) :
    (((groupSamples samples).pairs.map groupCandidate).filter fun c =>
        decide (c.candidateCombinationIdentityHash ∉ promotedCombinations samples)).map
      PromotionCandidate.candidateCombinationIdentityHash = unpromotedCombinations samples := by
  rw [unpromotedCombinations, ← candidates_hashes]
  generalize (groupSamples samples).pairs.map groupCandidate = candidates
  rw [List.filter_map]
  rfl

omit [DecidableEq F] [StudyChecks F] [StudyHashes] in
theorem selectPromotion_selected [FiniteOrder F] {samples : List (SampleObservation F)}
    {c : PromotionCandidate F} (h : selectPromotion samples = .ok c) : Selected samples c := by
  unfold selectPromotion at h
  obtain ⟨candidates,hcandidates,h⟩ := (bind_eq_ok _ _ _).mp h
  have hranked := means_ranked (candidates_finite hcandidates)
  have hall := candidates_eq hcandidates
  have hmember : ∀ c' ∈ candidates, ∃ group ∈ (groupSamples samples).pairs,
      groupCandidate group = c' := by
    intro c' hc'
    rw [hall] at hc'
    exact List.mem_map.mp hc'
  have hstands : ∀ c' ∈ candidates,
      c'.minibatchMean = meanScore samples c'.candidateCombinationIdentityHash ∧
      ∃ first rest, samplesOf samples c'.candidateCombinationIdentityHash = first :: rest ∧
        c'.params = first.params ∧
        c'.evaluatedCandidateIdentityHash = first.evaluatedCandidateIdentityHash ∧
        c'.candidateAssembly = first.candidateAssembly ∧
        c'.sourceSampleTrialNumber = first.trialNumber := by
    intro c' hc'
    obtain ⟨group,hgroup,rfl⟩ := hmember c' hc'
    obtain ⟨rest,hsamples,_⟩ := mem_groupSamples hgroup
    exact ⟨groupCandidate_mean hgroup, group.2.1, rest, hsamples, rfl, rfl, rfl, rfl⟩
  have hunpromoted := unpromoted_filter samples
  rw [← hall] at hunpromoted
  cases hfind : (candidates.mergeSort fun a b =>
      !FloatOps.lt a.minibatchMean b.minibatchMean).find? fun c =>
        decide (c.candidateCombinationIdentityHash ∉ promotedCombinations samples) with
  | some found =>
    rw [promotedCombinations] at hfind
    simp only [hfind] at h
    cases h
    have hc : c ∈ candidates := List.mem_mergeSort.mp (List.mem_of_find?_eq_some hfind)
    obtain ⟨before,after,hfilter,hbefore,hafter⟩ :=
      find_mergeSort hranked (hall ▸ candidates_nodup samples) hfind
    have hmeans : ∀ c' ∈ before ++ c :: after,
        c'.minibatchMean = meanScore samples c'.candidateCombinationIdentityHash := by
      intro c' hc'
      rw [← hfilter] at hc'
      exact (hstands c' (List.mem_filter.mp hc').1).1
    obtain ⟨hmean,hobserved⟩ := hstands c hc
    refine ⟨hobserved, hmean, fun _ =>
      ⟨before.map PromotionCandidate.candidateCombinationIdentityHash,
        after.map PromotionCandidate.candidateCombinationIdentityHash, ?_, ?_, ?_⟩⟩
    · rw [promotedCombinations, hfilter] at hunpromoted
      rw [← hunpromoted, List.map_append, List.map_cons]
    · intro key hkey
      obtain ⟨c',hc',rfl⟩ := List.mem_map.mp hkey
      rw [← hmeans c' (List.mem_append_left _ hc')]
      simpa using hbefore c' hc'
    · intro key hkey
      rw [← List.map_append] at hkey
      obtain ⟨c',hc',rfl⟩ := List.mem_map.mp hkey
      rw [← hmeans c' (by
        rcases List.mem_append.mp hc' with hc' | hc'
        · exact List.mem_append_left _ hc'
        · exact List.mem_append_right _ (List.mem_cons_of_mem _ hc'))]
      simpa using hafter c' hc'
  | none =>
    have hnone : unpromotedCombinations samples = [] := by
      rw [← hunpromoted, List.map_eq_nil_iff, List.filter_eq_nil_iff]
      intro c' hc'
      exact List.find?_eq_none.mp hfind c' (List.mem_mergeSort.mpr hc')
    rw [promotedCombinations] at hfind
    simp only [hfind] at h
    cases hlast : (candidates.mergeSort fun a b =>
        !FloatOps.lt a.minibatchMean b.minibatchMean).getLast? with
    | none =>
      simp only [hlast] at h
      cases h
    | some last =>
      simp only [hlast] at h
      cases h
      obtain ⟨hmean,hobserved⟩ :=
        hstands c (List.mem_mergeSort.mp (List.mem_of_getLast? hlast))
      exact ⟨hobserved, hmean, fun hsome => absurd hnone hsome⟩

omit [DecidableEq F] in
/- A selection is there unless there are no samples or a mean is not finite. -/
theorem selectPromotion_returns {samples : List (SampleObservation F)} (hsamples : samples ≠ [])
    (hvalid : ∀ sample ∈ samples, sample.validate = .ok ()) :
    (∃ c, selectPromotion samples = .ok c) ↔
      ∀ key ∈ observedCombinations samples,
        FloatOps.isFinite (meanScore samples key) = true := by
  constructor
  · rintro ⟨c,h⟩ key hkey
    unfold selectPromotion at h
    obtain ⟨candidates,hcandidates,_⟩ := (bind_eq_ok _ _ _).mp h
    rw [← groupSamples_keys] at hkey
    obtain ⟨group,hgroup,rfl⟩ := List.mem_map.mp hkey
    obtain ⟨c,hc⟩ := mapM_mem_ok hcandidates group hgroup
    rw [← groupCandidate_mean hgroup]
    exact (promotionOf_eq_ok hc).2
  · intro hfinite
    have hcandidates : (groupSamples samples).pairs.mapM promotionOf =
        .ok ((groupSamples samples).pairs.map groupCandidate) := by
      refine mapM_ok _ _ _ fun group hgroup => ?_
      obtain ⟨rest,hof,_⟩ := mem_groupSamples hgroup
      have hfirst : group.2.1 ∈ samplesOf samples group.1 := by simp [hof]
      obtain ⟨hmem,hkey⟩ := List.mem_filter.mp hfirst
      refine promotionOf_returns (hvalid _ hmem) (of_decide_eq_true hkey) ?_
      rw [groupCandidate_mean hgroup]
      refine hfinite _ ?_
      rw [← groupSamples_keys]
      exact List.mem_map_of_mem hgroup
    unfold selectPromotion
    simp only [hcandidates, ok_bind]
    split
    · exact ⟨_, rfl⟩
    · split
      · exact ⟨_, rfl⟩
      · rename_i hnone
        -- a sample has a combination, and its group a candidate
        obtain ⟨sample,rest,rfl⟩ := List.exists_cons_of_ne_nil hsamples
        have hmem : sample.candidateCombinationIdentityHash ∈
            observedCombinations (sample :: rest) :=
          (mem_firstSeen _ _).mpr (by simp)
        rw [List.getLast?_eq_none_iff] at hnone
        have hempty := congrArg List.length hnone
        rw [List.length_mergeSort, ← List.length_map
          PromotionCandidate.candidateCombinationIdentityHash, candidates_hashes] at hempty
        rw [List.length_eq_zero_iff.mp hempty] at hmem
        cases hmem

/-! ### Transcripts -/

/- One sample of a transcript that a study accepts, at its place in the schedule. -/
structure Scheduled (study : Miprov2Study F) (replayed : List (SampleObservation F))
    (sample : SampleObservation F) : Prop where
  number : sample.trialNumber = study.schedule.sampleNumber replayed.length
  due : sample.promotion.isSome = study.schedule.promotionDue sample.trialNumber
  promoted : ∀ promotion, sample.promotion = some promotion →
    promotion.trialNumber = sample.trialNumber + 1 ∧
    ∃ selected, selectPromotion (replayed ++ [{ sample with promotion := none }]) = .ok selected ∧
      ¬ Miprov2Study.promotionDiffers promotion selected

variable {study : Miprov2Study F}

omit [StudyChecks F] [StudyHashes] in
theorem boundSample_scheduled {replayed after : List (SampleObservation F)}
    {sample : SampleObservation F} {next : Int}
    (h : study.boundSample (study.schedule.sampleNumber replayed.length, replayed) sample =
      .ok (next, after)) :
    Scheduled study replayed sample ∧ after = replayed ++ [sample] ∧
      next = study.schedule.sampleNumber after.length := by
  unfold Miprov2Study.boundSample at h
  simp only [raiseIf_bind_eq_ok, not_not] at h
  obtain ⟨hnumber,hdue,h⟩ := h
  rw [hnumber] at hdue
  cases hpromotion : sample.promotion with
  | none =>
    simp only [hpromotion] at h
    cases h
    rw [hpromotion] at hdue
    refine ⟨⟨hnumber, by rw [hpromotion, hnumber, hdue], fun _ hsome => ?_⟩, rfl, ?_⟩
    · rw [hpromotion] at hsome
      cases hsome
    · rw [List.length_append, List.length_singleton, Miprov2StudySchedule.sampleNumber, hdue]
      rfl
  | some promotion =>
    simp only [hpromotion] at h
    obtain ⟨selected,hselected,h⟩ := (bind_eq_ok _ _ _).mp h
    simp only [raiseIf_bind_eq_ok, not_not] at h
    obtain ⟨htrial,hsame,h⟩ := h
    cases h
    rw [hpromotion] at hdue
    refine ⟨⟨hnumber, by rw [hpromotion, hnumber, hdue], fun _ hsome => ?_⟩, rfl, ?_⟩
    · rw [hpromotion] at hsome
      cases hsome
      exact ⟨htrial, selected, hselected, hsame⟩
    · rw [List.length_append, List.length_singleton, Miprov2StudySchedule.sampleNumber, hdue]
      rfl

omit [StudyChecks F] [StudyHashes] in
/-- Every sample of an accepted transcript stands at its place in the schedule. -/
theorem bound_scheduled {samples replayed last : List (SampleObservation F)} {next : Int}
    (h : samples.foldlM study.boundSample
      (study.schedule.sampleNumber replayed.length, replayed) = .ok (next, last)) :
    ∀ before sample after, samples = before ++ sample :: after →
      Scheduled study (replayed ++ before) sample := by
  induction samples generalizing replayed with
  | nil => intro before sample after hsplit; simp at hsplit
  | cons head rest ih =>
    rw [List.foldlM_cons] at h
    obtain ⟨⟨number,replayed'⟩,hhead,h⟩ := (bind_eq_ok _ _ _).mp h
    obtain ⟨hscheduled,rfl,rfl⟩ := boundSample_scheduled hhead
    intro before sample after hsplit
    cases before with
    | nil =>
      cases hsplit
      rwa [List.append_nil]
    | cons first before =>
      rw [List.cons_append, List.cons.injEq] at hsplit
      obtain ⟨rfl,hrest⟩ := hsplit
      have hlater := ih h before sample after hrest
      rwa [List.append_assoc] at hlater

theorem requireBound_scheduled {t : StudyTranscript F} (h : study.requireBoundTranscript t = .ok ())
    {before after : List (SampleObservation F)} {sample : SampleObservation F}
    (hsplit : t.samples = before ++ sample :: after) : Scheduled study before sample := by
  unfold Miprov2Study.requireBoundTranscript at h
  cases hvalid : t.validate with
  | error message =>
    rw [hvalid] at h
    cases h
  | ok _ =>
    simp only [hvalid] at h
    obtain ⟨_,_,h⟩ := (bind_eq_ok _ _ _).mp h
    rw [raiseIf_bind_eq_ok] at h
    obtain ⟨⟨next,last⟩,hfold,_⟩ := (bind_eq_ok _ _ _).mp h.2
    have hfold : t.samples.foldlM study.boundSample
        (study.schedule.sampleNumber ([] : List (SampleObservation F)).length, []) =
          .ok (next, last) := hfold
    exact bound_scheduled hfold before sample after hsplit

/-- The promotions of a study. With minibatches a promotion falls due at every `k`-th sample and
at the last one, and the trials of the baseline, the samples and their promotions are all the
trials of the schedule; without, none is ever due. A transcript that a study accepts follows
the schedule sample by sample. What is selected at a promotion is the first unpromoted
combination of maximal mean as long as one is unpromoted, and valid samples always have a
selection unless a mean is not finite. -/
theorem promotion_schedule_closes [FiniteOrder F] (schedule : Miprov2StudySchedule)
    (hvalid : schedule.validate = .ok ()) :
    (schedule.minibatch = true →
      (∀ i : Nat, (i : Int) + 1 ≤ schedule.numTrials →
        (schedule.promotionDue (schedule.sampleNumber i) = true ↔
          schedule.minibatchFullEvalSteps ∣ (i : Int) + 1 ∨
            (i : Int) + 1 = schedule.numTrials)) ∧
      ∀ n : Nat, (n : Int) = schedule.numTrials →
        (schedule.promotionCount n : Int) =
            (schedule.numTrials + schedule.minibatchFullEvalSteps - 1) /
              schedule.minibatchFullEvalSteps ∧
          schedule.promotionDue (schedule.sampleNumber (n - 1)) = true ∧
          1 + schedule.numTrials + schedule.promotionCount n = schedule.adjustedNumTrials) ∧
    (schedule.minibatch = false → ∀ number, schedule.promotionDue number = false) ∧
    (∀ (study : Miprov2Study F) (t : StudyTranscript F), study.schedule = schedule →
      study.requireBoundTranscript t = .ok () → ∀ before sample after,
      t.samples = before ++ sample :: after →
        sample.trialNumber = schedule.sampleNumber before.length ∧
        sample.promotion.isSome = schedule.promotionDue (schedule.sampleNumber before.length) ∧
        ∀ promotion, sample.promotion = some promotion →
          promotion.trialNumber = sample.trialNumber + 1 ∧
          ∃ selected,
            selectPromotion (before ++ [{ sample with promotion := none }]) = .ok selected ∧
            promotion.candidateCombinationIdentityHash =
              selected.candidateCombinationIdentityHash) ∧
    (∀ (samples : List (SampleObservation F)) (c : PromotionCandidate F),
      selectPromotion samples = .ok c → Selected samples c ∧
        (unpromotedCombinations samples ≠ [] →
          c.candidateCombinationIdentityHash ∉ promotedCombinations samples)) ∧
    ∀ samples : List (SampleObservation F), samples ≠ [] →
      (∀ sample ∈ samples, sample.validate = .ok ()) →
        ((∃ c, selectPromotion samples = .ok c) ↔
          ∀ key ∈ observedCombinations samples,
            FloatOps.isFinite (meanScore samples key) = true) := by
  refine ⟨fun hminibatch => ⟨fun i hi => ?_, fun n hn => ?_⟩, fun hoff number => ?_, ?_, ?_,
    fun _ => selectPromotion_returns⟩
  · exact (Miprov2StudySchedule.promotionCount_before hvalid hminibatch i hi).2
  · obtain ⟨hcount,hclosed⟩ := Miprov2StudySchedule.promotionCount_all hvalid hminibatch n hn
    obtain ⟨hpos,_⟩ := Miprov2StudySchedule.validate_pos hvalid
    obtain ⟨i,rfl⟩ : ∃ i, n = i + 1 := ⟨n - 1, by omega⟩
    push_cast at hn
    exact ⟨hcount, (Miprov2StudySchedule.promotionCount_before hvalid hminibatch i
      (Int.le_of_eq hn)).2.mpr (.inr hn), hclosed⟩
  · rw [Miprov2StudySchedule.promotionDue, hoff, Bool.false_and]
  · intro study t hschedule hbound before sample after hsplit
    have hscheduled := requireBound_scheduled hbound hsplit
    have hnumber := hscheduled.number
    have hdue := hscheduled.due
    rw [hschedule] at hnumber hdue
    refine ⟨hnumber, by rw [hdue, hnumber], fun promotion hpromotion => ?_⟩
    obtain ⟨htrial,selected,hselected,hsame⟩ := hscheduled.promoted promotion hpromotion
    refine ⟨htrial, selected, hselected, ?_⟩
    simp only [Miprov2Study.promotionDiffers, not_or, not_not] at hsame
    exact hsame.2.1
  · intro samples c h
    have hselected := selectPromotion_selected h
    refine ⟨hselected, fun hsome => ?_⟩
    obtain ⟨before,after,hsplit,_⟩ := hselected.best hsome
    have hmem : c.candidateCombinationIdentityHash ∈ unpromotedCombinations samples := by
      simp [hsplit]
    exact of_decide_eq_true (List.mem_filter.mp hmem).2

end Selection

/-! ### Seven trials with a promotion after every third -/

section Example

attribute [local instance] roundedFloats plainRecords plainChecks plainHashes

theorem rational_order : FiniteOrder Rat where
  lt_asymm := by
    intro a b _ _ hab
    have hlt : a < b := of_decide_eq_true hab
    exact decide_eq_false (not_lt.mpr (le_of_lt hlt))
  not_lt_trans := by
    intro a b c _ _ _ hab hbc
    have hab : ¬ a < b := of_decide_eq_false hab
    have hbc : ¬ b < c := of_decide_eq_false hbc
    exact decide_eq_false (not_lt.mpr (le_trans (not_lt.mp hbc) (not_lt.mp hab)))

def sevenTrials : Miprov2StudySchedule := ⟨7, true, 1, 1, 3⟩

/-- Of seven trials the third, the sixth and the last are followed by a promotion. -/
theorem seven_trials_promoted : sevenTrials.validate = .ok () ∧
    sevenTrials.promotionCount 7 = 3 ∧ sevenTrials.adjustedNumTrials = 11 := by
  have hvalid : sevenTrials.validate = .ok () := by decide +kernel
  have := rational_order
  obtain ⟨hcount,_,hclosed⟩ := ((promotion_schedule_closes (F := Rat) sevenTrials hvalid).1 rfl).2 7
    rfl
  have hthree : (sevenTrials.promotionCount 7 : Int) = 3 := hcount
  refine ⟨hvalid, by omega, ?_⟩
  rw [← hclosed, hthree]
  rfl

end Example
end Whetstone.Optim
