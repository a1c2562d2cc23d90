import Whetstone.Optim.Copro.Driver
import Whetstone.Lib.KeyRuns
import Mathlib.Order.Bounds.Basic

/-! What the driver of COPRO decides: its ranking is the only one of the history, its rounds are
the only way to cut it, and a state is exactly what its attempts are folded to. -/
namespace Whetstone.Optim.Copro
open Whetstone.Core Whetstone.Lib Whetstone.Experiment Whetstone.Eval Whetstone.Optim.Step

attribute [local instance] exactFiniteFloats

section Folding

variable [RewardIdentity Rat]

/-! ### The ranking -/

theorem rankAttemptHistory_eq (entries : List CoproAttempt) : rankAttemptHistory entries =
    rankByKey CoproAttempt.instruction (fun entry => entry.reward) entries := by
  rw [rankAttemptHistory, rankByKey, uniqueMeasuredAttempts]
  congr
  funext a b
  simp only [neg_le_neg_iff]

abbrev Ranked (entries ranked : List CoproAttempt) : Prop :=
  Ranks CoproAttempt.instruction (fun entry => entry.reward) entries ranked

theorem ranked_rankAttemptHistory (entries : List CoproAttempt) :
    Ranked entries (rankAttemptHistory entries) := by
  rw [rankAttemptHistory_eq]
  exact rankByKey_ranks entries

/-- The ranking holds each instruction once, by its best attempt, the earliest of equals; best
first, and of equals the instruction that was tried first. There is no other such list. -/
theorem rankAttemptHistory_iff (entries ranked : List CoproAttempt) :
    rankAttemptHistory entries = ranked ↔ Ranked entries ranked := by
  rw [rankAttemptHistory_eq]
  exact ⟨fun h => h ▸ rankByKey_ranks entries, fun h => (ranks_iff.mp h).symm⟩

theorem rankAttemptHistory_eq_nil (entries : List CoproAttempt) :
    rankAttemptHistory entries = [] ↔ entries = [] := by
  have hcomplete := (ranked_rankAttemptHistory entries).complete
  constructor
  · intro h
    rw [h] at hcomplete
    cases entries with
    | nil => rfl
    | cons entry rest =>
      exact absurd ((hcomplete entry.instruction).mpr (by simp)) (by simp)
  · rintro rfl
    refine List.eq_nil_iff_forall_not_mem.mpr fun a ha => ?_
    exact absurd ((hcomplete _).mp (List.mem_map_of_mem ha)) (by simp)

/-! ### The rounds -/

abbrev Rounds (attempts : List CoproAttempt) (rounds : List (List CoproAttempt)) : Prop :=
  Runs (fun attempt => attempt.roundIndex) attempts rounds

/- What a grouping says of the attempts it has taken. -/
structure Grouped (attempts : List CoproAttempt) (g : Grouping) : Prop where
  rounds : Rounds attempts g.closed
  seen : ∀ index, index ∈ g.seen ↔ ∃ attempt ∈ attempts, attempt.roundIndex = index
  current : attempts ≠ [] → g.current ≠ []

namespace Grouping

variable {attempts : List CoproAttempt} {g g' : Grouping} {attempt : CoproAttempt}

theorem openRound_iff : g.openRound attempt = .ok g' ↔
    (∀ index ∈ g.seen, index < attempt.roundIndex) ∧
      g' = ⟨g.closed, [attempt], attempt.roundIndex :: g.seen⟩ := by
  rw [openRound, raiseIf_bind_eq_ok, raiseIf_bind_eq_ok]
  simp only [not_exists, not_and, not_le, pure, Except.pure, Except.ok.injEq]
  constructor
  · rintro ⟨_,hlt,rfl⟩
    exact ⟨hlt, rfl⟩
  · rintro ⟨hlt,rfl⟩
    exact ⟨fun h => lt_irrefl _ (hlt _ h), hlt, rfl⟩

theorem openRound_grouped (h : Grouped attempts g) :
    g.openRound attempt = .ok g' ↔ (∀ other ∈ attempts, other.roundIndex < attempt.roundIndex) ∧
      g' = ⟨g.closed, [attempt], attempt.roundIndex :: g.seen⟩ := by
  rw [openRound_iff]
  refine and_congr_left fun _ => ⟨fun hlt other hmem => ?_, fun hlt index hmem => ?_⟩
  · exact hlt _ ((h.seen _).mpr ⟨other, hmem, rfl⟩)
  · obtain ⟨other,hother,rfl⟩ := (h.seen index).mp hmem
    exact hlt other hother

theorem grouped_opened (h : Grouped attempts g)
    (hlt : ∀ other ∈ attempts, other.roundIndex < attempt.roundIndex) :
    Grouped (attempts ++ [attempt])
      ⟨g.closed, [attempt], attempt.roundIndex :: g.seen⟩ where
  rounds := by
    rw [closed, if_neg (by simp)]
    refine h.rounds.append (by simp) (by simp) fun a ha b hb => ?_
    rw [List.mem_singleton.mp hb]
    exact hlt a ha
  seen index := by
    rw [List.mem_cons, h.seen]
    simp only [List.mem_append, List.mem_singleton]
    constructor
    · rintro (rfl | ⟨other,hmem,hindex⟩)
      · exact ⟨attempt, .inr rfl, rfl⟩
      · exact ⟨other, .inl hmem, hindex⟩
    · rintro ⟨other,hmem | rfl,hindex⟩
      · exact .inr ⟨other, hmem, hindex⟩
      · exact .inl hindex.symm
  current _ := by simp

theorem add_grouped (h : Grouped attempts g) (hadd : g.add attempt = .ok g') :
    Grouped (attempts ++ [attempt]) g' := by
  unfold add at hadd
  cases hlast : g.current.getLast? with
  | none =>
    rw [hlast] at hadd
    obtain ⟨hlt,rfl⟩ := (openRound_grouped h).mp hadd
    exact grouped_opened h hlt
  | some last =>
    simp only [hlast] at hadd
    split_ifs at hadd with hindex
    · obtain ⟨hlt,rfl⟩ := (openRound_grouped h).mp hadd
      exact grouped_opened h hlt
    · cases hadd
      have hne : g.current ≠ [] := by
        intro hnil
        rw [hnil] at hlast
        cases hlast
      have hmem : last ∈ g.current := List.mem_of_getLast? hlast
      have hrounds := h.rounds
      rw [closed, if_neg hne] at hrounds
      refine ⟨?_, fun index => ?_, fun _ => by simp⟩
      · rw [closed, if_neg (by simp)]
        refine hrounds.extend fun b hb => ?_
        exact (hrounds.constant _ (by simp) b hb last hmem).trans (not_not.mp hindex).symm
      · rw [h.seen]
        simp only [List.mem_append, List.mem_singleton]
        constructor
        · rintro ⟨other,hother,hsame⟩
          exact ⟨other, .inl hother, hsame⟩
        · rintro ⟨other,hother | rfl,hsame⟩
          · exact ⟨other, hother, hsame⟩
          · have hin : last ∈ attempts :=
              hrounds.joined ▸ List.mem_flatten_of_mem (by simp) hmem
            exact ⟨last, hin, (not_not.mp hindex).symm.trans hsame⟩

/- An attempt whose list can be cut is taken. -/
theorem add_ok (h : Grouped attempts g) {rounds : List (List CoproAttempt)}
    (hruns : Rounds (attempts ++ [attempt]) rounds) : ∃ g', g.add attempt = .ok g' := by
  have hopened (hlt : ∀ other ∈ attempts, other.roundIndex < attempt.roundIndex) :
      ∃ g', g.openRound attempt = .ok g' := ⟨_, (openRound_grouped h).mpr ⟨hlt, rfl⟩⟩
  unfold add
  rcases hruns.snoc with ⟨front,last,_,hne,hruns,hkey⟩ | ⟨front,_,_,hlt⟩
  · have hsame := hruns.unique h.rounds
    have hcurrent : g.current ≠ [] := by
      refine h.current fun hnil => ?_
      rw [hnil] at hruns
      exact absurd hruns.eq_nil (by simp)
    rw [closed, if_neg hcurrent] at hsame
    obtain ⟨_,hlast⟩ := List.append_inj' hsame rfl
    rw [List.cons.injEq] at hlast
    rw [List.getLast?_eq_some_getLast hcurrent]
    have hindex := hkey (g.current.getLast hcurrent)
      (hlast.1 ▸ List.getLast_mem hcurrent)
    simp only [hindex, ne_eq, not_true_eq_false, if_false]
    exact ⟨_, rfl⟩
  · cases g.current.getLast? with
    | none => exact hopened hlt
    | some last =>
      dsimp only
      split_ifs
      · exact hopened hlt
      · exact ⟨_, rfl⟩

theorem foldlM_grouped (attempts : List CoproAttempt) :
    (∀ g, attempts.foldlM add empty = .ok g → Grouped attempts g) ∧
      ∀ rounds, Rounds attempts rounds → ∃ g, attempts.foldlM add empty = .ok g := by
  induction attempts using List.reverseRecOn with
  | nil =>
    refine ⟨fun g hg => ?_, fun rounds _ => ⟨_, rfl⟩⟩
    cases hg
    exact ⟨Runs.nil, fun index => by simp [empty], fun h => absurd rfl h⟩
  | append_singleton attempts attempt ih =>
    rw [List.foldlM_append]
    constructor
    · intro g hg
      obtain ⟨middle,hmiddle,hadd⟩ := (bind_eq_ok _ _ _).mp hg
      obtain ⟨last,hlast,hdone⟩ := (bind_eq_ok _ _ _).mp hadd
      cases hdone
      exact add_grouped (ih.1 middle hmiddle) hlast
    · intro rounds hruns
      obtain ⟨front,hfront⟩ : ∃ front, Rounds attempts front := by
        rcases hruns.snoc with ⟨front,last,_,_,hruns,_⟩ | ⟨front,_,hruns,_⟩
        · exact ⟨_, hruns⟩
        · exact ⟨_, hruns⟩
      obtain ⟨middle,hmiddle⟩ := ih.2 front hfront
      obtain ⟨last,hlast⟩ := add_ok (ih.1 middle hmiddle) hruns
      exact ⟨last, (bind_eq_ok _ _ _).mpr ⟨middle, hmiddle, (bind_eq_ok _ _ _).mpr
        ⟨last, hlast, rfl⟩⟩⟩

end Grouping

/-- A history is grouped exactly when it can be cut at ascending round indices, and so. -/
theorem roundsByIndex_iff (attempts : List CoproAttempt) (rounds : List (List CoproAttempt)) :
    roundsByIndex attempts = .ok rounds ↔ Rounds attempts rounds := by
  obtain ⟨hsound,hcomplete⟩ := Grouping.foldlM_grouped attempts
  rw [roundsByIndex, bind_eq_ok]
  constructor
  · rintro ⟨g,hg,hclosed⟩
    cases hclosed
    exact (hsound g hg).rounds
  · intro h
    obtain ⟨g,hg⟩ := hcomplete rounds h
    exact ⟨g, hg, congrArg Except.ok ((hsound g hg).rounds.unique h)⟩

/-! ### Folding a round -/

/- What every attempt of a round has in common with the first of the history. -/
structure Alike (state : CoproState) (first attempt : CoproAttempt) : Prop where
  roundIndex : attempt.roundIndex = state.completedRounds
  runId : attempt.runId = first.runId
  evalConfigRef : attempt.evalConfigRef = first.evalConfigRef
  evalRole : attempt.evalRole = first.evalRole
  providerExecutionPolicyRef :
    attempt.providerExecutionPolicyRef = first.providerExecutionPolicyRef
  rewardPolicy : attempt.expectedRewardPolicyHash = first.expectedRewardPolicyHash
  payload : attempt.candidate.payload.filter (·.1 ≠ state.mutationField) =
    state.initialCandidate.payload.filter (·.1 ≠ state.mutationField)

def ordinals (attempts : List CoproAttempt) : List Nat :=
  attempts.map fun attempt => attempt.occurrenceOrdinal

def intentIds (attempts : List CoproAttempt) : List String :=
  attempts.map fun attempt => attempt.intentId

variable {state state' : CoproState}

theorem checkAttempt_iff (first : CoproAttempt) (prior : List String) (expected : Nat)
    (attempt : CoproAttempt) : checkAttempt state first prior expected attempt = .ok () ↔
      attempt.occurrenceOrdinal = expected ∧ Alike state first attempt ∧
        attempt.intentId ∉ prior := by
  simp only [checkAttempt, raiseIf_bind_eq_ok, raiseIf_eq_ok, not_not]
  constructor
  · rintro ⟨hordinal,hround,hrun,hconfig,hrole,hpolicy,hhash,hid,hpayload⟩
    exact ⟨hordinal, ⟨hround, hrun, hconfig, hrole, hpolicy, hhash, hpayload⟩, hid⟩
  · rintro ⟨hordinal,h,hid⟩
    exact ⟨hordinal, h.roundIndex, h.runId, h.evalConfigRef, h.evalRole,
      h.providerExecutionPolicyRef, h.rewardPolicy, hid, h.payload⟩

theorem checkAttempts_iff (first : CoproAttempt) (prior : List String) (expected : Nat)
    (attempts : List CoproAttempt) : checkAttempts state first prior expected attempts = .ok () ↔
      ordinals attempts = List.range' expected attempts.length ∧
        (∀ attempt ∈ attempts, Alike state first attempt) ∧ (intentIds attempts).Nodup ∧
          ∀ id ∈ intentIds attempts, id ∉ prior := by
  induction attempts generalizing prior expected with
  | nil => simp [checkAttempts, ordinals, intentIds]
  | cons attempt rest ih =>
    rw [checkAttempts, check_bind_eq_ok, checkAttempt_iff, ih]
    simp only [ordinals, intentIds, List.map_cons, List.length_cons, List.range'_succ,
      List.cons.injEq, List.forall_mem_cons, List.nodup_cons]
    simp only [List.mem_cons, not_or]
    constructor
    · rintro ⟨⟨hordinal,halike,hid⟩,hrest,hall,hnodup,hfresh⟩
      refine ⟨⟨hordinal, hrest⟩, ⟨halike, hall⟩, ⟨?_, hnodup⟩, hid, fun id hmem => ?_⟩
      · exact fun hmem => (hfresh _ hmem).1 rfl
      · exact (hfresh id hmem).2
    · rintro ⟨⟨hordinal,hrest⟩,⟨halike,hall⟩,⟨hnew,hnodup⟩,hid,hfresh⟩
      refine ⟨⟨hordinal, halike, hid⟩, hrest, hall, hnodup, fun id hmem => ⟨?_, hfresh id hmem⟩⟩
      rintro rfl
      exact hnew hmem

variable (config : CoproConfig)

/- A round that a state takes. -/
structure Foldable (state : CoproState) (attempts : List CoproAttempt) : Prop where
  remaining : state.completedRounds < config.depth
  short : attempts.length ≤ config.breadth
  measured : attempts ≠ []
  ordinals : ordinals attempts = List.range' state.attempts.length attempts.length
  alike : ∀ first, (state.attempts ++ attempts).head? = some first →
    ∀ attempt ∈ attempts, Alike state first attempt
  distinct : (intentIds attempts).Nodup
  fresh : ∀ id ∈ intentIds attempts, id ∉ intentIds state.attempts

variable {config} in
theorem Foldable.roundIndex {attempts : List CoproAttempt} (h : Foldable config state attempts)
    {attempt : CoproAttempt} (hmem : attempt ∈ attempts) :
    attempt.roundIndex = state.completedRounds := by
  have hne : state.attempts ++ attempts ≠ [] :=
    List.append_ne_nil_of_right_ne_nil _ h.measured
  exact (h.alike _ (List.head?_eq_some_head hne) attempt hmem).roundIndex

theorem head?_append_getD {attempts : List CoproAttempt} {first : CoproAttempt}
    (h : attempts.head? = some first) :
    (state.attempts ++ attempts).head? = some (state.attempts.head?.getD first) := by
  cases hstate : state.attempts with
  | nil => simpa using h
  | cons held rest => rfl

theorem foldRound_iff (attempts : List CoproAttempt) :
    foldRound config state attempts = .ok state' ↔
    Foldable config state attempts ∧ state' = state.extend attempts := by
  simp only [foldRound, raiseIf_bind_eq_ok, not_le, not_lt]
  cases hfirst : attempts.head? with
  | none =>
    have hnil := List.head?_eq_none_iff.mp hfirst
    constructor
    · rintro ⟨_,_,h⟩
      cases h
    · rintro ⟨h,_⟩
      exact absurd hnil h.measured
  | some first =>
    have hne : attempts ≠ [] := by
      rintro rfl
      cases hfirst
    have hhead : (state.attempts ++ attempts).head? = some (state.attempts.head?.getD first) :=
      head?_append_getD hfirst
    simp only [raised, ok_bind]
    rw [check_bind_eq_ok, checkAttempts_iff]
    constructor
    · rintro ⟨hremaining,hshort,⟨hordinals,halike,hdistinct,hfresh⟩,hextend⟩
      cases hextend
      refine ⟨⟨hremaining, hshort, hne, hordinals, fun other hother => ?_, hdistinct, hfresh⟩, rfl⟩
      rw [hhead] at hother
      cases hother
      exact halike
    · rintro ⟨h,rfl⟩
      exact ⟨h.remaining, h.short, ⟨h.ordinals, h.alike _ hhead, h.distinct, h.fresh⟩, rfl⟩

/-! ### Folded states -/

variable (initial : Candidate) (field : String)

def foldRounds (rounds : List (List CoproAttempt)) : Except String CoproState :=
  rounds.foldlM (foldRound config) (initialState initial field)

/- What a state says of the rounds that were folded to it. -/
structure Folded (rounds : List (List CoproAttempt)) (state : CoproState) : Prop where
  initialCandidate : state.initialCandidate = initial
  mutationField : state.mutationField = field
  completed : state.completedRounds = rounds.length
  within : rounds.length ≤ config.depth
  cut : Rounds state.attempts rounds
  short : ∀ round ∈ rounds, round.length ≤ config.breadth
  ordinals : ordinals state.attempts = List.range state.attempts.length
  distinct : (intentIds state.attempts).Nodup
  indices : ∀ attempt ∈ state.attempts, attempt.roundIndex < rounds.length

variable {config initial field} {rounds : List (List CoproAttempt)}

theorem Folded.nil : Folded config initial field [] (initialState initial field) where
  initialCandidate := rfl
  mutationField := rfl
  completed := rfl
  within := Nat.zero_le _
  cut := Runs.nil
  short _ h := absurd h List.not_mem_nil
  ordinals := rfl
  distinct := List.nodup_nil
  indices _ h := absurd h List.not_mem_nil

theorem Folded.extend {attempts : List CoproAttempt} (h : Folded config initial field rounds state)
    (hf : Foldable config state attempts) :
    Folded config initial field (rounds ++ [attempts]) (state.extend attempts) where
  initialCandidate := h.initialCandidate
  mutationField := h.mutationField
  completed := by
    rw [List.length_append, ← h.completed]
    rfl
  within := by
    have hremaining := hf.remaining
    rw [h.completed] at hremaining
    rw [List.length_append]
    exact hremaining
  cut := by
    have hindex (attempt : CoproAttempt) (hmem : attempt ∈ attempts) :
        attempt.roundIndex = rounds.length := by
      rw [hf.roundIndex hmem, h.completed]
    refine h.cut.append hf.measured (fun a ha b hb => ?_) fun a ha b hb => ?_
    · rw [hindex a ha, hindex b hb]
    · rw [hindex b hb]
      exact h.indices a ha
  short round hround := by
    rcases List.mem_append.mp hround with hround | hround
    · exact h.short round hround
    · rw [List.mem_singleton.mp hround]
      exact hf.short
  ordinals := by
    have hnew := hf.ordinals
    have hold := h.ordinals
    simp only [Copro.ordinals, CoproState.extend, List.map_append, List.length_append]
      at hnew hold ⊢
    have hjoin := @List.range'_append_1 0 state.attempts.length attempts.length
    rw [Nat.zero_add] at hjoin
    rw [hold, hnew, List.range_eq_range', List.range_eq_range', hjoin]
  distinct := by
    have hold := h.distinct
    simp only [intentIds, CoproState.extend, List.map_append] at hold ⊢
    exact List.nodup_append.mpr ⟨hold, hf.distinct,
      fun a ha b hb hab => hf.fresh b hb (hab ▸ ha)⟩
  indices attempt hmem := by
    rw [List.length_append, List.length_singleton]
    rcases List.mem_append.mp hmem with hmem | hmem
    · exact Nat.lt_succ_of_lt (h.indices attempt hmem)
    · rw [hf.roundIndex hmem, h.completed]
      exact Nat.lt_succ_self _

theorem foldRounds_append (attempts : List CoproAttempt) :
    foldRounds config initial field (rounds ++ [attempts]) =
      foldRounds config initial field rounds >>= fun state => foldRound config state attempts := by
  simp only [foldRounds, List.foldlM_append, List.foldlM_cons, List.foldlM_nil, bind_pure]

theorem foldRounds_folded (h : foldRounds config initial field rounds = .ok state) :
    Folded config initial field rounds state := by
  induction rounds using List.reverseRecOn generalizing state with
  | nil =>
    cases h
    exact Folded.nil
  | append_singleton rounds attempts ih =>
    rw [foldRounds_append, bind_eq_ok] at h
    obtain ⟨before,hbefore,hfold⟩ := h
    obtain ⟨hf,rfl⟩ := (foldRound_iff config attempts).mp hfold
    exact (ih hbefore).extend hf

/-- A history restores to the state that its rounds fold to, and only a history made of rounds
that fold does. -/
theorem restoreState_iff (attempts : List CoproAttempt) :
    restoreState config initial field attempts = .ok state ↔
      ∃ rounds, foldRounds config initial field rounds = .ok state ∧ state.attempts = attempts := by
  rw [restoreState, bind_eq_ok]
  constructor
  · rintro ⟨rounds,hrounds,hfold⟩
    refine ⟨rounds, hfold, ?_⟩
    rw [← ((roundsByIndex_iff _ _).mp hrounds).joined]
    exact (foldRounds_folded hfold).cut.joined.symm
  · rintro ⟨rounds,hfold,rfl⟩
    exact ⟨rounds, (roundsByIndex_iff _ _).mpr (foldRounds_folded hfold).cut, hfold⟩

theorem requireRestored_folded (h : foldRounds config initial field rounds = .ok state) :
    requireRestored config state = .ok () := by
  have hf := foldRounds_folded h
  rw [requireRestored, hf.initialCandidate, hf.mutationField,
    (restoreState_iff state.attempts).mpr ⟨rounds, h, rfl⟩, ok_bind]
  exact raiseIf_neg _ _ (not_not.mpr rfl)

/-! ### Advancing and finalizing -/

def seedPlan (config : CoproConfig) (iteration : Nat) : CoproRoundPlan :=
  ⟨iteration, .seedProposal, config.breadth - 1, true, []⟩

/- The best `breadth` attempts, the best of them last. -/
def historyPlan (config : CoproConfig) (state : CoproState) : CoproRoundPlan :=
  ⟨state.completedRounds, .historyProposal, config.breadth, false,
    (((rankAttemptHistory state.attempts).take config.breadth).reverse).map
      CoproAttempt.promptEntry⟩

theorem Folded.attempts_eq_nil (h : Folded config initial field rounds state) :
    state.attempts = [] ↔ state.completedRounds = 0 := by
  rw [h.completed, List.length_eq_zero_iff]
  constructor
  · intro hnil
    have hcut := h.cut
    rw [hnil] at hcut
    exact hcut.eq_nil
  · intro hnil
    rw [← h.cut.joined, hnil]
    rfl

theorem advance_folded (h : foldRounds config initial field rounds = .ok state)
    (hlt : state.completedRounds < config.depth) : advance config state =
      .ok (if state.completedRounds = 0 then seedPlan config 0 else historyPlan config state) := by
  have hempty := (foldRounds_folded h).attempts_eq_nil
  rw [← rankAttemptHistory_eq_nil] at hempty
  rw [advance, requireRestored_folded h, ok_bind, raiseIf_neg _ _ (not_le.mpr hlt), ok_bind,
    planRound, raiseIf_neg _ _ (by simp), ok_bind, raiseIf_neg _ _ (not_le.mpr hlt), ok_bind]
  split_ifs with hzero
  · rw [planSeedRound, raiseIf_neg _ _ (not_not.mpr (hempty.mpr hzero)), hzero]
    rfl
  · rw [planHistoryRound, raiseIf_neg _ _ fun hnil => hzero (hempty.mp hnil)]
    rfl

/-! ### Statistics -/

omit [RewardIdentity Rat] in
/- What a fold of choices leaves is one of the values, and the best of them. -/
theorem foldl_choice {α : Type} (op : α → α → α) (r : α → α → Prop)
    (hop : ∀ a b, (op a b = a ∨ op a b = b) ∧ r a (op a b) ∧ r b (op a b)) (hrefl : ∀ a, r a a)
    (htrans : ∀ a b c, r a b → r b c → r a c) (a : α) (l : List α) :
    l.foldl op a ∈ a :: l ∧ ∀ b ∈ a :: l, r b (l.foldl op a) := by
  induction l generalizing a with
  | nil => exact ⟨List.mem_cons_self, by simpa using hrefl a⟩
  | cons b rest ih =>
    obtain ⟨hmem,hbest⟩ := ih (op a b)
    obtain ⟨hchoice,ha,hb⟩ := hop a b
    have hfirst := hbest (op a b) List.mem_cons_self
    rw [List.foldl_cons]
    refine ⟨?_, fun c hc => ?_⟩
    · rcases List.mem_cons.mp hmem with hmem | hmem
      · rw [hmem]
        rcases hchoice with h | h
        · rw [h]
          exact List.mem_cons_self
        · rw [h]
          exact List.mem_cons_of_mem _ List.mem_cons_self
      · exact List.mem_cons_of_mem _ (List.mem_cons_of_mem _ hmem)
    · rcases List.mem_cons.mp hc with rfl | hc
      · exact htrans _ _ _ ha hfirst
      · rcases List.mem_cons.mp hc with rfl | hc
        · exact htrans _ _ _ hb hfirst
        · exact hbest c (List.mem_cons_of_mem _ hc)

def scoresOf (attempts : List CoproAttempt) : Set Rat := { score | score ∈ rewards attempts }

omit [RewardIdentity Rat] in
theorem scoreSummary_ok [ScoreStatistics] {scores : List Rat} (h : scores ≠ []) :
    ∃ summary, scoreSummary scores = .ok summary ∧
      IsGreatest { score | score ∈ scores } summary.max ∧
      IsLeast { score | score ∈ scores } summary.min := by
  cases scores with
  | nil => exact absurd rfl h
  | cons score rest =>
    refine ⟨_, rfl, ?_, ?_⟩
    · exact foldl_choice max (· ≤ ·) (fun a b => ⟨max_choice a b, le_max_left a b,
        le_max_right a b⟩) le_refl (fun _ _ _ => le_trans) score rest
    · exact foldl_choice min (· ≥ ·) (fun a b => ⟨min_choice a b, min_le_left a b,
        min_le_right a b⟩) le_refl (fun _ _ _ => ge_trans) score rest

/- The first of the ranking has a greatest reward of the history. -/
theorem greatest_ranked {attempts : List CoproAttempt} {best : Rat} {count : Nat}
    (h : IsGreatest (scoresOf ((rankAttemptHistory attempts).take (count + 1))) best) :
    IsGreatest (scoresOf attempts) best := by
  have hranked := ranked_rankAttemptHistory attempts
  obtain ⟨hmem,hbest⟩ := h
  obtain ⟨entry,hentry,rfl⟩ := List.mem_map.mp hmem
  have hmember := (hranked.best entry (List.mem_of_mem_take hentry)).mem
  refine ⟨List.mem_map.mpr ⟨entry, hmember, rfl⟩, ?_⟩
  rintro _ hscore
  obtain ⟨other,hother,rfl⟩ := List.mem_map.mp hscore
  obtain ⟨top,htop,hkey⟩ := List.mem_map.mp
    ((hranked.complete other.instruction).mpr (List.mem_map_of_mem hother))
  have hle := (hranked.best top htop).le other hother hkey.symm
  cases hfirst : rankAttemptHistory attempts with
  | nil =>
    rw [hfirst] at htop
    cases htop
  | cons first rest =>
    have hdescending := hranked.descending
    rw [hfirst] at hdescending htop hbest
    have htopmost := hbest (List.mem_map.mpr ⟨first, List.mem_cons_self, rfl⟩)
    refine hle.trans (le_trans ?_ htopmost)
    rcases List.mem_cons.mp htop with rfl | htop
    · exact le_refl _
    · exact (List.pairwise_cons.mp hdescending).1 top htop

/- The history up to each of the rounds. -/
def histories (rounds : List (List CoproAttempt)) : List (List CoproAttempt) :=
  (List.range rounds.length).map fun i => (rounds.take (i + 1)).flatten

theorem histories_append (rounds : List (List CoproAttempt)) (round : List CoproAttempt) :
    histories (rounds ++ [round]) = histories rounds ++ [(rounds ++ [round]).flatten] := by
  rw [histories, List.length_append, List.length_singleton, List.range_succ, List.map_append,
    List.map_singleton, List.take_of_length_le (by simp)]
  congr 1
  refine List.map_congr_left fun i hi => ?_
  rw [List.take_append_of_le_length (List.mem_range.mp hi)]

/- The series of a list of rounds: the extremes of each round, and the best so far. -/
structure Summarized (rounds : List (List CoproAttempt)) (statistics : CoproStatistics) :
    Prop where
  totalCalls : statistics.totalCalls = rounds.flatten.length
  latest : List.Forall₂ (fun round (summary : ScoreSummary) =>
    IsGreatest (scoresOf round) summary.max ∧ IsLeast (scoresOf round) summary.min)
    rounds statistics.resultsLatest
  best : List.Forall₂ (fun history (summary : ScoreSummary) =>
    IsGreatest (scoresOf history) summary.max) (histories rounds) statistics.resultsBest

theorem rewards_ne_nil {attempts : List CoproAttempt} (h : attempts ≠ []) :
    rewards attempts ≠ [] := fun hnil => h (List.map_eq_nil_iff.mp hnil)

variable [ScoreStatistics]

theorem Summarized.addRound {rounds : List (List CoproAttempt)} {summed : CoproStatistics}
    (h : Summarized rounds summed) {round : List CoproAttempt} (hne : round ≠ [])
    (hshort : round.length ≤ config.breadth) : ∃ after,
      Copro.addRound config (summed, rounds.flatten) round =
        .ok (after, (rounds ++ [round]).flatten) ∧ Summarized (rounds ++ [round]) after := by
  obtain ⟨latest,hlatest,hextremes⟩ := scoreSummary_ok (rewards_ne_nil hne)
  have htop : (rankAttemptHistory (rounds.flatten ++ round)).take (9 + 1) ≠ [] := by
    rw [ne_eq, List.take_eq_nil_iff, rankAttemptHistory_eq_nil]
    simp [hne]
  obtain ⟨best,hbest,hgreatest,_⟩ := scoreSummary_ok (rewards_ne_nil htop)
  have hjoin : (rounds ++ [round]).flatten = rounds.flatten ++ round := by simp
  refine ⟨⟨summed.totalCalls + round.length, summed.resultsLatest ++ [latest],
    summed.resultsBest ++ [best]⟩, ?_, ?_, ?_, ?_⟩
  · rw [Copro.addRound, raiseIf_neg _ _ (not_lt.mpr hshort), ok_bind, hlatest, ok_bind, hbest,
      ok_bind, hjoin]
    rfl
  · rw [hjoin, List.length_append, ← h.totalCalls]
  · exact List.rel_append h.latest (.cons hextremes .nil)
  · rw [histories_append, hjoin]
    exact List.rel_append h.best (.cons (greatest_ranked hgreatest) .nil)

theorem foldlM_addRound (rounds : List (List CoproAttempt)) (hne : ∀ round ∈ rounds, round ≠ [])
    (hshort : ∀ round ∈ rounds, round.length ≤ config.breadth) : ∃ after,
      rounds.foldlM (addRound config) (⟨0, [], []⟩, []) = .ok (after, rounds.flatten) ∧
        Summarized rounds after := by
  induction rounds using List.reverseRecOn with
  | nil => exact ⟨_, rfl, rfl, .nil, .nil⟩
  | append_singleton rounds round ih =>
    obtain ⟨summed,hsummed,hrounds⟩ := ih (fun r hr => hne r (List.mem_append_left _ hr))
      fun r hr => hshort r (List.mem_append_left _ hr)
    obtain ⟨after,hafter,hall⟩ := hrounds.addRound (hne round (by simp)) (hshort round (by simp))
    refine ⟨after, ?_, hall⟩
    rw [List.foldlM_append, hsummed, ok_bind, List.foldlM_cons, hafter]
    rfl

/- What a finalization says of the rounds of a run. -/
structure Finalized (config : CoproConfig) (rounds : List (List CoproAttempt))
    (finalization : CoproFinalization) : Prop where
  ranked : Ranked rounds.flatten finalization.rankedAttempts
  totalCalls : finalization.totalCalls = rounds.flatten.length
  statistics : if config.trackStats then
    ∃ series, finalization.statistics = some series ∧ Summarized rounds series
    else finalization.statistics = none

theorem finalize_folded (h : foldRounds config initial field rounds = .ok state)
    (hdepth : state.completedRounds = config.depth) : ∃ finalization,
      finalize config state = .ok finalization ∧
        finalization.rankedAttempts = rankAttemptHistory state.attempts ∧
        Finalized config rounds finalization := by
  have hf := foldRounds_folded h
  have hranked := ranked_rankAttemptHistory state.attempts
  have hcalls : state.totalCalls = rounds.flatten.length := by rw [state.valid, hf.cut.joined]
  rw [finalize, requireRestored_folded h, ok_bind, raiseIf_neg _ _ (not_not.mpr hdepth), ok_bind,
    (roundsByIndex_iff _ _).mpr hf.cut, ok_bind]
  rw [← hf.cut.joined] at hranked ⊢
  cases htrack : config.trackStats with
  | false => exact ⟨_, rfl, rfl, hranked, hcalls, by simp [htrack]⟩
  | true =>
    obtain ⟨series,hseries,hsummarized⟩ := foldlM_addRound rounds hf.cut.filled hf.short
    have hlength : ¬ rounds.length ≠ config.depth := not_not.mpr (hf.completed ▸ hdepth)
    rw [if_pos rfl, statistics, raiseIf_neg _ _ hlength, ok_bind, hseries]
    exact ⟨_, rfl, rfl, hranked, hcalls, by
      rw [htrack]
      exact ⟨series, rfl, hsummarized⟩⟩

end Folding
end Whetstone.Optim.Copro
