import Mathlib.Data.List.Basic

/-! A loop over items with a loop of rounds for each of them, both left early, and the machine that
unrolls it: a cursor names the turn to take next, so that a run can pause between two turns. -/
namespace Whetstone.Lib

variable {σ ε : Type}

/-- What a turn does: it is done with the item, it asks for another round, or it ends both loops. -/
inductive Turn (σ ε : Type) where
  | leave (state : σ)
  | again (state : σ)
  | stop (reason : ε)

structure NestedLoop (σ ε : Type) where
  items : Nat
  rounds : Nat
  rounds_pos : 0 < rounds
  enough : σ → Bool
  turn : Nat → Nat → σ → Turn σ ε
  again_enough : ∀ i r s s', turn i r s = .again s' → enough s' = enough s

/- The turns that were taken, and what they ended in. -/
abbrev Turns (σ ε : Type) : Type := List (Nat × Nat) × Except ε σ

namespace Turns

def after (turn : Nat × Nat) (rest : Turns σ ε) : Turns σ ε := (turn :: rest.1, rest.2)

def andThen (first : Turns σ ε) (rest : σ → Turns σ ε) : Turns σ ε :=
  match first.2 with
  | .error reason => (first.1, .error reason)
  | .ok state => (first.1 ++ (rest state).1, (rest state).2)

theorem after_andThen (turn : Nat × Nat) (first : Turns σ ε) (rest : σ → Turns σ ε) :
    (first.after turn).andThen rest = (first.andThen rest).after turn := by
  cases h : first.2 with
  | error reason => simp [andThen, after, h]
  | ok state => simp [andThen, after, h]

end Turns

namespace NestedLoop

variable (l : NestedLoop σ ε)

/- The rounds of one item. -/
def itemTurns (i : Nat) : (left r : Nat) → σ → Turns σ ε
  | 0, _, s => ([], .ok s)
  | left + 1, r, s => match l.turn i r s with
    | .leave s' => ([(i, r)], .ok s')
    | .again s' => (itemTurns i left (r + 1) s').after (i, r)
    | .stop reason => ([(i, r)], .error reason)

/- The items, while there is not enough. -/
def allTurns : (left i : Nat) → σ → Turns σ ε
  | 0, _, s => ([], .ok s)
  | left + 1, i, s =>
    if l.enough s then ([], .ok s)
    else (l.itemTurns i l.rounds 0 s).andThen (allTurns left (i + 1))

def turns (s : σ) : Turns σ ε := l.allTurns l.items 0 s

/-! ### The cursor -/

structure Cursor (σ : Type) where
  item : Nat
  round : Nat
  state : σ

def finished (c : Cursor σ) : Bool := l.enough c.state || l.items ≤ c.item

theorem finished_iff (c : Cursor σ) :
    l.finished c = true ↔ l.enough c.state = true ∨ l.items ≤ c.item := by
  rw [finished, Bool.or_eq_true, decide_eq_true_eq]

def advance (c : Cursor σ) (s : σ) (success : Bool) : Cursor σ :=
  if success = true ∨ l.rounds ≤ c.round + 1 then ⟨c.item + 1, 0, s⟩
  else ⟨c.item, c.round + 1, s⟩

/- `none` is a run that the fuel did not bring to its end. -/
def run : Nat → Cursor σ → List (Nat × Nat) × Option (Except ε σ)
  | 0, _ => ([], none)
  | fuel + 1, c =>
    if l.finished c then ([], some (.ok c.state))
    else match l.turn c.item c.round c.state with
      | .leave s =>
        ((c.item, c.round) :: (run fuel (l.advance c s true)).1,
          (run fuel (l.advance c s true)).2)
      | .again s =>
        ((c.item, c.round) :: (run fuel (l.advance c s false)).1,
          (run fuel (l.advance c s false)).2)
      | .stop reason => ([(c.item, c.round)], some (.error reason))

/- The turns that the loop still takes from a cursor on. -/
def remaining (c : Cursor σ) : Nat := (l.items - c.item) * l.rounds - c.round

/- What the loop does from a cursor on. -/
def resume (c : Cursor σ) : Turns σ ε :=
  if l.finished c then ([], .ok c.state)
  else (l.itemTurns c.item (l.rounds - c.round) c.round c.state).andThen
    (l.allTurns (l.items - (c.item + 1)) (c.item + 1))

theorem allTurns_eq_resume (i : Nat) (s : σ) :
    l.allTurns (l.items - i) i s = l.resume ⟨i, 0, s⟩ := by
  rw [resume, finished]
  cases hleft : l.items - i with
  | zero =>
    have hend : l.items ≤ i := by omega
    simp [allTurns, hend]
  | succ left =>
    have hend : ¬ l.items ≤ i := by omega
    have hrest : l.items - (i + 1) = left := by omega
    simp [allTurns, hend, hrest]

theorem remaining_next_item {c : Cursor σ} (hround : c.round < l.rounds)
    (hitem : c.item < l.items) (s : σ) : l.remaining ⟨c.item + 1, 0, s⟩ < l.remaining c := by
  obtain ⟨left,hleft⟩ : ∃ left, l.items - c.item = left + 1 := ⟨l.items - c.item - 1, by omega⟩
  have hrest : l.items - (c.item + 1) = left := by omega
  simp only [remaining, hleft, hrest, Nat.add_mul, Nat.one_mul]
  omega

theorem remaining_next_round {c : Cursor σ} (hround : c.round + 1 < l.rounds)
    (hitem : c.item < l.items) (s : σ) :
    l.remaining ⟨c.item, c.round + 1, s⟩ < l.remaining c := by
  obtain ⟨left,hleft⟩ : ∃ left, l.items - c.item = left + 1 := ⟨l.items - c.item - 1, by omega⟩
  simp only [remaining, hleft, Nat.add_mul, Nat.one_mul]
  omega

/-- A cursor that steps through the turns does what the nested loop does from there on. -/
theorem run_eq_resume {fuel : Nat} {c : Cursor σ} (hround : c.round < l.rounds)
    (hfuel : l.remaining c < fuel) :
    l.run fuel c = ((l.resume c).1, some (l.resume c).2) := by
  induction fuel generalizing c with
  | zero => omega
  | succ fuel ih =>
    rw [run, resume]
    by_cases hdone : l.finished c = true
    · rw [if_pos hdone, if_pos hdone]
    · rw [if_neg hdone, if_neg hdone]
      have hitem : c.item < l.items := by
        rw [finished_iff, not_or] at hdone
        omega
      -- the first of the rounds that are left
      obtain ⟨left,hleft⟩ : ∃ left, l.rounds - c.round = left + 1 :=
        ⟨l.rounds - c.round - 1, by omega⟩
      have hnext : ∀ s, l.run fuel ⟨c.item + 1, 0, s⟩ =
          ((l.allTurns (l.items - (c.item + 1)) (c.item + 1) s).1,
            some (l.allTurns (l.items - (c.item + 1)) (c.item + 1) s).2) := by
        intro s
        have hless := l.remaining_next_item hround hitem s
        rw [allTurns_eq_resume]
        exact ih l.rounds_pos (by omega)
      rw [hleft, itemTurns]
      cases hturn : l.turn c.item c.round c.state with
      | leave s =>
        simp only [advance, true_or, if_true, hnext, Turns.andThen, List.singleton_append]
      | stop reason => rfl
      | again s =>
        rw [Turns.after_andThen]
        by_cases hlast : l.rounds ≤ c.round + 1
        · have hzero : left = 0 := by omega
          subst hzero
          simp only [advance, hlast, or_true, if_true, hnext, itemTurns, Turns.andThen,
            Turns.after, List.nil_append]
        · have hless := l.remaining_next_round (by omega) hitem s
          have hsame : l.finished ⟨c.item, c.round + 1, s⟩ = l.finished c := by
            rw [finished, finished, l.again_enough _ _ _ _ hturn]
          have hrest : l.rounds - (c.round + 1) = left := by omega
          have hstep := ih (c := ⟨c.item, c.round + 1, s⟩) (by simp; omega) (by omega)
          rw [resume, hsame, if_neg hdone, hrest] at hstep
          simp only [advance, hlast, Bool.false_eq_true, or_self, if_false, hstep, Turns.after]

/-- From the first turn on, the cursor does what the nested loop does. -/
theorem run_eq_turns {fuel : Nat} (s : σ) (hfuel : l.items * l.rounds < fuel) :
    l.run fuel ⟨0, 0, s⟩ = ((l.turns s).1, some (l.turns s).2) := by
  have hremaining : l.remaining (⟨0, 0, s⟩ : Cursor σ) = l.items * l.rounds := by
    simp [remaining]
  rw [run_eq_resume l l.rounds_pos (by omega), ← allTurns_eq_resume]
  rfl

/-! ### No turn is taken twice -/

theorem itemTurns_rounds (i left r : Nat) (s : σ) :
    ∀ turn ∈ (l.itemTurns i left r s).1, turn.1 = i ∧ r ≤ turn.2 := by
  induction left generalizing r s with
  | zero => simp [itemTurns]
  | succ left ih =>
    rw [itemTurns]
    cases l.turn i r s with
    | leave s' => simp
    | stop reason => simp
    | again s' =>
      refine List.forall_mem_cons.mpr ⟨⟨rfl, Nat.le_refl r⟩, fun turn hmem => ?_⟩
      have hlater := ih (r + 1) s' turn hmem
      exact ⟨hlater.1, by omega⟩

theorem itemTurns_nodup (i left r : Nat) (s : σ) : (l.itemTurns i left r s).1.Nodup := by
  induction left generalizing r s with
  | zero => simp [itemTurns]
  | succ left ih =>
    rw [itemTurns]
    cases l.turn i r s with
    | leave s' => simp
    | stop reason => simp
    | again s' =>
      refine List.nodup_cons.mpr ⟨fun hmem => ?_, ih (r + 1) s'⟩
      have hlater := (l.itemTurns_rounds i left (r + 1) s' _ hmem).2
      exact Nat.not_succ_le_self r hlater

theorem allTurns_items (left i : Nat) (s : σ) : ∀ turn ∈ (l.allTurns left i s).1, i ≤ turn.1 := by
  induction left generalizing i s with
  | zero => simp [allTurns]
  | succ left ih =>
    rw [allTurns]
    split
    · simp
    · intro turn hmem
      rw [Turns.andThen] at hmem
      have hitem := l.itemTurns_rounds i l.rounds 0 s
      cases hend : (l.itemTurns i l.rounds 0 s).2 with
      | error reason =>
        rw [hend] at hmem
        exact Nat.le_of_eq (hitem turn hmem).1.symm
      | ok s' =>
        rw [hend] at hmem
        rcases List.mem_append.mp hmem with hfirst | hrest
        · exact Nat.le_of_eq (hitem turn hfirst).1.symm
        · exact Nat.le_of_succ_le (ih (i + 1) s' turn hrest)

theorem allTurns_nodup (left i : Nat) (s : σ) : (l.allTurns left i s).1.Nodup := by
  induction left generalizing i s with
  | zero => simp [allTurns]
  | succ left ih =>
    rw [allTurns]
    split
    · simp
    · rw [Turns.andThen]
      have hfirst := l.itemTurns_nodup i l.rounds 0 s
      cases hend : (l.itemTurns i l.rounds 0 s).2 with
      | error reason => exact hfirst
      | ok s' =>
        refine List.nodup_append.mpr ⟨hfirst, ih (i + 1) s', fun turn hmem other hother => ?_⟩
        have hitem := (l.itemTurns_rounds i l.rounds 0 s turn hmem).1
        have hlater := l.allTurns_items left (i + 1) s' other hother
        intro heq
        subst heq
        omega

end NestedLoop

end Whetstone.Lib
