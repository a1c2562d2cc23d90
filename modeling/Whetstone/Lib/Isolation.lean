import Whetstone.Lib.Prog

/-! Isolation of programs that share a state. A crowd is a state with programs that take their
operations in any order. Where one view of the state decides the replies to one party's
operations, and the other party's operations leave that view alone, the first party's programs
run as they do alone. -/
namespace Whetstone.Lib

namespace Prog

variable {Op : Type} {Res : Op → Type} {ε α β : Type} {K : Op → Prop}

/- Every operation the program can take, whatever it is answered, is in `K`. -/
def Only (K : Op → Prop) : Prog Op Res ε α → Prop
  | .done _ => True
  | .raise _ => True
  | .call o next => K o ∧ ∀ r, (next r).Only K

theorem only_bind {p : Prog Op Res ε α} {f : α → Prog Op Res ε β} (hp : p.Only K)
    (hf : ∀ a, (f a).Only K) : (p.bind f).Only K := by
  induction p with
  | done a => exact hf a
  | raise error => trivial
  | call o next ih => exact ⟨hp.1, fun r => ih r (hp.2 r)⟩

theorem only_ofExcept (x : Except ε α) : (ofExcept x : Prog Op Res ε α).Only K := by
  cases x <;> trivial

theorem only_perform {o : Op} (ho : K o) : (perform o : Prog Op Res ε (Res o)).Only K :=
  ⟨ho, fun _ => trivial⟩

/- The program with its operations taken as those of a larger set, and its errors renamed. -/
def embed {Op' : Type} {Res' : Op' → Type} {ε' : Type} (o' : Op → Op')
    (reply : ∀ o, Res' (o' o) → Res o) (error' : ε → ε') :
    Prog Op Res ε α → Prog Op' Res' ε' α
  | .done a => .done a
  | .raise error => .raise (error' error)
  | .call o next => .call (o' o) fun r => (next (reply o r)).embed o' reply error'

theorem only_embed {Op' : Type} {Res' : Op' → Type} {ε' : Type} {o' : Op → Op'}
    {reply : ∀ o, Res' (o' o) → Res o} {error' : ε → ε'} {K' : Op' → Prop}
    {p : Prog Op Res ε α} (hp : p.Only fun o => K' (o' o)) :
    (p.embed o' reply error').Only K' := by
  induction p with
  | done a => trivial
  | raise error => trivial
  | call o next ih => exact ⟨hp.1, fun r => ih _ (hp.2 _)⟩

end Prog

structure Crowd (S Op : Type) (Res : Op → Type) (ε α : Type) where
  state : S
  progs : List (Prog Op Res ε α)

namespace Crowd

variable {S V Ans Op : Type} {Res : Op → Type} {ε α : Type}
variable (exec : (o : Op) → Ans → S → Res o × S)

/- A program that has ended, or is not there, takes no operation. -/
def step (c : Crowd S Op Res ε α) (i : Nat) (a : Ans) : Crowd S Op Res ε α :=
  match c.progs[i]? with
  | some (.call o next) =>
    ⟨(exec o a c.state).2, c.progs.set i (next (exec o a c.state).1)⟩
  | _ => c

def run (c : Crowd S Op Res ε α) : List (Nat × Ans) → Crowd S Op Res ε α
  | [] => c
  | x :: rest => run (step exec c x.1 x.2) rest

/- `view` decides what `Mine` sees and does to it, and `Theirs` leave it alone. -/
structure Separates (Mine Theirs : Op → Prop) (view : S → V) : Prop where
  mine : ∀ o a s t, Mine o → view s = view t →
    (exec o a s).1 = (exec o a t).1 ∧ view (exec o a s).2 = view (exec o a t).2
  theirs : ∀ o a s, Theirs o → view (exec o a s).2 = view s

/- Each program stays within the operations of its party. -/
def Parties (own : Nat → Bool) (Mine Theirs : Op → Prop) (c : Crowd S Op Res ε α) : Prop :=
  ∀ i p, c.progs[i]? = some p → if own i = true then p.Only Mine else p.Only Theirs

variable {exec} {own : Nat → Bool} {Mine Theirs : Op → Prop} {view : S → V}
  {c d : Crowd S Op Res ε α}

theorem step_progs (c : Crowd S Op Res ε α) (i j : Nat) (a : Ans) (hij : i ≠ j) :
    (step exec c i a).progs[j]? = c.progs[j]? := by
  unfold step
  split
  · exact List.getElem?_set_ne hij
  · rfl

theorem Parties.step (h : Parties own Mine Theirs c) (i : Nat) (a : Ans) :
    Parties own Mine Theirs (step exec c i a) := by
  intro j p hp
  unfold Crowd.step at hp
  split at hp
  · rename_i o next hi
    by_cases hij : i = j
    · subst hij
      obtain ⟨hlt,_⟩ := List.getElem?_eq_some_iff.mp hi
      rw [List.getElem?_set_self hlt] at hp
      cases hp
      have hcall := h i _ hi
      by_cases hown : own i = true
      · rw [if_pos hown] at hcall ⊢
        exact hcall.2 _
      · rw [if_neg hown] at hcall ⊢
        exact hcall.2 _
    · rw [List.getElem?_set_ne hij] at hp
      exact h j p hp
  · exact h j p hp

/- Two crowds that look the same to the party whose programs are `own`. -/
structure Alike (own : Nat → Bool) (view : S → V) (c d : Crowd S Op Res ε α) : Prop where
  view : view c.state = view d.state
  progs : ∀ i, own i = true → c.progs[i]? = d.progs[i]?

/-- A step of the other party is not seen. -/
theorem Alike.step_theirs (hsep : Separates exec Mine Theirs view)
    (hc : Parties own Mine Theirs c) (h : Alike own view c d) {i : Nat} (hi : own i = false)
    (a : Ans) : Alike own view (Crowd.step exec c i a) d := by
  refine ⟨?_, ?_⟩
  · unfold Crowd.step
    split
    · rename_i o next hget
      have hcall := hc i _ hget
      rw [hi, if_neg Bool.false_ne_true] at hcall
      exact (hsep.theirs o a c.state hcall.1).trans h.view
    · exact h.view
  · intro j hj
    have hij : i ≠ j := by
      rintro rfl
      rw [hi] at hj
      cases hj
    rw [step_progs c i j a hij]
    exact h.progs j hj

/-- A step of the party itself is answered alike. -/
theorem Alike.step_mine (hsep : Separates exec Mine Theirs view)
    (hc : Parties own Mine Theirs c) (h : Alike own view c d) {i : Nat} (hi : own i = true)
    (a : Ans) : Alike own view (Crowd.step exec c i a) (Crowd.step exec d i a) := by
  have hsame := h.progs i hi
  unfold Crowd.step
  rw [← hsame]
  cases hget : c.progs[i]? with
  | none => exact h
  | some p =>
    cases p with
    | done result => exact h
    | raise error => exact h
    | call o next =>
      have hcall := hc i _ hget
      rw [if_pos hi] at hcall
      obtain ⟨hreply,hview⟩ := hsep.mine o a c.state d.state hcall.1 h.view
      refine ⟨hview, ?_⟩
      intro j hj
      simp only [hreply, List.getElem?_set]
      have hlength : i < c.progs.length ↔ i < d.progs.length := by
        rw [← Nat.not_le, ← Nat.not_le, ← List.getElem?_eq_none_iff, ← List.getElem?_eq_none_iff, hsame]
      split
      · simp only [hlength]
      · exact h.progs j hj

/-- Each program of a party runs as it does when the other party takes no step. -/
theorem run_isolated (hsep : Separates exec Mine Theirs view) (hc : Parties own Mine Theirs c)
    (h : Alike own view c d) (schedule : List (Nat × Ans)) :
    Alike own view (run exec c schedule)
      (run exec d (schedule.filter fun x => own x.1)) := by
  induction schedule generalizing c d with
  | nil => exact h
  | cons x rest ih =>
    cases hx : own x.1 with
    | true =>
      rw [List.filter_cons_of_pos (by rw [hx])]
      exact ih (hc.step x.1 x.2) (h.step_mine hsep hc hx x.2)
    | false =>
      rw [List.filter_cons_of_neg (by rw [hx]; exact Bool.false_ne_true)]
      exact ih (hc.step x.1 x.2) (h.step_theirs hsep hc hx x.2)

end Crowd
end Whetstone.Lib
