import Whetstone.Lib.Crash

/-! Programs whose every state keeps an invariant, whatever their operations answer and wherever
the process crashes. What holds at the end is said of an error as of a result, since a `finally`
block follows both. -/
namespace Whetstone.Lib.Prog

variable {Op : Type} {Res : Op → Type} {ε α β S Ans : Type}

/- `try p finally q`: an error of `q` replaces what `p` ended with. -/
def ensure : Prog Op Res ε α → Prog Op Res ε Unit → Prog Op Res ε α
  | .done a, q => q.bind fun _ => .done a
  | .raise error, q => q.bind fun _ => .raise error
  | .call o next, q => .call o fun r => (next r).ensure q

def Keeps (exec : (o : Op) → Ans → S → Option (Res o) × S) (I : S → Prop) (Q : α → S → Prop)
    (E : ε → S → Prop) : Prog Op Res ε α → S → Prop
  | .done a, s => I s ∧ Q a s
  | .raise error, s => I s ∧ E error s
  | .call o next, s => I s ∧ ∀ answer, I (exec o answer s).2 ∧
      ∀ r, (exec o answer s).1 = some r → (next r).Keeps exec I Q E (exec o answer s).2

section Keeps

attribute [local simp] Keeps ensure

variable {exec : (o : Op) → Ans → S → Option (Res o) × S} {I : S → Prop}
variable {Q : α → S → Prop} {E : ε → S → Prop} {p : Prog Op Res ε α} {s : S}

theorem Keeps.inv (h : p.Keeps exec I Q E s) : I s := by
  cases p with
  | done a => exact h.1
  | raise error => exact h.1
  | call o next => exact h.1

theorem keeps_bind {Q' : β → S → Prop} {f : α → Prog Op Res ε β} (hp : p.Keeps exec I Q E s)
    (hf : ∀ a t, I t → Q a t → (f a).Keeps exec I Q' E t) : (p.bind f).Keeps exec I Q' E s := by
  induction p generalizing s with
  | done a => exact hf a s hp.1 hp.2
  | raise error => exact hp
  | call o next ih =>
    refine ⟨hp.1, fun answer => ?_⟩
    obtain ⟨hinv,hnext⟩ := hp.2 answer
    exact ⟨hinv, fun r hr => ih r (hnext r hr)⟩

theorem keeps_mono {Q' : α → S → Prop} {E' : ε → S → Prop} (hp : p.Keeps exec I Q E s)
    (hQ : ∀ a t, I t → Q a t → Q' a t) (hE : ∀ error t, I t → E error t → E' error t) :
    p.Keeps exec I Q' E' s := by
  induction p generalizing s with
  | done a => exact ⟨hp.1, hQ a s hp.1 hp.2⟩
  | raise error => exact ⟨hp.1, hE error s hp.1 hp.2⟩
  | call o next ih =>
    refine ⟨hp.1, fun answer => ?_⟩
    obtain ⟨hinv,hnext⟩ := hp.2 answer
    exact ⟨hinv, fun r hr => ih r (hnext r hr)⟩

theorem keeps_handle {F : ε → S → Prop} {h : ε → Prog Op Res ε α} (hp : p.Keeps exec I Q F s)
    (hh : ∀ error t, I t → F error t → (h error).Keeps exec I Q E t) :
    (p.handle h).Keeps exec I Q E s := by
  induction p generalizing s with
  | done a => exact hp
  | raise error => exact hh error s hp.1 hp.2
  | call o next ih =>
    refine ⟨hp.1, fun answer => ?_⟩
    obtain ⟨hinv,hnext⟩ := hp.2 answer
    exact ⟨hinv, fun r hr => ih r (hnext r hr)⟩

/-- A `finally` block starts from what its body leaves, whether that returned or raised. -/
theorem keeps_ensure {Q' : α → S → Prop} {E' : ε → S → Prop} {q : Prog Op Res ε Unit}
    (hp : p.Keeps exec I Q' E' s)
    (hdone : ∀ a t, I t → Q' a t → q.Keeps exec I (fun _ => Q a) E t)
    (hraise : ∀ error t, I t → E' error t → q.Keeps exec I (fun _ => E error) E t) :
    (p.ensure q).Keeps exec I Q E s := by
  induction p generalizing s with
  | done a => exact keeps_bind (hdone a s hp.1 hp.2) fun _ t ht hQ => ⟨ht, hQ⟩
  | raise error => exact keeps_bind (hraise error s hp.1 hp.2) fun _ t ht hE => ⟨ht, hE⟩
  | call o next ih =>
    refine ⟨hp.1, fun answer => ?_⟩
    obtain ⟨hinv,hnext⟩ := hp.2 answer
    exact ⟨hinv, fun r hr => ih r (hnext r hr)⟩

/-- A program of operations that change nothing ends where it started. -/
theorem keeps_of_quiet {P : Op → Prop} (hquiet : ∀ o answer t, P o → (exec o answer t).2 = t)
    (hp : p.All P) (hs : I s) : p.Keeps exec I (fun _ t => t = s) (fun _ t => t = s) s := by
  induction p with
  | done a => exact ⟨hs, rfl⟩
  | raise error => exact ⟨hs, rfl⟩
  | call o next ih =>
    refine ⟨hs, fun answer => ?_⟩
    rw [hquiet o answer s hp.1]
    exact ⟨hs, fun r _ => ih r (hp.2 r)⟩

/-- Every state of an attempt keeps the invariant, and its end is as stated. -/
theorem Keeps.attempt (h : p.Keeps exec I Q E s) (answers : List Ans) :
    (∀ event ∈ (p.attempt exec answers s).events, I event.2) ∧
      I (p.attempt exec answers s).state ∧
      (∀ a, (p.attempt exec answers s).outcome = .returned a →
        Q a (p.attempt exec answers s).state) ∧
      ∀ error, (p.attempt exec answers s).outcome = .raised error →
        E error (p.attempt exec answers s).state := by
  induction p generalizing s answers with
  | done a =>
    refine ⟨fun _ he => (by cases he), h.1, fun b hb => ?_, fun _ he => (by cases he)⟩
    cases hb
    exact h.2
  | raise error =>
    refine ⟨fun _ he => (by cases he), h.1, fun _ hb => (by cases hb), fun e he => ?_⟩
    cases he
    exact h.2
  | call o next ih =>
    cases answers with
    | nil => exact ⟨fun _ he => (by cases he), h.1, fun _ hb => (by cases hb),
        fun _ he => (by cases he)⟩
    | cons answer rest =>
      obtain ⟨hinv,hnext⟩ := h.2 answer
      cases hexec : exec o answer s with
      | mk reply t =>
        rw [hexec] at hinv hnext
        cases reply with
        | none =>
          simp only [Prog.attempt, hexec]
          refine ⟨fun event he => ?_, hinv, fun _ hb => (by cases hb), fun _ he => (by cases he)⟩
          rw [List.mem_singleton.mp he]
          exact h.1
        | some r =>
          obtain ⟨hevents,hstate,hreturned,hraised⟩ := ih r (hnext r rfl) rest
          simp only [Prog.attempt, hexec]
          refine ⟨fun event he => ?_, hstate, hreturned, hraised⟩
          cases List.mem_cons.mp he with
          | inl hfirst =>
            rw [hfirst]
            exact h.1
          | inr hlater => exact hevents event hlater

end Keeps

section All

variable {P : Op → Prop} {p : Prog Op Res ε α}

theorem all_handle {h : ε → Prog Op Res ε α} (hp : p.All P) (hh : ∀ error, (h error).All P) :
    (p.handle h).All P := by
  induction p with
  | done a => trivial
  | raise error => exact hh error
  | call o next ih => exact ⟨hp.1, fun r => ih r (hp.2 r)⟩

theorem all_ensure {q : Prog Op Res ε Unit} (hp : p.All P) (hq : q.All P) :
    (p.ensure q).All P := by
  induction p with
  | done a => exact all_bind hq fun _ => trivial
  | raise error => exact all_bind hq fun _ => trivial
  | call o next ih => exact ⟨hp.1, fun r => ih r (hp.2 r)⟩

end All
end Whetstone.Lib.Prog
