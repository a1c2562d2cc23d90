import Whetstone.Lib.Prog

/-! Programs of one process that may stop at any operation. An attempt runs a program on a
finite list of answers and stops where they end; an operation may also stop on the way, in
which case it has no reply. What a program promises is checked at every state it passes, so
that it holds wherever the process stops. -/
namespace Whetstone.Lib

inductive Outcome (ε α : Type) where
  | crashed
  | raised (error : ε)
  | returned (a : α)
deriving DecidableEq

def Outcome.value? {ε α : Type} : Outcome ε α → Option α
  | .returned a => some a
  | _ => none

theorem Outcome.exists_returned {ε α : Type} (outcome : Outcome ε α)
    (h : outcome.value?.isSome = true) : ∃ a, outcome = .returned a := by
  cases outcome with
  | returned a => exact ⟨a, rfl⟩
  | crashed => cases h
  | raised error => cases h

/- The operations of an attempt, each with the state it was taken in. -/
structure Attempt (Op S ε α : Type) where
  events : List (Op × S)
  outcome : Outcome ε α
  state : S

/-- What a process keeps (`durable`), what it checks before an operation (`step`), the errors it
may raise, and whether its operations all reply (`live`). -/
structure Promise (S Op ε : Type) where
  live : Prop
  step : Op → S → Prop
  durable : S → Prop
  error : ε → Prop

namespace Prog

variable {Op : Type} {Res : Op → Type} {ε α β S Ans : Type}

def attempt (exec : (o : Op) → Ans → S → Option (Res o) × S) :
    Prog Op Res ε α → List Ans → S → Attempt Op S ε α
  | .done a, _, s => ⟨[], .returned a, s⟩
  | .raise error, _, s => ⟨[], .raised error, s⟩
  | .call _ _, [], s => ⟨[], .crashed, s⟩
  | .call o next, answer :: rest, s =>
    match exec o answer s with
    | (none, t) => ⟨[(o, s)], .crashed, t⟩
    | (some r, t) =>
      let later := (next r).attempt exec rest t
      ⟨(o, s) :: later.events, later.outcome, later.state⟩

def Holds (exec : (o : Op) → Ans → S → Option (Res o) × S) (C : Promise S Op ε)
    (Q : α → S → Prop) : Prog Op Res ε α → S → Prop
  | .done a, s => C.durable s ∧ Q a s
  | .raise error, s => C.durable s ∧ C.error error
  | .call o next, s => C.durable s ∧ C.step o s ∧ ∀ answer, C.durable (exec o answer s).2 ∧
      (C.live → (exec o answer s).1.isSome = true) ∧
      ∀ r, (exec o answer s).1 = some r → (next r).Holds exec C Q (exec o answer s).2

section Holds

attribute [local simp] Holds Prog.attempt

variable {exec : (o : Op) → Ans → S → Option (Res o) × S} {C : Promise S Op ε}
variable {Q : α → S → Prop} {p : Prog Op Res ε α} {s : S}

theorem Holds.durable (h : p.Holds exec C Q s) : C.durable s := by
  cases p with
  | done a => exact h.1
  | raise error => exact h.1
  | call o next => exact h.1

theorem holds_bind {Q' : β → S → Prop} {f : α → Prog Op Res ε β} (hp : p.Holds exec C Q s)
    (hf : ∀ a t, C.durable t → Q a t → (f a).Holds exec C Q' t) :
    (p.bind f).Holds exec C Q' s := by
  induction p generalizing s with
  | done a => exact hf a s hp.1 hp.2
  | raise error => exact hp
  | call o next ih =>
    refine ⟨hp.1, hp.2.1, fun answer => ?_⟩
    obtain ⟨hdurable,hlive,hnext⟩ := hp.2.2 answer
    exact ⟨hdurable, hlive, fun r hr => ih r (hnext r hr)⟩

theorem holds_mono {Q' : α → S → Prop} (hp : p.Holds exec C Q s)
    (hQ : ∀ a t, C.durable t → Q a t → Q' a t) : p.Holds exec C Q' s := by
  induction p generalizing s with
  | done a => exact ⟨hp.1, hQ a s hp.1 hp.2⟩
  | raise error => exact hp
  | call o next ih =>
    refine ⟨hp.1, hp.2.1, fun answer => ?_⟩
    obtain ⟨hdurable,hlive,hnext⟩ := hp.2.2 answer
    exact ⟨hdurable, hlive, fun r hr => ih r (hnext r hr)⟩

/-- A handler runs on the errors its body may raise; every other rule of the promise stays. -/
theorem holds_handle {E : ε → Prop} {h : ε → Prog Op Res ε α}
    (hp : p.Holds exec { C with error := E } Q s)
    (hh : ∀ error t, C.durable t → E error → (h error).Holds exec C Q t) :
    (p.handle h).Holds exec C Q s := by
  induction p generalizing s with
  | done a => exact hp
  | raise error => exact hh error s hp.1 hp.2
  | call o next ih =>
    refine ⟨hp.1, hp.2.1, fun answer => ?_⟩
    obtain ⟨hdurable,hlive,hnext⟩ := hp.2.2 answer
    exact ⟨hdurable, hlive, fun r hr => ih r (hnext r hr)⟩

/-- An operation whose reply and effect the answer does not change. -/
theorem holds_call {Q' : β → S → Prop} (o : Op) (f : Res o → Prog Op Res ε β) (r : Res o) (t : S)
    (hexec : ∀ answer, exec o answer s = (some r, t)) (hs : C.durable s) (hstep : C.step o s)
    (hf : (f r).Holds exec C Q' t) :
    ((Prog.perform o).bind f : Prog Op Res ε β).Holds exec C Q' s := by
  refine ⟨hs, hstep, fun answer => ?_⟩
  rw [hexec answer]
  refine ⟨hf.durable, fun _ => rfl, fun r' hr => ?_⟩
  cases hr
  exact hf

/-- An attempt of a program that holds keeps the promise to its end. -/
theorem Holds.attempt (h : p.Holds exec C Q s) (answers : List Ans) :
    let run := p.attempt exec answers s
    C.durable run.state ∧ (∀ event ∈ run.events, C.step event.1 event.2) ∧
      (∀ error, run.outcome = .raised error → C.error error) ∧
      ∀ a, run.outcome = .returned a → Q a run.state := by
  induction p generalizing s answers with
  | done a =>
    refine ⟨h.1, fun _ he => (by cases he), fun _ he => (by cases he), fun b hb => ?_⟩
    cases hb
    exact h.2
  | raise error =>
    refine ⟨h.1, fun _ he => (by cases he), fun e he => ?_, fun _ hb => (by cases hb)⟩
    cases he
    exact h.2
  | call o next ih =>
    cases answers with
    | nil => exact ⟨h.1, fun _ he => (by cases he), fun _ he => (by cases he),
        fun _ hb => (by cases hb)⟩
    | cons answer rest =>
      obtain ⟨hdurable,_,hnext⟩ := h.2.2 answer
      cases hexec : exec o answer s with
      | mk reply t =>
        rw [hexec] at hdurable hnext
        cases reply with
        | none =>
          simp only [Prog.attempt, hexec]
          refine ⟨hdurable, fun event he => ?_, fun _ he => (by cases he),
            fun _ hb => (by cases hb)⟩
          rw [List.mem_singleton.mp he]
          exact h.2.1
        | some r =>
          obtain ⟨h1,h2,h3,h4⟩ := ih r (hnext r rfl) rest
          simp only [Prog.attempt, hexec]
          refine ⟨h1, fun event he => ?_, h3, h4⟩
          rcases List.mem_cons.mp he with rfl | he
          · exact h.2.1
          · exact h2 event he

/-- A live program that raises nothing returns, if it is given answers for long enough. -/
theorem Holds.returns (h : p.Holds exec C Q s) (hlive : C.live) (herror : ∀ error, ¬ C.error error)
    (answers : Nat → Ans) :
    ∃ n a, (p.attempt exec ((List.range n).map answers) s).outcome = .returned a := by
  induction p generalizing s answers with
  | done a => exact ⟨0, a, rfl⟩
  | raise error => exact absurd h.2 (herror error)
  | call o next ih =>
    obtain ⟨_,hsome,hnext⟩ := h.2.2 (answers 0)
    obtain ⟨r,hr⟩ := Option.isSome_iff_exists.mp (hsome hlive)
    obtain ⟨n,a,ha⟩ := ih r (hnext r hr) fun i => answers (i + 1)
    refine ⟨n + 1, a, ?_⟩
    have hexec : exec o (answers 0) s = (some r, (exec o (answers 0) s).2) := Prod.ext hr rfl
    rw [List.range_succ_eq_map, List.map_cons, List.map_map, Prog.attempt, hexec]
    exact ha

end Holds

/-- A program ends, if its operations all reply and it is given answers for long enough. -/
theorem attempt_ends {exec : (o : Op) → Ans → S → Option (Res o) × S} (p : Prog Op Res ε α)
    (answers : Nat → Ans) (hreply : ∀ o n s, (exec o (answers n) s).1.isSome = true) (s : S) :
    ∃ n, (p.attempt exec ((List.range n).map answers) s).outcome ≠ .crashed := by
  induction p generalizing s answers with
  | done a => exact ⟨0, by simp [Prog.attempt]⟩
  | raise error => exact ⟨0, by simp [Prog.attempt]⟩
  | call o next ih =>
    obtain ⟨r,hr⟩ := Option.isSome_iff_exists.mp (hreply o 0 s)
    obtain ⟨n,hn⟩ := ih r (fun i => answers (i + 1)) (fun o' i => hreply o' (i + 1))
      (exec o (answers 0) s).2
    refine ⟨n + 1, ?_⟩
    have hexec : exec o (answers 0) s = (some r, (exec o (answers 0) s).2) := Prod.ext hr rfl
    rw [List.range_succ_eq_map, List.map_cons, List.map_map, Prog.attempt, hexec]
    exact hn

/- Every operation a program may come to. -/
def All (P : Op → Prop) : Prog Op Res ε α → Prop
  | .done _ => True
  | .raise _ => True
  | .call o next => P o ∧ ∀ r, (next r).All P

theorem all_bind {P : Op → Prop} {p : Prog Op Res ε α} {f : α → Prog Op Res ε β} (hp : p.All P)
    (hf : ∀ a, (f a).All P) : (p.bind f).All P := by
  induction p with
  | done a => exact hf a
  | raise error => trivial
  | call o next ih => exact ⟨hp.1, fun r => ih r (hp.2 r)⟩

/-- A program keeps what each of its operations keeps. -/
theorem holds_of_all {exec : (o : Op) → Ans → S → Option (Res o) × S} {P : Op → Prop}
    {I : S → Prop} (hI : ∀ o answer s, P o → I s → I (exec o answer s).2)
    {p : Prog Op Res ε α} (hp : p.All P) {s : S} (hs : I s) :
    p.Holds exec ⟨False, fun _ _ => True, fun _ => True, fun _ => True⟩ (fun _ t => I t) s := by
  induction p generalizing s with
  | done a => exact ⟨trivial, hs⟩
  | raise error => exact ⟨trivial, trivial⟩
  | call o next ih =>
    exact ⟨trivial, trivial, fun answer => ⟨trivial, fun h => h.elim, fun r _ =>
      ih r (hp.2 r) (hI o answer s hp.1 hs)⟩⟩

/-- What two proofs say of the states a program ends in. -/
theorem Holds.and {exec : (o : Op) → Ans → S → Option (Res o) × S} {C C' : Promise S Op ε}
    {Q Q' : α → S → Prop} {p : Prog Op Res ε α} {s : S} (h : p.Holds exec C Q s)
    (h' : p.Holds exec C' Q' s) : p.Holds exec C (fun a t => Q a t ∧ Q' a t) s := by
  induction p generalizing s with
  | done a => exact ⟨h.1, h.2, h'.2⟩
  | raise error => exact h
  | call o next ih =>
    refine ⟨h.1, h.2.1, fun answer => ?_⟩
    obtain ⟨hdurable,hlive,hnext⟩ := h.2.2 answer
    exact ⟨hdurable, hlive, fun r hr => ih r (hnext r hr) ((h'.2.2 answer).2.2 r hr)⟩

/- Every error a program may raise. -/
def Raises (E : ε → Prop) : Prog Op Res ε α → Prop
  | .done _ => True
  | .raise error => E error
  | .call _ next => ∀ r, (next r).Raises E

theorem raises_bind {E : ε → Prop} {p : Prog Op Res ε α} {f : α → Prog Op Res ε β}
    (hp : p.Raises E) (hf : ∀ a, (f a).Raises E) : (p.bind f).Raises E := by
  induction p with
  | done a => exact hf a
  | raise error => exact hp
  | call o next ih => exact fun r => ih r (hp r)

theorem all_ofExcept {P : Op → Prop} (x : Except ε α) : (ofExcept x : Prog Op Res ε α).All P := by
  cases x <;> trivial

/-- An attempt of a program whose operations need no answer is its run alone. -/
theorem alone_of_attempt {exec : (o : Op) → Ans → S → Option (Res o) × S}
    (exec' : (o : Op) → S → Option (Res o × S)) {P : Op → Prop}
    (hexec : ∀ o answer s r t, P o → exec o answer s = (some r, t) → exec' o s = some (r, t))
    {p : Prog Op Res ε α} (hp : p.All P) {answers : List Ans} {s : S} {a : α}
    (h : (p.attempt exec answers s).outcome = .returned a) :
    p.alone exec' s = some (.ok a, (p.attempt exec answers s).state) := by
  induction p generalizing s answers with
  | done b =>
    cases h
    rfl
  | raise error => cases h
  | call o next ih =>
    cases answers with
    | nil => cases h
    | cons answer rest =>
      cases hstep : exec o answer s with
      | mk reply t =>
        cases reply with
        | none =>
          simp only [Prog.attempt, hstep] at h
          cases h
        | some r =>
          simp only [Prog.attempt, hstep] at h ⊢
          simp only [Prog.alone, hexec o answer s r t hp.1 hstep]
          exact ih r (hp.2 r) h

/-- A program that promises nothing holds; what follows it may still be said. -/
theorem holds_trivial {exec : (o : Op) → Ans → S → Option (Res o) × S} (p : Prog Op Res ε α)
    (s : S) : p.Holds exec ⟨False, fun _ _ => True, fun _ => True, fun _ => True⟩
      (fun _ _ => True) s := by
  induction p generalizing s with
  | done a => exact ⟨trivial, trivial⟩
  | raise error => exact ⟨trivial, trivial⟩
  | call o next ih =>
    exact ⟨trivial, trivial, fun answer => ⟨trivial, fun h => h.elim, fun r _ => ih r _⟩⟩

/- An attempt proves a property of what it returns. -/
theorem holds_of_returned {exec : (o : Op) → Ans → S → Option (Res o) × S} {Q : α → S → Prop}
    (p : Prog Op Res ε α) (s : S)
    (h : ∀ answers a, (p.attempt exec answers s).outcome = .returned a →
      Q a (p.attempt exec answers s).state) :
    p.Holds exec ⟨False, fun _ _ => True, fun _ => True, fun _ => True⟩ Q s := by
  induction p generalizing s with
  | done a => exact ⟨trivial, h [] a rfl⟩
  | raise error => exact ⟨trivial, trivial⟩
  | call o next ih =>
    refine ⟨trivial, trivial, fun answer => ?_⟩
    cases hstep : exec o answer s with
    | mk reply t =>
      refine ⟨trivial, fun hl => hl.elim, fun r hr => ?_⟩
      have hreply : reply = some r := hr
      subst hreply
      refine ih r t fun answers a ha => ?_
      have hnext := h (answer :: answers) a
      simp only [Prog.attempt, hstep] at hnext
      exact hnext ha

/-- What every operation keeps, an attempt keeps. -/
theorem attempt_invariant {exec : (o : Op) → Ans → S → Option (Res o) × S} {P : S → Prop}
    (hP : ∀ o answer s, P s → P (exec o answer s).2) (p : Prog Op Res ε α) (answers : List Ans)
    (s : S) (hs : P s) : P (p.attempt exec answers s).state := by
  induction p generalizing s answers with
  | done a => exact hs
  | raise error => exact hs
  | call o next ih =>
    cases answers with
    | nil => exact hs
    | cons answer rest =>
      have ht := hP o answer s hs
      cases hexec : exec o answer s with
      | mk reply t =>
        rw [hexec] at ht
        cases reply with
        | none =>
          simp only [Prog.attempt, hexec]
          exact ht
        | some r =>
          simp only [Prog.attempt, hexec]
          exact ih r rest t ht

/-- A program that returns has run its first part to a result. -/
theorem alone_bind_ok {exec : (o : Op) → S → Option (Res o × S)} {p : Prog Op Res ε α}
    {f : α → Prog Op Res ε β} {b : β} {s t : S}
    (h : (p.bind f).alone exec s = some (.ok b, t)) :
    ∃ a u, p.alone exec s = some (.ok a, u) ∧ (f a).alone exec u = some (.ok b, t) := by
  induction p generalizing s with
  | done a => exact ⟨a, s, rfl, h⟩
  | raise error => cases h
  | call o next ih =>
    simp only [Prog.bind, Prog.alone] at h ⊢
    cases hexec : exec o s with
    | none => simp [hexec] at h
    | some out =>
      simp only [hexec] at h
      exact ih out.1 h

end Prog

/- One thread of a machine, on its own. -/
def Machine.solo {T S Ans Op : Type} {Res : Op → Type} {ε : Type} (M : Machine T S Ans Op Res ε)
    (l : T) (o : Op) (answer : Ans) (s : S) : Option (Res o) × S :=
  match M.exec l o answer s with
  | none => (none, s)
  | some (r, t) => (some r, t)

/-- A thread that is safe among others is safe alone. -/
theorem Contract.Safe.attempt {T S Ans Op : Type} {Res : Op → Type} {ε α : Type}
    {C : Contract T S Op} {M : Machine T S Ans Op Res ε} {l : T} {Q : α → S → Prop}
    {p : Prog Op Res ε α} {s : S} (h : C.Safe M l Q p s) (hs : C.inv s)
    (hallowed : ∀ o t, C.allowed l o t) (answers : List Ans) :
    C.inv (p.attempt (M.solo l) answers s).state ∧
      ∀ a, (p.attempt (M.solo l) answers s).outcome = .returned a →
        Q a (p.attempt (M.solo l) answers s).state := by
  induction p generalizing s answers with
  | done a =>
    refine ⟨hs, fun b hb => ?_⟩
    cases hb
    exact h s (C.rely_refl l s) hs
  | raise error => exact ⟨hs, fun _ hb => by cases hb⟩
  | call o next ih =>
    cases answers with
    | nil => exact ⟨hs, fun _ hb => by cases hb⟩
    | cons answer rest =>
      cases hexec : M.exec l o answer s with
      | none =>
        simp only [Prog.attempt, Machine.solo, hexec]
        exact ⟨hs, fun _ hb => by cases hb⟩
      | some out =>
        obtain ⟨r,t⟩ := out
        obtain ⟨hinv,_,_,hnext⟩ := h s answer r t (C.rely_refl l s) hs (hallowed o s) hexec
        simp only [Prog.attempt, Machine.solo, hexec]
        exact ih r hnext hinv rest

end Whetstone.Lib
