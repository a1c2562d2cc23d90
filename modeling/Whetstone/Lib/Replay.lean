import Whetstone.Lib.Crash

/-! Programs over effects whose answers are recorded. Such a program is driven from its start
each time it is resumed: an effect with a recorded answer is answered from the record, the
first one without is performed. A recorded answer stays, so the effects a longer record leads
a program to begin with those a shorter one led it to. -/
namespace Whetstone.Lib

/- One record goes on from another. -/
def Extends {E : Type} {R : E → Type} (record record' : (e : E) → Option (R e)) : Prop :=
  ∀ e r, record e = some r → record' e = some r

theorem Extends.refl {E : Type} {R : E → Type} (record : (e : E) → Option (R e)) :
    Extends record record := fun _ _ h => h

theorem Extends.trans {E : Type} {R : E → Type} {r₁ r₂ r₃ : (e : E) → Option (R e)}
    (h : Extends r₁ r₂) (h' : Extends r₂ r₃) : Extends r₁ r₃ :=
  fun e r hr => h' e r (h e r hr)

namespace Prog

section Record

variable {E : Type} {R : E → Type} {ε α β : Type}

/- What is left of a program when its first effects were answered from the record. -/
def after (record : (e : E) → Option (R e)) : Nat → Prog E R ε α → Option (Prog E R ε α)
  | 0, p => some p
  | _ + 1, .done _ => none
  | _ + 1, .raise _ => none
  | n + 1, .call e next =>
    match record e with
    | some r => after record n (next r)
    | none => none

/- The effect a program comes to behind as many recorded ones. -/
def requested (record : (e : E) → Option (R e)) (n : Nat) (p : Prog E R ε α) : Option E :=
  match p.after record n with
  | some (.call e _) => some e
  | _ => none

/- The result of a program whose every effect is on record. -/
def replayed (record : (e : E) → Option (R e)) : Prog E R ε α → Option (Except ε α)
  | .done a => some (.ok a)
  | .raise error => some (.error error)
  | .call e next =>
    match record e with
    | some r => (next r).replayed record
    | none => none

variable {record record' : (e : E) → Option (R e)} {p q : Prog E R ε α} {n m : Nat}

attribute [local simp] after replayed bind

theorem after_mono (h : Extends record record') (hp : p.after record n = some q) :
    p.after record' n = some q := by
  induction n generalizing p with
  | zero => exact hp
  | succ n ih =>
    cases p with
    | done a => cases hp
    | raise error => cases hp
    | call e next =>
      unfold after at hp ⊢
      cases hr : record e with
      | none => simp [hr] at hp
      | some r =>
        simp only [hr] at hp
        simp only [h e r hr]
        exact ih hp

theorem requested_mono (h : Extends record record') {e : E}
    (hp : p.requested record n = some e) : p.requested record' n = some e := by
  unfold requested at hp ⊢
  cases hq : p.after record n with
  | none => simp [hq] at hp
  | some q =>
    rw [after_mono h hq]
    rwa [hq] at hp

theorem requested_of_after {e : E} {next : R e → Prog E R ε α}
    (hp : p.after record n = some (.call e next)) : p.requested record n = some e := by
  simp [requested, hp]

theorem after_of_requested {e : E} (hp : p.requested record n = some e) :
    ∃ next, p.after record n = some (.call e next) := by
  unfold requested at hp
  split at hp
  · rename_i e' next hq
    cases hp
    exact ⟨next, hq⟩
  · cases hp

theorem after_add (hp : p.after record n = some q) (m : Nat) :
    p.after record (n + m) = q.after record m := by
  induction n generalizing p with
  | zero =>
    cases hp
    rw [Nat.zero_add]
  | succ n ih =>
    cases p with
    | done a => cases hp
    | raise error => cases hp
    | call e next =>
      rw [Nat.succ_add]
      simp only [after] at hp ⊢
      cases hr : record e with
      | none => simp [hr] at hp
      | some r =>
        simp only [hr] at hp ⊢
        exact ih hp

theorem after_succ {e : E} {next : R e → Prog E R ε α} {r : R e}
    (hp : p.after record n = some (.call e next)) (hr : record e = some r) :
    p.after record (n + 1) = some (next r) := by
  rw [after_add hp 1]
  simp [after, hr]

/-- Every effect in front of the one a program has come to is on record. -/
theorem answered (hp : p.after record n = some q) (hm : m < n) :
    ∃ e r, p.requested record m = some e ∧ record e = some r := by
  induction n generalizing p m with
  | zero => omega
  | succ n ih =>
    cases p with
    | done a => cases hp
    | raise error => cases hp
    | call e next =>
      simp only [after] at hp
      cases hr : record e with
      | none => simp [hr] at hp
      | some r =>
        simp only [hr] at hp
        cases m with
        | zero => exact ⟨e, r, by simp [requested, after], hr⟩
        | succ m =>
          obtain ⟨e',r',he,hr'⟩ := ih hp (by omega : m < n)
          refine ⟨e', r', ?_, hr'⟩
          unfold requested at he ⊢
          simp only [after, hr]
          exact he

/-- A longer record changes nothing in front of where a program has come to. -/
theorem requested_front (h : Extends record record') (hp : p.after record n = some q) (hm : m < n) :
    p.requested record' m = p.requested record m := by
  obtain ⟨e,_,he,_⟩ := answered hp hm
  rw [he, requested_mono h he]

/-- A program that has ended has come to every effect in front of its end. -/
theorem requested_lt {e : E} (hp : p.after record n = some q) (hq : ∀ e next, q ≠ .call e next)
    (he : p.requested record m = some e) : m < n := by
  by_contra hle
  obtain ⟨k,rfl⟩ : ∃ k, m = n + k := ⟨m - n, by omega⟩
  obtain ⟨next,hafter⟩ := after_of_requested he
  rw [after_add hp] at hafter
  cases k with
  | zero =>
    simp only [after, Option.some.injEq] at hafter
    exact hq e next hafter
  | succ k =>
    cases q with
    | done a => cases hafter
    | raise error => cases hafter
    | call e' next' => exact hq e' next' rfl

theorem replayed_after (hp : p.after record n = some q) : p.replayed record = q.replayed record := by
  induction n generalizing p with
  | zero =>
    cases hp
    rfl
  | succ n ih =>
    cases p with
    | done a => cases hp
    | raise error => cases hp
    | call e next =>
      simp only [after] at hp
      cases hr : record e with
      | none => simp [hr] at hp
      | some r =>
        simp only [hr] at hp
        simp only [replayed, hr]
        exact ih hp

theorem replayed_mono (h : Extends record record') {x : Except ε α}
    (hp : p.replayed record = some x) : p.replayed record' = some x := by
  induction p with
  | done a => exact hp
  | raise error => exact hp
  | call e next ih =>
    simp only [replayed] at hp ⊢
    cases hr : record e with
    | none => simp [hr] at hp
    | some r =>
      simp only [hr] at hp
      simp only [h e r hr]
      exact ih r hp

theorem replayed_bind {a : α} (hp : p.replayed record = some (.ok a)) (f : α → Prog E R ε β) :
    (p.bind f).replayed record = (f a).replayed record := by
  induction p with
  | done b =>
    cases hp
    rfl
  | raise error => cases hp
  | call e next ih =>
    simp only [replayed, bind] at hp ⊢
    cases hr : record e with
    | none => simp [hr] at hp
    | some r =>
      simp only [hr] at hp ⊢
      exact ih r hp

theorem replayed_bind_error {error : ε} (hp : p.replayed record = some (.error error))
    (f : α → Prog E R ε β) : (p.bind f).replayed record = some (.error error) := by
  induction p with
  | done b => cases hp
  | raise error' =>
    cases hp
    rfl
  | call e next ih =>
    simp only [replayed, bind] at hp ⊢
    cases hr : record e with
    | none => simp [hr] at hp
    | some r =>
      simp only [hr] at hp ⊢
      exact ih r hp

/- Every result a program may come to. -/
def Ensures (Q : α → Prop) : Prog E R ε α → Prop
  | .done a => Q a
  | .raise _ => True
  | .call _ next => ∀ r, (next r).Ensures Q

theorem ensures_bind {Q : α → Prop} {Q' : β → Prop} (h : p.Ensures Q) {f : α → Prog E R ε β}
    (hf : ∀ a, Q a → (f a).Ensures Q') : (p.bind f).Ensures Q' := by
  induction p with
  | done a => exact hf a h
  | raise error => trivial
  | call e next ih => exact fun r => ih r (h r)

theorem ensures_trivial (p : Prog E R ε α) : p.Ensures fun _ => True := by
  induction p with
  | done a => trivial
  | raise error => trivial
  | call e next ih => exact ih

/-- What follows a program is only asked at the results it may come to. -/
theorem Ensures.bind_congr {Q : α → Prop} (h : p.Ensures Q) {f g : α → Prog E R ε β}
    (hfg : ∀ a, Q a → f a = g a) : p.bind f = p.bind g := by
  induction p with
  | done a => exact hfg a h
  | raise error => rfl
  | call e next ih =>
    simp only [bind]
    exact congrArg _ (funext fun r => ih r (h r))

theorem bind_assoc {γ : Type} (p : Prog E R ε α) (f : α → Prog E R ε β) (g : β → Prog E R ε γ) :
    (p.bind f).bind g = p.bind fun a => (f a).bind g := by
  induction p with
  | done a => rfl
  | raise error => rfl
  | call e next ih =>
    simp only [bind]
    exact congrArg _ (funext fun r => ih r)

theorem bind_done (p : Prog E R ε α) : p.bind Prog.done = p := by
  induction p with
  | done a => rfl
  | raise error => rfl
  | call e next ih =>
    simp only [bind]
    exact congrArg _ (funext fun r => ih r)

end Record

/-! ### Errors as results -/

section Reify

variable {Op : Type} {Res : Op → Type} {ε ε' α β S Ans : Type}

def reify : Prog Op Res ε α → Prog Op Res ε' (Except ε α)
  | .done a => .done (.ok a)
  | .raise error => .done (.error error)
  | .call o next => .call o fun r => (next r).reify

theorem reify_bind (p : Prog Op Res ε α) (f : α → Prog Op Res ε β) :
    ((p.bind f).reify : Prog Op Res ε' (Except ε β)) = p.reify.bind fun
      | .ok a => (f a).reify
      | .error error => .done (.error error) := by
  induction p with
  | done a => rfl
  | raise error => rfl
  | call o next ih =>
    simp only [bind, reify]
    exact congrArg _ (funext fun r => ih r)

end Reify
end Prog

def Outcome.reify {ε ε' α : Type} : Outcome ε α → Outcome ε' (Except ε α)
  | .crashed => .crashed
  | .raised error => .returned (.error error)
  | .returned a => .returned (.ok a)

namespace Prog

variable {Op : Type} {Res : Op → Type} {ε ε' α β S Ans : Type}
variable {exec : (o : Op) → Ans → S → Option (Res o) × S}

theorem attempt_reify (p : Prog Op Res ε α) (answers : List Ans) (s : S) :
    (p.reify : Prog Op Res ε' (Except ε α)).attempt exec answers s =
      ⟨(p.attempt exec answers s).events, (p.attempt exec answers s).outcome.reify,
        (p.attempt exec answers s).state⟩ := by
  induction p generalizing answers s with
  | done a => rfl
  | raise error => rfl
  | call o next ih =>
    cases answers with
    | nil => rfl
    | cons answer rest =>
      simp only [reify, attempt]
      cases hexec : exec o answer s with
      | mk reply t =>
        cases reply with
        | none => rfl
        | some r => simp only [ih r rest t]

theorem all_reify {P : Op → Prop} {p : Prog Op Res ε α} (hp : p.All P) :
    (p.reify : Prog Op Res ε' (Except ε α)).All P := by
  induction p with
  | done a => trivial
  | raise error => trivial
  | call o next ih => exact ⟨hp.1, fun r => ih r (hp.2 r)⟩

/-- The errors that are results of a program are those it may raise. -/
theorem Raises.reified {C : Promise S Op ε'} {Q : Except ε α → S → Prop} {E : ε → Prop}
    {p : Prog Op Res ε α} (hp : p.Raises E) {s : S}
    (h : (p.reify : Prog Op Res ε' (Except ε α)).Holds exec C Q s) :
    (p.reify : Prog Op Res ε' (Except ε α)).Holds exec C
      (fun x t => Q x t ∧ ∀ error, x = .error error → E error) s := by
  induction p generalizing s with
  | done a => exact ⟨h.1, h.2, fun _ hx => by cases hx⟩
  | raise error =>
    refine ⟨h.1, h.2, fun other hx => ?_⟩
    cases hx
    exact hp
  | call o next ih =>
    refine ⟨h.1, h.2.1, fun answer => ?_⟩
    obtain ⟨hdurable,hlive,hnext⟩ := h.2.2 answer
    exact ⟨hdurable, hlive, fun r hr => ih r (hp r) (hnext r hr)⟩

/-- A program whose errors are results keeps its promise however it ends. -/
theorem Holds.reified {C : Promise S Op ε'} {Q : Except ε α → S → Prop} {p : Prog Op Res ε α}
    {s : S} (h : (p.reify : Prog Op Res ε' (Except ε α)).Holds exec C Q s) (answers : List Ans) :
    let run := p.attempt exec answers s
    C.durable run.state ∧ (∀ event ∈ run.events, C.step event.1 event.2) ∧
      (∀ error, run.outcome = .raised error → Q (.error error) run.state) ∧
      ∀ a, run.outcome = .returned a → Q (.ok a) run.state := by
  obtain ⟨hdurable,hstep,_,hreturned⟩ := h.attempt answers
  rw [attempt_reify] at hdurable hstep hreturned
  refine ⟨hdurable, hstep, fun error herror => ?_, fun a ha => ?_⟩
  · exact hreturned (.error error) (by simp [herror, Outcome.reify])
  · exact hreturned (.ok a) (by simp [ha, Outcome.reify])

/-- What follows a program goes on from its result; its errors are results of both. -/
theorem holds_reify_bind {C : Promise S Op ε'} {Q : Except ε α → S → Prop}
    {Q' : Except ε β → S → Prop} {p : Prog Op Res ε α} {f : α → Prog Op Res ε β} {s : S}
    (hp : (p.reify : Prog Op Res ε' (Except ε α)).Holds exec C Q s)
    (hok : ∀ a t, C.durable t → Q (.ok a) t →
      ((f a).reify : Prog Op Res ε' (Except ε β)).Holds exec C Q' t)
    (herror : ∀ error t, C.durable t → Q (.error error) t → Q' (.error error) t) :
    ((p.bind f).reify : Prog Op Res ε' (Except ε β)).Holds exec C Q' s := by
  rw [reify_bind]
  refine holds_bind hp fun x t ht hx => ?_
  cases x with
  | ok a => exact hok a t ht hx
  | error error => exact ⟨ht, herror error t ht hx⟩

/-! ### Programs of effects served by programs of operations -/

variable {E : Type} {R : E → Type} {φ : Type}

def interpret (lift : φ → ε) (serve : (e : E) → Prog Op Res ε (R e)) :
    Prog E R φ α → Prog Op Res ε α
  | .done a => .done a
  | .raise error => .raise (lift error)
  | .call e next => (serve e).bind fun r => (next r).interpret lift serve

theorem interpret_bind (lift : φ → ε) (serve : (e : E) → Prog Op Res ε (R e)) (p : Prog E R φ α)
    (f : α → Prog E R φ β) : (p.bind f).interpret lift serve =
      (p.interpret lift serve).bind fun a => (f a).interpret lift serve := by
  induction p with
  | done a => rfl
  | raise error => rfl
  | call e next ih =>
    simp only [bind, interpret, bind_assoc]
    exact congrArg _ (funext fun r => ih r)

/-- The rule for a driven program. `full` is the program it is the first part of; `I n` holds
behind `n` effects of `full`; an effect that is served is on record afterwards, and one that
is not leaves a fault. -/
theorem holds_interpret {C : Promise S Op ε'} {lift : φ → ε}
    {serve : (e : E) → Prog Op Res ε (R e)} {record : S → (e : E) → Option (R e)}
    {full : Prog E R φ β} {I : Nat → S → Prop} {Fault : ε → S → Prop} {Q : α → Prop}
    (hserve : ∀ e n s, C.durable s → I n s → full.requested (record s) n = some e →
      ((serve e).reify : Prog Op Res ε' (Except ε (R e))).Holds exec C
        (fun x t => Extends (record s) (record t) ∧ match x with
          | .ok r => record t e = some r ∧ I (n + 1) t
          | .error error => Fault error t) s)
    {p : Prog E R φ α} {k : α → Prog E R φ β} {n : Nat} {s : S} (hs : C.durable s) (hI : I n s)
    (hQ : p.Ensures Q) (hat : full.after (record s) n = some (p.bind k)) :
    ((p.interpret lift serve).reify : Prog Op Res ε' (Except ε α)).Holds exec C
      (fun x t => Extends (record s) (record t) ∧ match x with
        | .ok a => Q a ∧ ∃ m, full.after (record t) m = some (k a) ∧ I m t
        | .error error => Fault error t ∨
            ∃ e m, error = lift e ∧ full.after (record t) m = some (.raise e) ∧ I m t) s := by
  induction p generalizing n s with
  | done a => exact ⟨hs, Extends.refl _, hQ, n, hat, hI⟩
  | raise error => exact ⟨hs, Extends.refl _, .inr ⟨error, n, rfl, hat, hI⟩⟩
  | call e next ih =>
    simp only [interpret, reify_bind]
    refine holds_bind (hserve e n s hs hI (requested_of_after hat)) fun x t ht hx => ?_
    obtain ⟨hext,hx⟩ := hx
    cases x with
    | error error => exact ⟨ht, hext, .inl hx⟩
    | ok r =>
      obtain ⟨hrecorded,hI'⟩ := hx
      have hcall : full.after (record t) n = some (.call e fun r => (next r).bind k) :=
        after_mono hext hat
      have hat' : full.after (record t) (n + 1) = some ((next r).bind k) :=
        after_succ hcall hrecorded
      exact holds_mono (ih r ht hI' (hQ r) hat') fun y u _ hy => ⟨hext.trans hy.1, hy.2⟩

end Prog
end Whetstone.Lib
