import Mathlib.Data.List.Basic
import Mathlib.Data.List.Pairwise

/-! Programs over atomic operations, pools of threads that run them in any order, and a
rely-guarantee rule for the pools. An operation is one indivisible access of the shared
state; the scheduler picks the thread and the environment's answer at every step. A thread
that is never picked again has crashed, so a statement about every reachable pool covers
every crash. -/
namespace Whetstone.Lib

inductive Prog (Op : Type) (Res : Op → Type) (ε α : Type) where
  | done (a : α)
  | raise (error : ε)
  | call (o : Op) (next : Res o → Prog Op Res ε α)

namespace Prog

variable {Op : Type} {Res : Op → Type} {ε α β : Type}

def bind : Prog Op Res ε α → (α → Prog Op Res ε β) → Prog Op Res ε β
  | .done a, f => f a
  | .raise error, _ => .raise error
  | .call o next, f => .call o fun r => (next r).bind f

instance : Monad (Prog Op Res ε) where
  pure := .done
  bind := bind

@[simp] theorem pure_eq (a : α) : (pure a : Prog Op Res ε α) = .done a := rfl

@[simp] theorem bind_eq (p : Prog Op Res ε α) (f : α → Prog Op Res ε β) :
    p >>= f = p.bind f := rfl

def perform (o : Op) : Prog Op Res ε (Res o) := .call o .done

def handle : Prog Op Res ε α → (ε → Prog Op Res ε α) → Prog Op Res ε α
  | .done a, _ => .done a
  | .raise error, h => h error
  | .call o next, h => .call o fun r => (next r).handle h

def ofExcept : Except ε α → Prog Op Res ε α
  | .ok a => .done a
  | .error error => .raise error

/- A program run alone, its operations answered by one function. -/
def alone {S : Type} (exec : (o : Op) → S → Option (Res o × S)) :
    Prog Op Res ε α → S → Option (Except ε α × S)
  | .done a, s => some (.ok a, s)
  | .raise error, s => some (.error error, s)
  | .call o next, s =>
    match exec o s with
    | none => none
    | some (r, s') => (next r).alone exec s'

theorem alone_bind {S : Type} (exec : (o : Op) → S → Option (Res o × S))
    (p : Prog Op Res ε α) (f : α → Prog Op Res ε β) (s s' : S) (a : α)
    (h : p.alone exec s = some (.ok a, s')) :
    (p.bind f).alone exec s = (f a).alone exec s' := by
  induction p generalizing s with
  | done b =>
    simp only [alone, Option.some.injEq, Prod.mk.injEq, Except.ok.injEq] at h
    simp only [bind, h.1, h.2]
  | raise error => simp [alone] at h
  | call o next ih =>
    simp only [alone, bind] at h ⊢
    cases he : exec o s with
    | none => simp [he] at h
    | some p =>
      simp only [he] at h
      exact ih p.1 p.2 h

theorem alone_bind_error {S : Type} (exec : (o : Op) → S → Option (Res o × S))
    (p : Prog Op Res ε α) (f : α → Prog Op Res ε β) (s s' : S) (error : ε)
    (h : p.alone exec s = some (.error error, s')) :
    (p.bind f).alone exec s = some (.error error, s') := by
  induction p generalizing s with
  | done b => simp [alone] at h
  | raise error' =>
    simp only [alone, Option.some.injEq, Prod.mk.injEq, Except.error.injEq] at h
    simp only [bind, alone, h.1, h.2]
  | call o next ih =>
    simp only [alone, bind] at h ⊢
    cases he : exec o s with
    | none => simp [he] at h
    | some p =>
      simp only [he] at h ⊢
      exact ih p.1 p.2 h

/-- A program run alone ends, with a result in `Q` or an error in `E`. -/
def Ends {S : Type} (exec : (o : Op) → S → Option (Res o × S)) (Q : α → S → Prop)
    (E : ε → Prop) : Prog Op Res ε α → S → Prop
  | .done a, s => Q a s
  | .raise error, _ => E error
  | .call o next, s => ∃ r s', exec o s = some (r, s') ∧ (next r).Ends exec Q E s'

section Ends

variable {S : Type} {exec : (o : Op) → S → Option (Res o × S)} {Q : α → S → Prop}
variable {E : ε → Prop}

theorem ends_bind {Q' : β → S → Prop} {p : Prog Op Res ε α} {f : α → Prog Op Res ε β} {s : S}
    (hp : p.Ends exec Q E s) (hf : ∀ a t, Q a t → (f a).Ends exec Q' E t) :
    (p.bind f).Ends exec Q' E s := by
  induction p generalizing s with
  | done a => exact hf a s hp
  | raise error => exact hp
  | call o next ih =>
    obtain ⟨r,t,he,hn⟩ := hp
    exact ⟨r, t, he, ih r hn⟩

theorem ends_mono {Q' : α → S → Prop} {E' : ε → Prop} {p : Prog Op Res ε α} {s : S}
    (hp : p.Ends exec Q E s) (hQ : ∀ a t, Q a t → Q' a t) (hE : ∀ error, E error → E' error) :
    p.Ends exec Q' E' s := by
  induction p generalizing s with
  | done a => exact hQ a s hp
  | raise error => exact hE error hp
  | call o next ih =>
    obtain ⟨r,t,he,hn⟩ := hp
    exact ⟨r, t, he, ih r hn⟩

theorem ends_alone {p : Prog Op Res ε α} {s : S} (hp : p.Ends exec Q E s) :
    ∃ r t, p.alone exec s = some (r, t) ∧ (∀ a, r = .ok a → Q a t) ∧
      ∀ error, r = .error error → E error := by
  induction p generalizing s with
  | done a =>
    refine ⟨.ok a, s, rfl, fun b hb => ?_, fun error he => (by cases he)⟩
    cases hb
    exact hp
  | raise error =>
    refine ⟨.error error, s, rfl, fun b hb => (by cases hb), fun e he => ?_⟩
    cases he
    exact hp
  | call o next ih =>
    obtain ⟨r,t,he,hn⟩ := hp
    obtain ⟨r',t',ha,hq⟩ := ih r hn
    refine ⟨r', t', ?_, hq⟩
    rw [alone, he]
    exact ha

/-- A program run alone, if it ends, ends with a result in `Q` or an error in `E`. -/
def Leads {S : Type} (exec : (o : Op) → S → Option (Res o × S)) (Q : α → S → Prop)
    (E : ε → Prop) : Prog Op Res ε α → S → Prop
  | .done a, s => Q a s
  | .raise error, _ => E error
  | .call o next, s => ∀ r s', exec o s = some (r, s') → (next r).Leads exec Q E s'

theorem leads_bind {Q' : β → S → Prop} {p : Prog Op Res ε α} {f : α → Prog Op Res ε β} {s : S}
    (hp : p.Leads exec Q E s) (hf : ∀ a t, Q a t → (f a).Leads exec Q' E t) :
    (p.bind f).Leads exec Q' E s := by
  induction p generalizing s with
  | done a => exact hf a s hp
  | raise error => exact hp
  | call o next ih => exact fun r t he => ih r (hp r t he)

theorem leads_mono {Q' : α → S → Prop} {E' : ε → Prop} {p : Prog Op Res ε α} {s : S}
    (hp : p.Leads exec Q E s) (hQ : ∀ a t, Q a t → Q' a t) (hE : ∀ error, E error → E' error) :
    p.Leads exec Q' E' s := by
  induction p generalizing s with
  | done a => exact hQ a s hp
  | raise error => exact hE error hp
  | call o next ih => exact fun r t he => ih r (hp r t he)

theorem leads_handle {E' : ε → Prop} {p : Prog Op Res ε α} {h : ε → Prog Op Res ε α} {s : S}
    (hp : p.Leads exec Q E' s) (hh : ∀ error t, E' error → (h error).Leads exec Q E t) :
    (p.handle h).Leads exec Q E s := by
  induction p generalizing s with
  | done a => exact hp
  | raise error => exact hh error s hp
  | call o next ih => exact fun r t he => ih r (hp r t he)

theorem leads_true (p : Prog Op Res ε α) (s : S) :
    p.Leads exec (fun _ _ => True) (fun _ => True) s := by
  induction p generalizing s with
  | done a => trivial
  | raise error => trivial
  | call o next ih => exact fun r t _ => ih r t

theorem leads_ofExcept (x : Except ε α) (s : S) :
    (ofExcept x : Prog Op Res ε α).Leads exec (fun a t => x = .ok a ∧ t = s) (fun _ => True) s := by
  cases x with
  | error error => trivial
  | ok a => exact ⟨rfl, rfl⟩

theorem leads_alone {p : Prog Op Res ε α} {s t : S} (hp : p.Leads exec Q E s)
    {r : Except ε α} (h : p.alone exec s = some (r, t)) :
    (∀ a, r = .ok a → Q a t) ∧ ∀ error, r = .error error → E error := by
  induction p generalizing s with
  | done a =>
    cases h
    exact ⟨by rintro _ ⟨⟩; exact hp, by rintro _ ⟨⟩⟩
  | raise error =>
    cases h
    exact ⟨by rintro _ ⟨⟩, by rintro _ ⟨⟩; exact hp⟩
  | call o next ih =>
    rw [alone] at h
    cases he : exec o s with
    | none => simp [he] at h
    | some found =>
      simp only [he] at h
      exact ih found.1 (hp found.1 found.2 he) h

end Ends

end Prog

structure Machine (T S Ans Op : Type) (Res : Op → Type) (ε : Type) where
  exec : T → (o : Op) → Ans → S → Option (Res o × S)
  spawns : Op → List T
  code : T → Prog Op Res ε Unit

structure Thread (T Op : Type) (Res : Op → Type) (ε : Type) where
  label : T
  prog : Prog Op Res ε Unit

structure Pool (T S Op : Type) (Res : Op → Type) (ε : Type) where
  state : S
  threads : List (Thread T Op Res ε)

namespace Machine

variable {T S Ans Op : Type} {Res : Op → Type} {ε : Type}
variable (M : Machine T S Ans Op Res ε)

def start (l : T) : Thread T Op Res ε := ⟨l, M.code l⟩

def step (c : Pool T S Op Res ε) (i : Nat) (a : Ans) : Option (Pool T S Op Res ε) :=
  match c.threads[i]? with
  | some ⟨l, .call o next⟩ =>
    match M.exec l o a c.state with
    | some (r, s) => some ⟨s, c.threads.set i ⟨l, next r⟩ ++ (M.spawns o).map M.start⟩
    | none => none
  | _ => none

/- A scheduled step that is not enabled leaves the pool as it is. -/
def run : Pool T S Op Res ε → List (Nat × Ans) → Pool T S Op Res ε
  | c, [] => c
  | c, (i, a) :: rest => run ((M.step c i a).getD c) rest

/- The operation a thread is about to take. -/
def next (c : Pool T S Op Res ε) (i : Nat) : Option (T × Op) :=
  match c.threads[i]? with
  | some ⟨l, .call o _⟩ => some (l, o)
  | _ => none

/- Every operation of the run meets a condition on the state before it. -/
def Meets (P : T → Op → S → Prop) : Pool T S Op Res ε → List (Nat × Ans) → Prop
  | _, [] => True
  | c, (i, a) :: rest =>
    (∀ x, next c i = some x → P x.1 x.2 c.state) ∧ Meets P ((M.step c i a).getD c) rest

instance decidableMeets (P : T → Op → S → Prop) [∀ l o s, Decidable (P l o s)] :
    (c : Pool T S Op Res ε) → (schedule : List (Nat × Ans)) → Decidable (M.Meets P c schedule)
  | _, [] => isTrue trivial
  | c, (i, a) :: rest =>
    have : Decidable (∀ x, next c i = some x → P x.1 x.2 c.state) :=
      match next c i with
      | none => isTrue fun _ h => by cases h
      | some x => decidable_of_iff (P x.1 x.2 c.state)
          ⟨fun h _ hx => Option.some.inj hx ▸ h, fun h => h x rfl⟩
    have := decidableMeets P ((M.step c i a).getD c) rest
    inferInstanceAs (Decidable (_ ∧ _))

theorem meets_true (P : T → Op → S → Prop) (hP : ∀ l o s, P l o s) (c : Pool T S Op Res ε)
    (schedule : List (Nat × Ans)) : M.Meets P c schedule := by
  induction schedule generalizing c with
  | nil => trivial
  | cons x rest ih => exact ⟨fun y _ => hP y.1 y.2 c.state, ih _⟩

theorem meets_mono {P P' : T → Op → S → Prop} (hP : ∀ l o s, P l o s → P' l o s)
    (c : Pool T S Op Res ε) (schedule : List (Nat × Ans)) (h : M.Meets P c schedule) :
    M.Meets P' c schedule := by
  induction schedule generalizing c with
  | nil => trivial
  | cons x rest ih => exact ⟨fun y hy => hP y.1 y.2 c.state (h.1 y hy), ih _ h.2⟩

theorem run_append (c : Pool T S Op Res ε) (xs ys : List (Nat × Ans)) :
    M.run c (xs ++ ys) = M.run (M.run c xs) ys := by
  induction xs generalizing c with
  | nil => rfl
  | cons x rest ih => exact ih _

/-- A longer run goes on from a shorter one. -/
theorem run_take (c : Pool T S Op Res ε) (schedule : List (Nat × Ans)) {j k : Nat} (hjk : j ≤ k) :
    M.run c (schedule.take k) = M.run (M.run c (schedule.take j)) ((schedule.take k).drop j) := by
  have hsplit : schedule.take k = schedule.take j ++ (schedule.take k).drop j := by
    have htake := (List.take_append_drop j (schedule.take k)).symm
    rwa [List.take_take, Nat.min_eq_left hjk] at htake
  rw [← M.run_append, ← hsplit]

theorem meets_take (P : T → Op → S → Prop) (c : Pool T S Op Res ε) (schedule : List (Nat × Ans))
    (h : M.Meets P c schedule) (k : Nat) : M.Meets P c (schedule.take k) := by
  induction schedule generalizing c k with
  | nil => simpa using h
  | cons x rest ih =>
    cases k with
    | zero => trivial
    | succ k => exact ⟨h.1, ih _ h.2 k⟩

/-- A run meets a condition if each of its steps does, in the state the steps before it reach. -/
theorem meets_of_take (P : T → Op → S → Prop) (c : Pool T S Op Res ε)
    (schedule : List (Nat × Ans))
    (h : ∀ (k i : Nat) (a : Ans), schedule[k]? = some (i, a) →
      ∀ x, next (M.run c (schedule.take k)) i = some x →
        P x.1 x.2 (M.run c (schedule.take k)).state) : M.Meets P c schedule := by
  induction schedule generalizing c with
  | nil => trivial
  | cons y rest ih =>
    refine ⟨fun x hx => h 0 y.1 y.2 rfl x hx, ih _ fun k i a hk x hx => ?_⟩
    exact h (k + 1) i a (by simpa using hk) x hx

theorem next_eq (c : Pool T S Op Res ε) (i : Nat) (l : T) (o : Op)
    (k : Res o → Prog Op Res ε Unit) (h : c.threads[i]? = some ⟨l, .call o k⟩) :
    next c i = some (l, o) := by
  simp [next, h]

theorem step_some (c c' : Pool T S Op Res ε) (i : Nat) (a : Ans) (h : M.step c i a = some c') :
    ∃ l o next r, c.threads[i]? = some ⟨l, .call o next⟩ ∧
      M.exec l o a c.state = some (r, c'.state) ∧
      c'.threads = c.threads.set i ⟨l, next r⟩ ++ (M.spawns o).map M.start := by
  unfold step at h
  split at h
  · rename_i l o next hi
    split at h
    · rename_i r s he
      cases h
      exact ⟨l, o, next, r, hi, he, rfl⟩
    · cases h
  · cases h

end Machine

/-- What a pool keeps (`inv`), what a step may assume of the state it is taken in (`allowed`),
what a thread may assume of the others (`rely`), which threads may stand in one pool
(`compat`), and when a thread may be started (`pre`). -/
structure Contract (T S Op : Type) where
  inv : S → Prop
  allowed : T → Op → S → Prop
  rely : T → S → S → Prop
  compat : T → T → Prop
  pre : T → S → Prop
  rely_refl : ∀ l s, rely l s s
  rely_trans : ∀ l s t u, rely l s t → rely l t u → rely l s u

namespace Contract

variable {T S Ans Op : Type} {Res : Op → Type} {ε α β : Type}
variable (C : Contract T S Op) (M : Machine T S Ans Op Res ε)

/-- `Safe l Q p s`: from any state the others may have made of `s`, every operation of `p` keeps
the invariant and what the other threads rely on, and a result of `p` satisfies `Q`. -/
def Safe (l : T) (Q : α → S → Prop) : Prog Op Res ε α → S → Prop
  | .done a, s => ∀ t, C.rely l s t → C.inv t → Q a t
  | .raise _, _ => True
  | .call o next, s => ∀ t a r t', C.rely l s t → C.inv t → C.allowed l o t →
      M.exec l o a t = some (r, t') →
      C.inv t' ∧ (∀ l', C.compat l l' → C.rely l' t t') ∧
        (∀ l' ∈ M.spawns o, C.pre l' t') ∧ Safe l Q (next r) t'

variable {C M} {l : T} {Q : α → S → Prop} {Q' : β → S → Prop}

theorem Safe.rely {p : Prog Op Res ε α} {s t : S} (h : C.Safe M l Q p s) (hst : C.rely l s t) :
    C.Safe M l Q p t := by
  cases p with
  | done a => exact fun u hu => h u (C.rely_trans l s t u hst hu)
  | raise error => trivial
  | call o next => exact fun u a r u' hu => h u a r u' (C.rely_trans l s t u hst hu)

theorem safe_of_current {p : Prog Op Res ε α} {s : S}
    (h : ∀ t, C.rely l s t → C.inv t → C.Safe M l Q p t) : C.Safe M l Q p s := by
  cases p with
  | done a => exact fun t hst ht => h t hst ht t (C.rely_refl l t) ht
  | raise error => trivial
  | call o next =>
    exact fun t a r t' hst ht => h t hst ht t a r t' (C.rely_refl l t) ht

theorem safe_bind {p : Prog Op Res ε α} {f : α → Prog Op Res ε β} {s : S}
    (hp : C.Safe M l Q p s)
    (hf : ∀ a t, C.inv t → Q a t → C.Safe M l Q' (f a) t) : C.Safe M l Q' (p.bind f) s := by
  induction p generalizing s with
  | done a => exact safe_of_current fun t hst ht => hf a t ht (hp t hst ht)
  | raise error => trivial
  | call o next ih =>
    intro t a r t' hst ht hal he
    obtain ⟨h1,h2,h3,h4⟩ := hp t a r t' hst ht hal he
    exact ⟨h1, h2, h3, ih r h4⟩

theorem safe_handle {p : Prog Op Res ε α} {h : ε → Prog Op Res ε α} {s : S}
    (hp : C.Safe M l Q p s) (hh : ∀ error t, C.Safe M l Q (h error) t) :
    C.Safe M l Q (p.handle h) s := by
  induction p generalizing s with
  | done a => exact hp
  | raise error => exact hh error s
  | call o next ih =>
    intro t a r t' hst ht hal he
    obtain ⟨h1,h2,h3,h4⟩ := hp t a r t' hst ht hal he
    exact ⟨h1, h2, h3, ih r h4⟩

theorem safe_mono {p : Prog Op Res ε α} {Q₂ : α → S → Prop} {s : S} (hp : C.Safe M l Q p s)
    (hQ : ∀ a t, C.inv t → Q a t → Q₂ a t) : C.Safe M l Q₂ p s := by
  induction p generalizing s with
  | done a => exact fun t hst ht => hQ a t ht (hp t hst ht)
  | raise error => trivial
  | call o next ih =>
    intro t a r t' hst ht hal he
    obtain ⟨h1,h2,h3,h4⟩ := hp t a r t' hst ht hal he
    exact ⟨h1, h2, h3, ih r h4⟩

theorem safe_ofExcept (x : Except ε α) (s : S)
    (h : ∀ a, x = .ok a → ∀ t, C.rely l s t → C.inv t → Q a t) :
    C.Safe M l Q (Prog.ofExcept x) s := by
  cases x with
  | ok a => exact h a rfl
  | error error => trivial

/- A pool under the contract: its state is invariant, its threads are pairwise compatible and
   each of them is safe from here on. -/
structure Sound (C : Contract T S Op) (M : Machine T S Ans Op Res ε) (c : Pool T S Op Res ε) :
    Prop where
  inv : C.inv c.state
  compat : (c.threads.map Thread.label).Pairwise fun a b => C.compat a b ∧ C.compat b a
  safe : ∀ th ∈ c.threads, C.Safe M th.label (fun _ _ => True) th.prog c.state

/- Started threads are compatible with every thread and safe to start. -/
structure Starts (C : Contract T S Op) (M : Machine T S Ans Op Res ε) : Prop where
  compat : ∀ o, ∀ l ∈ M.spawns o, ∀ l', C.compat l l' ∧ C.compat l' l
  safe : ∀ l s, C.inv s → C.pre l s → C.Safe M l (fun _ _ => True) (M.code l) s

theorem map_label_set (threads : List (Thread T Op Res ε)) (i : Nat) (l : T)
    (p p' : Prog Op Res ε Unit) (hi : threads[i]? = some ⟨l, p⟩) :
    (threads.set i ⟨l, p'⟩).map Thread.label = threads.map Thread.label := by
  apply List.ext_getElem?
  intro j
  rw [List.getElem?_map, List.getElem?_map, List.getElem?_set]
  by_cases hj : i = j
  · subst hj
    have hlt : i < threads.length := (List.getElem?_eq_some_iff.mp hi).1
    rw [if_pos rfl, if_pos hlt, hi]
    rfl
  · simp [hj]

theorem compat_of_ne {threads : List (Thread T Op Res ε)}
    (h : (threads.map Thread.label).Pairwise fun a b => C.compat a b ∧ C.compat b a)
    (i j : Nat) (hij : i ≠ j) (a b : Thread T Op Res ε) (ha : threads[i]? = some a)
    (hb : threads[j]? = some b) : C.compat a.label b.label := by
  obtain ⟨hi,rfl⟩ := List.getElem?_eq_some_iff.mp ha
  obtain ⟨hj,rfl⟩ := List.getElem?_eq_some_iff.mp hb
  rw [List.pairwise_map, List.pairwise_iff_getElem] at h
  rcases Nat.lt_or_gt_of_ne hij with hlt | hlt
  · exact (h i j hi hj hlt).1
  · exact (h j i hj hi hlt).2

/-- One scheduled step keeps a sound pool sound. -/
theorem Sound.step {c c' : Pool T S Op Res ε} (hs : Starts C M) (hc : Sound C M c) (i : Nat)
    (a : Ans) (h : M.step c i a = some c')
    (hal : ∀ x, Machine.next c i = some x → C.allowed x.1 x.2 c.state) :
    Sound C M c' := by
  obtain ⟨l,o,next,r,hi,he,hth⟩ := M.step_some c c' i a h
  have hsafe := hc.safe ⟨l, .call o next⟩ (List.mem_of_getElem? hi)
  obtain ⟨hinv,hguar,hpre,hnext⟩ := hsafe c.state a r c'.state (C.rely_refl l c.state) hc.inv
    (hal (l, o) (Machine.next_eq c i l o next hi)) he
  refine ⟨hinv, ?_, ?_⟩
  · rw [hth, List.map_append, map_label_set c.threads i l _ _ hi, List.map_map]
    refine List.pairwise_append.mpr ⟨hc.compat, ?_, ?_⟩
    · refine List.pairwise_map.mpr (List.Pairwise.imp_of_mem ?_ (List.pairwise_of_forall
        (l := M.spawns o) (R := fun _ _ => True) fun _ _ => trivial))
      intro x y hx _ _
      exact hs.compat o x hx y
    · intro x _ y hy
      obtain ⟨l',hl',rfl⟩ := List.mem_map.mp hy
      exact (hs.compat o l' hl' x).symm
  · intro th hmem
    rw [hth, List.mem_append] at hmem
    rcases hmem with hold | hnew
    · obtain ⟨j,hj⟩ := List.getElem?_of_mem hold
      rw [List.getElem?_set] at hj
      by_cases hij : i = j
      · have hlt : i < c.threads.length := (List.getElem?_eq_some_iff.mp hi).1
        subst hij
        simp only [if_true, hlt, Option.some.injEq] at hj
        subst hj
        exact hnext
      · rw [if_neg hij] at hj
        have hcompat := compat_of_ne hc.compat i j hij _ th hi hj
        exact (hc.safe th (List.mem_of_getElem? hj)).rely (hguar th.label hcompat)
    · obtain ⟨l',hl',rfl⟩ := List.mem_map.mp hnew
      exact hs.safe l' c'.state hinv (hpre l' hl')

/-- A run whose steps are all allowed keeps a sound pool sound. -/
theorem Sound.run {c : Pool T S Op Res ε} (hs : Starts C M) (hc : Sound C M c)
    (schedule : List (Nat × Ans)) (hal : M.Meets C.allowed c schedule) :
    Sound C M (M.run c schedule) := by
  induction schedule generalizing c with
  | nil => exact hc
  | cons x rest ih =>
    obtain ⟨i,a⟩ := x
    refine ih ?_ hal.2
    cases hstep : M.step c i a with
    | none => exact hc
    | some c' => exact hc.step hs i a hstep hal.1

end Contract
end Whetstone.Lib
