import Mathlib.Data.List.Basic

/-! Actions on a state that may raise. A raise keeps the writes made before it, as a process
that fails between two writes to a store does. `Keeps` says that an action leaves one part
of the state alone; `Moves` says where an action that returns has put the part; `Yields`
says what a returned value satisfies. -/
namespace Whetstone.Lib

def Act (σ α : Type) := σ → Except String α × σ

namespace Act

variable {σ α β π : Type}

def bind (m : Act σ α) (k : α → Act σ β) : Act σ β := fun s =>
  match m s with
  | (.ok a, s') => k a s'
  | (.error message, s') => (.error message, s')

instance : Monad (Act σ) where
  pure a := fun s => (.ok a, s)
  bind := bind

def raise (message : String) : Act σ α := fun s => (.error message, s)
def read : Act σ σ := fun s => (.ok s, s)
def update (f : σ → σ) : Act σ Unit := fun s => (.ok (), f s)
def ofExcept (x : Except String α) : Act σ α := fun s => (x, s)

/-- A run of a sequence stops at its first part or goes on behind it. -/
theorem bind_cases {m : Act σ α} {k : α → Act σ β} {s s' : σ} {r : Except String β}
    (h : (m >>= k) s = (r, s')) :
    (∃ message, m s = (.error message, s') ∧ r = .error message) ∨
      ∃ a t, m s = (.ok a, t) ∧ k a t = (r, s') := by
  change bind m k s = (r, s') at h
  unfold bind at h
  cases hm : m s with
  | mk result t =>
    rw [hm] at h
    cases result with
    | error message =>
      cases h
      exact .inl ⟨message, rfl, rfl⟩
    | ok a => exact .inr ⟨a, t, rfl, h⟩

theorem ofExcept_bind_cases {x : Except String α} {k : α → Act σ β} {s s' : σ}
    {r : Except String β} (h : (ofExcept x >>= k) s = (r, s')) :
    (∃ message, x = .error message ∧ r = .error message ∧ s' = s) ∨
      ∃ a, x = .ok a ∧ k a s = (r, s') := by
  rcases bind_cases h with ⟨message,hm,hr⟩ | ⟨a,t,hm,hk⟩
  · cases hm
    exact .inl ⟨message, rfl, hr, rfl⟩
  · cases hm
    exact .inr ⟨a, rfl, hk⟩

theorem bind_ok {m : Act σ α} {k : α → Act σ β} {s t : σ} {a : α} (h : m s = (.ok a, t)) :
    (m >>= k) s = k a t := by
  change bind m k s = k a t
  unfold bind
  rw [h]

theorem bind_error {m : Act σ α} {k : α → Act σ β} {s t : σ} {message : String}
    (h : m s = (.error message, t)) : (m >>= k) s = (.error message, t) := by
  change bind m k s = (.error message, t)
  unfold bind
  rw [h]

theorem read_bind (k : σ → Act σ β) (s : σ) : (read >>= k) s = k s s := rfl

theorem update_bind (f : σ → σ) (k : Unit → Act σ β) (s : σ) :
    (update f >>= k) s = k () (f s) := rfl

theorem pure_apply (a : α) (s : σ) : (pure a : Act σ α) s = (.ok a, s) := rfl

def Keeps (part : σ → π) (m : Act σ α) : Prop := ∀ s, part (m s).2 = part s

theorem keeps_pure (part : σ → π) (a : α) : Keeps part (pure a : Act σ α) := fun _ => rfl

theorem keeps_raise (part : σ → π) (message : String) :
    Keeps part (raise message : Act σ α) := fun _ => rfl

theorem keeps_read (part : σ → π) : Keeps part (read : Act σ σ) := fun _ => rfl

theorem keeps_ofExcept (part : σ → π) (x : Except String α) :
    Keeps part (ofExcept x : Act σ α) := fun _ => rfl

theorem keeps_update (part : σ → π) (f : σ → σ) (h : ∀ s, part (f s) = part s) :
    Keeps part (update f) := h

theorem keeps_bind (part : σ → π) (m : Act σ α) (k : α → Act σ β) (hm : Keeps part m)
    (hk : ∀ a, Keeps part (k a)) : Keeps part (m >>= k) := by
  intro s
  have hfirst := hm s
  change part (bind m k s).2 = part s
  unfold bind
  cases hs : m s with
  | mk result s' =>
    rw [hs] at hfirst
    cases result with
    | error message => exact hfirst
    | ok a => exact (hk a s').trans hfirst

/- From a state whose part is `v`: an action that returns leaves a part that satisfies `Q`,
and one that raises leaves such a part or `v`. -/
def Moves (part : σ → π) (v : π) (Q : π → Prop) (m : Act σ α) : Prop :=
  ∀ s, part s = v → Q (part (m s).2) ∨ part (m s).2 = v ∧ ∃ message, (m s).1 = .error message

variable {part : σ → π} {v : π} {Q : π → Prop}

theorem moves_raise (message : String) : Moves part v Q (raise message : Act σ α) :=
  fun _ hs => .inr ⟨hs, message, rfl⟩

theorem moves_keeps (m : Act σ α) (hm : Keeps part m) (hv : Q v) : Moves part v Q m := by
  intro s hs
  rw [hm s, hs]
  exact .inl hv

theorem moves_update (f : σ → σ) (h : ∀ s, Q (part (f s))) : Moves part v Q (update f) :=
  fun s _ => .inl (h s)

theorem moves_mono (R : π → Prop) (m : Act σ α) (hm : Moves part v R m)
    (h : ∀ p, R p → Q p) : Moves part v Q m :=
  fun s hs => (hm s hs).imp_left (h _)

/-- An action that leaves the part alone may stand before one that moves it. -/
theorem moves_after (m : Act σ α) (k : α → Act σ β) (hm : Keeps part m)
    (hk : ∀ a, Moves part v Q (k a)) : Moves part v Q (m >>= k) := by
  intro s hs
  have hfirst := (hm s).trans hs
  change Q (part (bind m k s).2) ∨
    part (bind m k s).2 = v ∧ ∃ message, (bind m k s).1 = .error message
  unfold bind
  cases hrun : m s with
  | mk result s' =>
    rw [hrun] at hfirst
    cases result with
    | error message => exact .inr ⟨hfirst, message, rfl⟩
    | ok a => exact hk a s' hfirst

/-- And one that leaves it alone may stand behind. -/
theorem moves_before (m : Act σ α) (k : α → Act σ β) (hm : Moves part v Q m)
    (hk : ∀ a, Keeps part (k a)) : Moves part v Q (m >>= k) := by
  intro s hs
  have hfirst := hm s hs
  change Q (part (bind m k s).2) ∨
    part (bind m k s).2 = v ∧ ∃ message, (bind m k s).1 = .error message
  unfold bind
  cases hrun : m s with
  | mk result s' =>
    rw [hrun] at hfirst
    cases result with
    | error message =>
      rcases hfirst with hmoved | ⟨hkept,_⟩
      · exact .inl hmoved
      · exact .inr ⟨hkept, message, rfl⟩
    | ok a =>
      rcases hfirst with hmoved | ⟨_,message,herror⟩
      · exact .inl ((hk a s').symm ▸ hmoved)
      · cases herror

/-- What follows a fallible computation may use its value. -/
theorem moves_ofExcept (x : Except String α) (k : α → Act σ β)
    (hk : ∀ a, x = .ok a → Moves part v Q (k a)) : Moves part v Q (ofExcept x >>= k) := by
  cases x with
  | error message => exact fun s hs => .inr ⟨hs, message, rfl⟩
  | ok a => exact hk a rfl

/- From a state whose part is `v`, the part stays `v` and a returned value satisfies `R`. -/
def Yields (part : σ → π) (v : π) (R : α → Prop) (m : Act σ α) : Prop :=
  ∀ s, part s = v → part (m s).2 = v ∧ ∀ a, (m s).1 = .ok a → R a

theorem yields_pure (R : α → Prop) (a : α) (h : R a) :
    Yields part v R (pure a : Act σ α) := by
  intro s hs
  refine ⟨hs, ?_⟩
  intro b hb
  cases hb
  exact h

theorem yields_after (R : β → Prop) (m : Act σ α) (k : α → Act σ β) (hm : Keeps part m)
    (hk : ∀ a, Yields part v R (k a)) : Yields part v R (m >>= k) := by
  intro s hs
  have hfirst := (hm s).trans hs
  change part (bind m k s).2 = v ∧ ∀ b, (bind m k s).1 = .ok b → R b
  unfold bind
  cases hrun : m s with
  | mk result s' =>
    rw [hrun] at hfirst
    cases result with
    | error message => exact ⟨hfirst, fun b hb => by cases hb⟩
    | ok a => exact hk a s' hfirst

theorem yields_read (R : β → Prop) (k : σ → Act σ β)
    (hk : ∀ s, part s = v → Yields part v R (k s)) : Yields part v R (read >>= k) :=
  fun s hs => hk s hs s hs

theorem yields_ofExcept (R : β → Prop) (x : Except String α) (k : α → Act σ β)
    (hk : ∀ a, x = .ok a → Yields part v R (k a)) : Yields part v R (ofExcept x >>= k) := by
  cases x with
  | error message => exact fun s hs => ⟨hs, fun b hb => by cases hb⟩
  | ok a => exact hk a rfl

/-- What follows may use what the returned value satisfies. -/
theorem moves_yields (R : α → Prop) (m : Act σ α) (k : α → Act σ β) (hm : Yields part v R m)
    (hk : ∀ a, R a → Moves part v Q (k a)) : Moves part v Q (m >>= k) := by
  intro s hs
  obtain ⟨hpart,hvalue⟩ := hm s hs
  change Q (part (bind m k s).2) ∨
    part (bind m k s).2 = v ∧ ∃ message, (bind m k s).1 = .error message
  unfold bind
  cases hrun : m s with
  | mk result s' =>
    rw [hrun] at hpart hvalue
    cases result with
    | error message => exact .inr ⟨hpart, message, rfl⟩
    | ok a => exact hk a (hvalue a rfl) s' hpart

end Act
end Whetstone.Lib
