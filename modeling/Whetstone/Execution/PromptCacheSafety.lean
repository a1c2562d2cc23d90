import Whetstone.Execution.PromptCacheTurns
import Whetstone.Lib.Pledge

/-! The programs of the prompt cache among others. Every assertion is about a living process: one
that has crashed takes no operation. A process that holds the lock of a key knows the stage that
its files are in, whatever the others do. -/
namespace Whetstone.Execution.PromptCache
open Whetstone.Core Whetstone.Lib Whetstone.Provider
open Whetstone.Lib.Prog (ofExcept)

section Safety

variable [IdentityHasher] {F : Type}

/-! ### The contract -/

def Relies (s t : Store F) : Label F → Prop
  | .process pid _ => (s.dead pid = true → t.dead pid = true) ∧
      (t.dead pid = false → Store.Steady pid s t)
  | .crash _ => True

def Compatible : Label F → Label F → Prop
  | .process pid _, .process pid' _ => pid ≠ pid'
  | _, _ => True

variable (F) in
def contract : Contract (Label F) (Store F) (CacheOp F) where
  inv := Store.Sound
  allowed _ _ _ := True
  rely l s t := Relies s t l
  compat := Compatible
  pre _ _ := True
  rely_refl l s := by
    cases l with
    | process pid call => exact ⟨id, fun _ => .refl pid s⟩
    | crash pid => trivial
  rely_trans l s t u h h' := by
    cases l with
    | process pid call =>
      refine ⟨fun hdead => h'.1 (h.1 hdead), fun hlive => ?_⟩
      have ht : t.dead pid = false := by
        cases hdead : t.dead pid with
        | false => rfl
        | true => exact absurd (h'.1 hdead) (by rw [hlive]; simp)
      exact (h.2 ht).trans (h'.2 hlive)
    | crash pid => trivial

/- What a process has of its own does not shrink, nor does what is counted. -/
structure Onward (pid : Nat) (s t : Store F) : Prop where
  paid : ∀ key answered, .paid pid key answered ∈ t.log → .paid pid key answered ∈ s.log
  log : ∃ events, t.log = s.log ++ events
  accounted : ∀ key, s.accounts.accounted key = true → t.accounts.accounted key = true

theorem Onward.refl (pid : Nat) (s : Store F) : Onward pid s s :=
  ⟨fun _ _ h => h, ⟨[], (List.append_nil _).symm⟩, fun _ h => h⟩

theorem Onward.trans {pid : Nat} {s t u : Store F} (h : Onward pid s t) (h' : Onward pid t u) :
    Onward pid s u where
  paid key answered hmem := h.paid key answered (h'.paid key answered hmem)
  log := by
    obtain ⟨events,ht⟩ := h.log
    obtain ⟨events',hu⟩ := h'.log
    exact ⟨events ++ events', by rw [hu, ht, List.append_assoc]⟩
  accounted key hkey := h'.accounted key (h.accounted key hkey)

theorem Store.Steady.onward {pid : Nat} {s t : Store F} (h : Store.Steady pid s t) :
    Onward pid s t :=
  ⟨fun _ _ hmem => h.own _ hmem rfl, h.log, h.accounted⟩

/-- `Ends pid call E p s Q`: from `s` on, the program keeps its promises; while its process lives,
it ends in `Q`, or raises an error in `E`. -/
def Ends {α : Type} (pid : Nat) (call : CacheCall F) (E : CacheError → Store F → Prop)
    (p : CacheProg F α) (s : Store F) (Q : α → Store F → Prop) : Prop :=
  (contract F).Pledge (machine F) (.process pid call) (fun a t => t.dead pid = false → Q a t)
    (fun error t => t.dead pid = false → E error t) p s

/-- A program that pays for nothing and ends in `Q`. -/
def Does {α : Type} (pid : Nat) (call : CacheCall F) (E : CacheError → Store F → Prop)
    (p : CacheProg F α) (s : Store F) (Q : α → Store F → Prop) : Prop :=
  Ends pid call E p s fun a t => Onward pid s t ∧ Q a t

/- What the other processes leave true. -/
def Steadfast (pid : Nat) (P : Store F → Prop) : Prop :=
  ∀ s t, Store.Steady pid s t → P s → P t

section Rules

variable {α β : Type} {pid : Nat} {call : CacheCall F} {E : CacheError → Store F → Prop}
variable {Q : α → Store F → Prop} {s : Store F}

/- A process that is gone promises everything. -/
theorem ends_dead (p : CacheProg F α) (hdead : s.dead pid = true) : Ends pid call E p s Q := by
  cases p with
  | done a => exact fun t hst _ hlive => absurd (hst.1 hdead) (by rw [hlive]; simp)
  | raise error => exact fun t hst _ hlive => absurd (hst.1 hdead) (by rw [hlive]; simp)
  | call o next =>
    intro t answer r t' hst _ he
    have ht : t.dead pid = true := hst.1 hdead
    rw [show (machine F).exec = exec from rfl, exec, if_pos ht] at he
    cases he

theorem ends_live {p : CacheProg F α} (h : s.dead pid = false → Ends pid call E p s Q) :
    Ends pid call E p s Q := by
  cases hdead : s.dead pid with
  | true => exact ends_dead p hdead
  | false => exact h hdead

theorem ends_mono {E' : CacheError → Store F → Prop} {Q' : α → Store F → Prop}
    {p : CacheProg F α} (hp : Ends pid call E p s Q) (hQ : ∀ a t, t.Sound → Q a t → Q' a t)
    (hE : ∀ error t, E error t → E' error t) : Ends pid call E' p s Q' :=
  Contract.pledge_mono hp (fun a t ht h hlive => hQ a t ht (h hlive))
    fun error t _ h hlive => hE error t (h hlive)

theorem Does.ends {p : CacheProg F α} (h : Does pid call E p s Q) : Ends pid call E p s Q :=
  ends_mono h (fun _ _ _ ha => ha.2) fun _ _ he => he

theorem ends_bind {Q' : β → Store F → Prop} {p : CacheProg F α} {f : α → CacheProg F β}
    (hp : Ends pid call E p s Q)
    (hf : ∀ a t, t.Sound → t.dead pid = false → Q a t → Ends pid call E (f a) t Q') :
    Ends pid call E (p >>= f) s Q' := by
  refine Contract.pledge_bind hp fun a t ht hQ => ?_
  cases hdead : t.dead pid with
  | true => exact ends_dead (f a) hdead
  | false => exact hf a t ht hdead (hQ hdead)

/- A `finally` block that raises nothing. -/
theorem ends_ensure {R : α → Store F → Prop} {G : CacheError → Store F → Prop}
    {p : CacheProg F α} {q : CacheProg F Unit} (hp : Ends pid call G p s R)
    (hdone : ∀ a t, t.Sound → t.dead pid = false → R a t → Ends pid call E q t fun _ => Q a)
    (hraise : ∀ error t, t.Sound → t.dead pid = false → G error t →
      Ends pid call E q t fun _ => E error) : Ends pid call E (p.ensure q) s Q := by
  refine Contract.pledge_ensure hp (fun a t ht h => ?_) fun error t ht h => ?_
  · cases hdead : t.dead pid with
    | true => exact ends_dead q hdead
    | false => exact hdone a t ht hdead (h hdead)
  · cases hdead : t.dead pid with
    | true => exact ends_dead q hdead
    | false => exact hraise error t ht hdead (h hdead)

theorem does_done {a : α} (hstable : Steadfast pid (Q a)) (h : s.dead pid = false → Q a s) :
    Does pid call E (.done a) s Q := by
  intro t hst _ hlive
  have hsteady := hst.2 hlive
  refine ⟨hsteady.onward, hstable s t hsteady (h ?_)⟩
  cases hdead : s.dead pid with
  | false => rfl
  | true => exact absurd (hst.1 hdead) (by rw [hlive]; simp)

theorem does_raise {error : CacheError} (hstable : Steadfast pid (E error))
    (h : s.dead pid = false → E error s) : Does pid call E (.raise error) s Q := by
  intro t hst _ hlive
  refine hstable s t (hst.2 hlive) (h ?_)
  cases hdead : s.dead pid with
  | false => rfl
  | true => exact absurd (hst.1 hdead) (by rw [hlive]; simp)

theorem does_bind {Q' : β → Store F → Prop} {p : CacheProg F α} {f : α → CacheProg F β}
    (hp : Does pid call E p s Q)
    (hf : ∀ a t, t.Sound → t.dead pid = false → Onward pid s t → Q a t →
      Does pid call E (f a) t Q') : Does pid call E (p >>= f) s Q' :=
  ends_bind hp fun a t ht hlive h => ends_mono (hf a t ht hlive h.1 h.2)
    (fun _ _ _ hb => ⟨h.1.trans hb.1, hb.2⟩) fun _ _ he => he

theorem does_mono {E' : CacheError → Store F → Prop} {Q' : α → Store F → Prop}
    {p : CacheProg F α} (hp : Does pid call E p s Q)
    (hQ : ∀ a t, t.Sound → Onward pid s t → Q a t → Q' a t)
    (hE : ∀ error t, E error t → E' error t) :
    Does pid call E' p s Q' :=
  Contract.pledge_mono hp
    (fun a t ht h hlive => ⟨(h hlive).1, hQ a t ht (h hlive).1 (h hlive).2⟩)
    fun error t _ h hlive => hE error t (h hlive)

/-- An operation from the state it is taken in, which the others have left as they must. -/
theorem ends_op {o : CacheOp F} {P : Store F → Prop} {R : Res o → Store F → Prop}
    (hstable : Steadfast pid P) (hP : s.dead pid = false → P s)
    (hR : ∀ r, Steadfast pid (R r))
    (h : ∀ t answer r t', t.Sound → t.dead pid = false → P t →
      runOp pid call.misses o answer t = some (r, t') → Store.Turn pid t t' ∧ R r t') :
    Ends pid call E (op o) s R := by
  refine Contract.pledge_perform (R := fun r t => t.dead pid = false → R r t) ?_ ?_
  · intro t answer r t' hst ht he
    rw [show (machine F).exec = exec from rfl, exec] at he
    by_cases hdead : t.dead pid = true
    · rw [if_pos hdead] at he
      cases he
    · rw [if_neg hdead] at he
      have hlive : t.dead pid = false := by simpa using hdead
      have hlive' : s.dead pid = false := by
        cases hs : s.dead pid with
        | false => rfl
        | true => exact absurd (hst.1 hs) hdead
      obtain ⟨hturn,hr⟩ := h t answer r t' ht hlive (hstable s t (hst.2 hlive) (hP hlive')) he
      refine ⟨hturn.sound ht, fun l' hl' => ?_, fun _ hmem => absurd hmem List.not_mem_nil,
        fun _ => hr⟩
      cases l' with
      | crash _ => trivial
      | process other call' =>
        exact ⟨fun h => hturn.dead ▸ h, fun h => hturn.steady ht (Ne.symm hl') h⟩
  · intro r t u hr hrely _ hlive
    have ht : t.dead pid = false := by
      cases hdead : t.dead pid with
      | false => rfl
      | true => exact absurd (hrely.1 hdead) (by rw [hlive]; simp)
    exact hR r t u (hrely.2 hlive) (hr ht)

theorem steadfast_onward (s : Store F) : Steadfast pid (Onward pid s) :=
  fun _ _ hst h => h.trans hst.onward

theorem does_op {o : CacheOp F} {P : Store F → Prop} {R : Res o → Store F → Prop}
    (hstable : Steadfast pid P) (hP : s.dead pid = false → P s)
    (hR : ∀ r, Steadfast pid (R r))
    (h : ∀ t answer r t', t.Sound → t.dead pid = false → P t →
      runOp pid call.misses o answer t = some (r, t') →
        Store.Turn pid t t' ∧
          (∀ key answered, .paid pid key answered ∈ t'.log → .paid pid key answered ∈ t.log) ∧
          R r t') : Does pid call E (op o) s R := by
  refine ends_op (P := fun t => Onward pid s t ∧ P t)
    (fun t u htu ht => ⟨steadfast_onward s t u htu ht.1, hstable t u htu ht.2⟩)
    (fun hlive => ⟨.refl pid s, hP hlive⟩)
    (fun r t u htu ht => ⟨steadfast_onward s t u htu ht.1, hR r t u htu ht.2⟩)
    fun t answer r t' ht hlive hPt he => ?_
  obtain ⟨hturn,hpaid,hr⟩ := h t answer r t' ht hlive hPt.2 he
  obtain ⟨events,hlog,_⟩ := hturn.log_append
  exact ⟨hturn, hPt.1.trans ⟨hpaid, ⟨events, hlog⟩, hturn.accounted_mono ht⟩, hr⟩

/- An operation that changes nothing; its reply says something of the store it was taken in. -/
theorem does_read {o : CacheOp F} {P : Store F → Prop} {R : Res o → Store F → Prop}
    (hstable : Steadfast pid P) (hP : s.dead pid = false → P s)
    (hR : ∀ r, Steadfast pid (R r))
    (h : ∀ t answer r t', t.Sound → P t → runOp pid call.misses o answer t = some (r, t') →
      t' = t ∧ R r t) : Does pid call E (op o) s R :=
  does_op hstable hP hR fun t answer r t' ht _ hPt he => by
    obtain ⟨rfl,hr⟩ := h t answer r t' ht hPt he
    exact ⟨Store.turn_same, fun _ _ h => h, hr⟩

theorem does_ofExcept {x : Except CacheError α} (hQ : ∀ a, x = .ok a → Steadfast pid (Q a))
    (h : s.dead pid = false → ∀ a, x = .ok a → Q a s)
    (hE : ∀ error, x = .error error → ∀ t, E error t) : Does pid call E (ofExcept x) s Q := by
  cases x with
  | ok a => exact does_done (hQ a rfl) fun hlive => h hlive a rfl
  | error error => exact does_raise (fun _ t _ _ => hE error rfl t) fun _ => hE error rfl s

theorem does_ensure {R : α → Store F → Prop} {G : CacheError → Store F → Prop}
    {p : CacheProg F α} {q : CacheProg F Unit} (hp : Does pid call G p s R)
    (hdone : ∀ a t, t.Sound → t.dead pid = false → Onward pid s t → R a t →
      Does pid call E q t fun _ => Q a)
    (hraise : ∀ error t, t.Sound → t.dead pid = false → G error t →
      Does pid call E q t fun _ => E error) : Does pid call E (p.ensure q) s Q :=
  ends_ensure hp (fun a t ht hlive h => ends_mono (hdone a t ht hlive h.1 h.2)
      (fun _ _ _ hb => ⟨h.1.trans hb.1, hb.2⟩) fun _ _ he => he)
    fun error t ht hlive h => (hraise error t ht hlive h).ends

/- The handler of a body that raises nothing is never taken. -/
theorem does_handle {p : CacheProg F α} (h : CacheError → CacheProg F α)
    (hp : Does pid call (fun _ _ => False) p s Q) : Does pid call E (p.handle h) s Q := by
  refine Contract.pledge_handle hp fun error t _ hnever => ?_
  cases hdead : t.dead pid with
  | true => exact ends_dead (h error) hdead
  | false => exact (hnever hdead).elim

end Rules

/-! ### Locks and atomic writes -/

/- The records and the log are the same; tokens may have been drawn. -/
structure Alike (s t : Store F) : Prop where
  records : t.accounts.records = s.accounts.records
  log : t.log = s.log
  drawn : ∀ id other, s.drawn id = some other → t.drawn id = some other

theorem Alike.published {s t : Store F} (h : Alike s t) :
    t.accounts.published = s.accounts.published := by
  rw [Store.accounts, Store.accounts, h.log]

/- An assertion that the other processes leave true, and the process itself as long as it touches
   neither the records nor the locks that the assertion speaks of. -/
def Lasting (locks : LockName → Prop) (pid : Nat) (P : Store F → Prop) : Prop :=
  Steadfast pid P ∧ ∀ s t, Alike s t → (∀ lock, locks lock → t.exclusive lock = s.exclusive lock) →
    P s → P t

def allLocks : LockName → Prop := fun _ => True
def keyLocks : LockName → Prop := fun lock => lock ≠ .stats
def noLocks : LockName → Prop := fun _ => False

theorem Lasting.wider {locks locks' : LockName → Prop} {pid : Nat} {P : Store F → Prop}
    (h : Lasting locks pid P) (hlocks : ∀ lock, locks lock → locks' lock) :
    Lasting locks' pid P :=
  ⟨h.1, fun s t halike hsame => h.2 s t halike fun lock hlock => hsame lock (hlocks lock hlock)⟩

theorem Lasting.and {locks : LockName → Prop} {pid : Nat} {P Q : Store F → Prop}
    (h : Lasting locks pid P) (h' : Lasting locks pid Q) :
    Lasting locks pid fun s => P s ∧ Q s :=
  ⟨fun s t hst hP => ⟨h.1 s t hst hP.1, h'.1 s t hst hP.2⟩,
    fun s t halike hsame hP => ⟨h.2 s t halike hsame hP.1, h'.2 s t halike hsame hP.2⟩⟩

theorem lasting_held {locks : LockName → Prop} {pid : Nat} {lock : LockName} (h : locks lock) :
    Lasting locks pid fun s : Store F => s.exclusive lock = some pid :=
  ⟨fun _ _ hst hs => hst.locks lock hs, fun _ _ _ hsame hs => (hsame lock h).trans hs⟩

theorem lasting_all {pid : Nat} (lock : LockName) :
    Lasting allLocks pid fun s : Store F => s.exclusive lock = some pid := lasting_held trivial

theorem lasting_const {locks : LockName → Prop} {pid : Nat} (P : Prop) :
    Lasting locks pid fun _ : Store F => P :=
  ⟨fun _ _ _ h => h, fun _ _ _ _ h => h⟩

/- What was published stays published. -/
theorem lasting_published (locks : LockName → Prop) {pid : Nat} (p : Publication F → Prop) :
    Lasting locks pid fun s : Store F => ∃ x ∈ s.accounts.published, p x := by
  refine ⟨fun s t hst h => ?_, fun s t halike _ h => ?_⟩
  · obtain ⟨x,hx,hp⟩ := h
    obtain ⟨events,hlog⟩ := hst.log
    refine ⟨x, ?_, hp⟩
    rw [Store.accounts, hlog, List.filterMap_append]
    exact List.mem_append_left _ hx
  · obtain ⟨x,hx,hp⟩ := h
    exact ⟨x, halike.published ▸ hx, hp⟩

theorem lasting_unpaid (locks : LockName → Prop) {pid : Nat} (key : PromptCacheKey)
    (answered : Bool) :
    Lasting locks pid fun s : Store F => .paid pid key answered ∉ s.log :=
  ⟨fun _ _ hst h hmem => h (hst.own _ hmem rfl), fun _ _ halike _ h hmem => h (halike.log ▸ hmem)⟩

section Locks

variable {α : Type} {pid : Nat} {call : CacheCall F} {E : CacheError → Store F → Prop}
variable {s : Store F} {P : Store F → Prop} {Q : α → Store F → Prop}

theorem acquired_alike (s : Store F) (lock : LockName) (owner : Option Nat) :
    Alike s { s with exclusive := Function.update s.exclusive lock owner } :=
  ⟨rfl, rfl, fun _ _ h => h⟩

theorem does_acquire {locks : LockName → Prop} {lock : LockName} (hP : Lasting locks pid P)
    (hlock : ¬ locks lock) (hs : s.dead pid = false → P s) :
    Does pid call E (op (.acquire lock)) s fun _ t => P t ∧ t.exclusive lock = some pid := by
  refine does_op hP.1 hs
    (fun _ => (hP.wider fun _ _ => trivial).and (lasting_all lock) |>.1)
    fun t answer r t' _ _ ht he => ?_
  simp only [runOp] at he
  by_cases hfree : (t.held lock || t.shared lock) = true
  · rw [if_pos hfree] at he
    cases he
  · rw [if_neg hfree] at he
    cases he
    rw [Bool.not_eq_true, Bool.or_eq_false_iff] at hfree
    refine ⟨Store.turn_acquire hfree.1, fun _ _ h => h, ?_, Function.update_self ..⟩
    refine hP.2 t _ (acquired_alike t lock _) (fun other hother => ?_) ht
    exact Function.update_of_ne (fun h => hlock (by rw [← h]; exact hother)) ..

theorem does_release {locks : LockName → Prop} {lock : LockName} (hP : Lasting locks pid P)
    (hlock : ¬ locks lock)
    (hs : s.dead pid = false → P s ∧ s.exclusive lock = some pid ∧
      ∀ key, lock = .key key → .paid pid key true ∉ s.log ∨ s.Published key) :
    Does pid call E (op (.release lock)) s fun _ => P := by
  have hsettled : Lasting allLocks pid fun t : Store F =>
      ∀ key, lock = .key key → .paid pid key true ∉ t.log ∨ t.Published key := by
    have hpublished (key : PromptCacheKey) :
        Lasting allLocks pid fun t : Store F => t.Published key := lasting_published _ _
    refine ⟨fun s t hst h key hkey => ?_, fun s t halike hsame h key hkey => ?_⟩
    · exact (h key hkey).imp ((lasting_unpaid allLocks key true).1 s t hst)
        ((hpublished key).1 s t hst)
    · exact (h key hkey).imp ((lasting_unpaid allLocks key true).2 s t halike hsame)
        ((hpublished key).2 s t halike hsame)
  refine does_op ((hP.wider fun _ _ => trivial).and
    ((lasting_all lock).and hsettled)).1 hs (fun _ => hP.1)
    fun t answer r t' _ _ ht he => ?_
  cases he
  obtain ⟨hPt,hheld,hready⟩ := ht
  refine ⟨Store.turn_release hheld hready, fun _ _ h => h, ?_⟩
  refine hP.2 t _ (acquired_alike t lock none) (fun other hother => ?_) hPt
  exact Function.update_of_ne (fun h => hlock (by rw [← h]; exact hother)) ..

/-- The counters are worked on under their lock, by a body that raises nothing. -/
theorem does_withLock_stats {body : CacheProg F α} (hP : Lasting keyLocks pid P)
    (hQ : ∀ a, Lasting keyLocks pid (Q a)) (hs : s.dead pid = false → P s)
    (hbody : ∀ t, t.Sound → t.dead pid = false → P t → t.exclusive .stats = some pid →
      Does pid call (fun _ _ => False) body t fun a u => Q a u ∧ u.exclusive .stats = some pid) :
    Does pid call E (withLock .stats body) s Q := by
  refine does_bind (does_acquire hP (fun h => h rfl) hs) fun _ t ht hlive _ hPt => ?_
  refine does_ensure (hbody t ht hlive hPt.1 hPt.2) (fun a u _ _ _ hu => ?_)
    fun _ _ _ _ h => h.elim
  exact does_release (hQ a) (fun h => h rfl) fun _ => ⟨hu.1, hu.2, nofun⟩

/- A process may let go of a key if it has paid nothing for it, or if it is published. -/
structure Ready (pid : Nat) (key : PromptCacheKey) (s : Store F) : Prop where
  lock : s.exclusive (.key key) = some pid
  settled : .paid pid key true ∉ s.log ∨ s.Published key

theorem lasting_onward {locks : LockName → Prop} {pid : Nat} (s : Store F) :
    Lasting locks pid (Onward pid s) := by
  refine ⟨steadfast_onward s, fun t u halike _ h => h.trans ?_⟩
  refine ⟨fun _ _ hmem => halike.log ▸ hmem, ⟨[], by rw [halike.log, List.append_nil]⟩,
    fun key hkey => ?_⟩
  rwa [Accounts.accounted, Accounts.inflight, Accounts.stats, halike.records]

/-- A section under the lock of a key. -/
theorem ends_withLock_key {key : PromptCacheKey} {body : CacheProg F α}
    (hP : Lasting noLocks pid P) (hQ : ∀ a, Lasting noLocks pid (Q a))
    (hE : ∀ error, Lasting noLocks pid (E error)) (hs : s.dead pid = false → P s)
    (hbody : ∀ t, t.Sound → t.dead pid = false → P t → t.exclusive (.key key) = some pid →
      Ends pid call (fun error u => E error u ∧ Ready pid key u) body t
        fun a u => Q a u ∧ Ready pid key u) :
    Ends pid call E (withLock (.key key) body) s Q := by
  refine ends_bind (does_acquire hP (fun h => h) hs).ends fun _ t ht hlive hPt => ?_
  refine ends_ensure (hbody t ht hlive hPt.1 hPt.2) (fun a u _ _ hu => ?_)
    fun error u _ _ hu => ?_
  · refine (does_release (hQ a) (fun h => h) fun _ => ⟨hu.1, hu.2.lock, fun key' hkey => ?_⟩).ends
    cases hkey
    exact hu.2.settled
  · refine (does_release (hE error) (fun h => h)
      fun _ => ⟨hu.1, hu.2.lock, fun key' hkey => ?_⟩).ends
    cases hkey
    exact hu.2.settled

theorem does_withLock_key {key : PromptCacheKey} {body : CacheProg F α}
    (hP : Lasting noLocks pid P) (hQ : ∀ a, Lasting noLocks pid (Q a))
    (hE : ∀ error, Lasting noLocks pid (E error)) (hs : s.dead pid = false → P s)
    (hbody : ∀ t, t.Sound → t.dead pid = false → Onward pid s t → P t →
      t.exclusive (.key key) = some pid →
      Does pid call (fun error u => E error u ∧ Ready pid key u) body t
        fun a u => Q a u ∧ Ready pid key u) :
    Does pid call E (withLock (.key key) body) s Q := by
  refine ends_withLock_key (hP.and (lasting_onward s)) (fun a => (lasting_onward s).and (hQ a)) hE
    (fun hlive => ⟨hs hlive, .refl pid s⟩) fun t ht hlive hPt hlock => ?_
  refine ends_mono (hbody t ht hlive hPt.2 hPt.1 hlock) (fun a u _ ha => ?_) fun _ _ he => he
  exact ⟨⟨hPt.2.trans ha.1, ha.2.1⟩, ha.2.2⟩

/-- A file is written beside and takes its place in one step. -/
theorem does_atomicWrite {file : CacheFile} {body : Body F} {R : Store F → Prop}
    (hP : Lasting allLocks pid P) (hR : Lasting allLocks pid R) (hs : s.dead pid = false → P s)
    (hplace : ∀ t temporary, t.Sound → P t → temporary.isRecord = false →
      Store.Turn pid t (t.placeBody pid call.misses temporary file body) ∧
        (∀ key answered,
          .paid pid key answered ∈ (t.placeBody pid call.misses temporary file body).log →
            .paid pid key answered ∈ t.log) ∧
        R (t.placeBody pid call.misses temporary file body)) :
    Does pid call E (atomicWrite file body) s fun _ => R := by
  refine does_bind (Q := fun (temporary : CacheFile) t => P t ∧ temporary.isRecord = false)
    ?_ fun temporary t ht hlive _ hPt => ?_
  · refine does_op hP.1 hs (fun _ => (hP.and (lasting_const _)).1) fun t answer r t' _ _ ht he => ?_
    simp only [runOp] at he
    by_cases hdrawn : (t.drawn answer.token).isSome = true
    · rw [if_pos hdrawn] at he
      cases he
    · rw [if_neg hdrawn] at he
      cases he
      rw [Option.not_isSome_iff_eq_none] at hdrawn
      have hrecords (other : CacheFile) (hother : other.isRecord = false) :
          ({ t.draw pid answer.token with files := t.files.set other .unfinished } :
            Store F).accounts.records = t.accounts.records :=
        (congrArg Accounts.records
          (Store.accounts_set_other (s := t.draw pid answer.token) hother .unfinished)).trans rfl
      have hkept (id : PublicationId) (other : Nat) (h : t.drawn id = some other) :
          (t.draw pid answer.token).drawn id = some other :=
        (Store.turn_draw hdrawn : Store.Turn pid t _).drawn id other h
      refine ⟨Store.turn_quiet rfl (hrecords _ rfl) rfl (fun _ _ _ _ h => h) hkept
        fun _ h => .inl h, fun _ _ h => h, hP.2 t _ ⟨hrecords _ rfl, rfl, hkept⟩ ?_ ht, rfl⟩
      exact fun _ _ => rfl
  · refine does_ensure (R := fun _ => R) (G := fun _ _ => False) ?_ (fun _ u _ _ _ hu => ?_)
      fun _ _ _ _ h => h.elim
    · refine does_op (hP.and (lasting_const (temporary.isRecord = false))).1 (fun _ => hPt)
        (fun _ => hR.1) fun u answer r u' hu _ hPu he => ?_
      cases he
      exact hplace u temporary hu hPu.1 hPu.2
    · refine does_op (hR.and (lasting_const (temporary.isRecord = false))).1
        (fun _ => ⟨hu, hPt.2⟩) (fun _ => hR.1) fun v answer r v' _ _ hRv he => ?_
      cases he
      have hrecords := congrArg Accounts.records (Store.accounts_erase_other (s := v) hRv.2)
      exact ⟨Store.turn_files hrecords ⟨rfl, rfl, rfl, rfl⟩, fun _ _ h => h,
        hR.2 v _ ⟨hrecords, rfl, fun _ _ h => h⟩ (fun _ _ => rfl) hRv.1⟩

end Locks

end Safety

end Whetstone.Execution.PromptCache
