import Whetstone.Lib.CrashSafe

/-! The rely-guarantee rule of pools for threads that also promise something of the errors they
raise. A pledge is kept from any state the other threads may have made, so that it holds of a
thread that is stopped anywhere. -/
namespace Whetstone.Lib.Contract

variable {T S Ans Op : Type} {Res : Op → Type} {ε α β : Type}
variable (C : Contract T S Op) (M : Machine T S Ans Op Res ε)

/- One operation of a thread: it keeps the invariant and what the other threads rely on, and its
   reply satisfies `Q`. -/
def Takes (l : T) (o : Op) (Q : Res o → S → Prop) (s : S) : Prop :=
  ∀ t a r t', C.rely l s t → C.inv t → M.exec l o a t = some (r, t') →
    C.inv t' ∧ (∀ l', C.compat l l' → C.rely l' t t') ∧ (∀ l' ∈ M.spawns o, C.pre l' t') ∧ Q r t'

/-- `Pledge l Q E p s`: every operation of `p` keeps the invariant and what the others rely on, a
result of `p` satisfies `Q` and an error `E`. -/
def Pledge (l : T) (Q : α → S → Prop) (E : ε → S → Prop) : Prog Op Res ε α → S → Prop
  | .done a, s => ∀ t, C.rely l s t → C.inv t → Q a t
  | .raise error, s => ∀ t, C.rely l s t → C.inv t → E error t
  | .call o next, s => C.Takes M l o (fun r t => Pledge l Q E (next r) t) s

variable {C M} {l : T} {Q : α → S → Prop} {Q' : β → S → Prop} {E : ε → S → Prop}

theorem Takes.rely {o : Op} {R : Res o → S → Prop} {s t : S} (h : C.Takes M l o R s)
    (hst : C.rely l s t) : C.Takes M l o R t :=
  fun u a r u' hu => h u a r u' (C.rely_trans l s t u hst hu)

theorem Takes.mono {o : Op} {R R' : Res o → S → Prop} {s : S} (h : C.Takes M l o R s)
    (hR : ∀ r t, R r t → R' r t) : C.Takes M l o R' s := by
  intro t a r t' hst ht he
  obtain ⟨hinv,hguar,hpre,hr⟩ := h t a r t' hst ht he
  exact ⟨hinv, hguar, hpre, hR r t' hr⟩

theorem Pledge.rely {p : Prog Op Res ε α} {s t : S} (h : C.Pledge M l Q E p s)
    (hst : C.rely l s t) : C.Pledge M l Q E p t := by
  cases p with
  | done a => exact fun u hu => h u (C.rely_trans l s t u hst hu)
  | raise error => exact fun u hu => h u (C.rely_trans l s t u hst hu)
  | call o next => exact Takes.rely h hst

/-- A pledge may be proved in the states it is used in, which keep the invariant. -/
theorem pledge_of_current {p : Prog Op Res ε α} {s : S}
    (h : ∀ t, C.rely l s t → C.inv t → C.Pledge M l Q E p t) : C.Pledge M l Q E p s := by
  cases p with
  | done a => exact fun t hst ht => h t hst ht t (C.rely_refl l t) ht
  | raise error => exact fun t hst ht => h t hst ht t (C.rely_refl l t) ht
  | call o next => exact fun t a r t' hst ht => h t hst ht t a r t' (C.rely_refl l t) ht

/-- What a program leaves still stands when the next one starts. -/
theorem pledge_bind_stable {p : Prog Op Res ε α} {f : α → Prog Op Res ε β} {s : S}
    (hp : C.Pledge M l Q E p s)
    (hf : ∀ a t, C.inv t → (∀ u, C.rely l t u → C.inv u → Q a u) → C.Pledge M l Q' E (f a) t) :
    C.Pledge M l Q' E (p.bind f) s := by
  induction p generalizing s with
  | done a =>
    refine pledge_of_current fun t hst ht => hf a t ht fun u htu hu => ?_
    exact hp u (C.rely_trans l s t u hst htu) hu
  | raise error => exact hp
  | call o next ih => exact Takes.mono hp fun r t hr => ih r hr

theorem pledge_bind {p : Prog Op Res ε α} {f : α → Prog Op Res ε β} {s : S}
    (hp : C.Pledge M l Q E p s)
    (hf : ∀ a t, C.inv t → Q a t → C.Pledge M l Q' E (f a) t) :
    C.Pledge M l Q' E (p.bind f) s :=
  pledge_bind_stable hp fun a t ht hQ => hf a t ht (hQ t (C.rely_refl l t) ht)

theorem pledge_mono {E' : ε → S → Prop} {Q₂ : α → S → Prop} {p : Prog Op Res ε α} {s : S}
    (hp : C.Pledge M l Q E p s) (hQ : ∀ a t, C.inv t → Q a t → Q₂ a t)
    (hE : ∀ error t, C.inv t → E error t → E' error t) : C.Pledge M l Q₂ E' p s := by
  induction p generalizing s with
  | done a => exact fun t hst ht => hQ a t ht (hp t hst ht)
  | raise error => exact fun t hst ht => hE error t ht (hp t hst ht)
  | call o next ih => exact Takes.mono hp fun r t hr => ih r hr

/-- A handler runs on the errors its body may raise. -/
theorem pledge_handle {F : ε → S → Prop} {h : ε → Prog Op Res ε α} {p : Prog Op Res ε α} {s : S}
    (hp : C.Pledge M l Q F p s)
    (hh : ∀ error t, C.inv t → F error t → C.Pledge M l Q E (h error) t) :
    C.Pledge M l Q E (p.handle h) s := by
  induction p generalizing s with
  | done a => exact hp
  | raise error => exact pledge_of_current fun t hst ht => hh error t ht (hp t hst ht)
  | call o next ih => exact Takes.mono hp fun r t hr => ih r hr

/-- A `finally` block starts from what its body leaves, whether that returned or raised. -/
theorem pledge_ensure {Q₂ : α → S → Prop} {E₂ : ε → S → Prop} {p : Prog Op Res ε α}
    {q : Prog Op Res ε Unit} {s : S} (hp : C.Pledge M l Q₂ E₂ p s)
    (hdone : ∀ a t, C.inv t → Q₂ a t → C.Pledge M l (fun _ => Q a) E q t)
    (hraise : ∀ error t, C.inv t → E₂ error t → C.Pledge M l (fun _ => E error) E q t) :
    C.Pledge M l Q E (p.ensure q) s := by
  induction p generalizing s with
  | done a =>
    refine pledge_of_current fun t hst ht => ?_
    exact pledge_bind_stable (hdone a t ht (hp t hst ht)) fun _ u _ hQ v huv hv => hQ v huv hv
  | raise error =>
    refine pledge_of_current fun t hst ht => ?_
    exact pledge_bind_stable (hraise error t ht (hp t hst ht)) fun _ u _ hE v huv hv => hE v huv hv
  | call o next ih => exact Takes.mono hp fun r t hr => ih r hr

theorem pledge_ofExcept (x : Except ε α) (s : S)
    (hok : ∀ a, x = .ok a → ∀ t, C.rely l s t → C.inv t → Q a t)
    (herror : ∀ error, x = .error error → ∀ t, C.rely l s t → C.inv t → E error t) :
    C.Pledge M l Q E (Prog.ofExcept x) s := by
  cases x with
  | ok a => exact hok a rfl
  | error error => exact herror error rfl

theorem pledge_perform {o : Op} {R : Res o → S → Prop} {s : S} (h : C.Takes M l o R s)
    (hstable : ∀ r t u, R r t → C.rely l t u → C.inv u → R r u) :
    C.Pledge M l R E (Prog.perform o) s :=
  Takes.mono h fun r t hr u htu hu => hstable r t u hr htu hu

/- A pool under the contract whose threads keep their pledges from here on. -/
structure Upheld (C : Contract T S Op) (M : Machine T S Ans Op Res ε) (E : T → ε → S → Prop)
    (c : Pool T S Op Res ε) : Prop where
  inv : C.inv c.state
  compat : (c.threads.map Thread.label).Pairwise fun a b => C.compat a b ∧ C.compat b a
  pledge : ∀ th ∈ c.threads, C.Pledge M th.label (fun _ _ => True) (E th.label) th.prog c.state

section Upheld

variable {E : T → ε → S → Prop} {c : Pool T S Op Res ε}

/-- One scheduled step of a pool that starts no thread. -/
theorem Upheld.step {c' : Pool T S Op Res ε} (hspawns : ∀ o, M.spawns o = [])
    (hc : Upheld C M E c) (i : Nat) (a : Ans) (h : M.step c i a = some c') : Upheld C M E c' := by
  obtain ⟨l,o,next,r,hi,he,hth⟩ := M.step_some c c' i a h
  rw [hspawns, List.map_nil, List.append_nil] at hth
  have hpledge := hc.pledge ⟨l, .call o next⟩ (List.mem_of_getElem? hi)
  obtain ⟨hinv,hguar,_,hnext⟩ := hpledge c.state a r c'.state (C.rely_refl l c.state) hc.inv he
  refine ⟨hinv, ?_, ?_⟩
  · rw [hth, map_label_set c.threads i l _ _ hi]
    exact hc.compat
  · intro th hmem
    rw [hth] at hmem
    obtain ⟨j,hj⟩ := List.getElem?_of_mem hmem
    rw [List.getElem?_set] at hj
    by_cases hij : i = j
    · have hlt : i < c.threads.length := (List.getElem?_eq_some_iff.mp hi).1
      subst hij
      simp only [if_true, hlt, Option.some.injEq] at hj
      subst hj
      exact hnext
    · rw [if_neg hij] at hj
      have hcompat := compat_of_ne hc.compat i j hij _ th hi hj
      exact (hc.pledge th (List.mem_of_getElem? hj)).rely (hguar th.label hcompat)

theorem Upheld.run (hspawns : ∀ o, M.spawns o = []) (hc : Upheld C M E c)
    (schedule : List (Nat × Ans)) : Upheld C M E (M.run c schedule) := by
  induction schedule generalizing c with
  | nil => exact hc
  | cons x rest ih =>
    obtain ⟨i,a⟩ := x
    refine ih ?_
    cases hstep : M.step c i a with
    | none => exact hc
    | some c' => exact hc.step hspawns i a hstep

/-- What a thread has raised, it had promised. -/
theorem Upheld.raised (hc : Upheld C M E c) (l : T) (error : ε)
    (h : ⟨l, .raise error⟩ ∈ c.threads) : E l error c.state :=
  hc.pledge _ h c.state (C.rely_refl l c.state) hc.inv

end Upheld
end Whetstone.Lib.Contract
