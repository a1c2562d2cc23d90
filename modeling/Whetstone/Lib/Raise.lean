import Mathlib.Data.List.Basic

/-! Guards that raise. `raiseIf` is a source `if … : raise …`; its lemmas turn the
success of a chain of guards into the conjunction of the conditions they let through. -/
namespace Whetstone.Lib

variable {ε α β : Type}

def raiseIf (bad : Prop) [Decidable bad] (error : ε) : Except ε Unit :=
  if bad then .error error else .ok ()

@[simp] theorem raiseIf_eq_ok (bad : Prop) [Decidable bad] (error : ε) :
    raiseIf bad error = .ok () ↔ ¬ bad := by
  by_cases h : bad <;> simp [raiseIf, h]

theorem raiseIf_pos (bad : Prop) [Decidable bad] (error : ε) (h : bad) :
    raiseIf bad error = .error error := if_pos h

theorem raiseIf_neg (bad : Prop) [Decidable bad] (error : ε) (h : ¬ bad) :
    raiseIf bad error = .ok () := if_neg h

@[simp] theorem ok_bind (a : α) (f : α → Except ε β) : (Except.ok a >>= f) = f a := rfl

@[simp] theorem error_bind (e : ε) (f : α → Except ε β) :
    (Except.error e >>= f) = .error e := rfl

theorem bind_eq_ok (x : Except ε α) (f : α → Except ε β) (b : β) :
    x >>= f = .ok b ↔ ∃ a, x = .ok a ∧ f a = .ok b := by
  cases x with
  | error e => simp [bind, Except.bind]
  | ok a => simp [bind, Except.bind]

@[simp] theorem raiseIf_bind_eq_ok (bad : Prop) [Decidable bad] (error : ε)
    (f : Unit → Except ε β) (b : β) :
    raiseIf bad error >>= f = .ok b ↔ ¬ bad ∧ f () = .ok b := by
  by_cases h : bad <;> simp [raiseIf, h, bind, Except.bind]

/-- A sequence of checks passes when each of them does. -/
theorem check_bind_eq_ok (x : Except ε Unit) (f : Unit → Except ε β) (b : β) :
    x >>= f = .ok b ↔ x = .ok () ∧ f () = .ok b := by
  cases x with
  | error e => simp [bind, Except.bind]
  | ok a => simp [bind, Except.bind]

theorem optionForM_eq_ok (f : α → Except ε Unit) (o : Option α) :
    o.forM f = .ok () ↔ ∀ a, o = some a → f a = .ok () := by
  cases o with
  | none => simp [Option.forM, pure, Except.pure]
  | some a => simp [Option.forM]

def selectM (p : α → Except ε Bool) : List α → Except ε (List α)
  | [] => .ok []
  | a :: rest => do
    let keep ← p a
    let kept ← selectM p rest
    return if keep then a :: kept else kept

theorem selectM_ok (p : α → Except ε Bool) (q : α → Bool) (l : List α)
    (h : ∀ a ∈ l, p a = .ok (q a)) : selectM p l = .ok (l.filter q) := by
  induction l with
  | nil => rfl
  | cons a rest ih =>
    have hr := ih fun b hb => h b (List.mem_cons_of_mem a hb)
    rw [selectM, h a List.mem_cons_self, hr, List.filter_cons]
    rfl

theorem anyM_ok (p : α → Except ε Bool) (q : α → Bool) (l : List α)
    (h : ∀ a ∈ l, p a = .ok (q a)) : l.anyM p = .ok (l.any q) := by
  induction l with
  | nil => rfl
  | cons a rest ih =>
    have hr := ih fun b hb => h b (List.mem_cons_of_mem a hb)
    rw [List.anyM, h a List.mem_cons_self, ok_bind, List.any_cons]
    cases q a with
    | true => rfl
    | false => exact hr

theorem mapM_ok (f : α → Except ε β) (g : α → β) (l : List α)
    (h : ∀ a ∈ l, f a = .ok (g a)) : l.mapM f = .ok (l.map g) := by
  induction l with
  | nil => rfl
  | cons a rest ih =>
    have hr := ih fun b hb => h b (List.mem_cons_of_mem a hb)
    rw [List.mapM_cons, h a List.mem_cons_self, hr]
    rfl

theorem mapM_exists_ok (f : α → Except ε β) (l : List α) (h : ∀ a ∈ l, ∃ b, f a = .ok b) :
    ∃ bs, l.mapM f = .ok bs := by
  induction l with
  | nil => exact ⟨[], rfl⟩
  | cons a rest ih =>
    obtain ⟨b,hb⟩ := h a List.mem_cons_self
    obtain ⟨bs,hbs⟩ := ih fun c hc => h c (List.mem_cons_of_mem a hc)
    refine ⟨b :: bs, ?_⟩
    rw [List.mapM_cons, hb, ok_bind, hbs]
    rfl

theorem mapM_mem_ok {f : α → Except ε β} {l : List α} {bs : List β} (h : l.mapM f = .ok bs) :
    ∀ a ∈ l, ∃ b, f a = .ok b := by
  induction l generalizing bs with
  | nil => simp
  | cons a rest ih =>
    rw [List.mapM_cons, bind_eq_ok] at h
    obtain ⟨b,hb,hrest⟩ := h
    obtain ⟨bs',hbs,_⟩ := (bind_eq_ok _ _ _).mp hrest
    exact List.forall_mem_cons.mpr ⟨⟨b, hb⟩, ih hbs⟩

theorem mapM_ok_eq {f : α → Except ε β} {l : List α} {bs : List β} (h : l.mapM f = .ok bs)
    (g : α → β) (hg : ∀ a b, f a = .ok b → b = g a) : bs = l.map g := by
  induction l generalizing bs with
  | nil =>
    cases h
    rfl
  | cons a rest ih =>
    rw [List.mapM_cons, bind_eq_ok] at h
    obtain ⟨b,hb,hrest⟩ := h
    obtain ⟨bs',hbs,hsame⟩ := (bind_eq_ok _ _ _).mp hrest
    cases hsame
    rw [List.map_cons, ← hg a b hb, ← ih hbs]

theorem mapM_forall₂ {f : α → Except ε β} {l : List α} {bs : List β} (h : l.mapM f = .ok bs) :
    List.Forall₂ (fun a b => f a = .ok b) l bs := by
  induction l generalizing bs with
  | nil =>
    cases h
    exact .nil
  | cons a rest ih =>
    rw [List.mapM_cons, bind_eq_ok] at h
    obtain ⟨b,hb,hrest⟩ := h
    obtain ⟨bs',hbs,hsame⟩ := (bind_eq_ok _ _ _).mp hrest
    cases hsame
    exact .cons hb (ih hbs)

theorem mapM_getElem?_ok {f : α → Except ε β} {l : List α} {bs : List β} (h : l.mapM f = .ok bs)
    {i : Nat} {a : α} {b : β} (ha : l[i]? = some a) (hb : bs[i]? = some b) : f a = .ok b := by
  have hpairs := mapM_forall₂ h
  clear h
  induction hpairs generalizing i with
  | nil => cases ha
  | cons hfirst _ ih =>
    cases i with
    | zero =>
      cases ha
      cases hb
      exact hfirst
    | succ i => exact ih ha hb

theorem mapM_ok_mono {f g : α → Except ε β} (hfg : ∀ a b, f a = .ok b → g a = .ok b) {l : List α}
    {bs : List β} (h : l.mapM f = .ok bs) : l.mapM g = .ok bs := by
  induction l generalizing bs with
  | nil => exact h
  | cons a rest ih =>
    rw [List.mapM_cons, bind_eq_ok] at h ⊢
    obtain ⟨b,hb,hrest⟩ := h
    obtain ⟨bs',hbs,hsame⟩ := (bind_eq_ok _ _ _).mp hrest
    exact ⟨b, hfg a b hb, (bind_eq_ok _ _ _).mpr ⟨bs', ih hbs, hsame⟩⟩

theorem mapM_error_mem {f : α → Except ε β} {l : List α} {error : ε}
    (h : l.mapM f = .error error) : ∃ a ∈ l, f a = .error error := by
  induction l with
  | nil => cases h
  | cons a rest ih =>
    rw [List.mapM_cons] at h
    cases ha : f a with
    | error e =>
      rw [ha] at h
      cases h
      exact ⟨a, List.mem_cons_self, ha⟩
    | ok b =>
      rw [ha, ok_bind] at h
      cases hrest : rest.mapM f with
      | error e =>
        rw [hrest] at h
        cases h
        obtain ⟨c,hc,herror⟩ := ih hrest
        exact ⟨c, List.mem_cons_of_mem _ hc, herror⟩
      | ok bs =>
        rw [hrest] at h
        cases h

theorem forM_eq_ok (f : α → Except ε Unit) (l : List α) :
    l.forM f = .ok () ↔ ∀ a ∈ l, f a = .ok () := by
  induction l with
  | nil => simp [pure, Except.pure]
  | cons a rest ih =>
    change (f a >>= fun _ => rest.forM f) = .ok () ↔ _
    rw [bind_eq_ok, List.forall_mem_cons]
    constructor
    · rintro ⟨_,ha,hrest⟩
      exact ⟨ha, ih.mp hrest⟩
    · rintro ⟨ha,hrest⟩
      exact ⟨(), ha, ih.mpr hrest⟩

end Whetstone.Lib
