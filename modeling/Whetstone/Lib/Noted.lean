import Whetstone.Lib.Crash

/-! Executions that note some of their operations, and what a program that raises has kept. -/
namespace Whetstone.Lib.Prog

variable {Op : Type} {Res : Op → Type} {ε α : Type} {S N : Type}
variable {exec : (o : Op) → S → Option (Res o × S)} {Q : α → S → Prop} {E : ε → Prop}
variable {P : Op → Prop}

theorem all_perform {o : Op} (h : P o) : (perform o : Prog Op Res ε (Res o)).All P :=
  ⟨h, fun _ => trivial⟩

theorem all_mono {P' : Op → Prop} {p : Prog Op Res ε α} (hp : p.All P) (h : ∀ o, P o → P' o) :
    p.All P' := by
  induction p with
  | done a => trivial
  | raise error => trivial
  | call o next ih => exact ⟨h o hp.1, fun r => ih r (hp.2 r)⟩

/-- What the operations of a program keep stands where it ends. -/
theorem ends_keeps {I : S → Prop} {p : Prog Op Res ε α} {s : S} (hp : p.Ends exec Q E s)
    (hall : p.All P) (hkeeps : ∀ o r t u, P o → exec o t = some (r, u) → I t → I u) (hs : I s) :
    p.Ends exec (fun a u => Q a u ∧ I u) E s := by
  induction p generalizing s with
  | done a => exact ⟨hp, hs⟩
  | raise error => exact hp
  | call o next ih =>
    obtain ⟨r,t,he,hn⟩ := hp
    exact ⟨r, t, he, ih r hn (hall.2 r) (hkeeps o r s t hall.1 he hs)⟩

/-- What the operations of a program keep also stands where it raises. -/
theorem ends_handle {I : S → Prop} {E' : ε → Prop} {p : Prog Op Res ε α}
    {h : ε → Prog Op Res ε α} {s : S} (hp : p.Ends exec Q E s) (hall : p.All P)
    (hkeeps : ∀ o r t u, P o → exec o t = some (r, u) → I t → I u) (hs : I s)
    (hh : ∀ error t, E error → I t → (h error).Ends exec Q E' t) :
    (p.handle h).Ends exec Q E' s := by
  induction p generalizing s with
  | done a => exact hp
  | raise error => exact hh error s hp hs
  | call o next ih =>
    obtain ⟨r,t,he,hn⟩ := hp
    exact ⟨r, t, he, ih r hn (hall.2 r) (hkeeps o r s t hall.1 he hs)⟩

theorem ends_handle_ok {E' : ε → Prop} {p : Prog Op Res ε α} {h : ε → Prog Op Res ε α} {s : S}
    (hp : p.Ends exec Q (fun _ => False) s) : (p.handle h).Ends exec Q E' s := by
  induction p generalizing s with
  | done a => exact hp
  | raise error => exact absurd hp id
  | call o next ih =>
    obtain ⟨r,t,he,hn⟩ := hp
    exact ⟨r, t, he, ih r hn⟩

/- An execution that notes what some of the operations leave to note. -/
def noting (exec : (o : Op) → S → Option (Res o × S)) (note : Op → List N) (o : Op)
    (s : S × List N) : Option (Res o × S × List N) :=
  (exec o s.1).map fun ended => (ended.1, ended.2, s.2 ++ note o)

variable {note : Op → List N}

theorem noting_eq {o : Op} {s t : S} {r : Res o} (h : exec o s = some (r, t)) (noted : List N) :
    noting exec note o (s, noted) = some (r, t, noted ++ note o) := by
  rw [noting, h]
  rfl

theorem ends_noting {p : Prog Op Res ε α} {s : S} {noted : List N} (hp : p.Ends exec Q E s)
    (hall : p.All P) (hquiet : ∀ o, P o → note o = []) :
    p.Ends (noting exec note) (fun a u => Q a u.1 ∧ u.2 = noted) E (s, noted) := by
  induction p generalizing s with
  | done a => exact ⟨hp, rfl⟩
  | raise error => exact hp
  | call o next ih =>
    obtain ⟨r,t,he,hn⟩ := hp
    refine ⟨r, (t, noted), ?_, ih r hn (hall.2 r)⟩
    rw [noting_eq he, hquiet o hall.1, List.append_nil]

theorem leads_noting {p : Prog Op Res ε α} {s : S} {noted : List N} (hp : p.Leads exec Q E s) :
    p.Leads (noting exec note) (fun a u => Q a u.1) E (s, noted) := by
  induction p generalizing s noted with
  | done a => exact hp
  | raise error => exact hp
  | call o next ih =>
    intro r u hr
    obtain ⟨ended,hended,hout⟩ := Option.map_eq_some_iff.mp hr
    cases hout
    exact ih _ (hp _ _ hended)

end Whetstone.Lib.Prog
