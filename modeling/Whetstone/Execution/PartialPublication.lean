import Whetstone.Execution.PartialDirectory

/-! The publication of an entry, which leaves the prior one or the new one wherever the process
is gone, and the prior one when it raises. -/
namespace Whetstone.Execution.Partials
open Whetstone.Core Whetstone.Lib Whetstone.Lib.Prog Directory

/-! ### Single operations -/

/- Operations that read, or that make durable what is there. -/
def Quiet : FileOp → Prop
  | .openDirectory _ | .create _ | .write .. | .replace .. | .unlink _ => False
  | _ => True

theorem perform_quiet {o : FileOp} (h : Quiet o) (s : Directory) (answer : Answer) :
    (s.perform o answer).2 = s := by
  cases o with
  | openDirectory create => cases h
  | create name => cases h
  | write fd remaining => cases h
  | replace source target => cases h
  | unlink name => cases h
  | openRead name =>
    simp only [Directory.perform]
    split
    · rfl
    · split <;> rfl
  | _ => rfl

theorem failed_quiet {o : FileOp} (h : Quiet o) (s : Directory) (answer : Answer) :
    s.failed o answer = s := by
  cases o with
  | create name => cases h
  | write fd remaining => cases h
  | _ => rfl

theorem exec_quiet {op : Op} (h : Quiet op.2) (answer : Answer) (s : Directory) :
    (exec op answer s).2 = s := by
  unfold exec
  cases answer.crash with
  | some effect =>
    simp only [perform_quiet h, ite_self]
  | none =>
    cases injected op.1 answer with
    | some error => exact failed_quiet h s answer
    | none => exact perform_quiet h s answer

section Calls

variable {I : Directory → Prop} {site : Site} {o : FileOp} {Q : Payload o → Directory → Prop}
variable {E : Failure → Directory → Prop} {s : Directory}

theorem keeps_call (hs : I s) (hperform : ∀ answer, I (s.perform o answer).2)
    (hok : ∀ answer a, (s.perform o answer).1 = .ok a → Q a (s.perform o answer).2)
    (herror : ∀ answer error, (s.perform o answer).1 = .error error →
      E (.os error) (s.perform o answer).2)
    (hfailed : ∀ answer error, injected site answer = some error →
      I (s.failed o answer) ∧ E (.os error) (s.failed o answer)) :
    (Run.call site o).Keeps exec I Q E s := by
  refine ⟨hs, fun answer => ?_⟩
  unfold exec
  cases answer.crash with
  | some effect =>
    refine ⟨?_, fun r hr => by cases hr⟩
    cases effect with
    | true => exact hperform answer
    | false => exact hs
  | none =>
    cases hinjected : injected site answer with
    | some error =>
      obtain ⟨hinv,hraise⟩ := hfailed answer error hinjected
      refine ⟨hinv, fun r hr => ?_⟩
      cases hr
      exact ⟨hinv, hraise⟩
    | none =>
      refine ⟨hperform answer, fun r hr => ?_⟩
      cases hresult : (s.perform o answer).1 with
      | ok a =>
        rw [hresult] at hr
        cases hr
        exact ⟨hperform answer, hok answer a hresult⟩
      | error error =>
        rw [hresult] at hr
        cases hr
        exact ⟨hperform answer, herror answer error hresult⟩

/- An operation that reads, where nothing is injected. -/
theorem keeps_read {r : Except OsError (Payload o)} (hr : ∀ answer, s.perform o answer = (r, s))
    (hs : I s) : (Run.call .elsewhere o).Keeps exec I (fun a t => t = s ∧ r = .ok a)
      (fun failure t => t = s ∧ ∃ error, r = .error error ∧ failure = .os error) s := by
  refine keeps_call hs ?_ ?_ ?_ ?_
  · intro answer
    rw [hr]
    exact hs
  · intro answer a ha
    rw [hr] at ha ⊢
    exact ⟨rfl, ha⟩
  · intro answer error herror
    rw [hr] at herror ⊢
    exact ⟨rfl, error, herror, rfl⟩
  · intro answer error hinjected
    cases hinjected

end Calls

section Combinators

variable {α : Type} {I : Directory → Prop} {Q : α → Directory → Prop}
variable {E : Failure → Directory → Prop} {s : Directory}

theorem keeps_check {bad : Prop} [Decidable bad] {failure : Failure}
    {Q : Unit → Directory → Prop} (hs : I s) (hok : ¬ bad → Q () s) (hbad : bad → E failure s) :
    (Run.check bad failure).Keeps exec I Q E s := by
  unfold Run.check
  by_cases h : bad
  · rw [if_pos h]
    exact ⟨hs, hbad h⟩
  · rw [if_neg h]
    exact ⟨hs, hok h⟩

theorem keeps_ofValue {value : Except String α} (hs : I s) (hok : ∀ a, value = .ok a → Q a s)
    (herror : ∀ message, value = .error message → E (.value message) s) :
    (Run.ofValue value).Keeps exec I Q E s := by
  cases value with
  | ok a => exact ⟨hs, hok a rfl⟩
  | error message => exact ⟨hs, herror message rfl⟩

theorem keeps_orNone {p : Run α} {caught : OsError → Bool} {R : Option α → Directory → Prop}
    {F : Failure → Directory → Prop} (hp : p.Keeps exec I Q F s)
    (hsome : ∀ a t, I t → Q a t → R (some a) t)
    (hnone : ∀ error t, I t → F (.os error) t → caught error = true → R none t)
    (hraise : ∀ failure t, I t → F failure t →
      (∀ error, failure = .os error → caught error = false) → E failure t) :
    (Run.orNone p caught).Keeps exec I R E s := by
  refine keeps_handle (F := F) (keeps_bind hp fun a t ht ha => ⟨ht, hsome a t ht ha⟩) ?_
  intro failure t ht hfailure
  cases failure with
  | os error =>
    by_cases hcaught : caught error = true
    · simp only [hcaught, if_true]
      exact ⟨ht, hnone error t ht hfailure hcaught⟩
    · simp only [hcaught]
      refine ⟨ht, hraise _ t ht hfailure fun other hother => ?_⟩
      cases hother
      exact Bool.not_eq_true _ ▸ hcaught
  | value message =>
    refine ⟨ht, hraise _ t ht hfailure fun _ hother => ?_⟩
    cases hother
  | rollback message =>
    refine ⟨ht, hraise _ t ht hfailure fun _ hother => ?_⟩
    cases hother

end Combinators

/-! ### Programs that only read -/

def Silent {α : Type} (p : Run α) : Prop := p.All fun op => Quiet op.2

section Silent

variable {α β : Type}

theorem silent_call (site : Site) {o : FileOp} (h : Quiet o) : Silent (Run.call site o) := by
  refine ⟨h, fun r => ?_⟩
  cases r <;> trivial

theorem Silent.bind {p : Run α} {f : α → Run β} (hp : Silent p) (hf : ∀ a, Silent (f a)) :
    Silent (p >>= f) := all_bind hp hf

theorem silent_check (bad : Prop) [Decidable bad] (failure : Failure) :
    Silent (Run.check bad failure) := by
  unfold Run.check
  split <;> trivial

theorem silent_ofValue (value : Except String α) : Silent (Run.ofValue value) := by
  cases value <;> trivial

theorem Silent.orNone {p : Run α} (hp : Silent p) (caught : OsError → Bool) :
    Silent (Run.orNone p caught) := by
  refine all_handle (all_bind hp fun _ => trivial) fun failure => ?_
  cases failure with
  | os error =>
    cases hcaught : caught error <;> simp only [hcaught] <;> trivial
  | value message => trivial
  | rollback message => trivial

theorem Silent.keeps {p : Run α} (hp : Silent p) {I : Directory → Prop} {s : Directory}
    (hs : I s) : p.Keeps exec I (fun _ t => t = s) (fun _ t => t = s) s :=
  keeps_of_quiet (fun _ answer t h => exec_quiet h answer t) hp hs

/- What holds of the start of a silent program holds of its end. -/
theorem Silent.stays {p : Run α} (hp : Silent p) {I : Directory → Prop} {Q : α → Directory → Prop}
    {E : Failure → Directory → Prop} {s : Directory} (hs : I s) (hQ : ∀ a, Q a s)
    (hE : ∀ failure, E failure s) : p.Keeps exec I Q E s := by
  refine keeps_mono (hp.keeps hs) (fun a t _ ht => ?_) fun failure t _ ht => ?_
  · rw [ht]
    exact hQ a
  · rw [ht]
    exact hE failure

variable [TextFormats] (log : PartialLog)

theorem silent_readEntry (site : Site) (fd : Nat) (name : String) :
    Silent (readEntry log site fd name) := by
  refine (silent_call site (by trivial)).bind fun before => ?_
  refine (silent_call site (by trivial)).bind fun raw => ?_
  refine (silent_call site (by trivial)).bind fun after => ?_
  refine (silent_check _ _).bind fun _ => ?_
  refine (silent_call site (by trivial)).bind fun visible => ?_
  refine (silent_check _ _).bind fun _ => ?_
  refine (silent_check _ _).bind fun _ => ?_
  refine (silent_ofValue _).bind fun record => ?_
  refine (silent_ofValue _).bind fun expected => ?_
  exact (silent_check _ _).bind fun _ => trivial

theorem silent_openedEntry (site : Site) (fd : Nat) (name : String) :
    Silent (openedEntry log site fd name) :=
  all_ensure (silent_readEntry log site fd name) (silent_call site (by trivial))

omit [TextFormats] in
theorem silent_validateCleanupCandidate (site : Site) (name : String) (requirePrivateMode : Bool) :
    Silent (validateCleanupCandidate log site name requirePrivateMode) := by
  refine (silent_call site (by trivial)).bind fun before => ?_
  exact (silent_check _ _).bind fun _ => trivial

omit [TextFormats] in
theorem silent_verifyUnchanged (site : Site) (name : String) (requirePrivateMode : Bool) :
    Silent (verifyUnchanged log site name requirePrivateMode) := by
  refine (silent_validateCleanupCandidate log site name requirePrivateMode).bind fun before => ?_
  refine (silent_call site (by trivial)).bind fun fd => ?_
  refine Silent.bind (all_ensure (silent_call site (by trivial)) (silent_call site (by trivial))) fun _ => ?_
  refine (silent_check _ _).bind fun _ => ?_
  refine (silent_call site (by trivial)).bind fun current => ?_
  exact silent_check _ _

theorem silent_validatePublishedEntry (site : Site) (name : String) (record : PartialCallRecord)
    (body : Bytes) (publishedStatus : FileStatus) :
    Silent (validatePublishedEntry log site name record body publishedStatus) := by
  refine (silent_call site (by trivial)).bind fun fd => ?_
  refine (silent_openedEntry log site fd name).bind fun visible => ?_
  refine (silent_check _ _).bind fun _ => ?_
  refine (silent_call site (by trivial)).bind fun pathStatus => ?_
  refine (silent_check _ _).bind fun _ => ?_
  refine Silent.bind (all_handle (silent_call site (by trivial)) fun failure => ?_) fun _ => ?_
  · cases failure <;> trivial
  · exact silent_check _ _

omit [TextFormats] in
theorem silent_entryExists (site : Site) (name : String) : Silent (entryExists site name) := by
  refine ((silent_call site (by trivial)).orNone _).bind fun found => ?_
  trivial

end Silent

/-! ### Temporary files -/

/- What the entries alone decide. -/
structure Stable (J : Directory → Prop) : Prop where
  same : ∀ s t, SameEntries s t → J s → J t

/- A directory that is well formed, and what else is kept of it. -/
def Kept (J : Directory → Prop) (s : Directory) : Prop := s.WellFormed ∧ J s

section Temporaries

variable {J : Directory → Prop} (hJ : Stable J) {site : Site} {s : Directory}

include hJ

theorem Stable.kept {t : Directory} (hs : Kept J s) (ht : t.WellFormed) (hsame : SameEntries s t) :
    Kept J t := ⟨ht, hJ.same s t hsame hs.2⟩

theorem keeps_create {name : String} (hs : Kept J s) (hcreated : s.created = true)
    (hname : isTemporaryName name = true) :
    (Run.call site (.create name)).Keeps exec (Kept J)
      (fun fd t => SameEntries s t ∧ t.Temporary name fd []) (fun _ t => SameEntries s t) s := by
  obtain ⟨hformed,hsame,htemporary⟩ := hs.1.createFile hcreated hname
  have hkept : Kept J (s.createFile name) := hJ.kept hs hformed hsame
  have hcases : ∀ answer, s.perform (.create name) answer = (.error .fileExists, s) ∨
      s.perform (.create name) answer = (.ok s.fresh, s.createFile name) := by
    intro answer
    simp only [Directory.perform]
    split
    · exact .inl rfl
    · exact .inr rfl
  refine keeps_call hs ?_ ?_ ?_ ?_
  · intro answer
    cases hcases answer with
    | inl h =>
      rw [h]
      exact hs
    | inr h =>
      rw [h]
      exact hkept
  · intro answer fd hfd
    cases hcases answer with
    | inl h =>
      rw [h] at hfd
      cases hfd
    | inr h =>
      rw [h] at hfd ⊢
      cases hfd
      exact ⟨hsame, htemporary⟩
  · intro answer error herror
    cases hcases answer with
    | inl h =>
      rw [h]
      exact SameEntries.refl s
    | inr h =>
      rw [h] at herror
      cases herror
  · intro answer error _
    simp only [Directory.failed]
    split
    · cases hcases answer with
      | inl h =>
        rw [h]
        exact ⟨hs, SameEntries.refl s⟩
      | inr h =>
        rw [h]
        exact ⟨hkept, hsame⟩
    · exact ⟨hs, SameEntries.refl s⟩

theorem keeps_createTemporary {targetName : String}
    (htarget : ∃ bytes, targetName = hexdigest bytes ++ ".json") (left : Nat) (hs : Kept J s)
    (hcreated : s.created = true) :
    (createTemporary site targetName left).Keeps exec (Kept J)
      (fun created t => SameEntries s t ∧ t.Temporary created.1 created.2 [])
      (fun _ t => SameEntries s t) s := by
  induction left generalizing s with
  | zero => exact ⟨hs, SameEntries.refl s⟩
  | succ left ih =>
    have htoken : (Run.call site .tokenHex).Keeps exec (Kept J)
        (fun text t => t = s ∧ ∃ token : HexToken, text = token.text) (fun _ t => SameEntries s t)
        s := by
      refine keeps_call hs (fun _ => hs) (fun answer text htext => ?_) ?_ ?_
      · cases htext
        exact ⟨rfl, answer.token, rfl⟩
      · intro _ _ herror
        cases herror
      · intro _ _ _
        exact ⟨hs, SameEntries.refl s⟩
    refine keeps_bind htoken fun text t ht htext => ?_
    obtain ⟨rfl,token,rfl⟩ := htext
    obtain ⟨bytes,rfl⟩ := htarget
    have hname := isTemporaryName_temporaryName bytes token
    let temporary := temporaryName (hexdigest bytes ++ ".json") token.text
    have hcreate : (Run.orNone (Run.call site (.create temporary)) OsError.isExists).Keeps exec
        (Kept J)
        (fun found u => SameEntries t u ∧ ∀ fd, found = some fd → u.Temporary temporary fd [])
        (fun _ u => SameEntries t u) t := by
      refine keeps_orNone (keeps_create hJ ht hcreated hname)
        (fun _ _ _ h => ⟨h.1, fun fd hsome => ?_⟩) (fun _ _ _ h _ => ⟨h, fun fd hnone => ?_⟩)
        (fun _ _ _ h _ => h)
      · cases hsome
        exact h.2
      · cases hnone
    refine keeps_bind hcreate fun found u hu hfound => ?_
    obtain ⟨hsame,htemporary⟩ := hfound
    cases found with
    | some fd => exact ⟨hu, hsame, htemporary fd rfl⟩
    | none =>
      exact keeps_mono (ih hu (hsame.created.trans hcreated))
        (fun _ _ _ h => ⟨hsame.trans h.1, h.2⟩) (fun _ _ _ h => hsame.trans h)

theorem keeps_write {name : String} {fd : Nat} {body remaining : Bytes} (hs : Kept J s)
    (htemporary : s.Temporary name fd body) :
    (Run.call site (.write fd remaining)).Keeps exec (Kept J)
      (fun written t => written ≤ remaining.length ∧ SameEntries s t ∧
        t.Temporary name fd (body ++ remaining.take written))
      (fun _ t => SameEntries s t) s := by
  have hwrite := fun bytes => hs.1.writeBytes htemporary bytes
  have hkept : ∀ bytes, Kept J (s.writeBytes fd bytes) :=
    fun bytes => hJ.kept hs (hwrite bytes).1 (hwrite bytes).2.1
  refine keeps_call hs (fun _ => hkept _) ?_ ?_ ?_
  · intro answer written hwritten
    cases hwritten
    obtain ⟨_,hsame,hafter⟩ := hwrite (remaining.take answer.count)
    refine ⟨List.length_take_le' _ _, hsame, ?_⟩
    rw [List.length_take, ← List.take_take, List.take_length]
    exact hafter
  · intro answer error herror
    cases herror
  · intro answer error _
    simp only [Directory.failed]
    split
    · exact ⟨hkept _, (hwrite _).2.1⟩
    · exact ⟨hs, SameEntries.refl s⟩

/- The bytes of a body are written one after another. -/
theorem keeps_writeAll {name : String} {fd left : Nat} {body remaining : Bytes}
    (hleft : remaining.length ≤ left) (hs : Kept J s) (htemporary : s.Temporary name fd body) :
    (writeAll site fd left remaining).Keeps exec (Kept J)
      (fun _ t => SameEntries s t ∧ t.Temporary name fd (body ++ remaining))
      (fun _ t => SameEntries s t) s := by
  induction left generalizing s body remaining with
  | zero =>
    rw [List.eq_nil_of_length_eq_zero (Nat.le_zero.mp hleft), List.append_nil]
    exact ⟨hs, SameEntries.refl s, htemporary⟩
  | succ left ih =>
    cases remaining with
    | nil =>
      rw [List.append_nil]
      exact ⟨hs, SameEntries.refl s, htemporary⟩
    | cons byte rest =>
      refine keeps_bind (keeps_write hJ hs htemporary) ?_
      intro (written : Nat) t ht hwritten
      obtain ⟨hle,hsame,hafter⟩ := hwritten
      refine keeps_bind (keeps_check (Q := fun _ u => u = t ∧ written ≠ 0) ht
        (fun hne => ⟨rfl, hne⟩) fun _ => hsame) fun _ u _ hu => ?_
      obtain ⟨rfl,hne⟩ := hu
      have hshort : ((byte :: rest).drop written).length ≤ left := by
        have hpos : 0 < written := Nat.pos_of_ne_zero hne
        rw [List.length_drop]
        omega
      have hwhole : body ++ (byte :: rest).take written ++ (byte :: rest).drop written =
          body ++ byte :: rest := by
        rw [List.append_assoc, List.take_append_drop]
      refine keeps_mono (ih hshort ht hafter) (fun _ _ _ h => ?_) fun _ _ _ h => hsame.trans h
      rw [hwhole] at h
      exact ⟨hsame.trans h.1, h.2⟩

theorem keeps_writeTemporary {name : String} {fd : Nat} {body : Bytes} (hs : Kept J s)
    (htemporary : s.Temporary name fd []) :
    (writeTemporary site fd body).Keeps exec (Kept J)
      (fun _ t => SameEntries s t ∧ t.Temporary name fd body) (fun _ t => SameEntries s t) s := by
  have hbody : (do
      writeAll site fd body.length body
      Run.call site (.fsyncFile fd)
      Run.call site (.fstat fd)).Keeps exec (Kept J)
        (fun _ t => SameEntries s t ∧ t.Temporary name fd body) (fun _ t => SameEntries s t) s := by
    refine keeps_bind (keeps_writeAll hJ le_rfl hs htemporary) fun _ t ht hwritten => ?_
    rw [List.nil_append] at hwritten
    have hrest : Silent (do
        Run.call site (.fsyncFile fd)
        Run.call site (.fstat fd)) :=
      (silent_call site (by trivial)).bind fun _ => silent_call site (by trivial)
    exact hrest.stays ht (fun _ => hwritten) fun _ => hwritten.1
  have hclose : Silent (Run.call site (.close fd)) := silent_call site (by trivial)
  exact keeps_ensure hbody
    (fun _ t ht hwritten => hclose.stays ht (fun _ => hwritten) fun _ => hwritten.1)
    fun _ t ht hsame => hclose.stays ht (fun _ => hsame) fun _ => hsame

end Temporaries

/-! ### Replacing and removing entries -/

section Entries

variable {J : Directory → Prop} {site : Site} {s : Directory}

theorem keeps_replace {source target : String} {fd : Nat} {body : Bytes} (hs : Kept J s)
    (htemporary : s.Temporary source fd body) (htarget : isEntryName target = true)
    (hafter : ∀ t, Placed s t target (some body) → J t) :
    (Run.call site (.replace source target)).Keeps exec (Kept J)
      (fun _ t => Placed s t target (some body)) (fun _ t => t = s) s := by
  obtain ⟨hformed,hplaced⟩ := hs.1.rename htemporary htarget
  have hperform : ∀ answer, s.perform (.replace source target) answer =
      (.ok (), s.rename source target fd) := by
    intro answer
    have hfind : s.find source = .ok fd := by
      rw [Directory.find, htemporary.found]
    simp only [Directory.perform, hfind]
  refine keeps_call hs ?_ ?_ ?_ fun _ _ _ => ⟨hs, rfl⟩
  · intro answer
    rw [hperform]
    exact ⟨hformed, hafter _ hplaced⟩
  · intro answer _ _
    rw [hperform]
    exact hplaced
  · intro answer error herror
    rw [hperform] at herror
    cases herror

theorem keeps_unlink {name : String} (hs : Kept J s) (hafter : J (s.erase name)) :
    (Run.call site (.unlink name)).Keeps exec (Kept J) (fun _ t => t = s.erase name)
      (fun _ t => t = s) s := by
  have hcases : ∀ answer, (∃ error, s.perform (.unlink name) answer = (.error error, s)) ∨
      s.perform (.unlink name) answer = (.ok (), s.erase name) := by
    intro answer
    simp only [Directory.perform]
    split
    · rename_i error _
      exact .inl ⟨error, rfl⟩
    · exact .inr rfl
  refine keeps_call hs ?_ ?_ ?_ fun _ _ _ => ⟨hs, rfl⟩
  · intro answer
    cases hcases answer with
    | inl h =>
      obtain ⟨error,h⟩ := h
      rw [h]
      exact hs
    | inr h =>
      rw [h]
      exact ⟨hs.1.erase name, hafter⟩
  · intro answer _ hok
    cases hcases answer with
    | inl h =>
      obtain ⟨error,h⟩ := h
      rw [h] at hok
      cases hok
    | inr h => rw [h]
  · intro answer error herror
    cases hcases answer with
    | inl h =>
      obtain ⟨_,h⟩ := h
      rw [h]
    | inr h =>
      rw [h] at herror
      cases herror

variable (log : PartialLog)

theorem keeps_verifiedUnlink {name : String} {requirePrivateMode : Bool} (hs : Kept J s)
    (hafter : J (s.erase name)) :
    (verifiedUnlink log site name requirePrivateMode).Keeps exec (Kept J)
      (fun _ t => t = s.erase name) (fun _ t => t = s) s := by
  refine keeps_bind ((silent_verifyUnchanged log site name requirePrivateMode).stays
    (Q := fun _ t => t = s) hs (fun _ => rfl) fun _ => rfl) fun _ t ht hsame => ?_
  subst hsame
  exact keeps_unlink hs hafter

theorem keeps_removeTemporary (hJ : Stable J) {temporary : String}
    (hname : isTemporaryName temporary = true) (hs : Kept J s) :
    (removeTemporary log site temporary).Keeps exec (Kept J) (fun _ t => SameEntries s t)
      (fun _ t => SameEntries s t) s := by
  have hsame : SameEntries s (s.erase temporary) := (erase_placed temporary).same_of_temporary hname
  refine keeps_bind ((silent_entryExists site temporary).stays (Q := fun _ t => t = s) hs
    (fun _ => rfl) fun _ => SameEntries.refl s) fun present t ht hstart => ?_
  subst hstart
  cases present with
  | false => exact ⟨hs, SameEntries.refl t⟩
  | true =>
    refine keeps_mono (keeps_verifiedUnlink log hs (hJ.same _ _ hsame hs.2))
      (fun _ u _ hu => ?_) fun _ u _ hu => ?_
    · rw [hu]
      exact hsame
    · rw [hu]
      exact SameEntries.refl t

end Entries

section Publication

variable [TextFormats] (log : PartialLog) {J : Directory → Prop} {site : Site} {s₀ s : Directory}
variable {name : String}

/- The body of the prior entry, if there is one. -/
def PriorOf (s : Directory) (name : String) (prior : Option PriorEntry) : Prop :=
  s.content name = prior.map PriorEntry.body

/- A restoration that returns has the prior entry back. -/
theorem keeps_restorePrior (hJ : Stable J) (hJ₀ : J s₀)
    (hname : ∃ bytes, name = hexdigest bytes ++ ".json") {body : Option Bytes}
    (hplaced : Placed s₀ s name body) (hcreated : s.created = true) (hs : Kept J s)
    {prior : Option PriorEntry} (hprior : PriorOf s₀ name prior) :
    (restorePrior log site name prior).Keeps exec (Kept J) (fun _ t => SameEntries s₀ t)
      (fun _ _ => True) s := by
  have hback : ∀ t, Placed s t name (s₀.content name) → SameEntries s₀ t :=
    fun t ht => (hplaced.trans ht).same
  cases prior with
  | none =>
    have hnone : s₀.content name = none := hprior
    have hsame : SameEntries s₀ (s.erase name) := hback _ (hnone ▸ erase_placed name)
    refine keeps_bind (keeps_mono (keeps_verifiedUnlink log hs (hJ.same _ _ hsame hJ₀))
      (fun _ _ _ h => h) fun _ _ _ _ => trivial) fun _ t ht herased => ?_
    rw [herased] at ht ⊢
    exact (silent_call site (by trivial)).stays ht (fun _ => hsame) fun _ => trivial
  | some prior =>
    have hbody : s₀.content name = some prior.body := hprior
    have hentry : isEntryName name = true := by
      obtain ⟨bytes,rfl⟩ := hname
      exact isEntryName_hexdigest bytes
    refine keeps_bind (keeps_mono (keeps_createTemporary hJ hname 4 hs hcreated)
      (fun _ _ _ h => h) fun _ _ _ _ => trivial) fun created t ht hopened => ?_
    obtain ⟨temporary,fd⟩ := created
    obtain ⟨hsame,htemporary⟩ := hopened
    have hrestored : (do
        let restoredStatus ← writeTemporary site fd prior.body
        Run.call site (.replace temporary name)
        Run.call site .fsyncDirectory
        validatePublishedEntry log site name prior.record prior.body restoredStatus).Keeps exec
          (Kept J) (fun _ u => SameEntries s₀ u) (fun _ _ => True) t := by
      refine keeps_bind (keeps_mono (keeps_writeTemporary hJ ht htemporary) (fun _ _ _ h => h)
        fun _ _ _ _ => trivial) fun restoredStatus u hu hwritten => ?_
      have hsame_of : ∀ v, Placed u v name (some prior.body) → SameEntries s₀ v := by
        intro v hv
        refine hback v ?_
        rw [hbody]
        exact (hsame.trans hwritten.1).placed hv
      refine keeps_bind (keeps_mono (keeps_replace hu hwritten.2 hentry
        fun v hv => hJ.same _ _ (hsame_of v hv) hJ₀) (fun _ _ _ h => h)
        fun _ _ _ _ => trivial) fun _ v hv hdone => ?_
      have hrest : Silent (do
          Run.call site .fsyncDirectory
          validatePublishedEntry log site name prior.record prior.body restoredStatus) :=
        (silent_call site (by trivial)).bind fun _ =>
          silent_validatePublishedEntry log site name prior.record prior.body restoredStatus
      exact hrest.stays hv (fun _ => hsame_of v hdone) fun _ => trivial
    refine keeps_ensure hrestored (fun _ u hu hdone => ?_) fun _ u hu _ => ?_
    · exact keeps_mono (keeps_removeTemporary log hJ htemporary.named hu)
        (fun _ _ _ h => hdone.trans h) fun _ _ _ _ => trivial
    · exact keeps_mono (keeps_removeTemporary log hJ htemporary.named hu)
        (fun _ _ _ _ => trivial) fun _ _ _ _ => trivial

/- A publication that raises anything but a failed rollback leaves the entries as they were. -/
def Restored (s₀ : Directory) (failure : Failure) (t : Directory) : Prop :=
  (∀ message, failure ≠ .rollback message) → SameEntries s₀ t

/-- A publication that returns has placed the entry. -/
theorem keeps_publishEntry (hJ : Stable J)
    (hname : ∃ bytes, name = hexdigest bytes ++ ".json") (hcreated : s₀.created = true)
    (hs : Kept J s₀) {record : PartialCallRecord} {body : Bytes} {prior : Option PriorEntry}
    (hprior : PriorOf s₀ name prior) (hplaced : ∀ t, Placed s₀ t name (some body) → J t) :
    (publishEntry log site name record body prior).Keeps exec (Kept J)
      (fun _ t => Placed s₀ t name (some body)) (Restored s₀) s₀ := by
  have hentry : isEntryName name = true := by
    obtain ⟨bytes,rfl⟩ := hname
    exact isEntryName_hexdigest bytes
  refine keeps_bind (keeps_mono (keeps_createTemporary hJ hname 4 hs hcreated)
    (fun _ _ _ h => h) fun _ _ _ h _ => h) fun created t ht hopened => ?_
  obtain ⟨temporary,fd⟩ := created
  obtain ⟨hsame,htemporary⟩ := hopened
  have hreplaced : (do
      let status ← writeTemporary site fd body
      Run.call site (.replace temporary name)
      return status).Keeps exec (Kept J) (fun _ u => Placed s₀ u name (some body))
        (fun _ u => SameEntries s₀ u) t := by
    refine keeps_bind (keeps_mono (keeps_writeTemporary hJ ht htemporary) (fun _ _ _ h => h)
      fun _ _ _ h => hsame.trans h) fun status u hu hwritten => ?_
    have hstart : SameEntries s₀ u := hsame.trans hwritten.1
    refine keeps_bind (keeps_mono (keeps_replace hu hwritten.2 hentry
      fun v hv => hplaced v (hstart.placed hv)) (fun _ _ _ h => hstart.placed h)
      fun _ v _ hv => ?_) fun _ v hv hdone => ⟨hv, hdone⟩
    rw [hv]
    exact hstart
  refine keeps_bind (keeps_handle hreplaced fun failure u hu hstill => ?_)
    fun publishedStatus u hu hdone => ?_
  · -- the entry is not replaced, and the temporary file goes
    refine keeps_bind (keeps_mono (keeps_removeTemporary log hJ htemporary.named hu)
      (fun _ _ _ h => hstill.trans h) fun _ _ _ h _ => hstill.trans h) fun _ v hv hafter => ?_
    exact ⟨hv, fun _ => hafter⟩
  · have hvalidated : Silent (do
        Run.call site .fsyncDirectory
        validatePublishedEntry log site name record body publishedStatus) :=
      (silent_call site (by trivial)).bind fun _ =>
        silent_validatePublishedEntry log site name record body publishedStatus
    refine keeps_handle (hvalidated.stays hu (fun _ => hdone)
      (E := fun _ v => v = u) fun _ => rfl) fun failure v hv hsame => ?_
    subst hsame
    have hrestored : (restorePrior log site name prior).Keeps exec (Kept J)
        (fun _ t => SameEntries s₀ t) (fun _ _ => True) v :=
      keeps_restorePrior log hJ hs.2 hname hdone (hdone.created.trans hcreated) hv hprior
    refine keeps_bind (Q := fun _ u => SameEntries s₀ u) (keeps_handle hrestored
      fun _ u hu _ => ?_) fun _ u hu hback => ⟨hu, fun _ => hback⟩
    exact ⟨hu, fun hnot => absurd rfl (hnot _)⟩

end Publication

end Whetstone.Execution.Partials
