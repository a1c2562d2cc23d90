import Whetstone.Execution.PartialFiles

/-! The entries of a record directory, and what a change of one file leaves of them. A temporary
file is no entry, so that until it replaces one the entries stand. -/
namespace Whetstone.Execution.Partials
open Whetstone.Core Whetstone.Lib Whetstone.Lib.Prog

/-! ### Names -/

theorem matchesHex_append {count : Nat} {digits rest : List Char}
    (hlength : digits.length = count) (hhex : ∀ c ∈ digits, Sha256.isLowerHex c = true) :
    matchesHex count rest (digits ++ rest) = true := by
  unfold matchesHex
  rw [List.take_left' hlength, List.drop_left' hlength]
  simpa using ⟨hlength, hhex⟩

theorem isEntryName_hexdigest (bytes : Bytes) :
    isEntryName (hexdigest bytes ++ ".json") = true := by
  obtain ⟨hlength,hhex⟩ := Sha256.hexdigest_hex (bytes.map UInt8.toNat)
  unfold isEntryName
  rw [String.toList_append]
  exact matchesHex_append hlength hhex

theorem isLowerHex_ne_dot {c : Char} (h : Sha256.isLowerHex c = true) : c ≠ '.' := by
  rintro rfl
  revert h
  decide

theorem pathStem_hexdigest (bytes : Bytes) :
    pathStem (hexdigest bytes ++ ".json") = hexdigest bytes := by
  obtain ⟨hlength,_⟩ := Sha256.hexdigest_hex (bytes.map UInt8.toNat)
  change (hexdigest bytes).toList.length = 64 at hlength
  have hne : (hexdigest bytes).toList ≠ [] := by
    intro hnil
    rw [hnil] at hlength
    cases hlength
  unfold pathStem
  simp [hne]

theorem isTemporaryName_temporaryName (bytes : Bytes) (token : HexToken) :
    isTemporaryName (temporaryName (hexdigest bytes ++ ".json") token.text) = true := by
  obtain ⟨hlength,hhex⟩ := Sha256.hexdigest_hex (bytes.map UInt8.toNat)
  change (hexdigest bytes).toList.length = 64 at hlength
  have hlist : (temporaryName (hexdigest bytes ++ ".json") token.text).toList =
      '.' :: ((hexdigest bytes).toList ++ '.' :: (token.text.toList ++ ".tmp".toList)) := by
    rw [temporaryName, pathStem_hexdigest]
    simp
  unfold isTemporaryName
  rw [hlist]
  simp only [List.drop_left' hlength, Bool.and_eq_true]
  exact ⟨matchesHex_append hlength hhex, matchesHex_append token.hex.1 token.hex.2⟩

/- An entry name starts with a digit and a temporary name with a dot. -/
theorem not_isEntryName_of_temporary {name : String} (h : isTemporaryName name = true) :
    isEntryName name = false := by
  by_contra hentry
  rw [Bool.not_eq_false] at hentry
  unfold isTemporaryName at h
  unfold isEntryName matchesHex at hentry
  split at h
  · rename_i rest hlist
    rw [hlist] at hentry
    simp only [decide_eq_true_eq] at hentry
    have hdot := List.all_eq_true.mp hentry.2.1 '.' (by simp)
    exact isLowerHex_ne_dot hdot rfl
  · cases h

/-! ### The entries of a directory -/

namespace Directory

def content (s : Directory) (name : String) : Option Bytes :=
  (s.entries.get? name).map fun fd => (s.inodes fd).body

/-- What the programs rely on: a file has one name, which is that of an entry or of a temporary
file. -/
structure WellFormed (s : Directory) : Prop where
  created : ∀ name fd, s.entries.get? name = some fd → s.created = true
  bounded : ∀ name fd, s.entries.get? name = some fd → fd < s.fresh
  distinct : ∀ name other fd, s.entries.get? name = some fd → s.entries.get? other = some fd →
    name = other
  named : ∀ name fd, s.entries.get? name = some fd →
    isEntryName name = true ∨ isTemporaryName name = true
  regular : ∀ name fd, s.entries.get? name = some fd → (s.inodes fd).regular = true

/- The entries stand as they were. -/
structure SameEntries (s t : Directory) : Prop where
  created : t.created = s.created
  content : ∀ name, isEntryName name = true → t.content name = s.content name

theorem SameEntries.refl (s : Directory) : SameEntries s s := ⟨rfl, fun _ _ => rfl⟩

theorem SameEntries.trans {s t u : Directory} (h : SameEntries s t) (h' : SameEntries t u) :
    SameEntries s u :=
  ⟨h'.created.trans h.created, fun name hname => (h'.content name hname).trans (h.content name hname)⟩

/- A temporary file that is open for writing. -/
structure Temporary (s : Directory) (name : String) (fd : Nat) (body : Bytes) : Prop where
  named : isTemporaryName name = true
  found : s.entries.get? name = some fd
  body : (s.inodes fd).body = body

/- One entry has a body, and the others stand as they were. -/
structure Placed (s t : Directory) (name : String) (body : Option Bytes) : Prop where
  created : t.created = s.created
  placed : t.content name = body
  others : ∀ other, isEntryName other = true → other ≠ name → t.content other = s.content other

variable {s : Directory}

theorem content_of_found {name : String} {fd : Nat} (h : s.entries.get? name = some fd) :
    s.content name = some (s.inodes fd).body := by
  rw [content, h]
  rfl

theorem entry_ne_temporary {name other : String} (hname : isTemporaryName name = true)
    (hother : isEntryName other = true) : other ≠ name := by
  rintro rfl
  rw [not_isEntryName_of_temporary hname] at hother
  cases hother

/- The content of a name that does not open the changed file. -/
theorem content_update {t : Directory} {name : String} {fd : Nat} {inode : Inode}
    (hinodes : t.inodes = Function.update s.inodes fd inode)
    (hentries : t.entries.get? name = s.entries.get? name) (hne : s.entries.get? name ≠ some fd) :
    t.content name = s.content name := by
  rw [content, content, hentries, hinodes]
  cases hfound : s.entries.get? name with
  | none => rfl
  | some other =>
    have hother : other ≠ fd := fun heq => hne (by rw [hfound, heq])
    simp [Function.update_of_ne hother]

theorem WellFormed.createFile (h : s.WellFormed) (hcreated : s.created = true) {name : String}
    (hname : isTemporaryName name = true) :
    (s.createFile name).WellFormed ∧ SameEntries s (s.createFile name) ∧
      (s.createFile name).Temporary name s.fresh [] := by
  have hget : ∀ other, (s.createFile name).entries.get? other =
      if other = name then some s.fresh else s.entries.get? other :=
    fun other => Dict.get?_set s.entries name other s.fresh
  refine ⟨⟨fun _ _ _ => hcreated, ?_, ?_, ?_, ?_⟩, ⟨rfl, ?_⟩, hname, ?_, ?_⟩
  · intro other fd hfd
    rw [hget] at hfd
    change fd < s.fresh + 1
    split at hfd
    · cases hfd
      omega
    · have := h.bounded other fd hfd
      omega
  · intro one other fd hone hother
    rw [hget] at hone hother
    split at hone
    · rename_i hsame
      split at hother
      · rename_i hsame'
        exact hsame.trans hsame'.symm
      · cases hone
        exact absurd (h.bounded other _ hother) (by omega)
    · split at hother
      · cases hother
        exact absurd (h.bounded one _ hone) (by omega)
      · exact h.distinct one other fd hone hother
  · intro other fd hfd
    rw [hget] at hfd
    split at hfd
    · rename_i hsame
      rw [hsame]
      exact .inr hname
    · exact h.named other fd hfd
  · intro other fd hfd
    rw [hget] at hfd
    change (Function.update s.inodes s.fresh _ fd).regular = true
    split at hfd
    · cases hfd
      rw [Function.update_self]
    · have hne : fd ≠ s.fresh := by
        have := h.bounded other fd hfd
        omega
      rw [Function.update_of_ne hne]
      exact h.regular other fd hfd
  · intro other hother
    refine content_update rfl ?_ ?_
    · rw [hget, if_neg (entry_ne_temporary hname hother)]
    · intro hfresh
      exact absurd (h.bounded other _ hfresh) (by omega)
  · rw [hget, if_pos rfl]
  · change (Function.update s.inodes s.fresh _ s.fresh).body = []
    rw [Function.update_self]

/- A change of a file that keeps its kind. -/
theorem WellFormed.change (h : s.WellFormed) {fd : Nat} {f : Inode → Inode}
    (hregular : ∀ inode, (f inode).regular = inode.regular) : (s.change fd f).WellFormed := by
  refine ⟨h.created, h.bounded, h.distinct, h.named, fun name other hfound => ?_⟩
  change (Function.update s.inodes fd (f (s.inodes fd)) other).regular = true
  by_cases hsame : other = fd
  · rw [hsame, Function.update_self, hregular, ← hsame]
    exact h.regular name other hfound
  · rw [Function.update_of_ne hsame]
    exact h.regular name other hfound

theorem WellFormed.writeBytes (h : s.WellFormed) {name : String} {fd : Nat} {body : Bytes}
    (htemporary : s.Temporary name fd body) (bytes : Bytes) :
    (s.writeBytes fd bytes).WellFormed ∧ SameEntries s (s.writeBytes fd bytes) ∧
      (s.writeBytes fd bytes).Temporary name fd (body ++ bytes) := by
  refine ⟨h.change fun _ => rfl, ⟨rfl, fun other hother => ?_⟩, htemporary.named,
    htemporary.found, ?_⟩
  · refine content_update rfl rfl fun hfound => ?_
    exact entry_ne_temporary htemporary.named hother
      (h.distinct other name fd hfound htemporary.found)
  · change (Function.update s.inodes fd _ fd).body = body ++ bytes
    rw [Function.update_self]
    simp [htemporary.body]

theorem get?_rename (source target name : String) (fd : Nat) :
    (s.rename source target fd).entries.get? name =
      if name = target then some fd
      else if name = source then none else s.entries.get? name := by
  change ((s.entries.erase source).set target fd).get? name = _
  rw [Dict.get?_set, Dict.get?_erase]

theorem WellFormed.rename (h : s.WellFormed) {source target : String} {fd : Nat} {body : Bytes}
    (htemporary : s.Temporary source fd body) (htarget : isEntryName target = true) :
    (s.rename source target fd).WellFormed ∧
      Placed s (s.rename source target fd) target (some body) := by
  have hchanged : (s.change fd fun inode => { inode with version := inode.version + 1 }).WellFormed :=
    h.change fun _ => rfl
  have hfd : ∀ other, s.entries.get? other = some fd → other = source :=
    fun other hother => h.distinct other source fd hother htemporary.found
  refine ⟨⟨fun _ _ _ => h.created _ _ htemporary.found, ?_, ?_, ?_, ?_⟩, rfl, ?_, ?_⟩
  · intro name other hfound
    rw [get?_rename] at hfound
    split at hfound
    · cases hfound
      exact h.bounded _ _ htemporary.found
    · split at hfound
      · cases hfound
      · exact h.bounded name other hfound
  · intro one other fd' hone hother
    rw [get?_rename] at hone hother
    by_cases hone' : one = target
    · rw [if_pos hone'] at hone
      cases hone
      by_cases hother' : other = target
      · rw [hone', hother']
      · rw [if_neg hother'] at hother
        split at hother
        · cases hother
        · exact absurd (hfd other hother) ‹_›
    · rw [if_neg hone'] at hone
      split at hone
      · cases hone
      · by_cases hother' : other = target
        · rw [if_pos hother'] at hother
          cases hother
          exact absurd (hfd one hone) ‹_›
        · rw [if_neg hother'] at hother
          split at hother
          · cases hother
          · exact h.distinct one other fd' hone hother
  · intro name other hfound
    rw [get?_rename] at hfound
    split at hfound
    · rename_i hname
      rw [hname]
      exact .inl htarget
    · split at hfound
      · cases hfound
      · exact h.named name other hfound
  · intro name other hfound
    rw [get?_rename] at hfound
    split at hfound
    · cases hfound
      exact hchanged.regular source fd htemporary.found
    · split at hfound
      · cases hfound
      · exact hchanged.regular name other hfound
  · have hfound : (s.rename source target fd).entries.get? target = some fd := by
      rw [get?_rename, if_pos rfl]
    rw [content_of_found hfound]
    change some (Function.update s.inodes fd _ fd).body = some body
    rw [Function.update_self]
    exact congrArg some htemporary.body
  · intro other hother hne
    have hsource := entry_ne_temporary htemporary.named hother
    refine content_update rfl ?_ fun hfound => hsource (hfd other hfound)
    rw [get?_rename, if_neg hne, if_neg hsource]

def erase (s : Directory) (name : String) : Directory :=
  { s with entries := s.entries.erase name }

theorem get?_erase (name other : String) : (s.erase name).entries.get? other =
    if other = name then none else s.entries.get? other := Dict.get?_erase s.entries name other

theorem WellFormed.erase (h : s.WellFormed) (name : String) : (s.erase name).WellFormed := by
  have hsub : ∀ other fd, (s.erase name).entries.get? other = some fd →
      s.entries.get? other = some fd := by
    intro other fd hfound
    rw [get?_erase] at hfound
    split at hfound
    · cases hfound
    · exact hfound
  exact ⟨fun other fd hfound => h.created other fd (hsub other fd hfound),
    fun other fd hfound => h.bounded other fd (hsub other fd hfound),
    fun one other fd hone hother => h.distinct one other fd (hsub one fd hone) (hsub other fd hother),
    fun other fd hfound => h.named other fd (hsub other fd hfound),
    fun other fd hfound => h.regular other fd (hsub other fd hfound)⟩

theorem erase_placed (name : String) : Placed s (s.erase name) name none := by
  refine ⟨rfl, ?_, fun other _ hne => ?_⟩
  · rw [content, get?_erase, if_pos rfl]
    rfl
  · rw [content, get?_erase, if_neg hne]
    rfl

theorem Placed.trans {t u : Directory} {name : String} {body body' : Option Bytes}
    (h : Placed s t name body) (h' : Placed t u name body') : Placed s u name body' :=
  ⟨h'.created.trans h.created, h'.placed, fun other hother hne =>
    (h'.others other hother hne).trans (h.others other hother hne)⟩

theorem SameEntries.placed {t u : Directory} {name : String} {body : Option Bytes}
    (h : SameEntries s t) (h' : Placed t u name body) : Placed s u name body :=
  ⟨h'.created.trans h.created, h'.placed, fun other hother hne =>
    (h'.others other hother hne).trans (h.content other hother)⟩

/- An entry that has the body it had. -/
theorem Placed.same {t : Directory} {name : String} (h : Placed s t name (s.content name)) :
    SameEntries s t := by
  refine ⟨h.created, fun other hother => ?_⟩
  by_cases hsame : other = name
  · rw [hsame]
    exact h.placed
  · exact h.others other hother hsame

theorem Placed.same_of_temporary {t : Directory} {name : String} {body : Option Bytes}
    (h : Placed s t name body) (hname : isTemporaryName name = true) : SameEntries s t :=
  ⟨h.created, fun other hother => h.others other hother (entry_ne_temporary hname hother)⟩

end Directory
end Whetstone.Execution.Partials
