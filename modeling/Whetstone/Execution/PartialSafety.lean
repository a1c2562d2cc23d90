import Whetstone.Execution.PartialPublication

/-! The calls of a partial log under its lock. Every state they pass has complete frames at its
entries; what an append, a load and a delete may leave or return is derived from the programs. -/
namespace Whetstone.Execution.Partials
open Whetstone.Core Whetstone.Lib Whetstone.Lib.Prog Directory

theorem exists_of_mem_right {α β : Type} {R : α → β → Prop} {l : List α} {m : List β}
    (h : List.Forall₂ R l m) {b : β} (hb : b ∈ m) : ∃ a ∈ l, R a b := by
  induction h with
  | nil => cases hb
  | cons hfirst _ ih =>
    cases List.mem_cons.mp hb with
    | inl hb =>
      rw [hb]
      exact ⟨_, List.mem_cons_self, hfirst⟩
    | inr hb =>
      obtain ⟨a,ha,hR⟩ := ih hb
      exact ⟨a, List.mem_cons_of_mem _ ha, hR⟩

/-! ### Reads that succeed -/

section Reads

variable {α : Type} {I : Directory → Prop} {s : Directory}

theorem keeps_opened {o : FileOp} {a : Payload o} (hs : I s)
    (hperform : ∀ answer, s.perform o answer = (.ok a, s)) :
    (Run.call .elsewhere o).Keeps exec I (fun b t => t = s ∧ b = a) (fun _ _ => False) s := by
  refine keeps_mono (keeps_read hperform hs) ?_ ?_
  · intro b t _ h
    exact ⟨h.1, (Except.ok.inj h.2).symm⟩
  · intro failure t _ h
    obtain ⟨_,error,herror,_⟩ := h
    cases herror

theorem keeps_pass {bad : Prop} [Decidable bad] {failure : Failure} (hs : I s) (h : ¬ bad) :
    (Run.check bad failure).Keeps exec I (fun _ t => t = s) (fun _ _ => False) s :=
  keeps_check hs (fun _ => rfl) fun hbad => h hbad

theorem keeps_value {value : Except String α} {a : α} (hs : I s) (h : value = .ok a) :
    (Run.ofValue value).Keeps exec I (fun b t => t = s ∧ b = a) (fun _ _ => False) s := by
  refine keeps_ofValue hs (fun b hb => ⟨rfl, ?_⟩) fun message hmessage => ?_
  · rw [h] at hb
    exact (Except.ok.inj hb).symm
  · rw [h] at hmessage
    cases hmessage

theorem perform_stat {name : String} {fd : Nat} (hfound : s.entries.get? name = some fd)
    (answer : Answer) : s.perform (.stat name) answer = (.ok (s.status fd), s) := by
  have hfind : s.find name = .ok fd := by rw [Directory.find, hfound]
  simp only [Directory.perform, hfind]
  rfl

theorem perform_openRead {name : String} {fd : Nat} (hformed : s.WellFormed)
    (hfound : s.entries.get? name = some fd) (answer : Answer) :
    s.perform (.openRead name) answer = (.ok fd, s) := by
  have hfind : s.find name = .ok fd := by rw [Directory.find, hfound]
  simp only [Directory.perform, hfind, hformed.regular name fd hfound, if_true]

theorem sameFileSnapshot_refl (status : FileStatus) : sameFileSnapshot status status :=
  ⟨rfl, rfl, rfl, rfl, rfl, rfl⟩

end Reads

section Entries

variable [TextFormats] (log : PartialLog) {I : Directory → Prop} {s : Directory}

/- The file of an entry is a complete frame of a record with its name. -/
structure Framed (name : String) (body : Bytes) (record : PartialCallRecord) : Prop where
  encoded : encodeFrame record = .ok body
  named : entryName record = .ok name

theorem Framed.shape {name : String} {body : Bytes} {record : PartialCallRecord}
    (h : Framed name body record) : ∃ bytes, name = hexdigest bytes ++ ".json" :=
  entryName_shape h.named

theorem Framed.isEntryName {name : String} {body : Bytes} {record : PartialCallRecord}
    (h : Framed name body record) : isEntryName name = true := by
  obtain ⟨bytes,rfl⟩ := h.shape
  exact isEntryName_hexdigest bytes

/-- An entry that holds a frame reads as its record. -/
theorem keeps_readEntry {name : String} {fd : Nat} {record : PartialCallRecord} (hs : I s)
    (hfound : s.entries.get? name = some fd) (hframed : Framed name (s.inodes fd).body record) :
    (readEntry log .elsewhere fd name).Keeps exec I
      (fun entry t => t = s ∧ entry.1 = record.canonical ∧ entry.2.1 = (s.inodes fd).body)
      (fun _ _ => False) s := by
  unfold readEntry
  refine keeps_bind (keeps_opened hs fun _ => rfl) fun before t ht hbefore => ?_
  obtain ⟨rfl,rfl⟩ := hbefore
  refine keeps_bind (keeps_opened ht fun _ => rfl) fun raw t ht hraw => ?_
  obtain ⟨rfl,rfl⟩ := hraw
  refine keeps_bind (keeps_opened ht fun _ => rfl) fun after t ht hafter => ?_
  obtain ⟨rfl,rfl⟩ := hafter
  refine keeps_bind (keeps_pass ht (not_not.mpr (sameFileSnapshot_refl _))) fun _ t ht hsame => ?_
  subst hsame
  refine keeps_bind (keeps_opened ht (perform_stat hfound)) fun visible t ht hvisible => ?_
  obtain ⟨rfl,rfl⟩ := hvisible
  refine keeps_bind (keeps_pass ht (not_not.mpr (sameFileSnapshot_refl _))) fun _ t ht hsame => ?_
  subst hsame
  refine keeps_bind (keeps_pass ht (not_not.mpr (encodeFrame_complete hframed.encoded)))
    fun _ t ht hsame => ?_
  subst hsame
  refine keeps_bind (keeps_value ht (decodeFrame_encodeFrame hframed.encoded _ _))
    fun decoded t ht hdecoded => ?_
  obtain ⟨rfl,rfl⟩ := hdecoded
  refine keeps_bind (keeps_value ht ((entryName_canonical record).trans hframed.named))
    fun expected t ht hexpected => ?_
  obtain ⟨rfl,rfl⟩ := hexpected
  refine keeps_bind (keeps_pass ht (not_not.mpr rfl)) fun _ t ht hsame => ?_
  subst hsame
  exact ⟨ht, rfl, rfl, rfl⟩

theorem keeps_openedEntry {name : String} {fd : Nat} {record : PartialCallRecord} (hs : I s)
    (hfound : s.entries.get? name = some fd) (hframed : Framed name (s.inodes fd).body record) :
    (openedEntry log .elsewhere fd name).Keeps exec I
      (fun entry t => t = s ∧ entry.1 = record.canonical ∧ entry.2.1 = (s.inodes fd).body)
      (fun _ _ => False) s := by
  refine keeps_ensure (keeps_readEntry log hs hfound hframed) (fun entry t ht hentry => ?_)
    fun _ _ _ hfalse => hfalse.elim
  obtain ⟨rfl,hread⟩ := hentry
  exact keeps_mono (keeps_opened ht fun _ => rfl) (fun _ u _ hu => ⟨hu.1, hread⟩)
    fun _ _ _ hfalse => hfalse

/- Every entry is a complete frame. -/
def FramedEntries (s : Directory) : Prop := ∀ name body, Partials.isEntryName name = true →
  s.content name = some body → ∃ record, Framed name body record

theorem keeps_validateExistingKey {name : String} {expected : PartialCallRecord} (hs : I s)
    (hformed : s.WellFormed) (hframed : FramedEntries s) (hname : Partials.isEntryName name = true) :
    (validateExistingKey log name expected).Keeps exec I
      (fun prior t => t = s ∧ PriorOf s name prior) (fun _ t => t = s) s := by
  cases hfound : s.entries.get? name with
  | none =>
    have hfind : s.find name = .error .fileNotFound := by rw [Directory.find, hfound]
    have habsent : ∀ answer, s.perform (.openRead name) answer = (.error .fileNotFound, s) := by
      intro answer
      simp only [Directory.perform, hfind]
    have hraised : ∀ fd : Nat, (Except.error OsError.fileNotFound : Except OsError Nat) ≠ .ok fd :=
      fun _ h => by cases h
    refine keeps_bind (keeps_orNone (R := fun opened t => t = s ∧ opened = none)
      (keeps_read habsent hs) (fun _ _ _ h => (hraised _ h.2).elim) (fun _ _ _ h _ => ⟨h.1, rfl⟩)
      fun _ _ _ h _ => h.1) fun opened t ht hopened => ?_
    obtain ⟨rfl,rfl⟩ := hopened
    refine ⟨ht, rfl, ?_⟩
    rw [PriorOf, content, hfound]
    rfl
  | some fd =>
    obtain ⟨record,hrecord⟩ := hframed name _ hname (content_of_found hfound)
    refine keeps_bind (keeps_orNone (R := fun opened t => t = s ∧ opened = some fd)
      (keeps_opened hs (perform_openRead hformed hfound)) (fun _ _ _ h => ⟨h.1, congrArg some h.2⟩)
      (fun _ _ _ h _ => h.elim) fun _ _ _ h _ => h.elim) fun opened t ht hopened => ?_
    obtain ⟨rfl,rfl⟩ := hopened
    refine keeps_bind (keeps_mono (keeps_openedEntry log ht hfound hrecord) (fun _ _ _ h => h)
      fun _ _ _ h => h.elim) fun entry u hu hentry => ?_
    obtain ⟨rfl,_,hbody⟩ := hentry
    refine keeps_bind (keeps_check (Q := fun _ v => v = u) hu (fun _ => rfl) fun _ => rfl)
      fun _ v hv hsame => ?_
    subst hsame
    refine ⟨hv, rfl, ?_⟩
    rw [PriorOf, content_of_found hfound, ← hbody]
    rfl

/-! ### Appending -/

/- The record with the time it is stored under. -/
def Stamps (record stamped : PartialCallRecord) : Prop :=
  stamped = record ∨ record.recordedAt = none ∧ ∃ time,
    stamped.toRecordFields = { record.toRecordFields with recordedAt := some time }

theorem create_ok {fields : RecordFields} {record : PartialCallRecord}
    (h : create fields = .ok record) : record.toRecordFields = fields := by
  unfold create at h
  split at h
  · cases h
    rfl
  · cases h

theorem keeps_stamped {record : PartialCallRecord} (hs : I s) :
    (stamped record).Keeps exec I (fun result t => t = s ∧ Stamps record result)
      (fun _ t => t = s) s := by
  unfold stamped
  split
  · exact ⟨hs, rfl, .inl rfl⟩
  · rename_i hnone
    refine keeps_bind (keeps_call (Q := fun _ t => t = s) hs (fun _ => hs) (fun _ _ _ => rfl)
      (fun _ _ _ => rfl) fun _ _ _ => ⟨hs, rfl⟩) fun time t ht hsame => ?_
    subst hsame
    refine keeps_ofValue ht (fun result hresult => ⟨rfl, .inr ⟨hnone, time, create_ok hresult⟩⟩)
      fun _ _ => rfl

/- What an append of the record may publish. -/
def FrameOf (record : PartialCallRecord) (name : String) (body : Bytes) : Prop :=
  ∃ stamped, Stamps record stamped ∧ Framed name body stamped

/- Each entry is as before, or a frame of the record. -/
def AppendState (record : PartialCallRecord) (s t : Directory) : Prop :=
  ∀ name, Partials.isEntryName name = true → t.content name = s.content name ∨
    ∃ body, FrameOf record name body ∧ t.content name = some body

omit [TextFormats] in
theorem Directory.WellFormed.opened (h : s.WellFormed) :
    ({ s with created := true } : Directory).WellFormed :=
  ⟨fun _ _ _ => rfl, h.bounded, h.distinct, h.named, h.regular⟩

/- The directory is there, with the entries it had. -/
def Opened (s t : Directory) : Prop := t = s ∨ t = { s with created := true }

omit [TextFormats] in
theorem Opened.content {t : Directory} (h : Opened s t) (name : String) :
    t.content name = s.content name := by
  cases h with
  | inl h => rw [h]
  | inr h =>
    rw [h]
    rfl

omit [TextFormats] in
theorem keeps_openRecordDirectory (hs : I s) (hopened : I { s with created := true }) :
    (openRecordDirectory true).Keeps exec I (fun _ t => Opened s t ∧ t.created = true)
      (fun _ _ => False) s := by
  have hcases : ∀ answer, (s.created = true ∧
        s.perform (.openDirectory true) answer = (.ok (), s)) ∨
      s.perform (.openDirectory true) answer = (.ok (), { s with created := true }) := by
    intro answer
    simp only [Directory.perform]
    split
    · rename_i hcreated
      exact .inl ⟨hcreated, rfl⟩
    · exact .inr rfl
  refine keeps_handle (F := fun _ _ => False) (keeps_call hs ?_ ?_ ?_ ?_)
    fun _ _ _ hfalse => hfalse.elim
  · intro answer
    cases hcases answer with
    | inl h =>
      rw [h.2]
      exact hs
    | inr h =>
      rw [h]
      exact hopened
  · intro answer _ _
    cases hcases answer with
    | inl h =>
      rw [h.2]
      exact ⟨.inl rfl, h.1⟩
    | inr h =>
      rw [h]
      exact ⟨.inr rfl, rfl⟩
  · intro answer error herror
    cases hcases answer with
    | inl h =>
      rw [h.2] at herror
      cases herror
    | inr h =>
      rw [h] at herror
      cases herror
  · intro _ _ hinjected
    cases hinjected

/-- An append leaves every entry as it was or a frame of its record; it has placed the frame when
it returns, and changed no entry when it raises anything but a failed rollback. -/
theorem keeps_append {record : PartialCallRecord} (hformed : s.WellFormed)
    (hframed : FramedEntries s) :
    (log.append record).Keeps exec (Kept (AppendState record s))
      (fun _ t => ∃ name body stamped, Stamps record stamped ∧ Framed name body stamped ∧
        t.content name = some body)
      (fun failure t => (∀ message, failure ≠ .rollback message) →
        ∀ name, Partials.isEntryName name = true → t.content name = s.content name) s := by
  have hstable : Stable (AppendState record s) := by
    refine ⟨fun t u hsame ht name hname => ?_⟩
    rw [hsame.content name hname]
    exact ht name hname
  have hsame : ∀ t, Opened s t → AppendState record s t :=
    fun t ht name _ => .inl (ht.content name)
  have hstart : Kept (AppendState record s) s := ⟨hformed, hsame s (.inl rfl)⟩
  unfold PartialLog.append
  refine keeps_bind (keeps_mono (keeps_value hstart (fromDict_perm record (List.Perm.refl _)))
    (fun _ _ _ h => h) fun _ _ _ h => h.elim) fun validated t ht hvalidated => ?_
  obtain ⟨rfl,rfl⟩ := hvalidated
  refine keeps_bind (keeps_mono (keeps_stamped ht) (fun _ _ _ h => h)
    fun _ _ _ h _ name _ => by rw [h]) fun stamped u hu hstamped => ?_
  obtain ⟨rfl,hstamps⟩ := hstamped
  refine keeps_bind (keeps_ofValue (Q := fun body v => v = u ∧ encodeFrame stamped = .ok body) hu
    (fun body hbody => ⟨rfl, hbody⟩) fun _ _ _ _ _ => rfl) fun body v hv hencoded => ?_
  obtain ⟨rfl,hencoded⟩ := hencoded
  refine keeps_bind (keeps_mono (keeps_openRecordDirectory hv
    ⟨hformed.opened, hsame _ (.inr rfl)⟩) (fun _ _ _ h => h) fun _ _ _ h => h.elim)
    fun _ w hw hopened => ?_
  obtain ⟨hopened,hcreated⟩ := hopened
  refine keeps_bind (keeps_ofValue (Q := fun name x => x = w ∧ entryName stamped = .ok name) hw
    (fun name hname => ⟨rfl, hname⟩) fun _ _ _ name _ => hopened.content name)
    fun name x hx hnamed => ?_
  obtain ⟨rfl,hnamed⟩ := hnamed
  have hframe : Framed name body stamped := ⟨hencoded, hnamed⟩
  have hentries : FramedEntries x := by
    intro other content hother hcontent
    rw [hopened.content] at hcontent
    exact hframed other content hother hcontent
  refine keeps_bind (keeps_mono (keeps_validateExistingKey log hx hx.1 hentries hframe.isEntryName)
    (fun _ _ _ h => h) fun _ y _ h _ name _ => ?_) fun prior y hy hprior => ?_
  · rw [h]
    exact hopened.content name
  obtain ⟨rfl,hprior⟩ := hprior
  refine keeps_mono (keeps_publishEntry log hstable hframe.shape hcreated hy hprior
    fun z hz other hother => ?_) (fun _ z _ hz => ?_) fun failure z _ hz hnot other hother => ?_
  · by_cases hown : other = name
    · rw [hown]
      exact .inr ⟨body, ⟨stamped, hstamps, hframe⟩, hz.placed⟩
    · rw [hz.others other hother hown, hopened.content]
      exact .inl rfl
  · exact ⟨name, body, stamped, hstamps, hframe, hz.placed⟩
  · rw [(hz hnot).content other hother, hopened.content]

/-! ### Loading -/

/- The record that an entry holds. -/
def Holds (s : Directory) (name : String) (record : PartialCallRecord) : Prop :=
  ∃ body stored, s.content name = some body ∧ Framed name body stored ∧ record = stored.canonical

theorem Holds.named {name : String} {record : PartialCallRecord} (h : Holds s name record) :
    entryName record = .ok name := by
  obtain ⟨body,stored,_,hframed,rfl⟩ := h
  exact (entryName_canonical stored).trans hframed.named

/- One record for each entry, in some order. -/
def Reports (s : Directory) (records : List PartialCallRecord) : Prop :=
  ∃ names loaded, names.Nodup ∧
    (∀ name, name ∈ names ↔
      Partials.isEntryName name = true ∧ (s.content name).isSome = true) ∧
    List.Forall₂ (Holds s) names loaded ∧ records.Perm loaded

theorem keeps_loadNames (hs : I s) (hformed : s.WellFormed) (hframed : FramedEntries s)
    {names : List String} (hnames : ∀ name ∈ names, ∃ fd, s.entries.get? name = some fd) :
    (loadNames log names).Keeps exec I (fun records t => t = s ∧
      List.Forall₂ (Holds s) (names.filter Partials.isEntryName) records) (fun _ _ => False) s := by
  induction names with
  | nil => exact ⟨hs, rfl, .nil⟩
  | cons name rest ih =>
    obtain ⟨⟨fd,hfound⟩,hrest⟩ := List.forall_mem_cons.mp hnames
    rw [loadNames]
    by_cases htemporary : isTemporaryName name = true
    · rw [if_pos htemporary, List.filter_cons_of_neg
        (by rw [not_isEntryName_of_temporary htemporary]; exact Bool.false_ne_true)]
      exact ih hrest
    · have hentry : Partials.isEntryName name = true :=
        (hformed.named name fd hfound).resolve_right htemporary
      obtain ⟨stored,hstored⟩ := hframed name _ hentry (content_of_found hfound)
      rw [if_neg htemporary, List.filter_cons_of_pos hentry]
      refine keeps_bind (keeps_pass hs (by simp [hentry]))
        fun _ t ht hsame => ?_
      subst hsame
      refine keeps_bind (keeps_opened ht (perform_openRead hformed hfound))
        fun opened t ht hopened => ?_
      obtain ⟨rfl,rfl⟩ := hopened
      refine keeps_bind (keeps_openedEntry log ht hfound hstored) fun entry t ht hentry' => ?_
      obtain ⟨rfl,hrecord,_⟩ := hentry'
      refine keeps_bind (ih hrest) fun later t ht hlater => ?_
      obtain ⟨rfl,hlater⟩ := hlater
      exact ⟨ht, rfl, .cons ⟨_, stored, content_of_found hfound, hstored, hrecord⟩ hlater⟩

theorem sortRecords_ok {records : List PartialCallRecord}
    (h : ∀ record ∈ records, ∃ name, entryName record = .ok name) :
    ∃ sorted, sortRecords records = .ok sorted ∧ sorted.Perm records := by
  have hkeyed := mapM_ok (fun record => do
      return (toLex (record.recordedAt.getD "", ← entryName record), record))
    (fun record => (toLex (record.recordedAt.getD "", ((entryName record).toOption.getD "")),
      record)) records fun record hmem => by
        obtain ⟨name,hname⟩ := h record hmem
        rw [hname]
        rfl
  refine ⟨_, by rw [sortRecords, hkeyed]; rfl, ?_⟩
  refine ((List.perm_insertionSort _ _).map Prod.snd).trans ?_
  rw [List.map_map]
  exact List.Perm.of_eq (List.map_id _)

omit [TextFormats] in
theorem mem_keys {name : String} :
    name ∈ s.entries.keys ↔ ∃ fd, s.entries.get? name = some fd := by
  have hnone := Dict.get?_eq_none_iff s.entries name
  cases hget : s.entries.get? name with
  | none =>
    constructor
    · intro hmem
      exact absurd hmem (hnone.mp hget)
    · intro hfound
      obtain ⟨fd,hfd⟩ := hfound
      cases hfd
  | some fd =>
    rw [hget] at hnone
    have hmem : name ∈ s.entries.pairs.map Prod.fst := by
      by_contra habsent
      cases hnone.mpr habsent
    exact ⟨fun _ => ⟨fd, rfl⟩, fun _ => hmem⟩

omit [TextFormats] in
theorem keeps_openExisting (hs : I s) : (Run.orNone (openRecordDirectory false)
    OsError.isNotFound).Keeps exec I
      (fun opened t => t = s ∧ (opened = none → s.created = false)) (fun _ _ => False) s := by
  by_cases hcreated : s.created = true
  · have hperform : ∀ answer, s.perform (.openDirectory false) answer = (.ok (), s) := by
      intro answer
      simp only [Directory.perform, hcreated, if_true]
    have hopen : (openRecordDirectory false).Keeps exec I (fun _ t => t = s) (fun _ _ => False) s :=
      keeps_handle (F := fun _ _ => False)
        (keeps_mono (keeps_opened hs hperform) (fun _ _ _ h => h.1) fun _ _ _ h => h)
        fun _ _ _ h => h.elim
    exact keeps_orNone hopen (fun opened _ _ h => ⟨h, fun hnone => by cases hnone⟩)
      (fun _ _ _ h _ => h.elim) fun _ _ _ h _ => h.elim
  · rw [Bool.not_eq_true] at hcreated
    have hperform : ∀ answer, s.perform (.openDirectory false) answer =
        (.error .fileNotFound, s) := by
      intro answer
      simp [Directory.perform, hcreated]
    have hopen : (openRecordDirectory false).Keeps exec I (fun _ _ => False)
        (fun failure t => t = s ∧ failure = .os .fileNotFound) s := by
      refine keeps_handle (keeps_mono (keeps_read hperform hs)
        (fun _ _ _ h => by cases h.2) fun _ _ _ h => h) fun failure t ht hfailure => ?_
      obtain ⟨rfl,error,herror,rfl⟩ := hfailure
      cases herror
      exact ⟨ht, rfl, rfl⟩
    refine keeps_orNone hopen (fun _ _ _ h => h.elim) (fun _ _ _ h _ => ⟨h.1, fun _ => hcreated⟩)
      fun failure t _ h huncaught => ?_
    have hcaught := huncaught _ h.2
    cases hcaught

/-- A load raises nothing, and reports the record of every entry. -/
theorem keeps_load (hs : I s) (hformed : s.WellFormed) (hframed : FramedEntries s) :
    log.load.Keeps exec I (fun records t => t = s ∧ Reports s records) (fun _ _ => False) s := by
  unfold PartialLog.load
  refine keeps_bind (keeps_openExisting hs) fun opened t ht hopened => ?_
  obtain ⟨rfl,hcreated⟩ := hopened
  cases opened with
  | none =>
    refine ⟨ht, rfl, [], [], List.nodup_nil, fun name => ?_, .nil, List.Perm.refl _⟩
    refine iff_of_false List.not_mem_nil fun hname => ?_
    obtain ⟨body,hbody⟩ := Option.isSome_iff_exists.mp hname.2
    obtain ⟨fd,hfound,_⟩ := Option.map_eq_some_iff.mp hbody
    have hthere := hformed.created name fd hfound
    rw [hcreated rfl] at hthere
    cases hthere
  | some _ =>
    refine keeps_bind (keeps_opened ht fun _ => rfl) fun names u hu hnames => ?_
    obtain ⟨rfl,rfl⟩ := hnames
    have hsorted : (u.entries.keys.insertionSort (· ≤ ·)).Perm u.entries.keys :=
      List.perm_insertionSort _ _
    refine keeps_bind (keeps_loadNames log hu hformed hframed fun name hname =>
      mem_keys.mp (hsorted.mem_iff.mp hname)) fun records v hv hrecords => ?_
    obtain ⟨rfl,hrecords⟩ := hrecords
    obtain ⟨sorted,hsort,hperm⟩ := sortRecords_ok fun record hmem => by
      obtain ⟨name,_,hholds⟩ := exists_of_mem_right hrecords hmem
      exact ⟨name, hholds.named⟩
    refine keeps_mono (keeps_value hv hsort) (fun result w _ hw => ?_) fun _ _ _ h => h
    obtain ⟨rfl,rfl⟩ := hw
    refine ⟨rfl, _, records, ?_, fun name => ?_, hrecords, hperm⟩
    · exact (hsorted.nodup_iff.mpr w.entries.nodup).filter _
    · rw [List.mem_filter, hsorted.mem_iff, mem_keys, content, Option.isSome_map]
      rw [Option.isSome_iff_exists, and_comm]

/-! ### Deleting -/

/- Each entry is as before or gone. -/
def DeleteState (s t : Directory) : Prop :=
  ∀ name, Partials.isEntryName name = true → t.content name = s.content name ∨
    t.content name = none

omit [TextFormats] in
theorem stable_deleteState : Stable (DeleteState s) := by
  refine ⟨fun t u hsame ht name hname => ?_⟩
  rw [hsame.content name hname]
  exact ht name hname

omit [TextFormats] in
theorem DeleteState.erase {t : Directory} (h : DeleteState s t) (name : String) :
    DeleteState s (t.erase name) := by
  intro other hother
  by_cases hsame : other = name
  · rw [hsame]
    exact .inr (erase_placed name).placed
  · rw [(erase_placed name).others other hother hsame]
    exact h other hother

omit [TextFormats] in
theorem keeps_unlinkNames {names : List String} {t : Directory} (ht : Kept (DeleteState s) t) :
    (unlinkNames log names).Keeps exec (Kept (DeleteState s)) (fun _ _ => True)
      (fun _ _ => True) t := by
  induction names generalizing t with
  | nil => exact ⟨ht, trivial⟩
  | cons name rest ih =>
    refine keeps_bind (keeps_mono (keeps_verifiedUnlink log ht (ht.2.erase name))
      (fun _ _ _ _ => trivial) fun _ _ _ _ => trivial) fun _ u hu _ => ?_
    exact ih hu

omit [TextFormats] in
theorem silent_checkNames (names : List String) : Silent (checkNames log names) := by
  induction names with
  | nil => trivial
  | cons name rest ih => exact (silent_check _ _).bind fun _ => ih

omit [TextFormats] in
theorem silent_validateCandidates (names : List String) :
    Silent (validateCandidates log names) := by
  induction names with
  | nil => trivial
  | cons name rest ih =>
    exact (silent_validateCleanupCandidate log .elsewhere name _).bind fun _ => ih

omit [TextFormats] in
theorem keeps_delete (hformed : s.WellFormed) :
    log.delete.Keeps exec (Kept (DeleteState s)) (fun _ _ => True) (fun _ _ => True) s := by
  have hstart : Kept (DeleteState s) s := ⟨hformed, fun _ _ => .inl rfl⟩
  unfold PartialLog.delete
  refine keeps_bind (keeps_mono (keeps_openExisting hstart) (fun _ _ _ h => h)
    fun _ _ _ _ => trivial) fun opened t ht _ => ?_
  cases opened with
  | none => exact ⟨ht, trivial⟩
  | some _ =>
    refine keeps_bind ((silent_call .elsewhere (by trivial)).stays (Q := fun _ _ => True) ht
      (fun _ => trivial) fun _ => trivial) fun listed u hu _ => ?_
    refine keeps_bind ((silent_checkNames log _).stays (Q := fun _ _ => True) hu
      (fun _ => trivial) fun _ => trivial) fun _ v hv _ => ?_
    refine keeps_bind ((silent_validateCandidates log _).stays (Q := fun _ _ => True) hv
      (fun _ => trivial) fun _ => trivial) fun _ w hw _ => ?_
    refine keeps_bind (keeps_unlinkNames log hw) fun _ x hx _ => ?_
    exact (silent_call .elsewhere (by trivial)).stays hx (fun _ => trivial) fun _ => trivial

def Unexpected (s : Directory) : Prop := ∃ name ∈ s.entries.keys,
  Partials.isEntryName name = false ∧ isTemporaryName name = false

omit [TextFormats] in
theorem keeps_checkNames {names : List String} (hs : I s)
    (h : ∃ name ∈ names, Partials.isEntryName name = false ∧ isTemporaryName name = false) :
    (checkNames log names).Keeps exec I (fun _ _ => False) (fun _ _ => True) s := by
  induction names with
  | nil =>
    obtain ⟨name,hname,_⟩ := h
    cases hname
  | cons name rest ih =>
    refine keeps_bind (keeps_check (Q := fun _ t => t = s ∧
      ¬ (Partials.isEntryName name = false ∧ isTemporaryName name = false)) hs
      (fun hpass => ⟨rfl, hpass⟩) fun _ => trivial) fun _ t ht hpass => ?_
    obtain ⟨rfl,hexpected⟩ := hpass
    obtain ⟨other,hother,hunexpected⟩ := h
    cases List.mem_cons.mp hother with
    | inl hsame =>
      rw [hsame] at hunexpected
      exact absurd hunexpected hexpected
    | inr hlater => exact ih ⟨other, hlater, hunexpected⟩

omit [TextFormats] in
/-- A delete changes nothing in a directory with an unexpected entry. -/
theorem keeps_delete_unexpected (h : Unexpected s) :
    log.delete.Keeps exec (fun t => t = s) (fun _ _ => True) (fun _ _ => True) s := by
  unfold PartialLog.delete
  refine keeps_bind (keeps_mono (keeps_openExisting rfl) (fun _ _ _ h => h)
    fun _ _ _ _ => trivial) fun opened t ht _ => ?_
  cases opened with
  | none => exact ⟨ht, trivial⟩
  | some _ =>
    subst ht
    refine keeps_bind (keeps_mono (keeps_opened rfl fun _ => rfl) (fun _ _ _ h => h)
      fun _ _ _ _ => trivial) fun listed u hu hlisted => ?_
    obtain ⟨rfl,rfl⟩ := hlisted
    obtain ⟨name,hname,hunexpected⟩ := h
    have hsorted : (u.entries.keys.insertionSort (· ≤ ·)).Perm u.entries.keys :=
      List.perm_insertionSort _ _
    refine keeps_bind (keeps_checkNames log hu
      ⟨name, hsorted.mem_iff.mpr hname, hunexpected⟩) fun _ _ _ hfalse => hfalse.elim

end Entries

end Whetstone.Execution.Partials
