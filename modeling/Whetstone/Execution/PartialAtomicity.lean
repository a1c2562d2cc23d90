import Whetstone.Execution.PartialSafety
import Whetstone.Lib.JsonEncode

/-! Runs of the processes that share a partial log: one call after another under the lock, each of
which may be gone at any operation. Every state a run passes has at each entry nothing or one
complete frame of a record that some append was given. -/
namespace Whetstone.Execution.Partials
open Whetstone.Core Whetstone.Lib Whetstone.Lib.Prog Directory

/- The states an attempt passes, from its first to its last. -/
def passed {α : Type} (p : Run α) (answers : List Answer) (s : Directory) : List Directory :=
  let run := p.attempt exec answers s
  run.events.map Prod.snd ++ [run.state]

theorem passed_keep {α : Type} {p : Run α} {I : Directory → Prop} {Q : α → Directory → Prop}
    {E : Failure → Directory → Prop} {s t : Directory} {answers : List Answer}
    (h : p.Keeps exec I Q E s) (ht : t ∈ passed p answers s) : I t := by
  obtain ⟨hevents,hstate,_⟩ := h.attempt answers
  cases List.mem_append.mp ht with
  | inl hpassed =>
    obtain ⟨event,hevent,rfl⟩ := List.mem_map.mp hpassed
    exact hevents event hevent
  | inr hlast =>
    rw [List.mem_singleton.mp hlast]
    exact hstate

theorem state_passed {α : Type} (p : Run α) (answers : List Answer) (s : Directory) :
    (p.attempt exec answers s).state ∈ passed p answers s :=
  List.mem_append.mpr (.inr List.mem_cons_self)

section Calls

variable [TextFormats] (log : PartialLog)

/- A call of one of the processes. -/
inductive Call where
  | append (record : PartialCallRecord)
  | load
  | delete

namespace Call

def program : Call → Run Unit
  | .append record => log.append record
  | .load => log.load.bind fun _ => .done ()
  | .delete => log.delete

/- The record that a call may publish. -/
def appended : Call → List PartialCallRecord
  | .append record => [record]
  | .load | .delete => []

end Call

/- The log before its first call. -/
def start : Directory where
  created := false
  entries := Dict.empty
  inodes := fun _ => ⟨[], 0, true, true, 1, 0o600⟩
  fresh := 0

/- The directory that calls leave, each with what the environment answered it. -/
def after (calls : List (Call × List Answer)) (s : Directory) : Directory :=
  calls.foldl (fun t call => ((call.1.program log).attempt exec call.2 t).state) s

def appendedBy (calls : List (Call × List Answer)) : List PartialCallRecord :=
  calls.flatMap fun call => call.1.appended

/- Each entry is absent, or one complete frame of one of the records. -/
def Published (records : List PartialCallRecord) (s : Directory) : Prop :=
  ∀ name, Partials.isEntryName name = true → s.content name = none ∨
    ∃ record ∈ records, ∃ body, FrameOf record name body ∧ s.content name = some body

/-- What a run keeps. -/
structure Sound (records : List PartialCallRecord) (s : Directory) : Prop where
  formed : s.WellFormed
  published : Published records s

section Sound

variable {records : List PartialCallRecord} {s t : Directory}

theorem Published.framed (h : Published records s) : FramedEntries s := by
  intro name body hname hcontent
  cases h name hname with
  | inl habsent =>
    rw [hcontent] at habsent
    cases habsent
  | inr hpresent =>
    obtain ⟨_,_,other,⟨stamped,_,hframed⟩,hother⟩ := hpresent
    rw [hcontent] at hother
    cases hother
    exact ⟨stamped, hframed⟩

theorem Published.mono {more : List PartialCallRecord} (h : Published records s) :
    Published (records ++ more) s := by
  intro name hname
  refine (h name hname).imp_right fun hpresent => ?_
  obtain ⟨record,hrecord,hbody⟩ := hpresent
  exact ⟨record, List.mem_append.mpr (.inl hrecord), hbody⟩

theorem Published.append {record : PartialCallRecord} (h : Published records s)
    (ht : AppendState record s t) : Published (records ++ [record]) t := by
  intro name hname
  cases ht name hname with
  | inl hsame =>
    rw [hsame]
    exact h.mono name hname
  | inr hnew =>
    obtain ⟨body,hframe,hcontent⟩ := hnew
    exact .inr ⟨record, by simp, body, hframe, hcontent⟩

theorem Published.delete (h : Published records s) (ht : DeleteState s t) :
    Published records t := by
  intro name hname
  cases ht name hname with
  | inl hsame =>
    rw [hsame]
    exact h name hname
  | inr habsent => exact .inl habsent

/-- Every state that a call passes is sound, wherever the process is gone. -/
theorem Sound.passed (h : Sound records s) (call : Call) {answers : List Answer}
    (ht : t ∈ passed (call.program log) answers s) : Sound (records ++ call.appended) t := by
  cases call with
  | append record =>
    obtain ⟨hformed,hstate⟩ := passed_keep (keeps_append log h.formed h.published.framed) ht
    exact ⟨hformed, h.published.append hstate⟩
  | load =>
    have hload := keeps_load log (I := fun u => u = s) rfl h.formed h.published.framed
    have hkeeps : (log.load.bind fun _ => .done ()).Keeps exec (fun u => u = s)
        (fun _ _ => True) (fun _ _ => False) s := keeps_bind hload fun _ _ hu _ => ⟨hu, trivial⟩
    have hsame : t = s := passed_keep (I := fun u => u = s) hkeeps ht
    rw [hsame]
    exact ⟨h.formed, h.published.mono⟩
  | delete =>
    obtain ⟨hformed,hstate⟩ := passed_keep (keeps_delete log h.formed) ht
    exact ⟨hformed, (h.published.delete hstate).mono⟩

theorem sound_start : Sound [] start := by
  have hnone : ∀ name fd, start.entries.get? name ≠ some fd := fun _ _ h => by cases h
  refine ⟨⟨fun name fd h => ?_, fun name fd h => ?_, fun name _ fd h => ?_, fun name fd h => ?_,
    fun name fd h => ?_⟩, fun _ _ => .inl rfl⟩ <;> exact absurd h (hnone name fd)

theorem sound_after (calls : List (Call × List Answer)) (h : Sound records s) :
    Sound (records ++ appendedBy calls) (after log calls s) := by
  induction calls generalizing records s with
  | nil => exact ⟨h.formed, h.published.mono⟩
  | cons call rest ih =>
    have hnext := h.passed log call.1 (state_passed (call.1.program log) call.2 s)
    have hrest := ih hnext
    rw [List.append_assoc] at hrest
    exact hrest

/-! ### What a load reports -/

/- An entry holds one record. -/
theorem Holds.unique {name : String} {one other : PartialCallRecord} (h : Holds s name one)
    (h' : Holds s name other) : one = other := by
  obtain ⟨body,stored,hcontent,hframed,rfl⟩ := h
  obtain ⟨body',stored',hcontent',hframed',rfl⟩ := h'
  rw [hcontent] at hcontent'
  cases hcontent'
  have hread := decodeFrame_encodeFrame hframed.encoded "" 0
  rw [decodeFrame_encodeFrame hframed'.encoded "" 0] at hread
  exact (Except.ok.inj hread).symm

theorem entryName_congr {one other : PartialCallRecord} (h : one.key = other.key) :
    entryName one = entryName other := by
  simp only [PartialCallRecord.key, Prod.mk.injEq] at h
  obtain ⟨hphase,htask,hunit,hseed,hhash⟩ := h
  rw [entryName, entryName, entryIdentity, entryIdentity, hphase, htask, hunit, hseed, hhash]

/- Among the loaded records, those with the key of an entry. -/
theorem filter_key {names : List String} {loaded : List PartialCallRecord} {name : String}
    {record : PartialCallRecord} (hloaded : List.Forall₂ (Holds s) names loaded)
    (hnames : names.Nodup) (h : Holds s name record) :
    loaded.filter (fun other => other.key = record.key) =
      if name ∈ names then [record] else [] := by
  induction hloaded with
  | nil => rfl
  | @cons first one rest later hfirst _ ih =>
    obtain ⟨habsent,hrest⟩ := List.nodup_cons.mp hnames
    by_cases hkey : one.key = record.key
    · have hname : first = name := by
        have hnamed := hfirst.named
        rw [entryName_congr hkey, h.named] at hnamed
        exact (Except.ok.inj hnamed).symm
      subst hname
      rw [List.filter_cons, if_pos (decide_eq_true hkey), ih hrest, if_neg habsent,
        if_pos List.mem_cons_self, hfirst.unique h]
    · have hne : name ≠ first := by
        rintro rfl
        exact hkey (by rw [hfirst.unique h])
      rw [List.filter_cons_of_neg (by simpa using hkey), ih hrest]
      simp [hne]

/-- A load reports one record with the key of an entry, which is the record of the entry. -/
theorem Reports.filter_key {records : List PartialCallRecord} {name : String}
    {record : PartialCallRecord} (hreports : Reports s records) (h : Holds s name record) :
    records.filter (fun other => other.key = record.key) = [record] := by
  obtain ⟨names,loaded,hnodup,hnames,hloaded,hperm⟩ := hreports
  have hmem : name ∈ names := by
    obtain ⟨body,stored,hcontent,hframed,_⟩ := h
    exact (hnames name).mpr ⟨hframed.isEntryName, by rw [hcontent]; rfl⟩
  have hfilter := Partials.filter_key hloaded hnodup h
  rw [if_pos hmem] at hfilter
  rw [← List.perm_singleton, ← hfilter]
  exact hperm.filter _

omit [TextFormats] in
theorem exec_replies (op : Op) {answer : Answer} (h : answer.crash = none) (s : Directory) :
    (exec op answer s).1.isSome = true := by
  unfold exec
  rw [h]
  cases injected op.1 answer <;> rfl

end Sound

/-! ### Crash atomicity -/

/-- What a log promises in a directory that calls have left: of every next call, of a load and of
an append. -/
structure CrashAtomic (records : List PartialCallRecord) (s : Directory) : Prop where
  entries : ∀ call answers, ∀ t ∈ passed (Call.program log call) answers s,
    Published (records ++ call.appended) t
  load_raises : ∀ answers error, (log.load.attempt exec answers s).outcome ≠ .raised error
  load_ends : ∀ answers : Nat → Answer, (∀ i, (answers i).crash = none) → ∃ n loaded,
    (log.load.attempt exec ((List.range n).map answers) s).outcome = .returned loaded
  load_reports : ∀ answers loaded,
    (log.load.attempt exec answers s).outcome = .returned loaded → Reports s loaded
  append_raises : ∀ record answers error,
    ((log.append record).attempt exec answers s).outcome = .raised error →
    (∀ message, error ≠ .rollback message) → ∀ name, Partials.isEntryName name = true →
    ((log.append record).attempt exec answers s).state.content name = s.content name
  append_returns : ∀ record answers,
    ((log.append record).attempt exec answers s).outcome = .returned () →
    ∃ stamped, Stamps record stamped ∧ ∀ later loaded, (log.load.attempt exec later
        ((log.append record).attempt exec answers s).state).outcome = .returned loaded →
      loaded.filter (fun other => other.key = record.key) = [stamped.canonical]

theorem Stamps.key {record stamped : PartialCallRecord} (h : Stamps record stamped) :
    stamped.key = record.key := by
  cases h with
  | inl h => rw [h]
  | inr h =>
    obtain ⟨_,time,hfields⟩ := h
    rw [PartialCallRecord.key, PartialCallRecord.key, hfields]

theorem Sound.crashAtomic {records : List PartialCallRecord} {s : Directory}
    (h : Sound records s) : CrashAtomic log records s := by
  have hload := fun {t : Directory} {more : List PartialCallRecord} (ht : Sound more t) =>
    keeps_load log (I := fun u => u = t) rfl ht.formed ht.published.framed
  have happend : ∀ record : PartialCallRecord, (log.append record).Keeps exec _ _ _ s :=
    fun record => keeps_append log h.formed h.published.framed
  refine ⟨fun call answers t ht => (h.passed log call ht).published, fun answers error herror => ?_,
    fun answers hanswers => ?_, fun answers loaded hloaded => ?_,
    fun record answers error herror hnot => ?_, fun record answers hreturned => ?_⟩
  · obtain ⟨_,_,_,hraised⟩ := (hload h).attempt answers
    exact hraised error herror
  · obtain ⟨n,hn⟩ := attempt_ends log.load answers
      (fun o i t => exec_replies o (hanswers i) t) s
    obtain ⟨_,_,_,hraised⟩ := (hload h).attempt ((List.range n).map answers)
    cases hend : (log.load.attempt exec ((List.range n).map answers) s).outcome with
    | crashed => exact absurd hend hn
    | raised error => exact (hraised error hend).elim
    | returned loaded => exact ⟨n, loaded, hend⟩
  · obtain ⟨_,_,hends,_⟩ := (hload h).attempt answers
    exact (hends loaded hloaded).2
  · obtain ⟨_,_,_,hraised⟩ := (happend record).attempt answers
    exact hraised error herror hnot
  · obtain ⟨_,_,hends,_⟩ := (happend record).attempt answers
    obtain ⟨name,body,stamped,hstamps,hframed,hcontent⟩ := hends () hreturned
    refine ⟨stamped, hstamps, fun later loaded hloaded => ?_⟩
    have hsound := h.passed log (.append record)
      (state_passed (log.append record) answers s)
    obtain ⟨_,_,hends',_⟩ := (hload hsound).attempt later
    have hreports := (hends' loaded hloaded).2
    have hholds : Holds ((log.append record).attempt exec answers s).state name
        stamped.canonical := ⟨body, stamped, hcontent, hframed, rfl⟩
    have hfilter := hreports.filter_key hholds
    rw [← hstamps.key]
    exact hfilter

end Calls

section Example

def sampleTime : String := "2024-01-01T00:00:00+00:00"
def sampleHash : String := String.ofList (List.replicate 64 'a')

def sampleFields : RecordFields where
  phase := "train"
  taskId := "t"
  unit := "u"
  seedIndex := 0
  requestHash := sampleHash
  redrivePending := false
  recordedAt := some sampleTime

def sampleIdentity : Json :=
  .obj [("phase", .str "train"), ("request_hash", .str sampleHash), ("seed_index", .int 0),
    ("task_id", .str "t"), ("unit", .str "u")]

def sampleIdentityText : Bytes :=
  JsonText.asciiBytes "\x7b\"phase\"" ++
    JsonText.asciiBytes (":\"train\",\"request_hash\":\"" ++ sampleHash ++
      "\",\"seed_index\":0,\"task_id\":\"t\",\"unit\":\"u\"\x7d")

def sampleBody : Json := (Json.obj sampleFields.asDict).sortKeys

def sampleBodyText : Bytes :=
  JsonText.asciiBytes "\x7b\"at\"" ++ JsonText.asciiBytes (":\"" ++ sampleTime ++
    "\",\"cache_hit\":false,\"cache_source_at\":null," ++
    "\"cache_source_call_id\":null,\"cache_source_phase\":null,\"cache_source_unit\":null," ++
    "\"completion_tokens\":null,\"failed\":false,\"failure_code\":\"\",\"finish_reason\":null," ++
    "\"latency_s\":null,\"observation_payload\":null,\"output_text\":null,\"phase\":\"train\"," ++
    "\"prompt_tokens\":null,\"provider_error\":null,\"raw_response\":\"\"," ++
    "\"reasoning_tokens\":null,\"redrive_pending\":false,\"request_hash\":\"" ++ sampleHash ++
    "\",\"schema\":\"whetstone.execution.partial_call/v3\",\"score\":null,\"seed_index\":0," ++
    "\"split_role\":null,\"task_id\":\"t\",\"total_tokens\":null,\"unit\":\"u\"\x7d")

def sampleFrame : Json := (Json.obj (frameOf (hexdigest sampleBodyText) sampleBody)).sortKeys

def sampleFrameText : Bytes :=
  JsonText.asciiBytes "\x7b\"checksum\":\"" ++ JsonText.asciiBytes (hexdigest sampleBodyText) ++
    JsonText.asciiBytes "\",\"record\":" ++ sampleBodyText ++
    JsonText.asciiBytes ",\"schema\":\"whetstone.execution.partial_frame/v3\"\x7d"

/- The texts of the values that the sample is stored under. -/
def sampleTexts : List (Json × Bytes) :=
  [(sampleIdentity, sampleIdentityText), (sampleBody, sampleBodyText),
    (sampleFrame, sampleFrameText)]

/- The value that a text was written from. -/
def decodeTexts (texts : List (Json × Bytes)) (raw : Bytes) : Option Json :=
  (texts.map fun entry => (entry.2 ++ [0x0A], entry.1)).lookup raw

/- Texts that differ in their first bytes are told apart. -/
theorem decodeTexts_text {texts : List (Json × Bytes)} {value : Json} {text : Bytes} (n : Nat)
    (hnames : (texts.map fun entry => (entry.2 ++ [0x0A]).take n).Nodup)
    (h : texts.lookup value = some text) : decodeTexts texts (text ++ [0x0A]) = some value := by
  obtain ⟨before,later,hsplit,_⟩ := List.lookup_eq_some_iff.mp h
  rw [decodeTexts, List.lookup_eq_some_iff]
  refine ⟨before.map fun entry => (entry.2 ++ [0x0A], entry.1),
    later.map fun entry => (entry.2 ++ [0x0A], entry.1), ?_, fun entry hentry => ?_⟩
  · rw [hsplit]
    simp
  · obtain ⟨found,hfound,rfl⟩ := List.mem_map.mp hentry
    rw [hsplit, List.map_append, List.map_cons] at hnames
    have hne := (List.nodup_append.mp hnames).2.2 _ (List.mem_map_of_mem hfound) _
      List.mem_cons_self
    rw [bne_iff_ne]
    intro hsame
    exact hne (by rw [hsame])

theorem sampleTexts_heads : (sampleTexts.map fun entry => (entry.2 ++ [0x0A]).take 3) =
    [[0x7B, 0x22, 0x70], [0x7B, 0x22, 0x61], [0x7B, 0x22, 0x63]] := by
  decide +kernel

@[reducible] def sampleFormats : TextFormats where
  dumps value := match sampleTexts.lookup value with
    | some text => .ok text
    | none => .error "no sample"
  decodeStrict := decodeTexts sampleTexts
  fromIsoformat value := if value = sampleTime then some ⟨some 0, value⟩ else none
  laxFloat
    | .float value => some value
    | .int value => some value
    | _ => none
  repr value := match value with
    | .str text => "'" ++ text ++ "'"
    | _ => "None"
  decode_dumps value text h := by
    cases hlookup : sampleTexts.lookup value with
    | none =>
      rw [hlookup] at h
      cases h
    | some found =>
      rw [hlookup] at h
      cases h
      exact decodeTexts_text 3 (by rw [sampleTexts_heads]; decide) hlookup
  laxFloat_float _ := rfl

attribute [local instance] sampleFormats

def sampleRecord : PartialCallRecord := ⟨sampleFields, by decide +kernel⟩

theorem sampleToken_hex : (String.ofList (List.replicate 32 'a')).toList.length = 32 ∧
    ∀ c ∈ (String.ofList (List.replicate 32 'a')).toList, Sha256.isLowerHex c = true := by
  rw [String.toList_ofList]
  refine ⟨List.length_replicate, fun c hc => ?_⟩
  rw [List.eq_of_mem_replicate hc]
  decide

/- Nothing fails and every write is complete. -/
def calmAnswer : Answer where
  crash := none
  failure := none
  lasting := false
  count := 10000
  token := ⟨String.ofList (List.replicate 32 'a'), sampleToken_hex⟩
  time := sampleTime

/- One append that runs to its end, and one whose process is gone halfway. -/
def sampleCalls : List (Call × List Answer) :=
  [(.append sampleRecord, List.replicate 18 calmAnswer),
    (.append sampleRecord, List.replicate 9 calmAnswer)]

end Example
end Whetstone.Execution.Partials
