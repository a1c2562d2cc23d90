import Whetstone.Execution.PromptCacheAccounts

/-! What one operation of a living process does to the store, what the other processes may rely on
meanwhile, and what every store of a run keeps: its accounts are sound, a key is paid for before
it is published, and again only after a crash. -/
namespace Whetstone.Execution.PromptCache
open Whetstone.Core Whetstone.Lib Whetstone.Provider

section Turns

variable [IdentityHasher] {F : Type}

/-! ### The store as accounts -/

def CacheFile.isRecord : CacheFile → Bool
  | .quarantine .. => false
  | .temporary .. => false
  | _ => true

namespace Event

def pid : Event F → Nat
  | .started pid => pid
  | .paid pid _ _ => pid
  | .published pid _ _ => pid
  | .finished pid _ => pid

def publication? : Event F → Option (Publication F)
  | .published pid misses entry => some ⟨pid, misses, entry⟩
  | _ => none

def isStart (pid : Nat) : Event F → Bool
  | .started other => other = pid
  | _ => false

end Event

namespace Store

def accounts (s : Store F) : Accounts F where
  records file := if file.isRecord then s.files.get? file else none
  published := s.log.filterMap Event.publication?
  drawn := s.drawn

/- What had been published before a process started. -/
def publishedBefore (s : Store F) (pid : Nat) : List (Publication F) :=
  (s.log.takeWhile fun event => !event.isStart pid).filterMap Event.publication?

def Published (s : Store F) (key : PromptCacheKey) : Prop :=
  ∃ x ∈ s.accounts.published, x.entry.key = key

/- What a call returns is what the entry of its key says. -/
def Serves (s : Store F) (pid : Nat) : CallOutcome F → Prop
  | .executed key execution => ∃ x ∈ s.accounts.published, x.entry.key = key ∧
      x.entry.result.call = execution.result ∧
      (execution.provenance = some x.entry.provenance ∨
        execution.provenance = none ∧ x.pid = pid ∧ x.misses.val = 1)
  | .found _ none => True
  | .found key (some (result, provenance)) => ∃ x ∈ s.accounts.published, x.entry.key = key ∧
      x.entry.result = result ∧ x.entry.provenance = provenance
  | .stored key provenance => ∃ x ∈ s.accounts.published, x.entry.key = key ∧
      x.entry.provenance = provenance
  | .counted _ misses stores => .started pid ∈ s.log ∧
      (s.publishedBefore pid).length ≤ stores ∧ stores ≤ s.accounts.published.length ∧
      (s.publishedBefore pid).countP (fun x => Accounts.missed x.misses) ≤ misses ∧
      misses ≤ s.accounts.published.countP fun x => Accounts.missed x.misses

/- A provider call is not paid for a key that has been published. -/
def PaidFirst : Event F → Event F → Prop
  | .published _ _ entry, .paid _ key _ => entry.key ≠ key
  | _, _ => True

/- An answer that was paid for is paid for again only after a crash. -/
def PaidOnce (s : Store F) : Event F → Event F → Prop
  | .paid pid key true, .paid _ key' _ => key = key' → s.dead pid = true
  | _, _ => True

structure Sound (s : Store F) : Prop where
  accounts : s.accounts.Sound
  paidFirst : s.log.Pairwise PaidFirst
  paidOnce : s.log.Pairwise s.PaidOnce
  paidOpen : ∀ pid key, .paid pid key true ∈ s.log →
    s.Published key ∨ s.dead pid = true ∨ s.exclusive (.key key) = some pid
  served : ∀ pid outcome, .finished pid outcome ∈ s.log → s.Serves pid outcome

/-! ### What the others keep -/

/- What a living process finds as it left it. -/
structure Steady (pid : Nat) (s t : Store F) : Prop where
  locks : ∀ lock, s.exclusive lock = some pid → t.exclusive lock = some pid
  files : ∀ key, s.exclusive (.key key) = some pid → ∀ file, file.key? = some key →
    t.accounts.records file = s.accounts.records file
  stats : s.exclusive .stats = some pid →
    t.accounts.records .stats = s.accounts.records .stats
  inflight : ∀ key stage id, s.exclusive (.key key) = some pid → s.accounts.At key stage →
    stage.id? = some id → (id ∈ t.accounts.inflight ↔ id ∈ s.accounts.inflight)
  fresh : ∀ id, s.drawn id = some pid →
    (∀ key stage, s.accounts.At key stage → stage.id? ≠ some id) →
      t.drawn id = some pid ∧ ∀ key stage, t.accounts.At key stage → stage.id? ≠ some id
  own : ∀ event ∈ t.log, event.pid = pid → event ∈ s.log
  log : ∃ events, t.log = s.log ++ events
  accounted : ∀ key, s.accounts.accounted key = true → t.accounts.accounted key = true

theorem Steady.refl (pid : Nat) (s : Store F) : Steady pid s s where
  locks _ h := h
  files _ _ _ _ := rfl
  stats _ := rfl
  inflight _ _ _ _ _ _ := Iff.rfl
  fresh _ hdrawn hfresh := ⟨hdrawn, hfresh⟩
  own _ h _ := h
  log := ⟨[], (List.append_nil _).symm⟩
  accounted _ h := h

theorem Steady.trans {pid : Nat} {s t u : Store F} (h : Steady pid s t) (h' : Steady pid t u) :
    Steady pid s u where
  locks lock hlock := h'.locks lock (h.locks lock hlock)
  files key hkey file hfile :=
    (h'.files key (h.locks _ hkey) file hfile).trans (h.files key hkey file hfile)
  stats hstats := (h'.stats (h.locks _ hstats)).trans (h.stats hstats)
  inflight key stage id hkey hat hid :=
    (h'.inflight key stage id (h.locks _ hkey) (hat.frame (h.files key hkey)) hid).trans
      (h.inflight key stage id hkey hat hid)
  fresh id hdrawn hfresh := by
    obtain ⟨hdrawn',hfresh'⟩ := h.fresh id hdrawn hfresh
    exact h'.fresh id hdrawn' hfresh'
  own event hevent hpid := h.own event (h'.own event hevent hpid) hpid
  log := by
    obtain ⟨events,ht⟩ := h.log
    obtain ⟨events',hu⟩ := h'.log
    exact ⟨events ++ events', by rw [hu, ht, List.append_assoc]⟩
  accounted key hkey := h'.accounted key (h.accounted key hkey)

/-! ### One turn -/

/- An operation leaves the accounts alone, or moves a key that its process has locked. -/
inductive Effect (pid : Nat) (s t : Store F) : Prop where
  | quiet (records : t.accounts.records = s.accounts.records)
      (published : t.accounts.published = s.accounts.published)
  | moved (key : PromptCacheKey) (stage stage' : Stage F)
      (moves : Accounts.Moves s.accounts t.accounts key stage stage')
      (held : s.exclusive (.key key) = some pid)
      (stats : t.accounts.records .stats = s.accounts.records .stats ∨
        s.exclusive .stats = some pid)
      (ids : ∀ id, stage'.id? = some id → stage.id? = some id ∨ s.drawn id = some pid)

/- What a process may log. -/
def Admits (s : Store F) : Event F → Prop
  | .paid pid key _ => s.exclusive (.key key) = some pid ∧ ¬ s.Published key ∧
      ∀ key' answered, .paid pid key' answered ∉ s.log
  | .finished pid outcome => s.Serves pid outcome
  | _ => True

structure Turn (pid : Nat) (s t : Store F) : Prop where
  dead : t.dead = s.dead
  locks : ∀ lock other, other ≠ pid → s.dead other = false → s.exclusive lock = some other →
    t.exclusive lock = some other
  effect : Effect pid s t
  drawn : ∀ id other, s.drawn id = some other → t.drawn id = some other
  log : t.log = s.log ∨ ∃ event, t.log = s.log ++ [event] ∧ event.pid = pid ∧ s.Admits event
  settled : ∀ key, s.exclusive (.key key) = some pid → t.exclusive (.key key) = some pid ∨
    .paid pid key true ∉ t.log ∨ t.Published key

namespace Turn

variable {pid : Nat} {s t : Store F} (h : Turn pid s t) (hs : s.Sound)

include h

theorem log_append : ∃ events, t.log = s.log ++ events ∧ ∀ event ∈ events, event.pid = pid := by
  rcases h.log with hlog | ⟨event,hlog,hpid,_⟩
  · exact ⟨[], by rw [hlog, List.append_nil], fun _ hmem => absurd hmem List.not_mem_nil⟩
  · refine ⟨[event], hlog, fun other hother => ?_⟩
    rw [List.mem_singleton.mp hother, hpid]

theorem published_append : ∃ more, t.accounts.published = s.accounts.published ++ more := by
  obtain ⟨events,hlog,_⟩ := h.log_append
  exact ⟨events.filterMap Event.publication?, by
    rw [accounts, accounts, hlog, List.filterMap_append]⟩

theorem published_mono {x : Publication F} (hx : x ∈ s.accounts.published) :
    x ∈ t.accounts.published := by
  obtain ⟨more,hmore⟩ := h.published_append
  rw [hmore]
  exact List.mem_append_left _ hx

include hs

theorem accounts_sound : t.accounts.Sound := by
  cases h.effect with
  | quiet hrecords hpublished =>
    have hkey : PromptCacheKey := ⟨String.ofList (List.replicate 64 '0'), by decide⟩
    obtain ⟨stage,hat,_⟩ := hs.accounts.stage hkey
    exact (Accounts.moves_quiet hs.accounts hrecords hpublished (fun id hid => by
      obtain ⟨other,hother⟩ := Option.isSome_iff_exists.mp hid
      exact Option.isSome_iff_exists.mpr ⟨other, h.drawn id other hother⟩) hat).sound_after
        hs.accounts
  | moved key stage stage' moves => exact moves.sound_after hs.accounts

theorem accounted_mono (key : PromptCacheKey) (hkey : s.accounts.accounted key = true) :
    t.accounts.accounted key = true := by
  cases h.effect with
  | quiet hrecords _ =>
    rw [Accounts.accounted, Accounts.inflight, Accounts.stats, hrecords]
    exact hkey
  | moved key' stage stage' moves =>
    by_cases hsame : key = key'
    · subst hsame
      rw [moves.before.accounted] at hkey
      rw [moves.after.accounted]
      rcases moves.counted with ⟨hcounted,_⟩ | ⟨_,hafter,_⟩
      · rw [hcounted, hkey]
      · exact hafter
    · rw [moves.accounted_other hs.accounts hsame, hkey]

/-- A turn of one process leaves to the others what they rely on. -/
theorem steady {other : Nat} (hne : other ≠ pid) (hlive : t.dead other = false) :
    Steady other s t where
  locks lock hlock := h.locks lock other hne (h.dead ▸ hlive) hlock
  files key hkey file hfile := by
    cases h.effect with
    | quiet hrecords _ => rw [hrecords]
    | moved key' stage stage' moves held =>
      refine moves.others file (fun hstats => ?_) fun hsame => ?_
      · rw [hstats] at hfile
        cases hfile
      · rw [Option.some.inj (hfile.symm.trans hsame)] at hkey
        exact hne (Option.some.inj (hkey.symm.trans held))
  stats hstats := by
    cases h.effect with
    | quiet hrecords _ => rw [hrecords]
    | moved key' stage stage' moves held hkept =>
      rcases hkept with hkept | hown
      · exact hkept
      · exact absurd (Option.some.inj (hstats.symm.trans hown)) hne
  inflight key stage id hkey hat hid := by
    cases h.effect with
    | quiet hrecords _ => rw [Accounts.inflight, Accounts.inflight, Accounts.stats,
        Accounts.stats, hrecords]
    | moved key' before after moves held =>
      have hother : key ≠ key' := fun hsame => by
        rw [hsame] at hkey
        exact hne (Option.some.inj (hkey.symm.trans held))
      obtain ⟨hbefore,hafter⟩ := moves.ids_other hs.accounts hother hat hid
      exact moves.inflight id hbefore hafter
  fresh id hdrawn hfresh := by
    refine ⟨h.drawn id other hdrawn, fun key stage hat hid => ?_⟩
    cases h.effect with
    | quiet hrecords _ =>
      exact hfresh key stage (hat.frame fun file _ => by rw [hrecords]) hid
    | moved key' before after moves held _ hids =>
      by_cases hsame : key = key'
      · subst hsame
        rw [hat.unique moves.after] at hid
        rcases hids id hid with hbefore | hown
        · exact hfresh key before moves.before hbefore
        · exact hne (Option.some.inj (hdrawn.symm.trans hown))
      · exact hfresh key stage ((moves.at_other hsame).mp hat) hid
  own event hevent hpid := by
    obtain ⟨events,hlog,hevents⟩ := h.log_append
    rw [hlog] at hevent
    rcases List.mem_append.mp hevent with hold | hnew
    · exact hold
    · exact absurd (hpid.symm.trans (hevents event hnew)) hne
  log := by
    obtain ⟨events,hlog,_⟩ := h.log_append
    exact ⟨events, hlog⟩
  accounted := h.accounted_mono hs

end Turn

omit [IdentityHasher] in
theorem takeWhile_append_stop {α : Type} (p : α → Bool) (l m : List α)
    (h : ∃ a ∈ l, p a = false) : (l ++ m).takeWhile p = l.takeWhile p := by
  induction l with
  | nil => simp at h
  | cons a rest ih =>
    rw [List.cons_append, List.takeWhile_cons, List.takeWhile_cons]
    cases ha : p a with
    | false => rfl
    | true =>
      obtain ⟨b,hb,hstop⟩ := h
      rcases List.mem_cons.mp hb with rfl | hrest
      · rw [ha] at hstop
        cases hstop
      · rw [ih ⟨b, hrest, hstop⟩]

theorem publishedBefore_append {s t : Store F} {pid : Nat} {events : List (Event F)}
    (hlog : t.log = s.log ++ events) (hstart : .started pid ∈ s.log) :
    t.publishedBefore pid = s.publishedBefore pid := by
  rw [publishedBefore, publishedBefore, hlog, takeWhile_append_stop]
  exact ⟨_, hstart, by simp [Event.isStart]⟩

/- What a call was served stays true as the log grows. -/
theorem Serves.mono {s t : Store F} {pid : Nat} {outcome : CallOutcome F}
    {events : List (Event F)} (hlog : t.log = s.log ++ events) (h : s.Serves pid outcome) :
    t.Serves pid outcome := by
  have hpublished : t.accounts.published =
      s.accounts.published ++ events.filterMap Event.publication? := by
    rw [accounts, accounts, hlog, List.filterMap_append]
  have hmono (x : Publication F) (hx : x ∈ s.accounts.published) :
      x ∈ t.accounts.published := hpublished ▸ List.mem_append_left _ hx
  cases outcome with
  | executed key execution =>
    obtain ⟨x,hx,hrest⟩ := h
    exact ⟨x, hmono x hx, hrest⟩
  | found key found =>
    cases found with
    | none => trivial
    | some found =>
      obtain ⟨x,hx,hrest⟩ := h
      exact ⟨x, hmono x hx, hrest⟩
  | stored key provenance =>
    obtain ⟨x,hx,hrest⟩ := h
    exact ⟨x, hmono x hx, hrest⟩
  | counted hits misses stores =>
    obtain ⟨hstart,hstores,hstores',hmisses,hmisses'⟩ := h
    refine ⟨hlog ▸ List.mem_append_left _ hstart, ?_, ?_, ?_, ?_⟩
    · rwa [publishedBefore_append hlog hstart]
    · rw [hpublished, List.length_append]
      omega
    · rwa [publishedBefore_append hlog hstart]
    · rw [hpublished, List.countP_append]
      omega

theorem Serves.same {s t : Store F} {pid : Nat} {outcome : CallOutcome F} (hlog : t.log = s.log)
    (h : s.Serves pid outcome) : t.Serves pid outcome :=
  h.mono (hlog.trans (List.append_nil _).symm)

theorem mem_published {s : Store F} {pid : Nat} {misses : Fin 2} {entry : StoredEntry F}
    (h : .published pid misses entry ∈ s.log) : s.Published entry.key :=
  ⟨⟨pid, misses, entry⟩, List.mem_filterMap.mpr ⟨_, h, rfl⟩, rfl⟩

omit [IdentityHasher] in
theorem pairwise_append_singleton {α : Type} {R : α → α → Prop} {l : List α} {a : α}
    (hl : l.Pairwise R) (ha : ∀ b ∈ l, R b a) : (l ++ [a]).Pairwise R := by
  refine List.pairwise_append.mpr ⟨hl, List.pairwise_singleton R a, fun b hb c hc => ?_⟩
  rw [List.mem_singleton.mp hc]
  exact ha b hb

/-- A turn leaves a sound store sound. -/
theorem Turn.sound {pid : Nat} {s t : Store F} (h : Turn pid s t) (hs : s.Sound) : t.Sound where
  accounts := h.accounts_sound hs
  paidFirst := by
    rcases h.log with hlog | ⟨event,hlog,hpid,hadmits⟩
    · rw [hlog]
      exact hs.paidFirst
    · rw [hlog]
      refine pairwise_append_singleton hs.paidFirst fun other hother => ?_
      cases other with
      | published pid' misses entry =>
        cases event with
        | paid pid'' key answered => exact fun hkey => hadmits.2.1 (hkey ▸ mem_published hother)
        | _ => trivial
      | _ => trivial
  paidOnce := by
    have hdead : t.PaidOnce = s.PaidOnce := by
      funext a b
      simp only [PaidOnce, h.dead]
    rw [hdead]
    rcases h.log with hlog | ⟨event,hlog,hpid,hadmits⟩
    · rw [hlog]
      exact hs.paidOnce
    · rw [hlog]
      refine pairwise_append_singleton hs.paidOnce fun other hother => ?_
      cases event with
      | paid pid' key' answered' =>
        obtain ⟨hheld,hfresh,hunpaid⟩ := hadmits
        cases other with
        | paid payer key answered =>
          cases answered with
          | false => trivial
          | true =>
            intro hkey
            subst hkey
            rcases hs.paidOpen payer key hother with hpublished | hdead | hlock
            · exact absurd hpublished hfresh
            · exact hdead
            · cases Option.some.inj (hlock.symm.trans hheld)
              exact absurd hother (hunpaid key true)
        | _ => trivial
      | _ =>
        cases other with
        | paid payer key answered => cases answered <;> trivial
        | _ => trivial
  paidOpen payer key hpaid := by
    have hsettled (hlock : s.exclusive (.key key) = some pid) (hpayer : payer = pid) :
        t.Published key ∨ t.dead payer = true ∨ t.exclusive (.key key) = some payer := by
      subst hpayer
      rcases h.settled key hlock with hkept | hunpaid | hpublished
      · exact .inr (.inr hkept)
      · exact absurd hpaid hunpaid
      · exact .inl hpublished
    have hold (hmem : .paid payer key true ∈ s.log) :
        t.Published key ∨ t.dead payer = true ∨ t.exclusive (.key key) = some payer := by
      rcases hs.paidOpen payer key hmem with ⟨x,hx,hkey⟩ | hdead | hlock
      · exact .inl ⟨x, h.published_mono hx, hkey⟩
      · exact .inr (.inl (h.dead ▸ hdead))
      · by_cases hpayer : payer = pid
        · exact hsettled (hpayer ▸ hlock) hpayer
        · cases hlive : s.dead payer with
          | true => exact .inr (.inl (h.dead ▸ hlive))
          | false => exact .inr (.inr (h.locks _ payer hpayer hlive hlock))
    rcases h.log with hlog | ⟨event,hlog,hpid,hadmits⟩
    · exact hold (hlog ▸ hpaid)
    · rw [hlog] at hpaid
      rcases List.mem_append.mp hpaid with hmem | hnew
      · exact hold hmem
      · rw [List.mem_singleton] at hnew
        subst hnew
        exact hsettled (hpid ▸ hadmits.1) hpid
  served payer outcome hmem := by
    obtain ⟨events,hlog',_⟩ := h.log_append
    rcases h.log with hlog | ⟨event,hlog,hpid,hadmits⟩
    · exact (hs.served payer outcome (hlog ▸ hmem)).mono hlog'
    · rw [hlog] at hmem
      rcases List.mem_append.mp hmem with hold | hnew
      · exact (hs.served payer outcome hold).mono hlog'
      · rw [List.mem_singleton] at hnew
        subst hnew
        exact hadmits.mono hlog'

/-! ### The turns of the operations -/

theorem accounts_set {s : Store F} {file : CacheFile} (hfile : file.isRecord = true)
    (body : Body F) :
    ({ s with files := s.files.set file body } : Store F).accounts =
      s.accounts.write file (some body) := by
  refine congrArg (fun records => (⟨records, _, _⟩ : Accounts F)) (funext fun other => ?_)
  by_cases hother : other = file
  · subst hother
    rw [Function.update_self, if_pos hfile, Dict.get?_set, if_pos rfl]
  · rw [Function.update_of_ne hother, Dict.get?_set_ne _ _ _ _ hother]
    rfl

theorem accounts_erase {s : Store F} {file : CacheFile} (hfile : file.isRecord = true) :
    ({ s with files := s.files.erase file } : Store F).accounts = s.accounts.write file none := by
  refine congrArg (fun records => (⟨records, _, _⟩ : Accounts F)) (funext fun other => ?_)
  by_cases hother : other = file
  · subst hother
    rw [Function.update_self, if_pos hfile, Dict.get?_erase, if_pos rfl]
  · rw [Function.update_of_ne hother, Dict.get?_erase, if_neg hother]
    rfl

theorem accounts_replace {s : Store F} (source target : CacheFile)
    (hsource : source.isRecord = true) (htarget : target.isRecord = true) (body : Body F) :
    ({ s with files := (s.files.erase source).set target body } : Store F).accounts =
      (s.accounts.write source none).write target (some body) := by
  refine (accounts_set (s := { s with files := s.files.erase source }) htarget body).trans ?_
  rw [accounts_erase hsource]

/- A file that is no record does not show in the accounts. -/
theorem accounts_set_other {s : Store F} {file : CacheFile} (hfile : file.isRecord = false)
    (body : Body F) :
    ({ s with files := s.files.set file body } : Store F).accounts = s.accounts := by
  refine congrArg (fun records => (⟨records, _, _⟩ : Accounts F)) (funext fun other => ?_)
  by_cases hother : other = file
  · subst hother
    rw [hfile]
    rfl
  · rw [Dict.get?_set_ne _ _ _ _ hother]

theorem accounts_erase_other {s : Store F} {file : CacheFile} (hfile : file.isRecord = false) :
    ({ s with files := s.files.erase file } : Store F).accounts = s.accounts := by
  refine congrArg (fun records => (⟨records, _, _⟩ : Accounts F)) (funext fun other => ?_)
  by_cases hother : other = file
  · subst hother
    rw [hfile]
    rfl
  · rw [Dict.get?_erase, if_neg hother]

section Turns

variable {pid : Nat} {s t : Store F}

/- A turn that touches neither the accounts nor a lock of another process. -/
theorem turn_quiet (hdead : t.dead = s.dead) (hrecords : t.accounts.records = s.accounts.records)
    (hlog : t.log = s.log)
    (hlocks : ∀ lock other, other ≠ pid → s.dead other = false → s.exclusive lock = some other →
      t.exclusive lock = some other)
    (hdrawn : ∀ id other, s.drawn id = some other → t.drawn id = some other)
    (hsettled : ∀ key, s.exclusive (.key key) = some pid → t.exclusive (.key key) = some pid ∨
      .paid pid key true ∉ s.log ∨ s.Published key) : Turn pid s t where
  dead := hdead
  locks := hlocks
  effect := .quiet hrecords (by rw [accounts, accounts, hlog])
  drawn := hdrawn
  log := .inl hlog
  settled key hkey := by
    rcases hsettled key hkey with hkept | hunpaid | hpublished
    · exact .inl hkept
    · exact .inr (.inl (hlog ▸ hunpaid))
    · refine .inr (.inr ?_)
      rwa [Published, accounts, hlog]

theorem turn_same : Turn pid s s :=
  turn_quiet rfl rfl rfl (fun _ _ _ _ h => h) (fun _ _ h => h) fun _ h => .inl h

theorem turn_files (hfiles : t.accounts.records = s.accounts.records)
    (hrest : t.dead = s.dead ∧ t.log = s.log ∧ t.exclusive = s.exclusive ∧ t.drawn = s.drawn) :
    Turn pid s t := by
  obtain ⟨hdead,hlog,hexclusive,hdrawn⟩ := hrest
  refine turn_quiet hdead hfiles hlog (fun lock other _ _ h => ?_) (fun id other h => ?_)
    fun key h => .inl ?_
  · rw [hexclusive, h]
  · rw [hdrawn, h]
  · rw [hexclusive, h]

theorem turn_acquire {lock : LockName} (hfree : s.held lock = false) :
    Turn pid s { s with exclusive := Function.update s.exclusive lock (some pid) } := by
  refine turn_quiet rfl rfl rfl (fun other owner _ hlive h => ?_) (fun _ _ h => h)
    fun key h => .inl ?_
  · by_cases hother : other = lock
    · subst hother
      rw [held, h, Option.any_some, hlive] at hfree
      cases hfree
    · exact (Function.update_of_ne hother ..).trans h
  · by_cases hkey : LockName.key key = lock
    · subst hkey
      exact Function.update_self ..
    · exact (Function.update_of_ne hkey ..).trans h

theorem turn_release {lock : LockName} (hheld : s.exclusive lock = some pid)
    (hsettled : ∀ key, lock = .key key → .paid pid key true ∉ s.log ∨ s.Published key) :
    Turn pid s { s with exclusive := Function.update s.exclusive lock none } := by
  refine turn_quiet rfl rfl rfl (fun other owner howner _ h => ?_) (fun _ _ h => h)
    fun key h => ?_
  · refine (Function.update_of_ne (fun hother => ?_) ..).trans h
    rw [hother] at h
    exact howner (Option.some.inj (h.symm.trans hheld))
  · by_cases hkey : LockName.key key = lock
    · exact .inr (hsettled key hkey.symm)
    · exact .inl ((Function.update_of_ne hkey ..).trans h)

theorem turn_draw {token : PublicationId} (hfresh : s.drawn token = none) :
    Turn pid s (s.draw pid token) := by
  refine turn_quiet rfl rfl rfl (fun _ _ _ _ h => h) (fun id other h => ?_) fun _ h => .inl h
  refine (Function.update_of_ne (fun hid => ?_) ..).trans h
  rw [hid, hfresh] at h
  cases h

/- An event that is no publication is logged. -/
theorem turn_record {event : Event F} (hpid : event.pid = pid) (hadmits : s.Admits event)
    (hevent : event.publication? = none) : Turn pid s (s.record event) where
  dead := rfl
  locks _ _ _ _ h := h
  effect := .quiet rfl (by
    rw [accounts, accounts, record, List.filterMap_append, List.filterMap_cons, hevent]
    exact List.append_nil _)
  drawn _ _ h := h
  log := .inr ⟨event, rfl, hpid, hadmits⟩
  settled _ h := .inl h

/- A file of a key that its process has locked is written or removed. -/
theorem turn_moved {key : PromptCacheKey} {stage stage' : Stage F}
    (hmoves : Accounts.Moves s.accounts t.accounts key stage stage')
    (hheld : s.exclusive (.key key) = some pid)
    (hstats : t.accounts.records .stats = s.accounts.records .stats ∨
      s.exclusive .stats = some pid)
    (hids : ∀ id, stage'.id? = some id → stage.id? = some id ∨ s.drawn id = some pid)
    (hrest : t.dead = s.dead ∧ t.exclusive = s.exclusive ∧ t.drawn = s.drawn)
    (hlog : t.log = s.log ∨ ∃ event, t.log = s.log ++ [event] ∧ event.pid = pid ∧
      s.Admits event) : Turn pid s t where
  dead := hrest.1
  locks lock other _ _ h := by rw [hrest.2.1, h]
  effect := .moved key stage stage' hmoves hheld hstats hids
  drawn id other h := by rw [hrest.2.2, h]
  log := hlog
  settled key h := .inl (by rw [hrest.2.1, h])

end Turns

/- A crash leaves the files and frees the locks of its process. -/
theorem Sound.kill {s : Store F} (hs : s.Sound) (victim : Nat) :
    ({ s with dead := Function.update s.dead victim true } : Store F).Sound where
  accounts := hs.accounts
  paidFirst := hs.paidFirst
  paidOnce := by
    refine hs.paidOnce.imp fun {a b} hab => ?_
    cases a with
    | paid pid key answered =>
      cases answered with
      | false => cases b <;> trivial
      | true =>
        cases b with
        | paid pid' key' answered' =>
          intro hkey
          by_cases hpid : pid = victim
          · exact hpid ▸ Function.update_self ..
          · exact (Function.update_of_ne hpid ..).trans (hab hkey)
        | _ => trivial
    | _ => cases b <;> trivial
  paidOpen pid key hpaid := by
    rcases hs.paidOpen pid key hpaid with hpublished | hdead | hlock
    · exact .inl hpublished
    · refine .inr (.inl ?_)
      by_cases hpid : pid = victim
      · exact hpid ▸ Function.update_self ..
      · exact (Function.update_of_ne hpid ..).trans hdead
    · exact .inr (.inr hlock)
  served pid outcome hmem := by
    have h := hs.served pid outcome hmem
    cases outcome with
    | found key found => cases found <;> exact h
    | _ => exact h

end Store

end Turns

end Whetstone.Execution.PromptCache
