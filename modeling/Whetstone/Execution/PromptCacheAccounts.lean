import Whetstone.Execution.PromptCache

/-! What the files of the prompt cache say: the stage that the accounting of each key is in, and
how the shared counters follow from the stages. A move takes one key from a stage to another. -/
namespace Whetstone.Execution.PromptCache
open Whetstone.Core Whetstone.Lib Whetstone.Provider

section Accounts

variable [IdentityHasher] {F : Type}

/-! ### Stages -/

variable (F) in
inductive Stage where
  | absent
  | journaled (journal : AccountingJournal)
  | stored (journal : AccountingJournal) (entry : StoredEntry F)
  | applied (journal : AccountingJournal) (entry : StoredEntry F)
  | settled (entry : StoredEntry F)

namespace Stage

def pending? : Stage F → Option AccountingJournal
  | .journaled journal => some journal
  | .stored journal _ => some journal
  | _ => none

def applied? : Stage F → Option AccountingJournal
  | .applied journal _ => some journal
  | _ => none

def stored? : Stage F → Option (StoredEntry F)
  | .stored _ entry => some entry
  | .applied _ entry => some entry
  | .settled entry => some entry
  | _ => none

def id? : Stage F → Option PublicationId
  | .absent => none
  | .journaled journal => some journal.publicationId
  | .stored journal _ => some journal.publicationId
  | .applied journal _ => some journal.publicationId
  | .settled entry => some entry.publicationId

/- The counters may name the publication of a key from its count to the end of its journal. -/
def Open : Stage F → Prop
  | .stored .. => True
  | .applied .. => True
  | _ => False

def Sound (key : PromptCacheKey) : Stage F → Prop
  | .absent => True
  | .journaled journal => journal.key = key
  | .stored journal entry =>
    journal.key = key ∧ entry.key = key ∧ entry.publicationId = journal.publicationId
  | .applied journal entry =>
    journal.key = key ∧ entry.key = key ∧ entry.publicationId = journal.publicationId
  | .settled entry => entry.key = key

def counted (inflight : List PublicationId) : Stage F → Bool
  | .absent => false
  | .journaled _ => false
  | .stored _ entry => decide (entry.publicationId ∈ inflight)
  | .applied .. => true
  | .settled _ => true

end Stage

variable (F) in
/- An entry with what its process had paid for it. -/
structure Publication where
  pid : Nat
  misses : Fin 2
  entry : StoredEntry F

variable (F) in
structure Accounts where
  records : CacheFile → Option (Body F)
  published : List (Publication F)
  drawn : PublicationId → Option Nat

namespace Accounts

variable (v : Accounts F)

def stats : StoredStats :=
  match v.records .stats with
  | some (.stats stats) => stats
  | _ => {}

def inflight : List PublicationId := v.stats.inflightPublicationIds

/- The stage that the files of a key are in. -/
structure At (key : PromptCacheKey) (stage : Stage F) : Prop where
  pending : v.records (.pendingAccounting key) = stage.pending?.map .journal
  applied : v.records (.appliedAccounting key) = stage.applied?.map .journal
  entry : v.records (.entry key) = stage.stored?.map .entry

/- Whether the publication of a key has been counted. -/
def accounted (key : PromptCacheKey) : Bool :=
  match v.records (.entry key) with
  | some (.entry entry) =>
    (v.records (.pendingAccounting key)).isNone || decide (entry.publicationId ∈ v.inflight)
  | _ => false

/- How many publications of a kind have been counted. -/
def tally (kind : Fin 2 → Bool) : Nat :=
  v.published.countP fun x => kind x.misses && v.accounted x.entry.key

def every : Fin 2 → Bool := fun _ => true
def missed : Fin 2 → Bool := fun misses => decide (misses.val = 1)

structure Sound : Prop where
  stage : ∀ key, ∃ stage, v.At key stage ∧ stage.Sound key
  stats : ∀ body, v.records .stats = some body →
    ∃ stats, body = .stats stats ∧ stats.inflightPublicationIds.Nodup
  published : ∀ x ∈ v.published, v.records (.entry x.entry.key) = some (.entry x.entry)
  recorded : ∀ key entry, v.records (.entry key) = some (.entry entry) →
    ∃ x ∈ v.published, x.entry = entry
  once : (v.published.map fun x => x.entry.key).Nodup
  misses : ∀ key journal, v.records (.pendingAccounting key) = some (.journal journal) →
    ∀ x ∈ v.published, x.entry.key = key → x.misses = journal.misses
  inflight : ∀ id ∈ v.inflight, ∃ key stage, v.At key stage ∧ stage.Open ∧ stage.id? = some id
  distinct : ∀ key key' stage stage' id, v.At key stage → v.At key' stage' →
    stage.id? = some id → stage'.id? = some id → key = key'
  drawn : ∀ key stage id, v.At key stage → stage.id? = some id → (v.drawn id).isSome = true
  stores : v.stats.stores = v.tally every
  missesCount : v.stats.misses = v.tally missed

variable {v} {w : Accounts F} {key : PromptCacheKey} {stage stage' : Stage F}

theorem At.unique (h : v.At key stage) (h' : v.At key stage') : stage = stage' := by
  have hpending := h.pending.symm.trans h'.pending
  have happlied := h.applied.symm.trans h'.applied
  have hentry := h.entry.symm.trans h'.entry
  cases stage <;> cases stage' <;>
    simp_all [Stage.pending?, Stage.applied?, Stage.stored?]

theorem At.accounted (h : v.At key stage) : v.accounted key = stage.counted v.inflight := by
  cases stage <;>
    simp [Accounts.accounted, h.entry, h.pending, Stage.stored?, Stage.pending?, Stage.counted]

theorem accounted_entry (h : v.accounted key = true) :
    ∃ entry, v.records (.entry key) = some (.entry entry) := by
  unfold Accounts.accounted at h
  split at h
  · rename_i entry hentry
    exact ⟨entry, hentry⟩
  · cases h

/- The files of another key are in the stage they were. -/
theorem At.frame (h : v.At key stage)
    (hsame : ∀ file, file.key? = some key → w.records file = v.records file) : w.At key stage where
  pending := (hsame _ rfl).trans h.pending
  applied := (hsame _ rfl).trans h.applied
  entry := (hsame _ rfl).trans h.entry

/-! ### Counting -/

omit [IdentityHasher] in
theorem missed_toNat (misses : Fin 2) : (misses : Nat) = if missed misses then 1 else 0 := by
  revert misses
  decide

omit [IdentityHasher] in
/- A count over distinct keys grows by one when one key comes to be counted. -/
theorem countP_flip {α κ : Type} {key : α → κ} {p q : α → Bool} {l : List α}
    (hl : (l.map key).Nodup) (a : α) (ha : a ∈ l) (hp : p a = false)
    (hsame : ∀ b ∈ l, key b ≠ key a → q b = p b) :
    l.countP q = l.countP p + (if q a then 1 else 0) := by
  induction l with
  | nil => cases ha
  | cons b rest ih =>
    rw [List.map_cons, List.nodup_cons] at hl
    rcases List.mem_cons.mp ha with rfl | hrest
    · have hrest : rest.countP q = rest.countP p := by
        refine List.countP_congr fun c hc => ?_
        rw [hsame c (List.mem_cons_of_mem a hc) fun h => hl.1 (h ▸ List.mem_map_of_mem hc)]
      rw [List.countP_cons, List.countP_cons, hrest, hp]
      simp
    · have hne : key b ≠ key a := fun h => hl.1 (h ▸ List.mem_map_of_mem hrest)
      rw [List.countP_cons, List.countP_cons, hsame b List.mem_cons_self hne,
        ih hl.2 hrest fun c hc => hsame c (List.mem_cons_of_mem b hc)]
      omega

theorem tally_same (kind : Fin 2 → Bool) (hpublished : w.published = v.published)
    (hsame : ∀ x ∈ v.published, w.accounted x.entry.key = v.accounted x.entry.key) :
    w.tally kind = v.tally kind := by
  rw [tally, tally, hpublished]
  refine List.countP_congr fun x hx => ?_
  rw [hsame x hx]

theorem tally_append (kind : Fin 2 → Bool) (x : Publication F)
    (hpublished : w.published = v.published ++ [x]) (hx : w.accounted x.entry.key = false)
    (hsame : ∀ y ∈ v.published, w.accounted y.entry.key = v.accounted y.entry.key) :
    w.tally kind = v.tally kind := by
  rw [tally, hpublished, List.countP_append, List.countP_singleton, hx, Bool.and_false]
  refine (Nat.add_zero _).trans (List.countP_congr fun y hy => ?_)
  rw [hsame y hy]

theorem tally_flip (kind : Fin 2 → Bool) (hpublished : w.published = v.published)
    (honce : (v.published.map fun x => x.entry.key).Nodup) (x : Publication F)
    (hx : x ∈ v.published) (hbefore : v.accounted x.entry.key = false)
    (hafter : w.accounted x.entry.key = true)
    (hsame : ∀ key, key ≠ x.entry.key → w.accounted key = v.accounted key) :
    w.tally kind = v.tally kind + (if kind x.misses then 1 else 0) := by
  have hflip := countP_flip (p := fun y => kind y.misses && v.accounted y.entry.key)
    (q := fun y => kind y.misses && w.accounted y.entry.key) honce x hx
    (by rw [hbefore, Bool.and_false]) fun y _ hne => by rw [hsame y.entry.key hne]
  rw [tally, tally, hpublished, hflip, hafter, Bool.and_true]

/-! ### Moves -/

/-- What one step may do to the files: it takes one key from a stage to another, leaves the files
of every other key as they are and their publications as they are counted. -/
structure Moves (v w : Accounts F) (key : PromptCacheKey) (stage stage' : Stage F) : Prop where
  before : v.At key stage
  after : w.At key stage'
  sound : stage'.Sound key
  others : ∀ file, file ≠ .stats → file.key? ≠ some key → w.records file = v.records file
  stats : ∀ body, w.records .stats = some body →
    ∃ stats, body = .stats stats ∧ stats.inflightPublicationIds.Nodup
  published : (stage'.stored? = stage.stored? ∧ w.published = v.published) ∨
    (stage.stored? = none ∧ ∃ x, stage'.stored? = some x.entry ∧ w.published = v.published ++ [x])
  misses : ∀ journal, stage'.pending? = some journal →
    ∀ x ∈ w.published, x.entry.key = key → x.misses = journal.misses
  ids : ∀ id, stage'.id? = some id → stage.id? = some id ∨
    ((w.drawn id).isSome = true ∧ ∀ key' other, v.At key' other → other.id? ≠ some id)
  drawn : ∀ id, (v.drawn id).isSome = true → (w.drawn id).isSome = true
  inflight : ∀ id, stage.id? ≠ some id → stage'.id? ≠ some id →
    (id ∈ w.inflight ↔ id ∈ v.inflight)
  opened : ∀ id ∈ w.inflight, (stage.id? = some id ∨ stage'.id? = some id) →
    stage'.id? = some id ∧ stage'.Open
  counted : (stage'.counted w.inflight = stage.counted v.inflight ∧
      w.stats.stores = v.stats.stores ∧ w.stats.misses = v.stats.misses) ∨
    (stage.counted v.inflight = false ∧ stage'.counted w.inflight = true ∧
      stage.stored?.isSome = true ∧ ∃ journal, stage.pending? = some journal ∧
        w.stats.stores = v.stats.stores + 1 ∧
        w.stats.misses = v.stats.misses + journal.misses)

namespace Moves

variable (hm : Moves v w key stage stage') (hv : v.Sound)

include hm

theorem at_other {key' : PromptCacheKey} (hne : key' ≠ key) {other : Stage F} :
    w.At key' other ↔ v.At key' other := by
  have hsame (file : CacheFile) (hfile : file.key? = some key') :
      w.records file = v.records file := by
    refine hm.others file (fun h => ?_) fun h => ?_
    · rw [h] at hfile
      cases hfile
    · exact hne (Option.some.inj (hfile.symm.trans h))
  exact ⟨fun h => h.frame fun file hfile => (hsame file hfile).symm, fun h => h.frame hsame⟩

theorem entry_other {key' : PromptCacheKey} (hne : key' ≠ key) :
    w.records (.entry key') = v.records (.entry key') :=
  hm.others _ nofun fun h => hne (Option.some.inj h)

include hv

theorem sound_before : stage.Sound key := by
  obtain ⟨other,hat,hsound⟩ := hv.stage key
  rw [hm.before.unique hat]
  exact hsound

/- Another key's publication is not one of the two stages'. -/
theorem ids_other {key' : PromptCacheKey} (hne : key' ≠ key) {other : Stage F}
    (hat : v.At key' other) {id : PublicationId} (hid : other.id? = some id) :
    stage.id? ≠ some id ∧ stage'.id? ≠ some id := by
  have hbefore : stage.id? ≠ some id := fun h =>
    hne (hv.distinct key' key other stage id hat hm.before hid h)
  refine ⟨hbefore, fun h => ?_⟩
  rcases hm.ids id h with h' | ⟨_,hfresh⟩
  · exact hbefore h'
  · exact hfresh key' other hat hid

theorem accounted_other {key' : PromptCacheKey} (hne : key' ≠ key) :
    w.accounted key' = v.accounted key' := by
  obtain ⟨other,hat,hsound⟩ := hv.stage key'
  rw [((hm.at_other hne).mpr hat).accounted, hat.accounted]
  cases other with
  | stored journal entry =>
    have hids := hm.ids_other hv hne hat
      (rfl : Stage.id? (.stored journal entry) = some journal.publicationId)
    simp only [Stage.counted, hsound.2.2, hm.inflight journal.publicationId hids.1 hids.2]
  | _ => rfl

/- The key that moves has no entry as long as nothing is published for it. -/
theorem fresh_key (hnone : stage.stored? = none) : ∀ x ∈ v.published, x.entry.key ≠ key := by
  intro x hx hkey
  have hfile := hv.published x hx
  rw [hkey, hm.before.entry, hnone] at hfile
  cases hfile

theorem published_sound :
    (∀ x ∈ w.published, w.records (.entry x.entry.key) = some (.entry x.entry)) ∧
    (∀ key' entry, w.records (.entry key') = some (.entry entry) →
      ∃ x ∈ w.published, x.entry = entry) ∧ (w.published.map fun x => x.entry.key).Nodup := by
  rcases hm.published with ⟨hentry,hpublished⟩ | ⟨hnone,x,hx,hpublished⟩
  · have hsame (key' : PromptCacheKey) : w.records (.entry key') = v.records (.entry key') := by
      by_cases hkey : key' = key
      · rw [hkey, hm.after.entry, hm.before.entry, hentry]
      · exact hm.entry_other hkey
    rw [hpublished]
    refine ⟨fun x hx => (hsame _).trans (hv.published x hx), fun key' entry h => ?_, hv.once⟩
    exact hv.recorded key' entry ((hsame key').symm.trans h)
  · have hown : w.records (.entry key) = some (.entry x.entry) := by
      rw [hm.after.entry, hx]
      rfl
    have hkey : x.entry.key = key := by
      have hsound := hm.sound
      cases stage' <;> simp_all [Stage.stored?, Stage.Sound]
    have hfresh := hm.fresh_key hv hnone
    rw [hpublished]
    refine ⟨fun y hy => ?_, fun key' entry h => ?_, ?_⟩
    · rcases List.mem_append.mp hy with hold | hnew
      · exact (hm.entry_other (hfresh y hold)).trans (hv.published y hold)
      · rw [List.mem_singleton.mp hnew, hkey, hown]
    · by_cases hkey' : key' = key
      · rw [hkey', hown] at h
        cases h
        exact ⟨x, List.mem_append_right _ List.mem_cons_self, rfl⟩
      · obtain ⟨y,hy,hentry⟩ := hv.recorded key' entry ((hm.entry_other hkey').symm.trans h)
        exact ⟨y, List.mem_append_left _ hy, hentry⟩
    · rw [List.map_append, List.nodup_append]
      refine ⟨hv.once, by simp, fun a ha b hb hab => ?_⟩
      obtain ⟨y,hy,rfl⟩ := List.mem_map.mp ha
      rw [List.map_singleton, List.mem_singleton] at hb
      exact hfresh y hy (hab.trans (hb.trans hkey))

theorem tally_kept (kind : Fin 2 → Bool)
    (hsame : stage'.counted w.inflight = stage.counted v.inflight) :
    w.tally kind = v.tally kind := by
  have hkept (y : Publication F) : w.accounted y.entry.key = v.accounted y.entry.key := by
    by_cases hkey : y.entry.key = key
    · rw [hkey, hm.after.accounted, hm.before.accounted, hsame]
    · exact hm.accounted_other hv hkey
  rcases hm.published with ⟨_,hpublished⟩ | ⟨hnone,x,hx,hpublished⟩
  · exact tally_same kind hpublished fun y _ => hkept y
  · have hkey : x.entry.key = key := by
      have hsound := hm.sound
      cases stage' <;> simp_all [Stage.stored?, Stage.Sound]
    have hbefore : stage.counted v.inflight = false := by
      cases stage <;> simp_all [Stage.stored?, Stage.counted]
    refine tally_append kind x hpublished ?_ fun y _ => hkept y
    rw [hkey, hm.after.accounted, hsame, hbefore]

/- The publication of the key that moves is the one that comes to be counted. -/
theorem tally_counted (kind : Fin 2 → Bool) (hbefore : stage.counted v.inflight = false)
    (hafter : stage'.counted w.inflight = true) (hstored : stage.stored?.isSome = true)
    (journal : AccountingJournal) (hpending : stage.pending? = some journal) :
    w.tally kind = v.tally kind + (if kind journal.misses then 1 else 0) := by
  rcases hm.published with ⟨_,hpublished⟩ | ⟨hnone,_⟩
  · obtain ⟨entry,hentry⟩ := Option.isSome_iff_exists.mp hstored
    have hfile : v.records (.entry key) = some (.entry entry) := by
      rw [hm.before.entry, hentry]
      rfl
    obtain ⟨y,hy,rfl⟩ := hv.recorded key entry hfile
    have hkey : y.entry.key = key := by
      have hsound := hm.sound_before hv
      cases stage <;> simp_all [Stage.stored?, Stage.Sound]
    have hmisses : y.misses = journal.misses :=
      hv.misses key journal (by rw [hm.before.pending, hpending]; rfl) y hy hkey
    have hv' : v.accounted y.entry.key = false := by rw [hkey, hm.before.accounted, hbefore]
    have hw' : w.accounted y.entry.key = true := by rw [hkey, hm.after.accounted, hafter]
    rw [← hmisses]
    exact tally_flip kind hpublished hv.once y hy hv' hw' fun key' hne =>
      hm.accounted_other hv (hkey ▸ hne)
  · rw [hnone] at hstored
    cases hstored

/-- A move of one key leaves the accounts of all of them sound. -/
theorem sound_after : w.Sound where
  stage key' := by
    by_cases hkey : key' = key
    · exact ⟨stage', hkey ▸ hm.after, hkey ▸ hm.sound⟩
    · obtain ⟨other,hat,hsound⟩ := hv.stage key'
      exact ⟨other, (hm.at_other hkey).mpr hat, hsound⟩
  stats := hm.stats
  published := (hm.published_sound hv).1
  recorded := (hm.published_sound hv).2.1
  once := (hm.published_sound hv).2.2
  misses key' journal hfile x hx hkey' := by
    by_cases hkey : key' = key
    · subst hkey
      rw [hm.after.pending] at hfile
      obtain ⟨own,hown,hsame⟩ := Option.map_eq_some_iff.mp hfile
      cases hsame
      exact hm.misses journal hown x hx hkey'
    · rw [hm.others (.pendingAccounting key') nofun fun h => hkey (Option.some.inj h)] at hfile
      rcases hm.published with ⟨_,hpublished⟩ | ⟨_,y,hy,hpublished⟩
      · exact hv.misses key' journal hfile x (hpublished ▸ hx) hkey'
      · rw [hpublished, List.mem_append, List.mem_singleton] at hx
        rcases hx with hold | rfl
        · exact hv.misses key' journal hfile x hold hkey'
        · have hsound := hm.sound
          cases stage' <;> simp_all [Stage.stored?, Stage.Sound]
  inflight id hid := by
    by_cases hown : stage.id? = some id ∨ stage'.id? = some id
    · exact ⟨key, stage', hm.after, (hm.opened id hid hown).2, (hm.opened id hid hown).1⟩
    · rw [not_or] at hown
      obtain ⟨key',other,hat,hopen,hother⟩ :=
        hv.inflight id ((hm.inflight id hown.1 hown.2).mp hid)
      refine ⟨key', other, (hm.at_other fun hkey => ?_).mpr hat, hopen, hother⟩
      subst hkey
      exact hown.1 (hm.before.unique hat ▸ hother)
  distinct key₁ key₂ first second id h₁ h₂ hid₁ hid₂ := by
    by_cases hkey₁ : key₁ = key <;> by_cases hkey₂ : key₂ = key
    · rw [hkey₁, hkey₂]
    · subst hkey₁
      rw [h₁.unique hm.after] at hid₁
      exact absurd hid₁ (hm.ids_other hv hkey₂ ((hm.at_other hkey₂).mp h₂) hid₂).2
    · subst hkey₂
      rw [h₂.unique hm.after] at hid₂
      exact absurd hid₂ (hm.ids_other hv hkey₁ ((hm.at_other hkey₁).mp h₁) hid₁).2
    · exact hv.distinct key₁ key₂ first second id ((hm.at_other hkey₁).mp h₁)
        ((hm.at_other hkey₂).mp h₂) hid₁ hid₂
  drawn key' other id hat hid := by
    by_cases hkey : key' = key
    · subst hkey
      rw [hat.unique hm.after] at hid
      rcases hm.ids id hid with hbefore | ⟨hdrawn,_⟩
      · exact hm.drawn id (hv.drawn _ stage id hm.before hbefore)
      · exact hdrawn
    · exact hm.drawn id (hv.drawn key' other id ((hm.at_other hkey).mp hat) hid)
  stores := by
    rcases hm.counted with ⟨hsame,hstores,_⟩ | ⟨hbefore,hafter,hstored,journal,hpending,hstores,_⟩
    · rw [hstores, hm.tally_kept hv every hsame, hv.stores]
    · rw [hstores, hm.tally_counted hv every hbefore hafter hstored journal hpending, hv.stores]
      rfl
  missesCount := by
    rcases hm.counted with ⟨hsame,_,hmisses⟩ | ⟨hbefore,hafter,hstored,journal,hpending,_,hmisses⟩
    · rw [hmisses, hm.tally_kept hv missed hsame, hv.missesCount]
    · rw [hmisses, hm.tally_counted hv missed hbefore hafter hstored journal hpending,
        hv.missesCount, missed_toNat]

end Moves

/-! ### The steps of an account -/

def write (v : Accounts F) (file : CacheFile) (body : Option (Body F)) : Accounts F :=
  { v with records := Function.update v.records file body }

@[simp] theorem write_published (v : Accounts F) (file : CacheFile) (body : Option (Body F)) :
    (v.write file body).published = v.published := rfl

@[simp] theorem write_drawn (v : Accounts F) (file : CacheFile) (body : Option (Body F)) :
    (v.write file body).drawn = v.drawn := rfl

@[simp] theorem write_self (v : Accounts F) (file : CacheFile) (body : Option (Body F)) :
    (v.write file body).records file = body := Function.update_self ..

theorem write_other (v : Accounts F) {file other : CacheFile} (body : Option (Body F))
    (h : other ≠ file) : (v.write file body).records other = v.records other :=
  Function.update_of_ne h ..

theorem write_stats (v : Accounts F) (file : CacheFile) (body : Option (Body F))
    (h : file ≠ .stats) : (v.write file body).stats = v.stats := by
  rw [Accounts.stats, Accounts.stats, write_other v body h.symm]

theorem write_inflight (v : Accounts F) (file : CacheFile) (body : Option (Body F))
    (h : file ≠ .stats) : (v.write file body).inflight = v.inflight := by
  rw [Accounts.inflight, write_stats v file body h, Accounts.inflight]

/- The entry of a publication is written, which the log takes up. -/
def publish (v : Accounts F) (x : Publication F) : Accounts F :=
  ⟨(v.write (.entry x.entry.key) (some (.entry x.entry))).records, v.published ++ [x], v.drawn⟩

theorem publish_other (v : Accounts F) (x : Publication F) {other : CacheFile}
    (h : other ≠ .entry x.entry.key) : (v.publish x).records other = v.records other :=
  write_other v _ h

theorem publish_stats (v : Accounts F) (x : Publication F) : (v.publish x).stats = v.stats :=
  write_stats v (.entry x.entry.key) (some (.entry x.entry)) nofun

theorem publish_inflight (v : Accounts F) (x : Publication F) :
    (v.publish x).inflight = v.inflight :=
  write_inflight v (.entry x.entry.key) (some (.entry x.entry)) nofun

section Steps

variable (hv : v.Sound)

include hv

theorem Sound.stats_eq : ∀ body, v.records .stats = some body →
    body = .stats v.stats ∧ v.inflight.Nodup := by
  intro body hbody
  obtain ⟨stats,rfl,hnodup⟩ := hv.stats body hbody
  have hstats : v.stats = stats := by rw [Accounts.stats, hbody]
  exact ⟨by rw [hstats], by rw [Accounts.inflight, hstats]; exact hnodup⟩

theorem Sound.inflight_nodup : v.inflight.Nodup := by
  cases hbody : v.records .stats with
  | none => simp [Accounts.inflight, Accounts.stats, hbody]
  | some body => exact (hv.stats_eq body hbody).2

/- The counters name a publication only while its key is open. -/
theorem Sound.inflight_open {id : PublicationId} (hid : id ∈ v.inflight) (hat : v.At key stage)
    (hown : stage.id? = some id) : stage.Open := by
  obtain ⟨key',other,hother,hopen,hid'⟩ := hv.inflight id hid
  have hkey := hv.distinct key key' stage other id hat hother hown hid'
  subst hkey
  rw [hat.unique hother]
  exact hopen

/- Nothing that the accounts read is changed. -/
theorem moves_quiet (hrecords : w.records = v.records) (hpublished : w.published = v.published)
    (hdrawn : ∀ id, (v.drawn id).isSome = true → (w.drawn id).isSome = true)
    (hat : v.At key stage) : Moves v w key stage stage where
  before := hat
  after := hat.frame fun _ _ => by rw [hrecords]
  sound := by
    obtain ⟨other,hother,hsound⟩ := hv.stage key
    rw [hat.unique hother]
    exact hsound
  others _ _ _ := by rw [hrecords]
  stats body hbody := hv.stats body (hrecords ▸ hbody)
  published := .inl ⟨rfl, hpublished⟩
  misses journal hjournal x hx := by
    refine hv.misses key journal ?_ x (hpublished ▸ hx)
    rw [hat.pending, hjournal]
    rfl
  ids id hid := .inl hid
  drawn := hdrawn
  inflight id _ _ := by rw [inflight, inflight, Accounts.stats, Accounts.stats, hrecords]
  opened id hid hown := by
    have hown' : stage.id? = some id := or_self_iff.mp hown
    refine ⟨hown', hv.inflight_open ?_ hat hown'⟩
    rwa [inflight, Accounts.stats, ← hrecords]
  counted := .inl (by simp [inflight, Accounts.stats, hrecords])

/- The counters are written again, with the publications in flight that they had. -/
theorem moves_hits (hits : Nat) (hat : v.At key stage) :
    Moves v (v.write .stats (some (.stats { v.stats with hits := hits }))) key stage stage where
  before := hat
  after := hat.frame fun file hfile => write_other v _ fun h => by rw [h] at hfile; cases hfile
  sound := by
    obtain ⟨other,hother,hsound⟩ := hv.stage key
    rw [hat.unique hother]
    exact hsound
  others file hfile _ := write_other v _ hfile
  stats body hbody := by
    rw [write_self] at hbody
    cases hbody
    exact ⟨_, rfl, hv.inflight_nodup⟩
  published := .inl ⟨rfl, rfl⟩
  misses journal hjournal := by
    refine hv.misses key journal ?_
    rw [hat.pending, hjournal]
    rfl
  ids id hid := .inl hid
  drawn id hid := hid
  inflight id _ _ := by simp [inflight, Accounts.stats]
  opened id hid hown := by
    have hown' : stage.id? = some id := or_self_iff.mp hown
    refine ⟨hown', hv.inflight_open ?_ hat hown'⟩
    simpa [inflight, Accounts.stats] using hid
  counted := .inl (by simp [inflight, Accounts.stats])

omit hv in
/- A file of one key, which is none of the counters, is written or removed. -/
theorem write_others (file : CacheFile) (body : Option (Body F)) (hfile : file.key? = some key) :
    ∀ other, other ≠ .stats → other.key? ≠ some key →
      (v.write file body).records other = v.records other :=
  fun _ _ hother => write_other v body fun h => hother (h ▸ hfile)

theorem Sound.write_stats_valid (file : CacheFile) (body : Option (Body F))
    (hfile : file ≠ .stats) :
    ∀ body', (v.write file body).records .stats = some body' →
      ∃ stats, body' = .stats stats ∧ stats.inflightPublicationIds.Nodup := by
  intro body' hbody
  rw [write_other v body hfile.symm] at hbody
  exact hv.stats body' hbody

/-- A journal opens the accounting of a key that has no files. -/
theorem moves_journal {journal : AccountingJournal} (hat : v.At key .absent)
    (hkey : journal.key = key) (hdrawn : (v.drawn journal.publicationId).isSome = true)
    (hfresh : ∀ key' other, v.At key' other → other.id? ≠ some journal.publicationId) :
    Moves v (v.write (.pendingAccounting key) (some (.journal journal))) key .absent
      (.journaled journal) where
  before := hat
  after := {
    pending := write_self ..
    applied := (write_other v _ (by simp)).trans hat.applied
    entry := (write_other v _ (by simp)).trans hat.entry }
  sound := hkey
  others := write_others _ _ rfl
  stats := hv.write_stats_valid _ _ (by simp)
  published := .inl ⟨rfl, rfl⟩
  misses _ _ x hx hxkey := by
    have hfile := hv.published x hx
    rw [hxkey, hat.entry] at hfile
    cases hfile
  ids id hid := by
    cases hid
    exact .inr ⟨hdrawn, hfresh⟩
  drawn id hid := hid
  inflight id _ _ := by rw [write_inflight v (.pendingAccounting key) _ nofun]
  opened id hid hown := by
    rw [write_inflight v (.pendingAccounting key) _ nofun] at hid
    obtain ⟨key',other,hother,_,hid'⟩ := hv.inflight id hid
    rcases hown with h | h
    · cases h
    · cases h
      exact absurd hid' (hfresh key' other hother)
  counted := .inl (by rw [write_stats v (.pendingAccounting key) _ nofun]; exact ⟨rfl, rfl, rfl⟩)

/-- The entry of a key is published under the journal that was opened for it. -/
theorem moves_publish {journal : AccountingJournal} {x : Publication F}
    (hat : v.At key (.journaled journal)) (hkey : x.entry.key = key)
    (hid : x.entry.publicationId = journal.publicationId) (hmisses : x.misses = journal.misses) :
    Moves v (v.publish x) key (.journaled journal) (.stored journal x.entry) := by
  subst hkey
  have hsound : journal.key = x.entry.key := by
    obtain ⟨other,hother,hsound⟩ := hv.stage x.entry.key
    rw [← hat.unique hother] at hsound
    exact hsound
  have hinflight : journal.publicationId ∉ v.inflight := fun h => hv.inflight_open h hat rfl
  exact {
    before := hat
    after := {
      pending := (publish_other v x (by simp)).trans hat.pending
      applied := (publish_other v x (by simp)).trans hat.applied
      entry := write_self .. }
    sound := ⟨hsound, rfl, hid⟩
    others := write_others _ _ rfl
    stats := hv.write_stats_valid (.entry x.entry.key) (some (.entry x.entry)) nofun
    published := .inr ⟨rfl, x, rfl, rfl⟩
    misses := fun own hown y hy hykey => by
      cases hown
      rcases List.mem_append.mp hy with hold | hnew
      · have hfile := hv.published y hold
        rw [hykey, hat.entry] at hfile
        cases hfile
      · rw [List.mem_singleton.mp hnew, hmisses]
    ids := fun id hid => .inl hid
    drawn := fun id hid => hid
    inflight := fun id _ _ => by rw [publish_inflight]
    opened := fun id _ hown => ⟨or_self_iff.mp hown, trivial⟩
    counted := by
      refine .inl ⟨?_, by rw [publish_stats], by rw [publish_stats]⟩
      rw [publish_inflight, Stage.counted, Stage.counted, hid]
      exact decide_eq_false hinflight }

omit hv [IdentityHasher] in
theorem apply_inflight (current : StoredStats) (journal : AccountingJournal) (id : PublicationId) :
    id ∈ (current.apply journal).inflightPublicationIds ↔
      id = journal.publicationId ∨ id ∈ current.inflightPublicationIds := by
  rw [StoredStats.apply, sortedIds, List.mem_mergeSort, List.mem_cons]

/-- The counters take up the publication of a key. -/
theorem moves_count {journal : AccountingJournal} {entry : StoredEntry F}
    (hat : v.At key (.stored journal entry)) (hnew : journal.publicationId ∉ v.inflight) :
    Moves v (v.write .stats (some (.stats (v.stats.apply journal)))) key (.stored journal entry)
      (.stored journal entry) := by
  obtain ⟨other,hother,hsound⟩ := hv.stage key
  rw [← hat.unique hother] at hsound
  have hmem (id : PublicationId) :
      id ∈ (v.write .stats (some (.stats (v.stats.apply journal)))).inflight ↔
        id = journal.publicationId ∨ id ∈ v.inflight := by
    rw [inflight, Accounts.stats, write_self]
    exact apply_inflight v.stats journal id
  exact {
    before := hat
    after := hat.frame fun file hfile => write_other v _ fun h => by rw [h] at hfile; cases hfile
    sound := hsound
    others := fun file hfile _ => write_other v _ hfile
    stats := fun body hbody => by
      rw [write_self] at hbody
      cases hbody
      refine ⟨_, rfl, ?_⟩
      rw [StoredStats.apply, sortedIds, (List.mergeSort_perm ..).nodup_iff, List.nodup_cons]
      exact ⟨hnew, hv.inflight_nodup⟩
    published := .inl ⟨rfl, rfl⟩
    misses := fun own hown => hv.misses key own (by rw [hat.pending, hown]; rfl)
    ids := fun id hid => .inl hid
    drawn := fun id hid => hid
    inflight := fun id hid _ => by
      rw [hmem]
      exact or_iff_right fun h => hid (by rw [h]; rfl)
    opened := fun id _ hown => ⟨or_self_iff.mp hown, trivial⟩
    counted := by
      refine .inr ⟨?_, ?_, rfl, journal, rfl, ?_, ?_⟩
      · rw [Stage.counted, hsound.2.2]
        exact decide_eq_false hnew
      · rw [Stage.counted, hsound.2.2]
        exact decide_eq_true ((hmem _).mpr (.inl rfl))
      · rw [Accounts.stats, write_self]
        rfl
      · rw [Accounts.stats, write_self]
        rfl }

/-- The pending journal becomes the applied one when the counters have it. -/
theorem moves_promote {journal : AccountingJournal} {entry : StoredEntry F}
    (hat : v.At key (.stored journal entry)) (hcounted : journal.publicationId ∈ v.inflight) :
    Moves v ((v.write (.pendingAccounting key) none).write (.appliedAccounting key)
      (some (.journal journal))) key (.stored journal entry) (.applied journal entry) := by
  obtain ⟨other,hother,hsound⟩ := hv.stage key
  rw [← hat.unique hother] at hsound
  have hstats : ((v.write (.pendingAccounting key) none).write (.appliedAccounting key)
      (some (.journal journal))).stats = v.stats := by
    rw [write_stats _ (.appliedAccounting key) _ nofun,
      write_stats _ (.pendingAccounting key) _ nofun]
  have hinflight : ((v.write (.pendingAccounting key) none).write (.appliedAccounting key)
      (some (.journal journal))).inflight = v.inflight := by
    rw [inflight, hstats, inflight]
  exact {
    before := hat
    after := {
      pending := (write_other _ _ (by simp)).trans (write_self ..)
      applied := write_self ..
      entry := (write_other _ _ (by simp)).trans ((write_other _ _ (by simp)).trans hat.entry) }
    sound := hsound
    others := fun file hfile hkey =>
      (write_others _ _ rfl file hfile hkey).trans (write_others _ _ rfl file hfile hkey)
    stats := fun body hbody => by
      refine hv.stats body (Eq.trans ?_ hbody)
      exact ((write_other _ _ (by simp)).trans (write_other _ _ (by simp))).symm
    published := .inl ⟨rfl, rfl⟩
    misses := nofun
    ids := fun id hid => .inl hid
    drawn := fun id hid => hid
    inflight := fun id _ _ => by rw [hinflight]
    opened := fun id _ hown => ⟨or_self_iff.mp hown, trivial⟩
    counted := by
      refine .inl ⟨?_, by rw [hstats], by rw [hstats]⟩
      rw [Stage.counted, Stage.counted, hsound.2.2]
      exact (decide_eq_true hcounted).symm }

/-- The counters forget a publication whose journal has been applied. -/
theorem moves_settle {journal : AccountingJournal} {entry : StoredEntry F}
    (hat : v.At key (.applied journal entry)) :
    Moves v (v.write .stats (some (.stats (v.stats.settle journal)))) key (.applied journal entry)
      (.applied journal entry) := by
  obtain ⟨other,hother,hsound⟩ := hv.stage key
  rw [← hat.unique hother] at hsound
  have hmem (id : PublicationId) :
      id ∈ (v.write .stats (some (.stats (v.stats.settle journal)))).inflight ↔
        id ∈ v.inflight ∧ id ≠ journal.publicationId := by
    rw [inflight, Accounts.stats, write_self, StoredStats.settle, List.mem_filter, inflight]
    simp
  exact {
    before := hat
    after := hat.frame fun file hfile => write_other v _ fun h => by rw [h] at hfile; cases hfile
    sound := hsound
    others := fun file hfile _ => write_other v _ hfile
    stats := fun body hbody => by
      rw [write_self] at hbody
      cases hbody
      exact ⟨_, rfl, hv.inflight_nodup.filter _⟩
    published := .inl ⟨rfl, rfl⟩
    misses := nofun
    ids := fun id hid => .inl hid
    drawn := fun id hid => hid
    inflight := fun id hid _ => by
      rw [hmem]
      exact and_iff_left fun h => hid (by rw [h]; rfl)
    opened := fun id _ hown => ⟨or_self_iff.mp hown, trivial⟩
    counted := by
      refine .inl ⟨rfl, ?_, ?_⟩
      · rw [Accounts.stats, write_self]
        rfl
      · rw [Accounts.stats, write_self]
        rfl }

/-- The applied journal of a publication that the counters have forgotten is removed. -/
theorem moves_clear {journal : AccountingJournal} {entry : StoredEntry F}
    (hat : v.At key (.applied journal entry)) (hsettled : journal.publicationId ∉ v.inflight) :
    Moves v (v.write (.appliedAccounting key) none) key (.applied journal entry)
      (.settled entry) := by
  obtain ⟨other,hother,hsound⟩ := hv.stage key
  rw [← hat.unique hother] at hsound
  exact {
    before := hat
    after := {
      pending := (write_other v _ (by simp)).trans hat.pending
      applied := write_self ..
      entry := (write_other v _ (by simp)).trans hat.entry }
    sound := hsound.2.1
    others := write_others _ _ rfl
    stats := hv.write_stats_valid _ _ (by simp)
    published := .inl ⟨rfl, rfl⟩
    misses := nofun
    ids := fun id hid => .inl (by rw [← hid, Stage.id?, Stage.id?, hsound.2.2])
    drawn := fun id hid => hid
    inflight := fun id _ _ => by rw [write_inflight v (.appliedAccounting key) _ nofun]
    opened := fun id hid hown => by
      rw [write_inflight v (.appliedAccounting key) _ nofun] at hid
      rw [Stage.id?, Stage.id?, hsound.2.2, or_self_iff] at hown
      cases hown
      exact absurd hid hsettled
    counted := .inl (by
      rw [write_stats v (.appliedAccounting key) _ nofun]
      exact ⟨rfl, rfl, rfl⟩) }

/-- The journal of an entry that was never published is removed. -/
theorem moves_abandon {journal : AccountingJournal} (hat : v.At key (.journaled journal)) :
    Moves v (v.write (.pendingAccounting key) none) key (.journaled journal) .absent where
  before := hat
  after := {
    pending := write_self ..
    applied := (write_other v _ (by simp)).trans hat.applied
    entry := (write_other v _ (by simp)).trans hat.entry }
  sound := trivial
  others := write_others _ _ rfl
  stats := hv.write_stats_valid _ _ (by simp)
  published := .inl ⟨rfl, rfl⟩
  misses := nofun
  ids := nofun
  drawn id hid := hid
  inflight id _ _ := by rw [write_inflight v (.pendingAccounting key) _ nofun]
  opened id hid hown := by
    rw [write_inflight v (.pendingAccounting key) _ nofun] at hid
    rcases hown with h | h
    · exact absurd (hv.inflight_open hid hat h) not_false
    · cases h
  counted := .inl (by rw [write_stats v (.pendingAccounting key) _ nofun]; exact ⟨rfl, rfl, rfl⟩)

end Steps

end Accounts

end Accounts

end Whetstone.Execution.PromptCache
