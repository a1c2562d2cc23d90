import Whetstone.Execution.PromptCacheSafety

/-! The sections of the prompt cache under the lock of a key. Each starts from a stage of the key
and ends in one; a crash in between leaves a stage that the next section starts from. -/
namespace Whetstone.Execution.PromptCache
open Whetstone.Core Whetstone.Lib Whetstone.Provider
open Whetstone.Lib.Prog (ofExcept)

section Calls

variable [IdentityHasher] {F : Type}

/-! ### Assertions -/

structure Critical (pid : Nat) (key : PromptCacheKey) (stage : Stage F) (s : Store F) : Prop where
  lock : s.exclusive (.key key) = some pid
  stage : s.accounts.At key stage

theorem lasting_critical (pid : Nat) (key : PromptCacheKey) (stage : Stage F) :
    Lasting keyLocks pid (Critical pid key stage) := by
  refine ⟨fun s t hst h => ⟨hst.locks _ h.lock, h.stage.frame (hst.files key h.lock)⟩,
    fun s t halike hsame h => ⟨(hsame (.key key) nofun).trans h.lock, h.stage.frame fun _ _ => ?_⟩⟩
  rw [halike.records]

theorem Alike.inflight {s t : Store F} (h : Alike s t) :
    t.accounts.inflight = s.accounts.inflight := by
  rw [Accounts.inflight, Accounts.inflight, Accounts.stats, Accounts.stats, h.records]

/- Whether the counters name the publication of a key that its process has locked. -/
theorem lasting_inflight (pid : Nat) (key : PromptCacheKey) (stage : Stage F)
    (id : PublicationId) (hid : stage.id? = some id) (named : Prop) :
    Lasting keyLocks pid fun s : Store F =>
      Critical pid key stage s ∧ (id ∈ s.accounts.inflight ↔ named) := by
  refine ⟨fun s t hst h => ⟨(lasting_critical pid key stage).1 s t hst h.1, ?_⟩,
    fun s t halike hsame h => ⟨(lasting_critical pid key stage).2 s t halike hsame h.1, ?_⟩⟩
  · exact (hst.inflight key stage id h.1.lock h.1.stage hid).trans h.2
  · rw [halike.inflight]
    exact h.2

theorem lasting_stats (pid : Nat) (stats : StoredStats) :
    Lasting allLocks pid fun s : Store F =>
      s.exclusive .stats = some pid ∧ s.accounts.stats = stats := by
  refine ⟨fun s t hst h => ⟨hst.locks _ h.1, ?_⟩,
    fun s t halike hsame h => ⟨(hsame _ trivial).trans h.1, ?_⟩⟩
  · rw [Accounts.stats, hst.stats h.1]
    exact h.2
  · rw [Accounts.stats, halike.records]
    exact h.2

theorem Lasting.all {locks : LockName → Prop} {pid : Nat} {P : Store F → Prop}
    (h : Lasting locks pid P) : Lasting allLocks pid P := h.wider fun _ _ => trivial

theorem Store.get_record (s : Store F) {file : CacheFile} (h : file.isRecord = true) :
    s.files.get? file = s.accounts.records file := by
  rw [Store.accounts]
  exact (if_pos h).symm

/-! ### Reads -/

section Reads

variable {pid : Nat} {call : CacheCall F} {E : CacheError → Store F → Prop} {s : Store F}
variable {P : Store F → Prop}

theorem statsOf_sound {t : Store F} (ht : t.Sound) :
    statsOf (t.files.get? .stats) = .ok t.accounts.stats := by
  rw [t.get_record rfl]
  cases hbody : t.accounts.records .stats with
  | none => rw [Accounts.stats, hbody]; rfl
  | some body =>
    obtain ⟨rfl,hnodup⟩ := ht.accounts.stats_eq body hbody
    exact if_pos hnodup

/- The counters, read under their lock, stay what they are. -/
theorem does_readStats (hP : Lasting allLocks pid P)
    (hs : s.dead pid = false → P s ∧ s.exclusive .stats = some pid) :
    Does pid call E readStats s fun stats t =>
      P t ∧ t.exclusive .stats = some pid ∧ t.accounts.stats = stats := by
  refine does_bind (Q := fun (body : Option (Body F)) t =>
    P t ∧ ∃ stats, (t.exclusive .stats = some pid ∧ t.accounts.stats = stats) ∧
      statsOf body = .ok stats) ?_ fun body t ht hlive _ h => ?_
  · refine does_read (hP.and (lasting_all .stats)).1 hs (fun body => ?_)
      fun t answer r t' ht hPt he => ?_
    · refine fun u v huv h => ⟨hP.1 u v huv h.1, ?_⟩
      obtain ⟨stats,hstats,hbody⟩ := h.2
      exact ⟨stats, (lasting_stats pid stats).1 u v huv hstats, hbody⟩
    · cases he
      exact ⟨rfl, hPt.1, _, ⟨hPt.2, rfl⟩, statsOf_sound ht⟩
  · obtain ⟨hPt,stats,hstats,hbody⟩ := h
    rw [hbody]
    exact does_done (hP.and (lasting_stats pid stats)).1 fun _ => ⟨hPt, hstats⟩

variable {key : PromptCacheKey} {stage : Stage F}

theorem entryOf_stage {t : Store F} (ht : t.Sound) (hat : t.accounts.At key stage) :
    entryOf key (t.files.get? (.entry key)) = .ok stage.stored? := by
  obtain ⟨other,hother,hsound⟩ := ht.accounts.stage key
  rw [← hat.unique hother] at hsound
  rw [t.get_record rfl, hat.entry]
  cases stage with
  | absent => rfl
  | journaled journal => rfl
  | stored journal entry => exact if_pos hsound.2.1
  | applied journal entry => exact if_pos hsound.2.1
  | settled entry => exact if_pos hsound

theorem does_readEntry (hP : Lasting keyLocks pid P)
    (hs : s.dead pid = false → P s ∧ Critical pid key stage s) :
    Does pid call E (readEntry key) s fun found t =>
      (P t ∧ Critical pid key stage t) ∧ found = stage.stored? := by
  have hlasting := (hP.and (lasting_critical pid key stage)).1
  refine does_bind (Q := fun (body : Option (Body F)) t =>
    (P t ∧ Critical pid key stage t) ∧ entryOf key body = .ok stage.stored?) ?_
    fun body t ht hlive _ h => ?_
  · refine does_read hlasting hs (fun body u v huv h => ⟨hlasting u v huv h.1, h.2⟩)
      fun t answer r t' ht hPt he => ?_
    cases he
    exact ⟨rfl, hPt, entryOf_stage ht hPt.2.stage⟩
  · rw [h.2]
    exact does_done (fun u v huv h => ⟨hlasting u v huv h.1, h.2⟩) fun _ => ⟨h.1, rfl⟩

/- A journal of the key, which the stage tells. -/
theorem does_readAccountingJournal {file : CacheFile} {journal : AccountingJournal}
    (hs : s.dead pid = false → Critical pid key stage s) (hfile : file.isRecord = true)
    (hjournal : ∀ t : Store F, t.Sound → t.accounts.At key stage →
      t.accounts.records file = some (.journal journal) ∧ journal.key = key) :
    Does pid call E (readAccountingJournal file key) s fun found t =>
      Critical pid key stage t ∧ found = journal := by
  have hlasting := (lasting_critical pid key stage).1
  refine does_bind (Q := fun (body : Option (Body F)) t =>
    Critical pid key stage t ∧ journalOf key body = .ok journal) ?_ fun body t ht hlive _ h => ?_
  · refine does_read hlasting hs (fun body u v huv h => ⟨hlasting u v huv h.1, h.2⟩)
      fun t answer r t' ht hPt he => ?_
    cases he
    obtain ⟨hrecord,hkey⟩ := hjournal t ht hPt.stage
    rw [t.get_record hfile, hrecord]
    exact ⟨rfl, hPt, if_pos hkey⟩
  · rw [h.2]
    exact does_done (fun u v huv h => ⟨hlasting u v huv h.1, h.2⟩) fun _ => ⟨h.1, rfl⟩

theorem does_pathExists {file : CacheFile} (found : Bool)
    (hs : s.dead pid = false → Critical pid key stage s) (hfile : file.isRecord = true)
    (hfound : ∀ t : Store F, t.accounts.At key stage → (t.accounts.records file).isSome = found) :
    Does pid call E (op (.pathExists file)) s fun answer t =>
      Critical pid key stage t ∧ answer = found := by
  have hlasting := (lasting_critical pid key stage).1
  refine does_read hlasting hs (fun body u v huv h => ⟨hlasting u v huv h.1, h.2⟩)
    fun t answer r t' ht hPt he => ?_
  cases he
  refine ⟨rfl, hPt, ?_⟩
  rw [t.get_record hfile]
  exact hfound t hPt.stage

end Reads

/-! ### Writes -/

section Writes

variable {pid : Nat} {call : CacheCall F} {E : CacheError → Store F → Prop} {s : Store F}
variable {key : PromptCacheKey} {stage stage' : Stage F}

/- A record of the key is written; the key moves. -/
theorem does_place {P R : Store F → Prop} (key : PromptCacheKey) (stage stage' : Stage F)
    (file : CacheFile) (body : Body F)
    (hfile : file.isRecord = true) (hbody : ∀ entry, body ≠ .entry entry)
    (hP : Lasting allLocks pid P) (hR : Lasting allLocks pid R)
    (hs : s.dead pid = false → P s)
    (hmoves : ∀ t : Store F, t.Sound → P t → t.exclusive (.key key) = some pid ∧
      (file = .stats → t.exclusive .stats = some pid) ∧
      (∀ id, stage'.id? = some id → stage.id? = some id ∨ t.drawn id = some pid) ∧
      Accounts.Moves t.accounts (t.accounts.write file (some body)) key stage stage')
    (hafter : ∀ t u : Store F, P t → u.exclusive = t.exclusive →
      u.accounts = t.accounts.write file (some body) → u.log = t.log → R u) :
    Does pid call E (atomicWrite file body) s fun _ => R := by
  refine does_atomicWrite hP hR hs fun t temporary ht hPt htemporary => ?_
  have hplace : t.placeBody pid call.misses temporary file body =
      { t with files := (t.files.erase temporary).set file body } := by
    unfold Store.placeBody
    split
    · rename_i entry
      exact absurd rfl (hbody entry)
    · rfl
  have haccounts : (t.placeBody pid call.misses temporary file body).accounts =
      t.accounts.write file (some body) := by
    rw [hplace]
    refine (Store.accounts_set (s := { t with files := t.files.erase temporary }) hfile
      body).trans ?_
    rw [Store.accounts_erase_other htemporary]
  obtain ⟨hheld,hstats,hids,hm⟩ := hmoves t ht hPt
  rw [← haccounts] at hm
  refine ⟨Store.turn_moved hm hheld ?_ hids ?_ ?_, ?_, hafter t _ hPt ?_ haccounts ?_⟩
  · by_cases hown : file = .stats
    · exact .inr (hstats hown)
    · refine .inl ?_
      rw [haccounts, Accounts.write_other _ _ (Ne.symm hown)]
  · rw [hplace]
    exact ⟨rfl, rfl, rfl⟩
  · rw [hplace]
    exact .inl rfl
  · rw [hplace]
    exact fun _ _ h => h
  · rw [hplace]
  · rw [hplace]

theorem does_unlinkFile {P R : Store F → Prop} (key : PromptCacheKey) (stage stage' : Stage F)
    (file : CacheFile)
    (hfile : file.isRecord = true) (hstats : file ≠ .stats)
    (hP : Lasting allLocks pid P) (hR : Lasting allLocks pid R)
    (hs : s.dead pid = false → P s)
    (hmoves : ∀ t : Store F, t.Sound → P t → t.exclusive (.key key) = some pid ∧
      (t.accounts.records file).isSome = true ∧
      (∀ id, stage'.id? = some id → stage.id? = some id) ∧
      Accounts.Moves t.accounts (t.accounts.write file none) key stage stage')
    (hafter : ∀ t u : Store F, P t → u.exclusive = t.exclusive →
      u.accounts = t.accounts.write file none → R u) :
    Does pid call E (unlinkFile file) s fun _ => R := by
  refine does_bind (Q := fun (result : Except CacheError Unit) t => R t ∧ result = .ok ()) ?_
    fun result t ht hlive _ h => ?_
  · refine does_op hP.1 hs (fun _ => (hR.and (lasting_const _)).1)
      fun t answer r t' ht _ hPt he => ?_
    obtain ⟨hheld,hpresent,hids,hm⟩ := hmoves t ht hPt
    rw [← t.get_record hfile] at hpresent
    obtain ⟨body,hbody⟩ := Option.isSome_iff_exists.mp hpresent
    simp only [runOp, hbody] at he
    cases he
    have haccounts := Store.accounts_erase (s := t) hfile
    rw [← haccounts] at hm
    refine ⟨Store.turn_moved hm hheld (.inl ?_) (fun id hid => .inl (hids id hid)) ⟨rfl, rfl, rfl⟩
      (.inl rfl), fun _ _ h => h, hafter t _ hPt rfl haccounts, rfl⟩
    rw [haccounts, Accounts.write_other _ _ (Ne.symm hstats)]
  · rw [h.2]
    exact does_done hR.1 fun _ => h.1

/- The pending journal takes the name of the applied one. -/
theorem does_promote {journal : AccountingJournal} {entry : StoredEntry F}
    (hs : s.dead pid = false → Critical pid key (.stored journal entry) s ∧
      (journal.publicationId ∈ s.accounts.inflight ↔ True)) :
    Does pid call E (replaceFile (.pendingAccounting key) (.appliedAccounting key)) s
      fun _ => Critical pid key (.applied journal entry) := by
  have hR := (lasting_critical pid key (.applied journal entry)).1
  refine does_bind (Q := fun (result : Except CacheError Unit) t =>
    Critical pid key (.applied journal entry) t ∧ result = .ok ()) ?_
    fun result t ht hlive _ h => ?_
  · refine does_op (lasting_inflight pid key (.stored journal entry) journal.publicationId rfl
      True).1 hs
      (fun _ u v huv h => ⟨hR u v huv h.1, h.2⟩) fun t answer r t' ht _ hPt he => ?_
    have hfile : t.files.get? (.pendingAccounting key) = some (.journal journal) := by
      rw [t.get_record rfl, hPt.1.stage.pending]
      rfl
    simp only [runOp, hfile] at he
    cases he
    have haccounts := Store.accounts_replace (s := t) (.pendingAccounting key)
      (.appliedAccounting key) rfl rfl (.journal journal)
    have hm := Accounts.moves_promote ht.accounts hPt.1.stage (hPt.2.mpr trivial)
    rw [← haccounts] at hm
    refine ⟨Store.turn_moved hm hPt.1.lock (.inl ?_) (fun id hid => .inl hid) ⟨rfl, rfl, rfl⟩
      (.inl rfl), fun _ _ h => h, ⟨hPt.1.lock, hm.after⟩, rfl⟩
    rw [haccounts, Accounts.write_other _ _ (by simp), Accounts.write_other _ _ (by simp)]
  · rw [h.2]
    exact does_done hR fun _ => h.1

/-- The counters are updated of the publication of a key, unless they are as they should be. -/
theorem does_updateStats {id : PublicationId} (hid : stage.id? = some id) (named : Prop)
    (test : StoredStats → Prop) [DecidablePred test] (change : StoredStats → StoredStats)
    (hmoves : ∀ v : Accounts F, v.Sound → v.At key stage → test v.stats →
      Accounts.Moves v (v.write .stats (some (.stats (change v.stats)))) key stage stage)
    (hchanged : ∀ current, test current → (id ∈ (change current).inflightPublicationIds ↔ named))
    (hkept : ∀ current, ¬ test current → (id ∈ current.inflightPublicationIds ↔ named))
    (hs : s.dead pid = false → Critical pid key stage s) :
    Does pid call E (withLock .stats do
        let current ← readStats
        if test current then writeStats (change current)) s
      fun _ t => Critical pid key stage t ∧ (id ∈ t.accounts.inflight ↔ named) := by
  have hcritical := lasting_critical pid key stage
  have hnamed := lasting_inflight pid key stage id hid named
  refine does_withLock_stats hcritical (fun _ => hnamed) hs fun t _ _ ht hlock => ?_
  refine does_bind (does_readStats hcritical.all fun _ => ⟨ht, hlock⟩)
    fun current u _ _ _ hu => ?_
  by_cases htest : test current
  · rw [if_pos htest]
    refine does_place key stage stage .stats (.stats (change current)) rfl (by simp)
      (hcritical.all.and (lasting_stats pid current)) (hnamed.all.and (lasting_all _)) (fun _ => hu)
      (fun v hv hPv => ?_) fun v w hPv hexclusive haccounts _ => ?_
    · obtain ⟨hPv,hlock,rfl⟩ := hPv
      exact ⟨hPv.lock, fun _ => hlock, fun _ => .inl, hmoves _ hv.accounts hPv.stage htest⟩
    · refine ⟨⟨⟨hexclusive ▸ hPv.1.lock, ?_⟩, ?_⟩, hexclusive ▸ hPv.2.1⟩
      · rw [haccounts]
        exact hPv.1.stage.frame fun file hfile =>
          Accounts.write_other _ _ fun h => by rw [h] at hfile; cases hfile
      · rw [haccounts, Accounts.inflight, Accounts.stats, Accounts.write_self]
        exact hchanged current htest
  · rw [if_neg htest]
    refine does_done (hnamed.all.and (lasting_all _)).1 fun _ => ?_
    refine ⟨⟨hu.1, ?_⟩, hu.2.1⟩
    rw [Accounts.inflight, hu.2.2]
    exact hkept current htest

/-- The counters take up a publication that they do not name. -/
theorem does_count {journal : AccountingJournal} {entry : StoredEntry F}
    (hs : s.dead pid = false → Critical pid key (.stored journal entry) s) :
    Does pid call E (withLock .stats do
        let current ← readStats
        if journal.publicationId ∉ current.inflightPublicationIds then
          writeStats (current.apply journal)) s
      fun _ t => Critical pid key (.stored journal entry) t ∧
        (journal.publicationId ∈ t.accounts.inflight ↔ True) := by
  refine does_updateStats rfl True _ _ (fun v hv hat hnew => Accounts.moves_count hv hat hnew)
    (fun current _ => ?_) (fun current hold => iff_true_intro (not_not.mp hold)) hs
  exact iff_true_intro ((Accounts.apply_inflight current journal _).mpr (.inl rfl))

/-- The counters forget a publication. -/
theorem does_settle {journal : AccountingJournal} {entry : StoredEntry F}
    (hs : s.dead pid = false → Critical pid key (.applied journal entry) s) :
    Does pid call E (withLock .stats do
        let current ← readStats
        if journal.publicationId ∈ current.inflightPublicationIds then
          writeStats (current.settle journal)) s
      fun _ t => Critical pid key (.applied journal entry) t ∧
        (journal.publicationId ∈ t.accounts.inflight ↔ False) := by
  refine does_updateStats rfl False _ _ (fun v hv hat _ => Accounts.moves_settle hv hat)
    (fun current _ => iff_false_intro fun h => ?_) (fun current hold => iff_false_intro hold) hs
  exact of_decide_eq_true (List.mem_filter.mp h).2 rfl

/-- An applied journal is cleared away. -/
theorem does_cleanup {journal : AccountingJournal} {entry : StoredEntry F}
    (hkey : journal.key = key)
    (hs : s.dead pid = false → Critical pid key (.applied journal entry) s) :
    Does pid call E (cleanupAppliedAccountingLocked journal) s
      fun _ => Critical pid key (.settled entry) := by
  refine does_bind (does_settle hs) fun _ t _ _ _ ht => ?_
  rw [hkey]
  refine does_unlinkFile key (.applied journal entry) (.settled entry) (.appliedAccounting key) rfl
    (by simp) (lasting_inflight pid key (.applied journal entry) journal.publicationId rfl
      False).all (lasting_critical pid key _).all (fun _ => ht)
    (fun u hu hPu => ?_) fun u v hPu hexclusive haccounts => ?_
  · obtain ⟨stage,hat,hsound⟩ := hu.accounts.stage key
    rw [← hPu.1.stage.unique hat] at hsound
    refine ⟨hPu.1.lock, ?_, fun id hid => ?_,
      Accounts.moves_clear hu.accounts hPu.1.stage hPu.2.mp⟩
    · rw [hPu.1.stage.applied]
      rfl
    · rw [← hid, Stage.id?, Stage.id?, hsound.2.2]
  · refine ⟨hexclusive ▸ hPu.1.lock, ?_⟩
    rw [haccounts]
    exact {
      pending := (Accounts.write_other _ _ (by simp)).trans hPu.1.stage.pending
      applied := Accounts.write_self ..
      entry := (Accounts.write_other _ _ (by simp)).trans hPu.1.stage.entry }

/-- A published entry whose journal is pending is counted once and settled. -/
theorem does_finalize {journal : AccountingJournal} {entry : StoredEntry F}
    (hkey : journal.key = key)
    (hs : s.dead pid = false → Critical pid key (.stored journal entry) s) :
    Does pid call E (finalizeAccountingLocked key journal) s
      fun _ => Critical pid key (.settled entry) := by
  refine does_bind (does_count hs) fun _ t _ _ _ ht => ?_
  refine does_bind (does_promote fun _ => ht) fun _ u _ _ _ hu => ?_
  exact does_cleanup hkey fun _ => hu

end Writes

/-! ### The end of a publication -/

/- A key without a journal. -/
def Stage.resting : Option (StoredEntry F) → Stage F
  | none => .absent
  | some entry => .settled entry

section Recovery

variable {pid : Nat} {call : CacheCall F} {E : CacheError → Store F → Prop} {s : Store F}
variable {key : PromptCacheKey}

theorem steadfast_resting : Steadfast pid fun s : Store F =>
    ∃ found, Critical pid key (Stage.resting found) s := by
  intro s t hst h
  obtain ⟨found,hfound⟩ := h
  exact ⟨found, (lasting_critical pid key _).1 s t hst hfound⟩

/- The journal that was applied is of the entry of its key. -/
theorem does_validateAccountedEntry {journal : AccountingJournal} {entry : StoredEntry F}
    (hid : entry.publicationId = journal.publicationId)
    (hs : s.dead pid = false → Critical pid key (.applied journal entry) s) :
    Does pid call E (validateAccountedEntry key journal) s
      fun _ => Critical pid key (.applied journal entry) := by
  refine does_bind (does_readEntry (P := fun _ => True) (lasting_const True)
    fun hlive => ⟨trivial, hs hlive⟩) fun found t _ _ _ ht => ?_
  obtain ⟨ht,rfl⟩ := ht
  simp only [Stage.stored?, if_neg (not_not.mpr hid)]
  exact does_done (lasting_critical pid key _).1 fun _ => ht.2

/-- Whatever a crash has left of the accounting of a key, it is finished or undone. -/
theorem does_reconcile (hs : s.Sound) (hlock : s.exclusive (.key key) = some pid) :
    Does pid call E (reconcileKeyAccountingLocked key) s
      fun _ t => ∃ found, Critical pid key (Stage.resting found) t := by
  obtain ⟨stage,hat,hsound⟩ := hs.accounts.stage key
  refine does_bind (does_pathExists stage.pending?.isSome (fun _ => ⟨hlock, hat⟩) rfl
    fun t ht => by rw [ht.pending, Option.isSome_map]) fun pendingExists t _ _ _ ht => ?_
  refine does_bind (does_pathExists stage.applied?.isSome (fun _ => ht.1) rfl
    fun u hu => by rw [hu.applied, Option.isSome_map]) fun appliedExists u _ _ _ hu => ?_
  obtain ⟨_,rfl⟩ := ht
  obtain ⟨hu,rfl⟩ := hu
  cases stage with
  | absent => exact does_done steadfast_resting fun _ => ⟨none, hu⟩
  | settled entry => exact does_done steadfast_resting fun _ => ⟨some entry, hu⟩
  | journaled journal =>
    refine does_bind
      (does_readAccountingJournal (fun _ => hu) rfl fun v _ hv => ⟨hv.pending, hsound⟩)
      fun found v _ _ _ hv => ?_
    obtain ⟨hv,rfl⟩ := hv
    refine does_bind (does_readEntry (P := fun _ => True) (lasting_const True)
      fun _ => ⟨trivial, hv⟩) fun entry w _ _ _ hw => ?_
    obtain ⟨hw,rfl⟩ := hw
    refine does_mono (does_unlinkFile key (.journaled found) .absent (.pendingAccounting key)
      (R := Critical pid key .absent) rfl (by simp)
      (lasting_critical pid key (.journaled found)).all (lasting_critical pid key .absent).all
      (fun _ => hw.2) (fun x hx hPx => ?_) fun x y hPx hexclusive haccounts => ?_)
      (fun _ _ _ _ h => ⟨none, h⟩) fun _ _ h => h
    · exact ⟨hPx.lock, by rw [hPx.stage.pending]; rfl, nofun,
        Accounts.moves_abandon hx.accounts hPx.stage⟩
    · refine ⟨hexclusive ▸ hPx.lock, ?_⟩
      rw [haccounts]
      exact {
        pending := Accounts.write_self ..
        applied := (Accounts.write_other _ _ (by simp)).trans hPx.stage.applied
        entry := (Accounts.write_other _ _ (by simp)).trans hPx.stage.entry }
  | stored journal entry =>
    refine does_bind (does_readAccountingJournal (fun _ => hu) rfl
      fun v _ hv => ⟨hv.pending, hsound.1⟩) fun found v _ _ _ hv => ?_
    obtain ⟨hv,rfl⟩ := hv
    refine does_bind (does_readEntry (P := fun _ => True) (lasting_const True)
      fun _ => ⟨trivial, hv⟩) fun found' w _ _ _ hw => ?_
    obtain ⟨hw,rfl⟩ := hw
    simp only [Stage.stored?, if_neg (not_not.mpr hsound.2.2)]
    exact does_mono (does_finalize hsound.1 fun _ => hw.2) (fun _ _ _ _ h => ⟨some entry, h⟩)
      fun _ _ h => h
  | applied journal entry =>
    refine does_bind (does_readAccountingJournal (fun _ => hu) rfl
      fun v _ hv => ⟨hv.applied, hsound.1⟩) fun found v _ _ _ hv => ?_
    obtain ⟨hv,rfl⟩ := hv
    refine does_bind (does_validateAccountedEntry hsound.2.2 fun _ => hv) fun _ w _ _ _ hw => ?_
    exact does_mono (does_cleanup hsound.1 fun _ => hw) (fun _ _ _ _ h => ⟨some entry, h⟩)
      fun _ _ h => h

end Recovery

end Calls

end Whetstone.Execution.PromptCache
