import Whetstone.Execution.PromptCacheServing
import Mathlib.Data.List.Dedup

/-! The prompt cache over whole runs: any processes call it at once, and any of them may be gone
after any of its operations. -/
namespace Whetstone.Execution.PromptCache
open Whetstone.Core Whetstone.Lib Whetstone.Provider
open Whetstone.Lib.Prog (ofExcept)

section Runs

variable [IdentityHasher] {F : Type}

/-! ### Counting -/

section Counters

variable {pid : Nat} {call : CacheCall F} {E : CacheError → Store F → Prop} {s : Store F}

theorem Store.mem_keys {t : Store F} {file : CacheFile} {body : Body F}
    (hfile : file.isRecord = true) (h : t.accounts.records file = some body) :
    file ∈ t.files.keys := by
  refine not_not.mp fun hmem => ?_
  rw [← t.get_record hfile, (t.files.get?_eq_none_iff file).mpr hmem] at h
  cases h

theorem Store.Published.onward {t : Store F} {key : PromptCacheKey} (h : s.Published key)
    (hst : Onward pid s t) : t.Published key := by
  obtain ⟨x,hx,hkey⟩ := h
  exact ⟨x, hst.published hx, hkey⟩

/- A published key that is not counted has a journal. -/
theorem journal_of_uncounted {t : Store F} (ht : t.Sound) {key : PromptCacheKey}
    (h : t.Published key) : t.accounts.accounted key = true ∨
      .pendingAccounting key ∈ t.files.keys := by
  obtain ⟨x,hx,rfl⟩ := h
  obtain ⟨stage,hat,hsound⟩ := ht.accounts.stage x.entry.key
  have hfile := ht.accounts.published x hx
  rw [hat.entry] at hfile
  cases stage with
  | absent => cases hfile
  | journaled journal => cases hfile
  | stored journal entry => exact .inr (t.mem_keys rfl hat.pending)
  | applied journal entry => exact .inl hat.accounted
  | settled entry => exact .inl hat.accounted

theorem entry_mem_keys {t : Store F} (ht : t.Sound) {key : PromptCacheKey} (h : t.Published key) :
    .entry key ∈ t.files.keys := by
  obtain ⟨x,hx,rfl⟩ := h
  exact t.mem_keys rfl (ht.accounts.published x hx)

/- What is counted stays counted. -/
theorem lasting_accounted (locks : LockName → Prop) (known : PromptCacheKey → Prop) :
    Lasting locks pid fun t : Store F => ∀ key, known key → t.accounts.accounted key = true := by
  refine ⟨fun t u htu h key hkey => htu.accounted key (h key hkey),
    fun t u halike _ h key hkey => ?_⟩
  rw [Accounts.accounted, Accounts.inflight, Accounts.stats, halike.records]
  exact h key hkey

theorem does_listStore : Does pid call E (op .listStore) s fun names _ =>
    ∀ key, s.Published key → .shard key.shard ∈ names := by
  refine does_read (steadfast_onward s) (fun _ => .refl pid s) (fun _ _ _ _ h => h)
    fun t answer r t' ht hst he => ?_
  cases he
  refine ⟨rfl, fun key hkey => List.mem_append_left _ (List.mem_map_of_mem ?_)⟩
  refine List.mem_dedup.mpr (List.mem_filterMap.mpr ⟨.entry key, ?_, rfl⟩)
  exact entry_mem_keys ht (hkey.onward hst)

theorem does_listShard (shard : List Char) : Does pid call E (op (.listShard shard)) s
    fun found t => ∀ key, s.Published key → shard = key.shard →
      key ∈ found.filterMap CacheFile.accountingKey? ∨ t.accounts.accounted key = true := by
  refine does_read (steadfast_onward s) (fun _ => .refl pid s)
    (fun found t u htu h key hkey hshard => (h key hkey hshard).imp_right (htu.accounted key))
    fun t answer r t' ht hst he => ?_
  cases he
  refine ⟨rfl, fun key hkey hshard => ?_⟩
  rcases journal_of_uncounted ht (hkey.onward hst) with hcounted | hfile
  · exact .inr hcounted
  · refine .inl (List.mem_filterMap.mpr ⟨.pendingAccounting key, ?_, rfl⟩)
    exact List.mem_filter.mpr ⟨hfile, by simp [CacheFile.shard, CacheFile.key?, hshard]⟩

theorem does_statName (name : StoreName) : Does pid call E (op (.statName name)) s
    fun result _ => (∀ shard, name = .shard shard → result = .ok true) ∧
      ∀ error, result = .error error → error = .fileNotFound := by
  refine does_read (steadfast_onward s) (fun _ => .refl pid s) (fun _ _ _ _ h => h)
    fun t answer r t' ht hst he => ?_
  cases name with
  | shard shard =>
    cases he
    exact ⟨rfl, fun _ _ => rfl, fun _ h => by cases h⟩
  | file file =>
    simp only [runOp] at he
    split at he
    · cases he
      exact ⟨rfl, (fun _ h => by cases h), fun _ h => by cases h⟩
    · cases he
      exact ⟨rfl, (fun _ h => by cases h), fun _ h => (Except.error.inj h).symm⟩

theorem does_listName (name : StoreName) : Does pid call E (listName name) s fun found t =>
    ∀ key, s.Published key → name = .shard key.shard →
      key ∈ found.filterMap CacheFile.accountingKey? ∨ t.accounts.accounted key = true := by
  cases name with
  | shard shard =>
    refine does_mono (does_listShard shard) (fun found v _ _ h key hkey hname => ?_) fun _ _ h => h
    exact h key hkey (StoreName.shard.inj hname)
  | file file =>
    refine does_done (fun t u htu h key hkey hname => ?_) fun _ key hkey hname => by cases hname
    exact (h key hkey hname).imp_right (htu.accounted key)

/-- A listing finds what had been published before it, unless it is counted. -/
theorem does_accountingKeys (names : List StoreName) :
    Does pid call (fun error _ => error = .fileNotFound) (accountingKeys names) s fun keys t =>
      ∀ key, s.Published key → .shard key.shard ∈ names →
        key ∈ keys ∨ t.accounts.accounted key = true := by
  induction names generalizing s with
  | nil => exact does_done (fun t u htu h key hkey hname => (h key hkey hname).imp_right
      (htu.accounted key)) fun _ _ _ hname => absurd hname List.not_mem_nil
  | cons name rest ih =>
    refine does_bind (does_statName name) fun result t ht _ hst hresult => ?_
    refine does_bind (Q := fun isDirectory _ => ∀ shard, name = .shard shard → isDirectory = true)
      (does_ofExcept (fun _ _ _ _ _ h => h) (fun _ isDirectory hok shard hshard => ?_)
        fun error herror _ => hresult.2 error herror) fun isDirectory u hu _ htu hdirectory => ?_
    · rw [hok] at hresult
      exact Except.ok.inj (hresult.1 shard hshard)
    refine does_bind (does_listName name) fun found v hv _ huv hfound => ?_
    refine does_bind ih fun later w hw _ hvw hlater => ?_
    refine does_done (fun x y hxy h key hkey hname => (h key hkey hname).imp_right
      (hxy.accounted key)) fun _ key hkey hname => ?_
    have hkey' := (hkey.onward hst).onward htu
    rcases List.mem_cons.mp hname with hown | hrest
    · rw [if_pos (hdirectory key.shard hown.symm)]
      rcases hfound key hkey' hown.symm with hlisted | hcounted
      · exact .inl (List.mem_append_left later hlisted)
      · exact .inr (hvw.accounted key hcounted)
    · exact (hlater key (hkey'.onward huv) hrest).imp_left (List.mem_append_right _)

theorem does_reconcileKeys (keys : List PromptCacheKey)
    (hs : s.dead pid = false → Unpaid pid s) :
    Does pid call (fun error _ => call.Allows error) (reconcileKeys keys) s fun _ t =>
      ∀ key, key ∈ keys ∧ s.Published key → t.accounts.accounted key = true := by
  induction keys generalizing s with
  | nil => exact does_done (lasting_accounted allLocks fun key =>
      key ∈ [] ∧ s.Published key).1 fun _ _ hkey => absurd hkey.1 List.not_mem_nil
  | cons key rest ih =>
    refine does_bind (Q := fun _ t => Unpaid pid t ∧ ∀ key', key' = key ∧ s.Published key →
      t.accounts.accounted key' = true) ?_ fun _ t _ _ hst ht => ?_
    · refine does_withLock_key (P := fun t => Unpaid pid t ∧ Onward pid s t)
        ((lasting_nothing noLocks pid).and (lasting_onward s))
        (fun _ => (lasting_nothing noLocks pid).and (lasting_accounted noLocks _))
        (fun _ => lasting_const _) (fun hlive => ⟨hs hlive, .refl pid s⟩)
        fun t ht _ _ hPt hlock => ?_
      refine does_mono (does_reconcile ht hlock) (fun _ u hu htu h => ?_) fun _ _ h => h
      obtain ⟨found,hfound⟩ := h
      have hunpaid := hPt.1.onward htu
      refine ⟨⟨hunpaid, fun key' hkey => ?_⟩, hfound.lock, .inl (hunpaid key true)⟩
      obtain ⟨rfl,hpublished⟩ := hkey
      cases found with
      | none =>
        exact absurd ((hpublished.onward hPt.2).onward htu)
          (not_published_of_absent hu hfound.stage)
      | some entry => exact hfound.stage.accounted
    · refine does_mono (ih fun _ => ht.1) (fun _ u _ htu h key' hkey => ?_) fun _ _ h => h
      rcases List.mem_cons.mp hkey.1 with rfl | hrest
      · exact htu.accounted _ (ht.2 _ ⟨rfl, hkey.2⟩)
      · exact h key' ⟨hrest, hkey.2.onward hst⟩

/-- After a reconciliation, everything that had been published before it is counted. -/
theorem does_reconcileAllAccounting (hs : s.dead pid = false → Unpaid pid s) :
    Does pid (.counters (F := F)) (fun error _ => (CacheCall.counters (F := F)).Allows error)
      reconcileAllAccounting s fun _ t =>
        ∀ key, s.Published key → t.accounts.accounted key = true := by
  refine does_bind (Q := fun names t => Unpaid pid t ∧ ∀ key, s.Published key →
    .shard key.shard ∈ names) ?_ fun names t _ _ hst ht => ?_
  · refine ends_live fun hlive => ?_
    exact does_mono does_listStore (fun _ t _ hst h => ⟨(hs hlive).onward hst, h⟩) fun _ _ h => h
  refine does_bind (does_mono (does_accountingKeys names) (fun _ _ _ _ h => h)
    fun error _ h => ?_) fun keys u _ _ htu hkeys => ?_
  · rw [h]
    trivial
  refine does_mono (does_reconcileKeys _ fun _ => ht.1.onward htu) (fun _ v _ huv h key hkey => ?_)
    fun _ _ h => h
  rcases hkeys key (hkey.onward hst) (ht.2 key hkey) with hlisted | hcounted
  · refine h key ⟨?_, (hkey.onward hst).onward htu⟩
    exact List.mem_mergeSort.mpr (List.mem_dedup.mpr hlisted)
  · exact huv.accounted key hcounted

theorem Accounts.tally_le (v : Accounts F) (kind : Fin 2 → Bool) :
    v.tally kind ≤ v.published.countP fun x => kind x.misses := by
  refine List.countP_mono_left fun x _ h => ?_
  rw [Bool.and_eq_true] at h
  exact h.1

theorem Accounts.le_tally (v : Accounts F) (kind : Fin 2 → Bool) {known : List (Publication F)}
    (hknown : known.Sublist v.published) (h : ∀ x ∈ known, v.accounted x.entry.key = true) :
    known.countP (fun x => kind x.misses) ≤ v.tally kind := by
  have hsame : known.countP (fun x => kind x.misses) =
      known.countP fun x => kind x.misses && v.accounted x.entry.key := by
    refine List.countP_congr fun x hx => ?_
    rw [h x hx, Bool.and_true]
  rw [hsame]
  exact hknown.countP_le

theorem Store.publishedBefore_sublist (s : Store F) (pid : Nat) :
    (s.publishedBefore pid).Sublist s.accounts.published :=
  (List.takeWhile_sublist _).filterMap _

/-- The counters count everything that had been published when the call started, and nothing that
is not published when it reads them. -/
theorem does_counters (hs : s.dead pid = false → .started pid ∈ s.log ∧ Unpaid pid s) :
    Does pid (.counters (F := F)) (fun error _ => (CacheCall.counters (F := F)).Allows error)
      counters s fun outcome t => t.Serves pid outcome := by
  refine ends_live fun hlive => ?_
  obtain ⟨hstart,hunpaid⟩ := hs hlive
  have hcounted : Lasting allLocks pid fun t : Store F =>
      ∀ key, s.Published key → t.accounts.accounted key = true := lasting_accounted _ _
  refine does_bind (does_reconcileAllAccounting fun _ => hunpaid) fun _ t _ _ hst ht => ?_
  refine does_bind (Q := fun _ u => ∀ key, s.Published key → u.accounts.accounted key = true)
    (does_op hcounted.1 (fun _ => ht) (fun _ => hcounted.1) fun u answer r u' _ _ hu he => ?_)
    fun _ u _ _ htu hu => ?_
  · simp only [runOp] at he
    split at he
    · cases he
    · cases he
      exact ⟨Store.turn_files rfl ⟨rfl, rfl, rfl, rfl⟩, fun _ _ h => h, hu⟩
  have hserved (body : Option (Body F)) : Steadfast pid fun v : Store F => ∃ stats,
      statsOf body = .ok stats ∧ v.Serves pid (.counted stats.hits stats.misses stats.stores) := by
    intro v w hvw h
    obtain ⟨stats,hbody,hserves⟩ := h
    exact ⟨stats, hbody, (lasting_serves allLocks _).1 v w hvw hserves⟩
  refine does_bind (Q := fun (stats : StoredStats) v =>
    v.Serves pid (.counted stats.hits stats.misses stats.stores))
    (does_ensure (G := fun _ _ => False) (R := fun (stats : StoredStats) v =>
      v.Serves pid (.counted stats.hits stats.misses stats.stores)) ?_
      (fun stats v _ _ _ hv => ?_) fun _ _ _ _ h => h.elim)
    fun stats v _ _ _ hv => does_done (lasting_serves allLocks _).1 fun _ => hv
  · refine does_bind (does_read (P := fun v => Onward pid s v ∧
        ∀ key, s.Published key → v.accounts.accounted key = true)
      (fun v w hvw h => ⟨h.1.trans hvw.onward, hcounted.1 v w hvw h.2⟩)
      (fun _ => ⟨hst.trans htu, hu⟩) hserved fun v answer r v' hv hPv he => ?_)
      fun body v _ _ _ h => ?_
    · cases he
      obtain ⟨events,hlog⟩ := hPv.1.log
      have hbefore := Store.publishedBefore_append hlog hstart
      have hknown (x : Publication F) (hx : x ∈ v.publishedBefore pid) :
          v.accounts.accounted x.entry.key = true := by
        rw [hbefore] at hx
        exact hPv.2 _ ⟨x, (s.publishedBefore_sublist pid).subset hx, rfl⟩
      refine ⟨rfl, v.accounts.stats, statsOf_sound hv, hlog ▸ List.mem_append_left _ hstart, ?_⟩
      rw [hv.accounts.stores, hv.accounts.missesCount]
      have hstores := v.accounts.le_tally Accounts.every (v.publishedBefore_sublist pid) hknown
      have hstores' := v.accounts.tally_le Accounts.every
      simp only [Accounts.every, List.countP_true] at hstores hstores'
      exact ⟨hstores, hstores',
        v.accounts.le_tally Accounts.missed (v.publishedBefore_sublist pid) hknown,
        v.accounts.tally_le Accounts.missed⟩
    · obtain ⟨stats,hbody,hserves⟩ := h
      rw [hbody]
      exact does_done (lasting_serves allLocks _).1 fun _ => hserves
  · refine does_op (lasting_serves allLocks _).1 (fun _ => hv)
      (fun _ => (lasting_serves allLocks _).1) fun w answer r w' _ _ hw he => ?_
    cases he
    exact ⟨Store.turn_files rfl ⟨rfl, rfl, rfl, rfl⟩, fun _ _ h => h,
      hw.same rfl⟩

end Counters

/-! ### Processes -/

theorem ends_runCall {pid : Nat} {s : Store F} (call : CacheCall F)
    (hs : s.dead pid = false → .started pid ∈ s.log ∧ Unpaid pid s) :
    Ends pid call (fun error _ => call.Allows error) (runCall call) s
      fun outcome t => t.Serves pid outcome := by
  cases call with
  | executeCall components phase unit logicalCallId =>
    exact ends_executeCall components phase unit logicalCallId fun hlive => (hs hlive).2
  | getResult key => exact (does_getResult key fun hlive => (hs hlive).2).ends
  | put key components result phase unit logicalCallId =>
    exact (does_put key components result phase unit logicalCallId fun hlive => (hs hlive).2).ends
  | counters => exact (does_counters hs).ends

theorem ends_code {pid : Nat} {s : Store F} (call : CacheCall F) (hs : Unpaid pid s) :
    Ends pid call (fun error _ => call.Allows error) (code (.process pid call)) s
      fun _ _ => True := by
  have hstarted : Steadfast pid fun t : Store F => .started pid ∈ t.log ∧ Unpaid pid t := by
    intro t u htu h
    obtain ⟨events,hlog⟩ := htu.log
    exact ⟨hlog ▸ List.mem_append_left _ h.1, h.2.onward htu.onward⟩
  refine ends_bind (Q := fun _ t => .started pid ∈ t.log ∧ Unpaid pid t)
    (ends_op (lasting_nothing noLocks pid).1 (fun _ => hs) (fun _ => hstarted)
      fun t answer r t' _ _ ht he => ?_) fun _ t _ _ ht => ?_
  · cases he
    refine ⟨Store.turn_record rfl trivial rfl, List.mem_append_right _ List.mem_cons_self,
      fun key answered hmem => ?_⟩
    rcases List.mem_append.mp hmem with hold | hnew
    · exact ht key answered hold
    · cases List.mem_singleton.mp hnew
  refine ends_bind (ends_runCall call fun _ => ht) fun outcome t _ _ ht => ?_
  refine ends_op (lasting_serves allLocks outcome).1 (fun _ => ht)
    (fun _ _ _ _ h => h) fun u answer r u' _ _ hu he => ?_
  cases he
  exact ⟨Store.turn_record rfl hu rfl, trivial⟩

/- The crash of one process leaves to the others what they rely on. -/
theorem steady_kill {s : Store F} {pid victim : Nat}
    (hlive : Function.update s.dead victim true pid = false) :
    s.dead pid = false ∧
      Store.Steady pid s { s with dead := Function.update s.dead victim true } := by
  refine ⟨?_, fun _ h => h, fun _ _ _ _ => rfl, fun _ => rfl, fun _ _ _ _ _ _ => Iff.rfl,
    fun _ hdrawn hfresh => ⟨hdrawn, hfresh⟩, fun _ h _ => h, ⟨[], (List.append_nil _).symm⟩,
    fun _ h => h⟩
  by_cases hpid : pid = victim
  · rw [hpid, Function.update_self] at hlive
    cases hlive
  · rwa [Function.update_of_ne hpid] at hlive

/- The errors that a thread may raise. -/
def Raises : Label F → CacheError → Store F → Prop
  | .process pid call, error, s => s.dead pid = false → call.Allows error
  | .crash _, _, _ => False

theorem pledge_code (label : Label F) (s : Store F)
    (hs : ∀ pid call, label = .process pid call → Unpaid pid s) :
    (contract F).Pledge (machine F) label (fun _ _ => True) (Raises label) (code label) s := by
  cases label with
  | process pid call =>
    exact Contract.pledge_mono (ends_code call (hs pid call rfl)) (fun _ _ _ _ => trivial)
      fun _ _ _ h => h
  | crash victim =>
    refine Contract.Takes.mono (R := fun _ _ => True) ?_ fun _ _ _ _ _ _ => trivial
    intro t answer r t' _ ht he
    cases he
    refine ⟨ht.kill victim, fun l' _ => ?_, fun _ hmem => absurd hmem List.not_mem_nil, trivial⟩
    cases l' with
    | crash _ => trivial
    | process pid call =>
      refine ⟨fun hdead => ?_, fun hlive => (steady_kill hlive).2⟩
      by_cases hpid : pid = victim
      · exact hpid ▸ Function.update_self ..
      · exact (Function.update_of_ne hpid ..).trans hdead

/-! ### Runs -/

variable (F) in
/- An empty directory. -/
def Store.initial : Store F where
  files := Dict.empty
  exclusive _ := none
  readers := []
  dead _ := false
  drawn _ := none
  log := []

def labels (calls : List (Nat × CacheCall F)) (crashes : List Nat) : List (Label F) :=
  (calls.map fun x => .process x.1 x.2) ++ crashes.map .crash

/- Processes that start on an empty directory, each with one call, and the crashes of some. -/
def pool (calls : List (Nat × CacheCall F)) (crashes : List Nat) :
    Pool (Label F) (Store F) (CacheOp F) Res CacheError :=
  ⟨Store.initial F, (labels calls crashes).map (machine F).start⟩

theorem initial_sound : (Store.initial F).Sound where
  accounts := by
    have hrecord (file : CacheFile) : (Store.initial F).accounts.records file = none := by
      cases file <;> rfl
    have hstats : (Store.initial F).accounts.stats = {} := by rw [Accounts.stats, hrecord]
    have hat (key : PromptCacheKey) : (Store.initial F).accounts.At key .absent :=
      ⟨hrecord _, hrecord _, hrecord _⟩
    exact {
      stage := fun key => ⟨.absent, hat key, trivial⟩
      stats := fun body hbody => by rw [hrecord] at hbody; cases hbody
      published := fun _ hx => absurd hx List.not_mem_nil
      recorded := fun key entry hentry => by rw [hrecord] at hentry; cases hentry
      once := List.nodup_nil
      misses := fun key journal hjournal => by rw [hrecord] at hjournal; cases hjournal
      inflight := fun id hid => by
        rw [Accounts.inflight, hstats] at hid
        exact absurd hid List.not_mem_nil
      distinct := fun key key' stage stage' id hstage _ hid _ => by
        rw [hstage.unique (hat key)] at hid
        cases hid
      drawn := fun key stage id hstage hid => by
        rw [hstage.unique (hat key)] at hid
        cases hid
      stores := by rw [hstats]; rfl
      missesCount := by rw [hstats]; rfl }
  paidFirst := List.Pairwise.nil
  paidOnce := List.Pairwise.nil
  paidOpen _ _ hpaid := absurd hpaid List.not_mem_nil
  served _ _ hmem := absurd hmem List.not_mem_nil

/-- Every pool of processes with pids of their own keeps what the programs promise. -/
theorem upheld_run (calls : List (Nat × CacheCall F)) (crashes : List Nat)
    (hpids : (calls.map Prod.fst).Nodup) (schedule : List (Nat × Answer F)) :
    Contract.Upheld (contract F) (machine F) Raises
      ((machine F).run (pool calls crashes) schedule) := by
  refine Contract.Upheld.run (fun _ => rfl) ⟨initial_sound, ?_, fun th hth => ?_⟩ schedule
  · rw [pool, List.map_map, show Thread.label ∘ (machine F).start = id from rfl, List.map_id]
    refine List.pairwise_append.mpr ⟨?_, ?_, fun a _ b hb => ?_⟩
    · refine List.pairwise_map.mpr ((List.pairwise_map.mp hpids).imp fun {x y} hne => ?_)
      exact ⟨hne, Ne.symm hne⟩
    · exact List.pairwise_map.mpr (List.pairwise_of_forall fun x y => ⟨trivial, trivial⟩)
    · obtain ⟨victim,_,rfl⟩ := List.mem_map.mp hb
      cases a <;> exact ⟨trivial, trivial⟩
  · obtain ⟨label,_,rfl⟩ := List.mem_map.mp hth
    exact pledge_code label _ fun _ _ _ _ _ hmem => absurd hmem List.not_mem_nil

theorem sound_run (calls : List (Nat × CacheCall F)) (crashes : List Nat)
    (hpids : (calls.map Prod.fst).Nodup) (schedule : List (Nat × Answer F)) :
    ((machine F).run (pool calls crashes) schedule).state.Sound :=
  (upheld_run calls crashes hpids schedule).inv

/- What the readers of the cache accept: at most one journal of a key, and with it the entry that
   the journal is of. -/
structure Store.Readable (s : Store F) (key : PromptCacheKey) : Prop where
  stats : ∃ stats, statsOf (s.files.get? .stats) = .ok stats
  entry : ∃ found, entryOf key (s.files.get? (.entry key)) = .ok found
  pending : ∀ body, s.files.get? (.pendingAccounting key) = some body →
    s.files.get? (.appliedAccounting key) = none ∧
      ∃ journal, journalOf key (some body) = .ok journal ∧
        ∀ entry, entryOf key (s.files.get? (.entry key)) = .ok (some entry) →
          entry.publicationId = journal.publicationId
  applied : ∀ body, s.files.get? (.appliedAccounting key) = some body →
    ∃ journal entry, journalOf key (some body) = .ok journal ∧
      entryOf key (s.files.get? (.entry key)) = .ok (some entry) ∧
        entry.publicationId = journal.publicationId

theorem Store.Sound.readable {s : Store F} (hs : s.Sound) (key : PromptCacheKey) :
    s.Readable key := by
  obtain ⟨stage,hat,hsound⟩ := hs.accounts.stage key
  have hentry := entryOf_stage hs hat
  refine ⟨⟨_, statsOf_sound hs⟩, ⟨_, hentry⟩, fun body hbody => ?_, fun body hbody => ?_⟩
  · rw [s.get_record rfl, hat.pending] at hbody
    rw [hentry, s.get_record rfl, hat.applied]
    cases stage with
    | journaled journal =>
      cases hbody
      exact ⟨rfl, journal, if_pos hsound, fun _ h => by cases h⟩
    | stored journal entry =>
      cases hbody
      refine ⟨rfl, journal, if_pos hsound.1, fun entry' h => ?_⟩
      cases h
      exact hsound.2.2
    | _ => cases hbody
  · rw [s.get_record rfl, hat.applied] at hbody
    rw [hentry]
    cases stage with
    | applied journal entry =>
      cases hbody
      exact ⟨journal, entry, if_pos hsound.1, rfl, hsound.2.2⟩
    | _ => cases hbody

/-- Whatever crashes and whenever, every file is one that the readers accept, and no process that
lives raises an error of the cache: a call raises what its arguments or its provider raise, and a
listing that a file is gone. -/
theorem files_readable (calls : List (Nat × CacheCall F)) (crashes : List Nat)
    (hpids : (calls.map Prod.fst).Nodup) (schedule : List (Nat × Answer F)) :
    (∀ key, ((machine F).run (pool calls crashes) schedule).state.Readable key) ∧
      ∀ pid call error, ⟨.process pid call, .raise error⟩ ∈
        ((machine F).run (pool calls crashes) schedule).threads →
          ((machine F).run (pool calls crashes) schedule).state.dead pid = false →
            call.Allows error :=
  ⟨(sound_run calls crashes hpids schedule).readable, fun pid call error hmem =>
    (upheld_run calls crashes hpids schedule).raised (.process pid call) error hmem⟩

/-- The counters are exact in every state: they count the publications whose journal has been
applied or is in flight, once each, and all of them when no journal is left. -/
theorem counters_exact (calls : List (Nat × CacheCall F)) (crashes : List Nat)
    (hpids : (calls.map Prod.fst).Nodup) (schedule : List (Nat × Answer F)) :
    ∃ stats, statsOf (((machine F).run (pool calls crashes) schedule).state.files.get? .stats) =
        .ok stats ∧
      stats.stores =
        ((machine F).run (pool calls crashes) schedule).state.accounts.tally Accounts.every ∧
      stats.misses =
        ((machine F).run (pool calls crashes) schedule).state.accounts.tally Accounts.missed ∧
      ((∀ file key, file.accountingKey? = some key →
          ((machine F).run (pool calls crashes) schedule).state.files.get? file = none) →
        stats.inflightPublicationIds = [] ∧
        stats.stores =
          ((machine F).run (pool calls crashes) schedule).state.accounts.published.length ∧
        stats.misses =
          ((machine F).run (pool calls crashes) schedule).state.accounts.published.countP
            fun x => Accounts.missed x.misses) := by
  have hs := sound_run calls crashes hpids schedule
  generalize ((machine F).run (pool calls crashes) schedule).state = s at hs
  refine ⟨_, statsOf_sound hs, hs.accounts.stores, hs.accounts.missesCount, fun hnone => ?_⟩
  have hcounted (x : Publication F) (hx : x ∈ s.accounts.published) :
      s.accounts.accounted x.entry.key = true := by
    rcases journal_of_uncounted hs ⟨x, hx, rfl⟩ with hcounted | hfile
    · exact hcounted
    · exact absurd hfile ((s.files.get?_eq_none_iff _).mp (hnone _ x.entry.key rfl))
  refine ⟨?_, ?_, ?_⟩
  · refine List.eq_nil_iff_forall_not_mem.mpr fun id hid => ?_
    obtain ⟨key,stage,hat,hopen,_⟩ := hs.accounts.inflight id hid
    have hpending := hnone (.pendingAccounting key) key rfl
    have happlied := hnone (.appliedAccounting key) key rfl
    rw [s.get_record rfl, hat.pending] at hpending
    rw [s.get_record rfl, hat.applied] at happlied
    cases stage with
    | stored journal entry => cases hpending
    | applied journal entry => cases happlied
    | _ => exact hopen
  · rw [hs.accounts.stores]
    have hle := s.accounts.tally_le Accounts.every
    have hge := s.accounts.le_tally Accounts.every (List.Sublist.refl _) hcounted
    simp only [Accounts.every, List.countP_true] at hle hge
    exact Nat.le_antisymm hle hge
  · rw [hs.accounts.missesCount]
    exact Nat.le_antisymm (s.accounts.tally_le Accounts.missed)
      (s.accounts.le_tally Accounts.missed (List.Sublist.refl _) hcounted)

/-- Among any processes, a key is paid for before it is published and not after, and an answer of
the provider is paid for again only when the process that had it crashed. -/
theorem provider_paid_once (calls : List (Nat × CacheCall F)) (crashes : List Nat)
    (hpids : (calls.map Prod.fst).Nodup) (schedule : List (Nat × Answer F)) :
    ((machine F).run (pool calls crashes) schedule).state.log.Pairwise Store.PaidFirst ∧
      ((machine F).run (pool calls crashes) schedule).state.log.Pairwise
        ((machine F).run (pool calls crashes) schedule).state.PaidOnce :=
  ⟨(sound_run calls crashes hpids schedule).paidFirst,
    (sound_run calls crashes hpids schedule).paidOnce⟩

/- What the calls that have returned were served: the entry of their key, which is published
   once. -/
structure Store.Agrees (s : Store F) : Prop where
  once : (s.accounts.published.map fun x => x.entry.key).Nodup
  executed : ∀ pid key execution, .finished pid (.executed key execution) ∈ s.log →
    ∃ x ∈ s.accounts.published, x.entry.key = key ∧ x.entry.result.call = execution.result
  found : ∀ pid key result provenance,
    .finished pid (.found key (some (result, provenance))) ∈ s.log →
    ∃ x ∈ s.accounts.published, x.entry.key = key ∧ x.entry.result = result ∧
      x.entry.provenance = provenance
  same : ∀ pid pid' key execution execution', .finished pid (.executed key execution) ∈ s.log →
    .finished pid' (.executed key execution') ∈ s.log → execution.result = execution'.result

/-- A key is published once, and all calls that return a result of the key return the result that
was published, wherever they ran. -/
theorem results_agree (calls : List (Nat × CacheCall F)) (crashes : List Nat)
    (hpids : (calls.map Prod.fst).Nodup) (schedule : List (Nat × Answer F)) :
    ((machine F).run (pool calls crashes) schedule).state.Agrees := by
  have hs := sound_run calls crashes hpids schedule
  generalize ((machine F).run (pool calls crashes) schedule).state = s at hs
  refine ⟨hs.accounts.once, fun pid key execution h => ?_, fun pid key result provenance h => ?_,
    fun pid pid' key execution execution' h h' => ?_⟩
  · obtain ⟨x,hx,hkey,hresult,_⟩ := hs.served pid _ h
    exact ⟨x, hx, hkey, hresult⟩
  · exact hs.served pid _ h
  · obtain ⟨x,hx,hkey,hresult,_⟩ := hs.served pid _ h
    obtain ⟨y,hy,hkey',hresult',_⟩ := hs.served pid' _ h'
    have hfile := hs.accounts.published x hx
    rw [hkey, ← hkey', hs.accounts.published y hy] at hfile
    have hsame : y.entry = x.entry := Body.entry.inj (Option.some.inj hfile)
    rw [← hresult, ← hresult', hsame]

/- What `counters` returns lies between what was published when the call started and what is
   published when it ends. -/
def Store.CountsBetween (s : Store F) : Prop :=
  ∀ pid hits misses stores, .finished pid (.counted hits misses stores) ∈ s.log →
    (s.publishedBefore pid).length ≤ stores ∧ stores ≤ s.accounts.published.length ∧
      (s.publishedBefore pid).countP (fun x => Accounts.missed x.misses) ≤ misses ∧
        misses ≤ s.accounts.published.countP fun x => Accounts.missed x.misses

/-- The counters are right whatever the other processes publish, and whoever crashed before. -/
theorem counters_between (calls : List (Nat × CacheCall F)) (crashes : List Nat)
    (hpids : (calls.map Prod.fst).Nodup) (schedule : List (Nat × Answer F)) :
    ((machine F).run (pool calls crashes) schedule).state.CountsBetween :=
  fun pid hits misses stores h =>
    ((sound_run calls crashes hpids schedule).served pid (.counted hits misses stores) h).2

end Runs

section Witnesses

/- A hash that does not tell keys apart. -/
@[reducible] def constantHasher : IdentityHasher where
  computeIdentityHash _ _ _ := String.ofList (List.replicate 64 '0')

attribute [local instance] constantHasher

def sampleComponents : KeyComponents := ⟨[], "policy", 0, 0⟩

/- One process executes a call that another looks up, while a third counts and the first crashes. -/
def sampleCalls : List (Nat × CacheCall Nat) :=
  [(0, .executeCall sampleComponents "phase" "unit" "call"),
    (1, .getResult (String.ofList (List.replicate 64 '0'))), (2, .counters)]

def sampleAnswer : Answer Nat where
  token := ⟨String.ofList (List.replicate 32 '0'), by decide⟩
  time := "time"
  outcome := .error "provider"

abbrev sampleRun : Pool (Label Nat) (Store Nat) (CacheOp Nat) Res CacheError :=
  (machine Nat).run (pool sampleCalls [0]) ([0, 1, 0, 2, 0, 3, 1].map fun i => (i, sampleAnswer))

theorem files_readable_crash : (∀ key, sampleRun.state.Readable key) ∧
    ∀ pid call error, ⟨.process pid call, .raise error⟩ ∈ sampleRun.threads →
      sampleRun.state.dead pid = false → call.Allows error :=
  files_readable sampleCalls [0] (by decide) _

theorem counters_exact_crash :
    ∃ stats, statsOf (sampleRun.state.files.get? .stats) = .ok stats ∧
      stats.stores = sampleRun.state.accounts.tally Accounts.every ∧
      stats.misses = sampleRun.state.accounts.tally Accounts.missed ∧
      ((∀ file key, file.accountingKey? = some key → sampleRun.state.files.get? file = none) →
        stats.inflightPublicationIds = [] ∧
        stats.stores = sampleRun.state.accounts.published.length ∧
        stats.misses = sampleRun.state.accounts.published.countP
          fun x => Accounts.missed x.misses) :=
  counters_exact sampleCalls [0] (by decide) _

theorem provider_paid_once_crash : sampleRun.state.log.Pairwise Store.PaidFirst ∧
    sampleRun.state.log.Pairwise sampleRun.state.PaidOnce :=
  provider_paid_once sampleCalls [0] (by decide) _

theorem results_agree_crash : sampleRun.state.Agrees :=
  results_agree sampleCalls [0] (by decide) _

theorem counters_between_crash : sampleRun.state.CountsBetween :=
  counters_between sampleCalls [0] (by decide) _

end Witnesses

end Whetstone.Execution.PromptCache
