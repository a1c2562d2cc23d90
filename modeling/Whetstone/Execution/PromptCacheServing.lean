import Whetstone.Execution.PromptCacheCalls

/-! What the calls of the prompt cache leave behind: a call is served from the one entry of its
key, whoever has published it, and pays the provider only when there is none. -/
namespace Whetstone.Execution.PromptCache
open Whetstone.Core Whetstone.Lib Whetstone.Provider
open Whetstone.Lib.Prog (ofExcept)

section Serving

variable [IdentityHasher] {F : Type}

/-! ### Errors -/

/- The errors that a call may raise; the counters are listed while other processes write. -/
def CacheCall.Allows : CacheCall F → CacheError → Prop
  | .executeCall .., .value _ => True
  | .executeCall .., .provider _ => True
  | .getResult _, .value _ => True
  | .put .., .value _ => True
  | .counters, .fileNotFound => True
  | _, _ => False

omit [IdentityHasher] in
theorem validateCacheKey_error {key : String} {error : CacheError}
    (h : validateCacheKey key = .error error) : ∃ message, error = .value message := by
  unfold validateCacheKey at h
  split at h
  · cases h
  · cases h
    exact ⟨_, rfl⟩

omit [IdentityHasher] in
theorem raiseIf_error {bad : Prop} [Decidable bad] {error error' : CacheError}
    (h : raiseIf bad error = .error error') : error' = error := by
  unfold raiseIf at h
  split at h
  · cases h
    rfl
  · cases h

omit [IdentityHasher] in
theorem bind_eq_error {α β : Type} {x : Except CacheError α} {f : α → Except CacheError β}
    {error : CacheError} (h : x >>= f = .error error) :
    x = .error error ∨ ∃ a, x = .ok a ∧ f a = .error error := by
  cases x with
  | ok a => exact .inr ⟨a, rfl, h⟩
  | error e =>
    cases h
    exact .inl rfl

theorem key_error {components : KeyComponents} {error : CacheError}
    (h : promptCacheKeyFromComponents components = .error error) :
    ∃ message, error = .value message := by
  rcases bind_eq_error h with h | ⟨_,_,h⟩
  · exact ⟨_, raiseIf_error h⟩
  rcases bind_eq_error h with h | ⟨_,_,h⟩
  · exact ⟨_, raiseIf_error h⟩
  exact validateCacheKey_error h

theorem EntryFields.validate_error {fields : EntryFields F} {error : CacheError}
    (h : fields.validate = .error error) : ∃ message, error = .value message := by
  unfold EntryFields.validate at h
  rcases bind_eq_error h with h | ⟨_,_,h⟩
  · exact ⟨_, raiseIf_error h⟩
  rcases bind_eq_error h with h | ⟨_,_,h⟩
  · exact ⟨_, raiseIf_error h⟩
  rcases bind_eq_error h with h | ⟨_,_,h⟩
  · exact ⟨_, raiseIf_error h⟩
  rcases bind_eq_error h with h | ⟨_,_,h⟩
  · exact ⟨_, raiseIf_error h⟩
  rcases bind_eq_error h with h | ⟨_,_,h⟩
  · exact ⟨_, raiseIf_error h⟩
  rcases bind_eq_error h with h | ⟨_,_,h⟩
  · exact ⟨_, raiseIf_error h⟩
  rcases bind_eq_error h with h | ⟨_,_,h⟩
  · exact key_error h
  exact ⟨_, raiseIf_error h⟩

/- What a call of the provider publishes is always valid. -/
theorem validate_executed {components : KeyComponents} {key : PromptCacheKey}
    (hkey : promptCacheKeyFromComponents components = .ok key) (id : PublicationId)
    (phase unit logicalCallId storedAt : String) (call : ProviderCallResult F) :
    EntryFields.validate ⟨key, components, components.executionPolicyHash, id,
      ⟨key.text, phase, unit, logicalCallId, storedAt⟩,
      ⟨logicalCallId, components.requestHash, components.executionPolicyHash, call⟩⟩ = .ok () := by
  have hcomponents := hkey
  unfold promptCacheKeyFromComponents at hcomponents
  simp only [raiseIf_bind_eq_ok] at hcomponents
  simp only [EntryFields.validate, raiseIf_bind_eq_ok, dumpEq_refl]
  refine ⟨hcomponents.1, hcomponents.2.1, by simp, by simp, by simp, by simp, ?_⟩
  rw [hkey]
  exact raiseIf_neg _ _ (by simp)

theorem StoredEntry.build_error {fields : EntryFields F} {error : CacheError}
    (h : StoredEntry.build fields = .error error) : fields.validate = .error error := by
  unfold StoredEntry.build at h
  split at h
  · cases h
  · rename_i error' hvalidate
    cases h
    exact hvalidate

/-! ### Publication -/

theorem Onward.published {pid : Nat} {s t : Store F} (h : Onward pid s t) {x : Publication F}
    (hx : x ∈ s.accounts.published) : x ∈ t.accounts.published := by
  obtain ⟨events,hlog⟩ := h.log
  rw [Store.accounts, hlog, List.filterMap_append]
  exact List.mem_append_left _ hx

/- A name that no file has been given yet. -/
structure Drawn (pid : Nat) (key : PromptCacheKey) (id : PublicationId) (s : Store F) : Prop where
  critical : Critical pid key .absent s
  drawn : s.drawn id = some pid
  fresh : ∀ key' stage, s.accounts.At key' stage → stage.id? ≠ some id

theorem lasting_drawn (pid : Nat) (key : PromptCacheKey) (id : PublicationId) :
    Lasting keyLocks pid (Drawn (F := F) pid key id) := by
  refine ⟨fun s t hst h => ?_, fun s t halike hsame h => ?_⟩
  · obtain ⟨hdrawn,hfresh⟩ := hst.fresh id h.drawn h.fresh
    exact ⟨(lasting_critical pid key .absent).1 s t hst h.critical, hdrawn, hfresh⟩
  · refine ⟨(lasting_critical pid key .absent).2 s t halike hsame h.critical,
      halike.drawn id pid h.drawn, fun key' stage hat => h.fresh key' stage ?_⟩
    exact hat.frame fun file _ => by rw [halike.records]

section Publish

variable {pid : Nat} {call : CacheCall F} {E : CacheError → Store F → Prop} {s : Store F}
variable {key : PromptCacheKey}

theorem does_uuid4 (hs : s.dead pid = false → Critical pid key .absent s) :
    Does pid call E (op .uuid4) s fun id => Drawn pid key id := by
  refine does_op (lasting_critical pid key .absent).1 hs (fun id => (lasting_drawn pid key id).1)
    fun t answer r t' ht _ hPt he => ?_
  simp only [runOp] at he
  by_cases hdrawn : (t.drawn answer.token).isSome = true
  · rw [if_pos hdrawn] at he
    cases he
  · rw [if_neg hdrawn] at he
    cases he
    refine ⟨Store.turn_draw (Option.not_isSome_iff_eq_none.mp hdrawn), fun _ _ h => h,
      ⟨hPt.lock, hPt.stage.frame fun _ _ => rfl⟩, Function.update_self ..,
      fun key' stage hat hid => ?_⟩
    exact hdrawn (ht.accounts.drawn key' stage _ (hat.frame fun _ _ => rfl) hid)

/-- The journal of a publication is written before its entry. -/
theorem does_journal {journal : AccountingJournal} (hkey : journal.key = key)
    (hs : s.dead pid = false → Drawn pid key journal.publicationId s) :
    Does pid call E (atomicWrite (.pendingAccounting key) (.journal journal)) s
      fun _ => Critical pid key (.journaled journal) := by
  refine does_place key .absent (.journaled journal) (.pendingAccounting key) (.journal journal) rfl
    (by simp)
    (lasting_drawn pid key journal.publicationId).all (lasting_critical pid key _).all hs
    (fun t ht hPt => ⟨hPt.critical.lock, nofun, fun id hid => ?_,
      Accounts.moves_journal ht.accounts hPt.critical.stage hkey ?_ hPt.fresh⟩)
    fun t u hPt hexclusive haccounts _ => ⟨hexclusive ▸ hPt.critical.lock, ?_⟩
  · cases hid
    exact .inr hPt.drawn
  · exact Option.isSome_iff_exists.mpr ⟨pid, hPt.drawn⟩
  · rw [haccounts]
    exact {
      pending := Accounts.write_self ..
      applied := (Accounts.write_other _ _ (by simp)).trans hPt.critical.stage.applied
      entry := (Accounts.write_other _ _ (by simp)).trans hPt.critical.stage.entry }

theorem placeBody_entry (pid : Nat) {t : Store F} {temporary : CacheFile} (entry : StoredEntry F)
    (misses : Fin 2) (htemporary : temporary.isRecord = false) :
    (t.placeBody pid misses temporary (.entry entry.key) (.entry entry)).accounts =
      t.accounts.publish ⟨pid, misses, entry⟩ := by
  have hrecords := congrArg Accounts.records (Store.accounts_set
    (s := { t with files := t.files.erase temporary })
    (rfl : CacheFile.isRecord (.entry entry.key) = true) (.entry entry))
  rw [Store.accounts_erase_other htemporary] at hrecords
  refine Accounts.mk.injEq .. |>.mpr ⟨hrecords, ?_, rfl⟩
  exact List.filterMap_append

/-- The entry takes its place, and with it the publication. -/
theorem does_placeEntry {journal : AccountingJournal} (entry : StoredEntry F)
    (hkey : entry.key = key) (hid : entry.publicationId = journal.publicationId)
    (hmisses : call.misses = journal.misses)
    (hs : s.dead pid = false → Critical pid key (.journaled journal) s) :
    Does pid call E (atomicWrite (.entry key) (.entry entry)) s fun _ t =>
      Critical pid key (.stored journal entry) t ∧
        ∃ x ∈ t.accounts.published, x = ⟨pid, journal.misses, entry⟩ := by
  subst hkey
  refine does_atomicWrite (lasting_critical pid _ _).all
    ((lasting_critical pid _ _).all.and (lasting_published _ _)) hs
    fun t temporary ht hPt htmp => ?_
  have haccounts := placeBody_entry pid (t := t) entry call.misses htmp
  have hm := Accounts.moves_publish (x := ⟨pid, call.misses, entry⟩) ht.accounts hPt.stage rfl hid
    hmisses
  rw [← haccounts] at hm
  refine ⟨Store.turn_moved hm hPt.lock (.inl ?_) (fun id hid => .inl hid) ⟨rfl, rfl, rfl⟩
    (.inr ⟨.published pid call.misses entry, rfl, rfl, trivial⟩), fun key' answered hmem => ?_,
    ⟨hPt.lock, hm.after⟩, ?_⟩
  · rw [haccounts]
    exact Accounts.publish_other _ _ (by simp)
  · rcases List.mem_append.mp hmem with hold | hnew
    · exact hold
    · cases List.mem_singleton.mp hnew
  · rw [haccounts, ← hmisses]
    exact ⟨_, List.mem_append_right _ List.mem_cons_self, rfl⟩

/-- A publication that is valid is stored and counted; one that is not is left as a journal
without an entry. -/
theorem does_publishEntry {components : KeyComponents} {provenance : CacheProvenance}
    {result : StoredResult F} {misses : Fin 2} (hmisses : call.misses = misses)
    (hs : s.dead pid = false → Critical pid key .absent s)
    (hE : ∀ id error, EntryFields.validate ⟨key, components, result.executionPolicyHash, id,
      provenance, result⟩ = .error error → Steadfast pid (E error) ∧
        ∀ t, Onward pid s t → t.exclusive (.key key) = some pid → E error t) :
    Does pid call E (publishEntry key components provenance result misses) s fun _ t =>
      t.exclusive (.key key) = some pid ∧ ∃ x ∈ t.accounts.published, x.entry.key = key ∧
        x.pid = pid ∧ x.misses = misses ∧ x.entry.provenance = provenance ∧
          x.entry.result = result := by
  refine does_bind (does_uuid4 hs) fun id t _ _ hst ht => ?_
  refine does_bind (does_journal rfl fun _ => ht) fun _ u _ _ htu hu => ?_
  refine does_bind (Q := fun _ v => ∃ entry : StoredEntry F, entry.key = key ∧
    entry.provenance = provenance ∧ entry.result = result ∧
      Critical pid key (.stored ⟨key, id, misses⟩ entry) v ∧
        ∃ x ∈ v.accounts.published, x = ⟨pid, misses, entry⟩) ?_ fun _ v _ _ _ hv => ?_
  · cases hbuild : StoredEntry.build ⟨key, components, result.executionPolicyHash, id, provenance,
      result⟩ with
    | error error =>
      obtain ⟨hstable,hraise⟩ := hE id error (StoredEntry.build_error hbuild)
      simp only [storeEntry, hbuild]
      exact does_raise hstable fun _ => hraise u (hst.trans htu) hu.lock
    | ok entry =>
      have hfields := StoredEntry.build_ok hbuild
      simp only [storeEntry, hbuild]
      refine does_mono (does_placeEntry entry ?_ ?_ hmisses fun _ => hu)
        (fun _ v _ _ h => ⟨entry, ?_, ?_, ?_, h⟩) fun _ _ h => h
      · rw [StoredEntry.key, hfields]
      · rw [StoredEntry.publicationId, hfields]
      · rw [StoredEntry.key, hfields]
      · rw [StoredEntry.provenance, hfields]
      · rw [StoredEntry.result, hfields]
  · obtain ⟨entry,hkey,hprovenance,hresult,hcritical,x,hx,rfl⟩ := hv
    refine does_mono (does_finalize rfl fun _ => hcritical) (fun _ w _ hvw h => ?_) fun _ _ h => h
    exact ⟨h.lock, _, hvw.published hx, hkey, rfl, rfl, hprovenance, hresult⟩

end Publish

/-! ### Calls -/

section Calls

variable {pid : Nat} {call : CacheCall F} {E : CacheError → Store F → Prop} {s : Store F}
variable {key : PromptCacheKey}

theorem lasting_serves (locks : LockName → Prop) (outcome : CallOutcome F) :
    Lasting locks pid fun t : Store F => t.Serves pid outcome := by
  refine ⟨fun t u htu h => ?_, fun t u halike _ h => ?_⟩
  · obtain ⟨events,hlog⟩ := htu.log
    exact h.mono hlog
  · exact h.same halike.log

theorem steadfast_ready (pid : Nat) (key : PromptCacheKey) :
    Steadfast pid (Ready (F := F) pid key) := by
  refine fun t u htu h => ⟨htu.locks _ h.lock, ?_⟩
  rcases h.settled with hunpaid | hpublished
  · exact .inl ((lasting_unpaid allLocks key true).1 t u htu hunpaid)
  · exact .inr ((lasting_published allLocks _).1 t u htu hpublished)

/- What a settled entry is served from. -/
theorem published_of_settled {t : Store F} (ht : t.Sound) {entry : StoredEntry F}
    (hat : t.accounts.At key (.settled entry)) :
    ∃ x ∈ t.accounts.published, x.entry.key = key ∧ x.entry = entry := by
  obtain ⟨stage,hstage,hsound⟩ := ht.accounts.stage key
  rw [← hat.unique hstage] at hsound
  obtain ⟨x,hx,rfl⟩ := ht.accounts.recorded key entry hat.entry
  exact ⟨x, hx, hsound, rfl⟩

theorem not_published_of_absent {t : Store F} (ht : t.Sound) (hat : t.accounts.At key .absent) :
    ¬ t.Published key := by
  rintro ⟨x,hx,rfl⟩
  have hfile := ht.accounts.published x hx
  rw [hat.entry] at hfile
  cases hfile

theorem resting_entry (found : Option (StoredEntry F)) : (Stage.resting found).stored? = found := by
  cases found <;> rfl

theorem does_readEntryOrQuarantine {stage : Stage F}
    (hs : s.dead pid = false → Critical pid key stage s) :
    Does pid call E (readEntryOrQuarantine key) s fun found t =>
      Critical pid key stage t ∧ found = stage.stored? :=
  does_handle _ (does_mono (does_readEntry (P := fun _ => True) (lasting_const True)
    fun hlive => ⟨trivial, hs hlive⟩) (fun _ _ _ _ h => ⟨h.1.2, h.2⟩) fun _ _ h => h)

/-- A hit is counted under the lock of its key. -/
theorem does_noteHit {stage : Stage F} (hs : s.dead pid = false → Critical pid key stage s) :
    Does pid call E noteHit s fun _ => Critical pid key stage := by
  have hcritical := lasting_critical pid key stage
  refine does_withLock_stats hcritical (fun _ => hcritical) hs fun t _ _ ht hlock => ?_
  refine does_bind (does_readStats hcritical.all fun _ => ⟨ht, hlock⟩)
    fun current u _ _ _ hu => ?_
  refine does_place key stage stage .stats
    (.stats { current with hits := current.hits + 1 }) rfl (by simp)
    (hcritical.all.and (lasting_stats pid current)) (hcritical.all.and (lasting_all _))
    (fun _ => hu)
    (fun v hv hPv => ?_) fun v w hPv hexclusive haccounts _ => ?_
  · obtain ⟨hPv,hlock,rfl⟩ := hPv
    exact ⟨hPv.lock, fun _ => hlock, fun _ => .inl, Accounts.moves_hits hv.accounts _ hPv.stage⟩
  · refine ⟨⟨hexclusive ▸ hPv.1.lock, ?_⟩, hexclusive ▸ hPv.2.1⟩
    rw [haccounts]
    exact hPv.1.stage.frame fun file hfile =>
      Accounts.write_other _ _ fun h => by rw [h] at hfile; cases hfile

/- A process that has not called the provider yet. -/
def Unpaid (pid : Nat) (s : Store F) : Prop := ∀ key answered, .paid pid key answered ∉ s.log

theorem Unpaid.onward {t : Store F} (h : Unpaid pid s) (hst : Onward pid s t) : Unpaid pid t :=
  fun key answered hmem => h key answered (hst.paid key answered hmem)

theorem lasting_nothing (locks : LockName → Prop) (pid : Nat) :
    Lasting locks pid (Unpaid (F := F) pid) :=
  ⟨fun _ _ hst h => h.onward hst.onward,
    fun _ _ halike _ h key answered hmem => h key answered (halike.log ▸ hmem)⟩

/- A check that a call makes of its arguments. -/
theorem does_checked {α : Type} {x : Except CacheError α}
    (hE : ∀ error, x = .error error → call.Allows error) (hs : s.dead pid = false → Unpaid pid s) :
    Does pid call (fun error _ => call.Allows error) (ofExcept x) s fun _ => Unpaid pid :=
  does_ofExcept (fun _ _ => (lasting_nothing noLocks pid).1) (fun hlive _ _ => hs hlive)
    fun error herror _ => hE error herror

/-- The provider is paid for a key that has no entry; the key stays locked until the answer is
published. -/
theorem ends_runProviderCall (hs : s.dead pid = false → Critical pid key .absent s ∧ Unpaid pid s) :
    Ends pid call E (op (.runProviderCall key)) s fun result t =>
      Critical pid key .absent t ∧ (∀ message, result = .error message →
        .paid pid key true ∉ t.log) := by
  have hcritical := lasting_critical (F := F) pid key .absent
  refine ends_op (hcritical.and (lasting_nothing keyLocks pid)).1 hs
    (fun result t u htu h => ⟨hcritical.1 t u htu h.1, fun message hresult hmem =>
      h.2 message hresult (htu.own _ hmem rfl)⟩) fun t answer r t' ht _ hPt he => ?_
  cases he
  refine ⟨Store.turn_record rfl ⟨hPt.1.lock, not_published_of_absent ht hPt.1.stage, hPt.2⟩ rfl,
    ⟨hPt.1.lock, hPt.1.stage.frame fun _ _ => rfl⟩, fun message hresult hmem => ?_⟩
  rcases List.mem_append.mp hmem with hold | hnew
  · exact hPt.2 key true hold
  · rw [hresult] at hnew
    cases List.mem_singleton.mp hnew

/-- A call of the provider goes through the cache. -/
theorem ends_executeCall (components : KeyComponents) (phase unit logicalCallId : String)
    (hs : s.dead pid = false → Unpaid pid s) :
    Ends pid (.executeCall components phase unit logicalCallId)
      (fun error _ => (CacheCall.executeCall (F := F) components phase unit logicalCallId).Allows
        error)
      (executeCall components phase unit logicalCallId) s
      fun outcome t => t.Serves pid outcome := by
  cases hkey : promptCacheKeyFromComponents components with
  | error error =>
    obtain ⟨message,rfl⟩ := key_error hkey
    simp only [executeCall, hkey]
    exact Does.ends (does_raise (fun _ _ _ h => h) fun _ => trivial)
  | ok key =>
    simp only [executeCall, hkey]
    refine ends_withLock_key (lasting_nothing noLocks pid) (lasting_serves noLocks)
      (fun _ => lasting_const _) hs fun t ht _ hunpaid hlock => ?_
    refine ends_bind (does_reconcile ht hlock) fun _ u hu _ h => ?_
    obtain ⟨htu,found,hfound⟩ := h
    refine ends_bind (does_readEntryOrQuarantine fun _ => hfound) fun entry v hv _ h => ?_
    obtain ⟨huv,hcritical,rfl⟩ := h
    rw [resting_entry]
    cases found with
    | some entry =>
      refine ends_bind (does_noteHit fun _ => hcritical) fun _ w hw _ h => ?_
      obtain ⟨_,hcritical⟩ := h
      obtain ⟨x,hx,hxkey,rfl⟩ := published_of_settled hw hcritical.stage
      refine (does_done (fun y z hyz h => ⟨(lasting_serves allLocks _).1 y z hyz h.1,
        steadfast_ready pid key y z hyz h.2⟩)
        fun _ => ⟨?_, hcritical.lock, .inr ⟨x, hx, hxkey⟩⟩).ends
      exact ⟨x, hx, hxkey, rfl, .inl rfl⟩
    | none =>
      have hunpaid' : Unpaid pid v := (hunpaid.onward htu).onward huv
      refine ends_bind (ends_runProviderCall fun _ => ⟨hcritical, hunpaid'⟩)
        fun result w hw _ h => ?_
      cases result with
      | error message =>
        exact (does_raise (fun y z hyz h => ⟨h.1, steadfast_ready pid key y z hyz h.2⟩)
          fun _ => ⟨trivial, h.1.lock, .inl (h.2 message rfl)⟩).ends
      | ok result =>
        refine ends_bind (does_read (R := fun _ => Critical pid key .absent)
          (lasting_critical pid key .absent).1 (fun _ => h.1)
          (fun _ => (lasting_critical pid key .absent).1) fun y answer r y' _ hy he => ?_)
          fun storedAt y hy _ h => ?_
        · cases he
          exact ⟨rfl, hy⟩
        · refine ends_bind (does_publishEntry rfl (fun _ => h.2) fun id error herror => ?_)
            fun _ z hz _ h => ?_
          · rw [validate_executed hkey] at herror
            cases herror
          · obtain ⟨_,hlock,x,hx,hxkey,hxpid,hxmisses,_,hxresult⟩ := h
            refine (does_done (fun y z hyz h => ⟨(lasting_serves allLocks _).1 y z hyz h.1,
              steadfast_ready pid key y z hyz h.2⟩) fun _ => ⟨?_, hlock, .inr ⟨x, hx, hxkey⟩⟩).ends
            exact ⟨x, hx, hxkey, by rw [hxresult], .inr ⟨rfl, hxpid, congrArg Fin.val hxmisses⟩⟩

theorem does_getResult (key : String)
    (hs : s.dead pid = false → Unpaid pid s) :
    Does pid (.getResult key) (fun error _ => (CacheCall.getResult (F := F) key).Allows error)
      (getResult key) s fun outcome t => t.Serves pid outcome := by
  refine does_bind (does_checked (fun error herror => ?_) hs) fun key t _ _ _ ht => ?_
  · obtain ⟨message,rfl⟩ := validateCacheKey_error herror
    trivial
  refine does_bind (Q := fun entry t => t.Serves pid
    (.found key (entry.map fun entry => (entry.result, entry.provenance)))) ?_
    fun entry t _ _ _ ht => does_done (lasting_serves allLocks _).1 fun _ => ht
  refine does_withLock_key (P := fun t => .paid pid key true ∉ t.log)
    (lasting_unpaid noLocks key true) (fun _ => lasting_serves noLocks _) (fun _ => lasting_const _)
    (fun _ => ht key true) fun t ht _ _ hunpaid hlock => ?_
  refine does_bind (does_reconcile ht hlock) fun _ u hu _ htu h => ?_
  obtain ⟨found,hfound⟩ := h
  refine does_mono (does_readEntry (P := fun u => .paid pid key true ∉ u.log)
    (lasting_unpaid keyLocks key true) fun _ => ⟨fun hmem => hunpaid (htu.paid _ _ hmem), hfound⟩)
    (fun entry v hv _ h => ?_) fun _ _ h => h
  obtain ⟨⟨hunpaid,hcritical⟩,rfl⟩ := h
  refine ⟨?_, hcritical.lock, .inl hunpaid⟩
  rw [resting_entry]
  cases found with
  | none => trivial
  | some entry =>
    obtain ⟨x,hx,hxkey,rfl⟩ := published_of_settled hv hcritical.stage
    exact ⟨x, hx, hxkey, rfl, rfl⟩

/-- A result from elsewhere is stored, unless its key has an entry already. -/
theorem does_put (key : String) (components : KeyComponents) (result : StoredResult F)
    (phase unit logicalCallId : String)
    (hs : s.dead pid = false → Unpaid pid s) :
    Does pid (.put key components result phase unit logicalCallId)
      (fun error _ => (CacheCall.put key components result phase unit logicalCallId).Allows error)
      (put key components result phase unit logicalCallId) s
      fun outcome t => t.Serves pid outcome := by
  refine does_bind (does_checked (fun error herror => ?_) hs) fun key t _ _ _ ht => ?_
  · obtain ⟨message,rfl⟩ := validateCacheKey_error herror
    trivial
  refine does_bind (does_checked (fun error herror => ?_) fun _ => ht)
    fun expectedKey t _ _ _ ht => ?_
  · obtain ⟨message,rfl⟩ := key_error herror
    trivial
  refine does_bind (does_checked (fun error herror => ?_) fun _ => ht) fun _ t _ _ _ ht => ?_
  · rw [raiseIf_error herror]
    trivial
  refine does_bind (Q := fun _ => Unpaid pid)
    (does_read (lasting_nothing noLocks pid).1 (fun _ => ht)
    (fun _ => (lasting_nothing noLocks pid).1) fun u answer r u' _ hu he => ?_)
    fun storedAt t _ _ _ ht => ?_
  · cases he
    exact ⟨rfl, hu⟩
  refine does_withLock_key (P := fun t => .paid pid key true ∉ t.log)
    (lasting_unpaid noLocks key true) (fun _ => lasting_serves noLocks _) (fun _ => lasting_const _)
    (fun _ => ht key true) fun t ht _ _ hunpaid hlock => ?_
  refine does_bind (does_reconcile ht hlock) fun _ u hu _ htu h => ?_
  obtain ⟨found,hfound⟩ := h
  refine does_bind (does_readEntryOrQuarantine fun _ => hfound) fun entry v hv _ huv h => ?_
  obtain ⟨hcritical,rfl⟩ := h
  rw [resting_entry]
  have hunpaid' : .paid pid key true ∉ v.log :=
    fun hmem => hunpaid (htu.paid _ _ (huv.paid _ _ hmem))
  have hstable (outcome : CallOutcome F) : Steadfast pid fun t : Store F =>
      t.Serves pid outcome ∧ Ready pid key t := fun y z hyz h =>
    ⟨(lasting_serves allLocks outcome).1 y z hyz h.1, steadfast_ready pid key y z hyz h.2⟩
  cases found with
  | some entry =>
    obtain ⟨x,hx,hxkey,rfl⟩ := published_of_settled hv hcritical.stage
    exact does_done (hstable _) fun _ => ⟨⟨x, hx, hxkey, rfl⟩, hcritical.lock, .inl hunpaid'⟩
  | none =>
    refine does_bind (does_publishEntry rfl (fun _ => hcritical) fun id error herror => ?_)
      fun _ w _ _ _ h => ?_
    · obtain ⟨message,rfl⟩ := EntryFields.validate_error herror
      exact ⟨fun y z hyz h => ⟨h.1, steadfast_ready pid key y z hyz h.2⟩,
        fun w hvw hlock => ⟨trivial, hlock, .inl fun hmem => hunpaid' (hvw.paid _ _ hmem)⟩⟩
    · obtain ⟨hlock,x,hx,hxkey,_,_,hxprovenance,_⟩ := h
      exact does_done (hstable _) fun _ =>
          ⟨⟨x, hx, hxkey, hxprovenance⟩, hlock, .inr ⟨x, hx, hxkey⟩⟩

end Calls

end Serving

end Whetstone.Execution.PromptCache
