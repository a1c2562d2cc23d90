import Whetstone.Execution.PromptCacheRecords
import Whetstone.Lib.CrashSafe
import Whetstone.Lib.Dict
import Mathlib.Logic.Function.Basic

/-! The prompt cache of several processes on one directory. Every operation is one step of the
file system or of a lock, and a process may be gone after any of them, which frees its locks.
The file system raises nothing of its own; a name that was drawn with `uuid4` is not drawn
again. -/
namespace Whetstone.Execution.PromptCache
open Whetstone.Core Whetstone.Lib Whetstone.Provider

/-! ### The directory -/

inductive CacheFile where
  | stats
  | entry (key : PromptCacheKey)
  | pendingAccounting (key : PromptCacheKey)
  | appliedAccounting (key : PromptCacheKey)
  | quarantine (key : PromptCacheKey) (token : PublicationId)
  | temporary (shard : Option (List Char)) (token : PublicationId)
deriving DecidableEq

/- The key under whose lock a file is written. -/
def CacheFile.key? : CacheFile → Option PromptCacheKey
  | .entry key => some key
  | .pendingAccounting key => some key
  | .appliedAccounting key => some key
  | .quarantine key _ => some key
  | _ => none

/- The directory of a file, which is the store itself for the counters. -/
def CacheFile.shard : CacheFile → Option (List Char)
  | .temporary shard _ => shard
  | file => file.key?.map PromptCacheKey.shard

/- `_accounting_key_from_path` -/
def CacheFile.accountingKey? : CacheFile → Option PromptCacheKey
  | .pendingAccounting key => some key
  | .appliedAccounting key => some key
  | _ => none

inductive LockName where
  | key (key : PromptCacheKey)
  | stats
deriving DecidableEq

section Store

variable [IdentityHasher] {F : Type}

variable (F) in
inductive Body where
  | entry (entry : StoredEntry F)
  | journal (journal : AccountingJournal)
  | stats (stats : StoredStats)
  | unfinished

variable (F) in
/- What a call of the cache returns; a result that was served from an entry has its provenance. -/
inductive CallOutcome where
  | executed (key : PromptCacheKey) (execution : CallExecution F)
  | found (key : PromptCacheKey) (found : Option (StoredResult F × CacheProvenance))
  | stored (key : PromptCacheKey) (provenance : CacheProvenance)
  | counted (hits misses stores : Nat)

variable (F) in
/- What happened, for the statements about runs: no program reads it. `misses` tells whether the
   entry was published by a call of the provider. -/
inductive Event where
  | started (pid : Nat)
  | paid (pid : Nat) (key : PromptCacheKey) (answered : Bool)
  | published (pid : Nat) (misses : Fin 2) (entry : StoredEntry F)
  | finished (pid : Nat) (outcome : CallOutcome F)

variable (F) in
/- `exclusive` names the process that took a lock last; the lock of a dead process is free. -/
structure Store where
  files : Dict CacheFile (Body F)
  exclusive : LockName → Option Nat
  readers : List Nat
  dead : Nat → Bool
  drawn : PublicationId → Option Nat
  log : List (Event F)

inductive StoreName where
  | shard (name : List Char)
  | file (file : CacheFile)

variable (F) in
inductive CacheOp where
  | start
  | acquire (lock : LockName)
  | acquireShared
  | release (lock : LockName)
  | releaseShared
  | uuid4
  | now
  | pathExists (file : CacheFile)
  | readBytes (file : CacheFile)
  | createTemporary (file : CacheFile)
  | replaceTemporary (temporary file : CacheFile) (body : Body F)
  | unlinkMissingOk (file : CacheFile)
  | replace (source target : CacheFile)
  | unlink (file : CacheFile)
  | listStore
  | statName (name : StoreName)
  | listShard (shard : List Char)
  | runProviderCall (key : PromptCacheKey)
  | finish (outcome : CallOutcome F)
  | kill (pid : Nat)

/- A read of a file that is missing returns nothing; `statName` tells whether the name is that of
   a directory. -/
abbrev Res : CacheOp F → Type
  | .uuid4 => PublicationId
  | .now => String
  | .pathExists _ => Bool
  | .readBytes _ => Option (Body F)
  | .createTemporary _ => CacheFile
  | .replace .. | .unlink _ => Except CacheError Unit
  | .listStore => List StoreName
  | .statName _ => Except CacheError Bool
  | .listShard _ => List CacheFile
  | .runProviderCall _ => Except String (ProviderCallResult F)
  | _ => Unit

variable (F) in
/- What the environment decides: the token that is drawn, the time and the provider's answer. -/
structure Answer where
  token : PublicationId
  time : String
  outcome : Except String (ProviderCallResult F)

end Store

section Operations

variable [IdentityHasher] {F : Type}

/-! ### Operations -/

variable (F) in
/- A call of the cache by one process. -/
inductive CacheCall where
  | executeCall (components : KeyComponents) (phase unit logicalCallId : String)
  | getResult (key : String)
  | put (key : String) (components : KeyComponents) (result : StoredResult F)
      (phase unit logicalCallId : String)
  | counters

variable (F) in
/- The calls of one process, and the crash of it. -/
inductive Label where
  | process (pid : Nat) (call : CacheCall F)
  | crash (pid : Nat)

namespace Store

variable (s : Store F)

/- Whether a living process has the lock for itself. -/
def held (lock : LockName) : Bool :=
  (s.exclusive lock).any fun pid => !s.dead pid

def shared : LockName → Bool
  | .key _ => false
  | .stats => s.readers.any fun pid => !s.dead pid

def record (event : Event F) : Store F := { s with log := s.log ++ [event] }

def draw (pid : Nat) (token : PublicationId) : Store F :=
  { s with drawn := Function.update s.drawn token (some pid) }

/- The log has the entries that are published, with what their process had paid for them. -/
def placeBody (pid : Nat) (misses : Fin 2) (temporary file : CacheFile) (body : Body F) :
    Store F :=
  let placed := { s with files := (s.files.erase temporary).set file body }
  match file, body with
  | .entry _, .entry entry => placed.record (.published pid misses entry)
  | _, _ => placed

end Store

/- The misses that a call accounts for when it publishes. -/
def CacheCall.misses : CacheCall F → Fin 2
  | .executeCall .. => 1
  | _ => 0

/- An operation of a process; a lock that is not free, and a token that was drawn before, leave
   it waiting. -/
def runOp (pid : Nat) (misses : Fin 2) :
    (o : CacheOp F) → Answer F → Store F → Option (Res o × Store F)
  | .start, _, s => some ((), s.record (.started pid))
  | .acquire lock, _, s =>
    if s.held lock || s.shared lock then none
    else some ((), { s with exclusive := Function.update s.exclusive lock (some pid) })
  | .acquireShared, _, s =>
    if s.held .stats then none else some ((), { s with readers := pid :: s.readers })
  | .release lock, _, s =>
    some ((), { s with exclusive := Function.update s.exclusive lock none })
  | .releaseShared, _, s => some ((), { s with readers := s.readers.erase pid })
  | .uuid4, answer, s =>
    if (s.drawn answer.token).isSome then none
    else some (answer.token, s.draw pid answer.token)
  | .now, answer, s => some (answer.time, s)
  | .pathExists file, _, s => some ((s.files.get? file).isSome, s)
  | .readBytes file, _, s => some (s.files.get? file, s)
  | .createTemporary file, answer, s =>
    if (s.drawn answer.token).isSome then none
    else
      let temporary := CacheFile.temporary file.shard answer.token
      some (temporary, { s.draw pid answer.token with files := s.files.set temporary .unfinished })
  | .replaceTemporary temporary file body, _, s =>
    some ((), s.placeBody pid misses temporary file body)
  | .unlinkMissingOk file, _, s => some ((), { s with files := s.files.erase file })
  | .replace source target, _, s =>
    match s.files.get? source with
    | none => some (.error .fileNotFound, s)
    | some body => some (.ok (), { s with files := (s.files.erase source).set target body })
  | .unlink file, _, s =>
    match s.files.get? file with
    | none => some (.error .fileNotFound, s)
    | some _ => some (.ok (), { s with files := s.files.erase file })
  | .listStore, _, s =>
    some ((s.files.keys.filterMap CacheFile.shard).dedup.map StoreName.shard ++
      (s.files.keys.filter fun file => file.shard = none).map StoreName.file, s)
  | .statName (.shard _), _, s => some (.ok true, s)
  | .statName (.file file), _, s =>
    if (s.files.get? file).isSome then some (.ok false, s) else some (.error .fileNotFound, s)
  | .listShard shard, _, s => some (s.files.keys.filter fun file => file.shard = some shard, s)
  | .runProviderCall key, answer, s =>
    some (answer.outcome, s.record (.paid pid key answer.outcome.isOk))
  | .finish outcome, _, s => some ((), s.record (.finished pid outcome))
  | .kill victim, _, s => some ((), { s with dead := Function.update s.dead victim true })

def exec : Label F → (o : CacheOp F) → Answer F → Store F → Option (Res o × Store F)
  | .process pid call, o, answer, s =>
    if s.dead pid then none else runOp pid call.misses o answer s
  | .crash pid, o, answer, s => runOp pid 0 o answer s

abbrev CacheProg (F α : Type) := Prog (CacheOp F) Res CacheError α

def op (o : CacheOp F) : CacheProg F (Res o) := Prog.perform o

def withLock {α : Type} (lock : LockName) (body : CacheProg F α) : CacheProg F α := do
  op (.acquire lock)
  body.ensure (op (.release lock))

end Operations
/-! ### The programs of the cache -/

section Programs

variable [IdentityHasher] {F : Type}

open Prog (ofExcept)

def replaceFile (source target : CacheFile) : CacheProg F Unit := do
  ofExcept (← op (.replace source target))

def unlinkFile (file : CacheFile) : CacheProg F Unit := do
  ofExcept (← op (.unlink file))

def atomicWrite (file : CacheFile) (body : Body F) : CacheProg F Unit := do
  let temporary ← op (.createTemporary file)
  (op (.replaceTemporary temporary file body)).ensure (op (.unlinkMissingOk temporary))

def statsOf : Option (Body F) → Except CacheError StoredStats
  | none => .ok {}
  | some (.stats stats) =>
    if stats.inflightPublicationIds.Nodup then .ok stats
    else .error (.promptCache "prompt-cache stats invalid")
  | some _ => .error (.promptCache "prompt-cache stats invalid")

def readStats : CacheProg F StoredStats := do
  ofExcept (statsOf (← op (.readBytes .stats)))

def writeStats (stats : StoredStats) : CacheProg F Unit :=
  atomicWrite .stats (.stats stats)

def entryOf (key : PromptCacheKey) : Option (Body F) → Except CacheError (Option (StoredEntry F))
  | none => .ok none
  | some (.entry entry) =>
    if entry.key = key then .ok (some entry)
    else .error (.promptCache "prompt-cache entry key mismatch")
  | some _ => .error (.promptCache "prompt-cache entry invalid")

def readEntry (key : PromptCacheKey) : CacheProg F (Option (StoredEntry F)) := do
  ofExcept (entryOf key (← op (.readBytes (.entry key))))

def journalOf (key : PromptCacheKey) : Option (Body F) → Except CacheError AccountingJournal
  | none => .error (.promptCache "prompt-cache accounting journal unreadable")
  | some (.journal journal) =>
    if journal.key = key then .ok journal
    else .error (.promptCache "prompt-cache accounting journal key mismatch")
  | some _ => .error (.promptCache "prompt-cache accounting journal invalid")

def readAccountingJournal (file : CacheFile) (key : PromptCacheKey) :
    CacheProg F AccountingJournal := do
  ofExcept (journalOf key (← op (.readBytes file)))

def updateCounters (hits misses : Nat) : CacheProg F Unit :=
  withLock .stats do
    let current ← readStats
    writeStats { current with hits := current.hits + hits, misses := current.misses + misses }

def noteHit : CacheProg F Unit := updateCounters 1 0

def sortedIds (ids : List PublicationId) : List PublicationId :=
  ids.mergeSort fun a b => decide (a.text ≤ b.text)

/- What the counters become when a journal is applied. -/
def StoredStats.apply (current : StoredStats) (journal : AccountingJournal) : StoredStats where
  hits := current.hits
  misses := current.misses + journal.misses
  stores := current.stores + 1
  inflightPublicationIds := sortedIds (journal.publicationId :: current.inflightPublicationIds)

def StoredStats.settle (current : StoredStats) (journal : AccountingJournal) : StoredStats :=
  { current with
    inflightPublicationIds :=
      current.inflightPublicationIds.filter fun id => id ≠ journal.publicationId }

def cleanupAppliedAccountingLocked (journal : AccountingJournal) : CacheProg F Unit := do
  withLock .stats do
    let current ← readStats
    if journal.publicationId ∈ current.inflightPublicationIds then
      writeStats (current.settle journal)
  unlinkFile (.appliedAccounting journal.key)

def finalizeAccountingLocked (key : PromptCacheKey) (journal : AccountingJournal) :
    CacheProg F Unit := do
  withLock .stats do
    let current ← readStats
    if journal.publicationId ∉ current.inflightPublicationIds then
      writeStats (current.apply journal)
  replaceFile (.pendingAccounting key) (.appliedAccounting key)
  cleanupAppliedAccountingLocked journal

def validateAccountedEntry (key : PromptCacheKey) (journal : AccountingJournal) :
    CacheProg F Unit := do
  match ← readEntry key with
  | none => .raise (.promptCache
      ("prompt-cache applied accounting has no published entry for key " ++ key.text))
  | some entry =>
    if entry.publicationId ≠ journal.publicationId then
      .raise (.promptCache ("prompt-cache applied accounting publication does not " ++
        "match the entry for key " ++ key.text))

def reconcileKeyAccountingLocked (key : PromptCacheKey) : CacheProg F Unit := do
  let pendingExists ← op (.pathExists (.pendingAccounting key))
  let appliedExists ← op (.pathExists (.appliedAccounting key))
  if pendingExists && appliedExists then
    .raise (.promptCache ("prompt-cache accounting has both pending and applied " ++
      "journals for key " ++ key.text))
  else if appliedExists then
    let journal ← readAccountingJournal (.appliedAccounting key) key
    validateAccountedEntry key journal
    cleanupAppliedAccountingLocked journal
  else if pendingExists then
    let journal ← readAccountingJournal (.pendingAccounting key) key
    match ← readEntry key with
    | none => unlinkFile (.pendingAccounting key)
    | some entry =>
      if entry.publicationId ≠ journal.publicationId then
        .raise (.promptCache ("prompt-cache pending accounting publication does not " ++
          "match the entry for key " ++ key.text))
      else finalizeAccountingLocked key journal

def storeEntry (fields : EntryFields F) : CacheProg F Unit := do
  let entry ← ofExcept (StoredEntry.build fields)
  atomicWrite (.entry fields.key) (.entry entry)

def publishEntry (key : PromptCacheKey) (components : KeyComponents) (provenance : CacheProvenance)
    (result : StoredResult F) (misses : Fin 2) : CacheProg F Unit := do
  let publicationId ← op .uuid4
  let journal : AccountingJournal := ⟨key, publicationId, misses⟩
  atomicWrite (.pendingAccounting key) (.journal journal)
  storeEntry ⟨key, components, result.executionPolicyHash, publicationId, provenance, result⟩
  finalizeAccountingLocked key journal

def quarantineCorruptEntryLocked (key : PromptCacheKey) : CacheProg F Unit := do
  if ← op (.pathExists (.entry key)) then
    let token ← op .uuid4
    replaceFile (.entry key) (.quarantine key token)

/- An entry that cannot be read is moved away and counts as missing. -/
def readEntryOrQuarantine (key : PromptCacheKey) : CacheProg F (Option (StoredEntry F)) :=
  (readEntry key).handle fun error =>
    if error.isPromptCacheError then do
      quarantineCorruptEntryLocked key
      return none
    else .raise error

def executeCall (components : KeyComponents) (phase unit logicalCallId : String) :
    CacheProg F (CallOutcome F) := do
  let key ← ofExcept (promptCacheKeyFromComponents components)
  withLock (.key key) do
    reconcileKeyAccountingLocked key
    match ← readEntryOrQuarantine key with
    | some entry =>
      noteHit
      return .executed key ⟨entry.result.call, some entry.provenance⟩
    | none =>
      match ← op (.runProviderCall key) with
      | .error message => .raise (.provider message)
      | .ok call =>
        let storedAt ← op .now
        publishEntry key components ⟨key.text, phase, unit, logicalCallId, storedAt⟩
          ⟨logicalCallId, components.requestHash, components.executionPolicyHash, call⟩ 1
        return .executed key ⟨call, none⟩

def getResult (key : String) : CacheProg F (CallOutcome F) := do
  let validated ← ofExcept (validateCacheKey key)
  let entry ← withLock (.key validated) do
    reconcileKeyAccountingLocked validated
    readEntry validated
  return .found validated (entry.map fun entry => (entry.result, entry.provenance))

def put (key : String) (components : KeyComponents) (result : StoredResult F)
    (phase unit logicalCallId : String) : CacheProg F (CallOutcome F) := do
  let validated ← ofExcept (validateCacheKey key)
  let expectedKey ← ofExcept (promptCacheKeyFromComponents components)
  ofExcept (raiseIf (validated ≠ expectedKey)
    (.value "cache key does not match its identity components"))
  let storedAt ← op .now
  let proposed : CacheProvenance := ⟨validated.text, phase, unit, logicalCallId, storedAt⟩
  withLock (.key validated) do
    reconcileKeyAccountingLocked validated
    match ← readEntryOrQuarantine validated with
    | some existing => return .stored validated existing.provenance
    | none =>
      publishEntry validated components proposed result 0
      return .stored validated proposed

def listName : StoreName → CacheProg F (List CacheFile)
  | .shard shard => op (.listShard shard)
  | .file _ => .done []

/- The keys whose journals lie in the directories named. -/
def accountingKeys : List StoreName → CacheProg F (List PromptCacheKey)
  | [] => .done []
  | name :: rest => do
    let isDirectory ← ofExcept (← op (.statName name))
    let found ← listName name
    let later ← accountingKeys rest
    return (if isDirectory then found.filterMap CacheFile.accountingKey? else []) ++ later

def reconcileKeys : List PromptCacheKey → CacheProg F Unit
  | [] => .done ()
  | key :: rest => do
    withLock (.key key) (reconcileKeyAccountingLocked key)
    reconcileKeys rest

def reconcileAllAccounting : CacheProg F Unit := do
  let names ← op .listStore
  let keys ← accountingKeys names
  reconcileKeys (keys.dedup.mergeSort fun a b => decide (a.text ≤ b.text))

def counters : CacheProg F (CallOutcome F) := do
  reconcileAllAccounting
  op .acquireShared
  let stats ← readStats.ensure (op .releaseShared)
  return .counted stats.hits stats.misses stats.stores

def runCall : CacheCall F → CacheProg F (CallOutcome F)
  | .executeCall components phase unit logicalCallId =>
    executeCall components phase unit logicalCallId
  | .getResult key => getResult key
  | .put key components result phase unit logicalCallId =>
    put key components result phase unit logicalCallId
  | .counters => counters

def code : Label F → CacheProg F Unit
  | .process _ call => do
    op .start
    let outcome ← runCall call
    op (.finish outcome)
  | .crash pid => op (.kill pid)

variable (F) in
def machine : Machine (Label F) (Store F) (Answer F) (CacheOp F) Res CacheError where
  exec := exec
  spawns _ := []
  code := code

end Programs
end Whetstone.Execution.PromptCache
