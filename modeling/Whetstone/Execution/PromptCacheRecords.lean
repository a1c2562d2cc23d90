import Whetstone.Core.Identity
import Whetstone.Core.PyEq
import Whetstone.Lib.Sha256
import Whetstone.Provider.CallExecution

/-! The records of the prompt cache: the key of a call, the entry that stores its result, the
journal of a publication and the shared counters. -/
namespace Whetstone.Execution.PromptCache
open Whetstone.Core Whetstone.Lib Whetstone.Provider

def isHex (count : Nat) (text : String) : Bool :=
  text.toList.length = count ∧ text.toList.all Sha256.isLowerHex

inductive CacheError where
  | promptCache (message : String)
  | value (message : String)
  | fileNotFound
  | provider (message : String)
deriving DecidableEq

/- `PromptCacheError`, which is raised of files that hold what the cache did not write. -/
def CacheError.isPromptCacheError : CacheError → Bool
  | .promptCache _ => true
  | _ => false

structure PromptCacheKey where
  text : String
  valid : isHex 64 text = true
deriving DecidableEq

def validateCacheKey (key : String) : Except CacheError PromptCacheKey :=
  if h : isHex 64 key = true then .ok ⟨key, h⟩
  else .error
    (.value "prompt-cache key must be exactly 64 lowercase hexadecimal characters")

/- The first two characters of a key name the directory that holds its files. -/
def PromptCacheKey.shard (key : PromptCacheKey) : List Char := key.text.toList.take 2

/- `uuid4().hex` -/
structure PublicationId where
  text : String
  valid : isHex 32 text = true
deriving DecidableEq

/- What the key of a call is computed from. -/
structure KeyComponents where
  requestHash : List (String × Json)
  executionPolicyHash : String
  seedIndex : Int
  driveOrdinal : Int

def promptCacheKeySchema : String := "whetstone.execution.prompt_cache_key"
def promptCacheKeySchemaVersion : Nat := 2

def KeyComponents.payload (components : KeyComponents) : Json :=
  .obj [("request_hash", .obj components.requestHash),
    ("execution_policy_hash", .str components.executionPolicyHash),
    ("seed_index", .int components.seedIndex),
    ("drive_ordinal", .int components.driveOrdinal)]

def promptCacheKeyFromComponents [IdentityHasher] (components : KeyComponents) :
    Except CacheError PromptCacheKey := do
  raiseIf (components.seedIndex < 0) (.value "seed_index must be non-negative")
  raiseIf (components.driveOrdinal < 0) (.value "drive_ordinal must be non-negative")
  validateCacheKey (IdentityHasher.computeIdentityHash promptCacheKeySchema
    promptCacheKeySchemaVersion components.payload)

/- A `ProviderCallResult` with the request and the policy it names. -/
structure StoredResult (F : Type) where
  logicalCallId : String
  requestHash : List (String × Json)
  executionPolicyHash : String
  call : ProviderCallResult F

structure EntryFields (F : Type) where
  key : PromptCacheKey
  components : KeyComponents
  resultPolicyHash : String
  publicationId : PublicationId
  provenance : CacheProvenance
  result : StoredResult F

section Entry

variable [IdentityHasher] {F : Type}

/- `_StoredEntry._validate_key`; the types carry the checks of a single field. -/
def EntryFields.validate (fields : EntryFields F) : Except CacheError Unit := do
  raiseIf (fields.components.seedIndex < 0) (.value "seed_index must be non-negative")
  raiseIf (fields.components.driveOrdinal < 0) (.value "drive_ordinal must be non-negative")
  raiseIf (fields.provenance.key ≠ fields.key.text)
    (.value "entry and provenance keys must match")
  raiseIf (dumpEq fields.result.requestHash fields.components.requestHash = false)
    (.value "entry and result request identities must match")
  raiseIf (fields.result.executionPolicyHash ≠ fields.resultPolicyHash)
    (.value "entry result policy hash must match the stored result")
  raiseIf (fields.resultPolicyHash ≠ fields.components.executionPolicyHash)
    (.value "entry and result execution policy hashes must match")
  let expectedKey ← promptCacheKeyFromComponents fields.components
  raiseIf (fields.key ≠ expectedKey)
    (.value "entry key does not match its identity components")

variable (F) in
structure StoredEntry where
  fields : EntryFields F
  valid : fields.validate = .ok ()

def StoredEntry.build (fields : EntryFields F) : Except CacheError (StoredEntry F) :=
  match h : fields.validate with
  | .ok () => .ok ⟨fields, h⟩
  | .error error => .error error

theorem StoredEntry.build_ok {fields : EntryFields F} {entry : StoredEntry F}
    (h : StoredEntry.build fields = .ok entry) : entry.fields = fields := by
  unfold StoredEntry.build at h
  split at h
  · cases h
    rfl
  · cases h

def StoredEntry.key (entry : StoredEntry F) : PromptCacheKey := entry.fields.key
def StoredEntry.publicationId (entry : StoredEntry F) : PublicationId := entry.fields.publicationId
def StoredEntry.provenance (entry : StoredEntry F) : CacheProvenance := entry.fields.provenance
def StoredEntry.result (entry : StoredEntry F) : StoredResult F := entry.fields.result

end Entry

/- `stores` is 1 in every journal. -/
structure AccountingJournal where
  key : PromptCacheKey
  publicationId : PublicationId
  misses : Fin 2
deriving DecidableEq

/- The counters as their file has them; a file that names a publication twice is invalid. -/
structure StoredStats where
  hits : Nat := 0
  misses : Nat := 0
  stores : Nat := 0
  inflightPublicationIds : List PublicationId := []
deriving DecidableEq

end Whetstone.Execution.PromptCache
