import Whetstone.Core.Identity
import Whetstone.Core.JsonEncoding
import Whetstone.Core.SortKeys
import Whetstone.Lib.JsonText
import Whetstone.Lib.Sha256

/-! The records of partial calls and the frames that store them. What is written can be read
back, with the fields of the objects it carries in their sorted order. -/
namespace Whetstone.Execution.Partials
open Whetstone.Core Whetstone.Lib

def hexdigest (bytes : Bytes) : String := Sha256.hexdigest (bytes.map UInt8.toNat)

def partialSchema : String := "whetstone.execution.partial_call/v3"
def partialFrameSchema : String := "whetstone.execution.partial_frame/v3"

/- What `datetime.fromisoformat` makes of a text: its offset in seconds, if it has one, and the
   same instant written in UTC. -/
structure IsoTimestamp where
  utcOffset : Option Int
  utcText : String

/-- The text formats that other packages read and write. What `dumps` writes of a value, with the
fields in the order they have, decodes to that value. -/
class TextFormats where
  dumps : Json → Except String Bytes
  decodeStrict : Bytes → Option Json
  fromIsoformat : String → Option IsoTimestamp
  laxFloat : Json → Option Rat
  repr : Json → String
  decode_dumps : ∀ value text, dumps value = .ok text →
    decodeStrict (text ++ [0x0A]) = some value
  laxFloat_float : ∀ value, laxFloat (.float value) = some value

section Records

variable [TextFormats]

def validateTimestamp (value : String) : Except String Unit := do
  raiseIf (value = "") "partial row at must be a non-empty timestamp"
  match TextFormats.fromIsoformat value with
  | none => .error "partial row at must be an ISO 8601 timestamp"
  | some parsed =>
    raiseIf (parsed.utcOffset = none) "partial row at must include a UTC offset"
    raiseIf (parsed.utcOffset ≠ some 0) "partial row at must use the UTC offset +00:00"
    raiseIf (value ≠ parsed.utcText) "partial row at must use canonical UTC ISO 8601 formatting"

/- An absent payload is null. Every number is finite. -/
structure RecordFields where
  phase : String
  taskId : String
  unit : String
  seedIndex : Int
  requestHash : String
  redrivePending : Bool
  score : Option Rat := none
  failed : Bool := false
  failureCode : String := ""
  promptTokens : Option Int := none
  completionTokens : Option Int := none
  totalTokens : Option Int := none
  reasoningTokens : Option Int := none
  latencyS : Option Rat := none
  outputText : Option String := none
  rawResponse : String := ""
  observationPayload : Json := .null
  finishReason : Option String := none
  providerError : Option (List (String × Json)) := none
  splitRole : Option String := none
  recordedAt : Option String := none
  cacheHit : Bool := false
  cacheSourcePhase : Option String := none
  cacheSourceUnit : Option String := none
  cacheSourceCallId : Option String := none
  cacheSourceAt : Option String := none

namespace RecordFields

def cacheSources (fields : RecordFields) : List (Option String) :=
  [fields.cacheSourcePhase, fields.cacheSourceUnit, fields.cacheSourceCallId,
    fields.cacheSourceAt]

def validate (fields : RecordFields) : Except String Unit := do
  raiseIf (isFullHash fields.requestHash = false)
    "request_hash must be a canonical 64-character lowercase hexadecimal digest"
  fields.recordedAt.forM validateTimestamp
  raiseIf (fields.phase = "" ∨ fields.taskId = "" ∨ fields.unit = "")
    "partial identity fields must be non-empty"
  raiseIf (fields.seedIndex < 0) "seed_index must be non-negative"
  raiseIf (fields.cacheHit = true ∧
      (fields.cacheSources.any Option.isNone = true ∨ fields.latencyS ≠ none))
    "a cache hit requires complete provenance and null latency"
  raiseIf (fields.cacheHit = false ∧ fields.cacheSources.any Option.isSome = true)
    "cache provenance is only valid for a cache hit"

def asDict (fields : RecordFields) : List (String × Json) :=
  [("schema", .str partialSchema),
    ("phase", .str fields.phase),
    ("task_id", .str fields.taskId),
    ("unit", .str fields.unit),
    ("seed_index", .int fields.seedIndex),
    ("request_hash", .str fields.requestHash),
    ("redrive_pending", .bool fields.redrivePending),
    ("split_role", Json.nullable .str fields.splitRole),
    ("score", Json.nullable .float fields.score),
    ("failed", .bool fields.failed),
    ("failure_code", .str fields.failureCode),
    ("prompt_tokens", Json.nullable .int fields.promptTokens),
    ("completion_tokens", Json.nullable .int fields.completionTokens),
    ("total_tokens", Json.nullable .int fields.totalTokens),
    ("reasoning_tokens", Json.nullable .int fields.reasoningTokens),
    ("latency_s", Json.nullable .float fields.latencyS),
    ("output_text", Json.nullable .str fields.outputText),
    ("raw_response", .str fields.rawResponse),
    ("observation_payload", fields.observationPayload),
    ("finish_reason", Json.nullable .str fields.finishReason),
    ("provider_error", Json.nullable .obj fields.providerError),
    ("at", Json.nullable .str fields.recordedAt),
    ("cache_hit", .bool fields.cacheHit),
    ("cache_source_phase", Json.nullable .str fields.cacheSourcePhase),
    ("cache_source_unit", Json.nullable .str fields.cacheSourceUnit),
    ("cache_source_call_id", Json.nullable .str fields.cacheSourceCallId),
    ("cache_source_at", Json.nullable .str fields.cacheSourceAt)]

end RecordFields

structure PartialCallRecord extends RecordFields where
  valid : toRecordFields.validate = .ok ()

/-! ### Reading a record -/

def readText (name : String) : Json → Except String String
  | .str value => .ok value
  | _ => .error (name ++ ": Input should be a valid string")

def readInt (name : String) : Json → Except String Int
  | .int value => .ok value
  | _ => .error (name ++ ": Input should be a valid integer")

def readBool (name : String) : Json → Except String Bool
  | .bool value => .ok value
  | _ => .error (name ++ ": Input should be a valid boolean")

def readFloat (name : String) (value : Json) : Except String Rat :=
  match TextFormats.laxFloat value with
  | some number => .ok number
  | none => .error (name ++ ": Input should be a valid number")

def readObject (name : String) : Json → Except String (List (String × Json))
  | .obj fields => .ok fields
  | _ => .error (name ++ ": Input should be a valid dictionary")

def optional {α : Type} (read : String → Json → Except String α) (name : String) :
    Json → Except String (Option α)
  | .null => .ok none
  | value => (read name value).map some

def persistedFields : List String :=
  ["schema", "phase", "task_id", "unit", "seed_index", "request_hash", "redrive_pending",
    "split_role", "score", "failed", "failure_code", "prompt_tokens", "completion_tokens",
    "total_tokens", "reasoning_tokens", "latency_s", "output_text", "raw_response",
    "observation_payload", "finish_reason", "provider_error", "at", "cache_hit",
    "cache_source_phase", "cache_source_unit", "cache_source_call_id", "cache_source_at"]

def sortedNames (names : List String) : String :=
  "[" ++ ", ".intercalate ((names.insertionSort (· ≤ ·)).map fun name => "'" ++ name ++ "'") ++ "]"

def create (fields : RecordFields) : Except String PartialCallRecord :=
  match h : fields.validate with
  | .ok () => .ok ⟨fields, h⟩
  | .error message => .error message

/- `model_validate`, which finds every field of the schema. -/
def modelValidate (data : List (String × Json)) : Except String PartialCallRecord := do
  let get (name : String) : Json := (data.lookup name).getD .null
  let phase ← readText "phase" (get "phase")
  let taskId ← readText "task_id" (get "task_id")
  let unit ← readText "unit" (get "unit")
  let seedIndex ← readInt "seed_index" (get "seed_index")
  let requestHash ← readText "request_hash" (get "request_hash")
  let redrivePending ← readBool "redrive_pending" (get "redrive_pending")
  let score ← optional readFloat "score" (get "score")
  let failed ← readBool "failed" (get "failed")
  let failureCode ← readText "failure_code" (get "failure_code")
  let promptTokens ← optional readInt "prompt_tokens" (get "prompt_tokens")
  let completionTokens ← optional readInt "completion_tokens" (get "completion_tokens")
  let totalTokens ← optional readInt "total_tokens" (get "total_tokens")
  let reasoningTokens ← optional readInt "reasoning_tokens" (get "reasoning_tokens")
  let latencyS ← optional readFloat "latency_s" (get "latency_s")
  let outputText ← optional readText "output_text" (get "output_text")
  let rawResponse ← readText "raw_response" (get "raw_response")
  let finishReason ← optional readText "finish_reason" (get "finish_reason")
  let providerError ← optional readObject "provider_error" (get "provider_error")
  let splitRole ← optional readText "split_role" (get "split_role")
  let recordedAt ← optional readText "at" (get "at")
  let cacheHit ← readBool "cache_hit" (get "cache_hit")
  let cacheSourcePhase ← optional readText "cache_source_phase" (get "cache_source_phase")
  let cacheSourceUnit ← optional readText "cache_source_unit" (get "cache_source_unit")
  let cacheSourceCallId ← optional readText "cache_source_call_id" (get "cache_source_call_id")
  let cacheSourceAt ← optional readText "cache_source_at" (get "cache_source_at")
  create { phase, taskId, unit, seedIndex, requestHash, redrivePending, score, failed, failureCode
           promptTokens, completionTokens, totalTokens, reasoningTokens, latencyS, outputText
           rawResponse, observationPayload := get "observation_payload", finishReason
           providerError, splitRole, recordedAt, cacheHit, cacheSourcePhase, cacheSourceUnit
           cacheSourceCallId, cacheSourceAt }

def fromDict (data : List (String × Json)) : Except String PartialCallRecord := do
  let names := data.map Prod.fst
  raiseIf (¬ (names ⊆ persistedFields ∧ persistedFields ⊆ names))
    ("partial row does not match the current schema: missing=" ++
      sortedNames (persistedFields.filter (· ∉ names)) ++ ", unexpected=" ++
      sortedNames (names.filter (· ∉ persistedFields)))
  let schema := (data.lookup "schema").getD .null
  raiseIf (schema ≠ .str partialSchema)
    ("partial row schema must be '" ++ partialSchema ++ "', got " ++ TextFormats.repr schema)
  modelValidate data

/-! ### Frames -/

def canonicalJsonBytes (value : Json) : Except String Bytes := TextFormats.dumps value.sortKeys

def PartialCallRecord.key (record : PartialCallRecord) : String × String × String × Int × String :=
  (record.phase, record.taskId, record.unit, record.seedIndex, record.requestHash)

def entryIdentity (record : PartialCallRecord) : Json :=
  .obj [("phase", .str record.phase), ("task_id", .str record.taskId), ("unit", .str record.unit),
    ("seed_index", .int record.seedIndex), ("request_hash", .str record.requestHash)]

def entryName (record : PartialCallRecord) : Except String String := do
  return hexdigest (← canonicalJsonBytes (entryIdentity record)) ++ ".json"

def frameOf (checksum : String) (recordBody : Json) : List (String × Json) :=
  [("schema", .str partialFrameSchema), ("checksum", .str checksum), ("record", recordBody)]

def encodeFrame (record : PartialCallRecord) : Except String Bytes := do
  let recordBody := Json.obj record.asDict
  let checksum := hexdigest (← canonicalJsonBytes recordBody)
  return (← canonicalJsonBytes (.obj (frameOf checksum recordBody))) ++ [0x0A]

def frameFields : List String := ["schema", "checksum", "record"]

/- The record of a frame whose checksum is that of its body. -/
def checkedRecord (location : String) (checksum recordBody : Json) :
    Except String PartialCallRecord :=
  match checksum, recordBody with
  | .str checksum, .obj data => do
    let expected := hexdigest (← canonicalJsonBytes (.obj data))
    raiseIf (checksum ≠ expected) ("partial frame checksum mismatch at " ++ location)
    fromDict data
  | _, _ => .error ("partial frame checksum and record are invalid at " ++ location)

def decodeFields (location : String) (decoded : List (String × Json)) :
    Except String PartialCallRecord := do
  let names := decoded.map Prod.fst
  raiseIf (¬ (names ⊆ frameFields ∧ frameFields ⊆ names))
    ("partial frame does not match the current schema at " ++ location ++ ": missing=" ++
      sortedNames (frameFields.filter (· ∉ names)) ++ ", unexpected=" ++
      sortedNames (names.filter (· ∉ frameFields)))
  let schema := (decoded.lookup "schema").getD .null
  raiseIf (schema ≠ .str partialFrameSchema)
    ("partial frame schema must be '" ++ partialFrameSchema ++ "' at " ++ location ++ ", got " ++
      TextFormats.repr schema)
  checkedRecord location ((decoded.lookup "checksum").getD .null)
    ((decoded.lookup "record").getD .null)

def decodeFrame (raw : Bytes) (path : String) (lineNumber : Nat) :
    Except String PartialCallRecord :=
  let location := path ++ ":" ++ toString lineNumber
  match TextFormats.decodeStrict raw with
  | none => .error ("invalid partial JSON at " ++ location)
  | some (.obj decoded) => decodeFields location decoded
  | some _ => .error ("partial frame must be an object at " ++ location)

/-! ### What is written can be read back -/

/- The record with the fields of its objects in their sorted order. -/
def RecordFields.canonical (fields : RecordFields) : RecordFields :=
  { fields with
    observationPayload := fields.observationPayload.sortKeys
    providerError := fields.providerError.map fun pairs => sortPairs (Json.sortKeysFields pairs) }

def PartialCallRecord.canonical (record : PartialCallRecord) : PartialCallRecord :=
  ⟨record.toRecordFields.canonical, record.valid⟩

theorem create_valid (record : PartialCallRecord) :
    create record.toRecordFields = .ok record := by
  unfold create
  split
  · rfl
  · rename_i message hinvalid
    rw [record.valid] at hinvalid
    cases hinvalid

omit [TextFormats] in
theorem optional_nullable {α : Type} {read : String → Json → Except String α} {f : α → Json}
    {name : String} (hread : ∀ a, read name (f a) = .ok a) (hnull : ∀ a, f a ≠ .null)
    (value : Option α) : optional read name (Json.nullable f value) = .ok value := by
  cases value with
  | none => rfl
  | some a =>
    have hcase : optional read name (f a) = (read name (f a)).map some := by
      cases hform : f a with
      | null => exact absurd hform (hnull a)
      | _ => rfl
    rw [Json.nullable, hcase, hread]
    rfl

omit [TextFormats] in
theorem persistedFields_asDict (fields : RecordFields) :
    fields.asDict.map Prod.fst = persistedFields := rfl

theorem modelValidate_asDict (record : PartialCallRecord) :
    modelValidate record.asDict = .ok record := by
  have htext : ∀ name value, optional readText name (Json.nullable .str value) = .ok value :=
    fun name => optional_nullable (fun _ => rfl) (by simp)
  have hint : ∀ name value, optional readInt name (Json.nullable .int value) = .ok value :=
    fun name => optional_nullable (fun _ => rfl) (by simp)
  have hobject : ∀ name value, optional readObject name (Json.nullable .obj value) = .ok value :=
    fun name => optional_nullable (fun _ => rfl) (by simp)
  have hfloat : ∀ name value, optional readFloat name (Json.nullable .float value) = .ok value := by
    intro name
    exact optional_nullable (fun a => by rw [readFloat, TextFormats.laxFloat_float]) (by simp)
  have hcreate : create { record.toRecordFields with } = .ok record := create_valid record
  simp only [modelValidate, RecordFields.asDict, List.lookup_cons, String.reduceBEq,
    beq_self_eq_true, Option.getD_some, htext, hint, hobject, hfloat, readText, readInt, readBool,
    ok_bind]
  exact hcreate

theorem modelValidate_congr {data other : List (String × Json)}
    (h : ∀ name, data.lookup name = other.lookup name) :
    modelValidate data = modelValidate other := by
  simp only [modelValidate, h]

omit [TextFormats] in
theorem sortKeys_nullable {α : Type} {f : α → Json} (h : ∀ a, (f a).sortKeys = f a)
    (value : Option α) : (Json.nullable f value).sortKeys = Json.nullable f value := by
  cases value with
  | none => rfl
  | some a => exact h a

omit [TextFormats] in
theorem sortKeysFields_asDict (fields : RecordFields) :
    Json.sortKeysFields fields.asDict = fields.canonical.asDict := by
  have hobject : ∀ value : Option (List (String × Json)), (Json.nullable .obj value).sortKeys =
      Json.nullable .obj (value.map fun pairs => sortPairs (Json.sortKeysFields pairs)) := by
    intro value
    cases value <;> rfl
  simp only [RecordFields.asDict, RecordFields.canonical, Json.sortKeysFields, Json.sortKeys,
    hobject, sortKeys_nullable (f := Json.str) fun _ => rfl,
    sortKeys_nullable (f := Json.int) fun _ => rfl, sortKeys_nullable (f := Json.float) fun _ => rfl]

/-- A record is read from its own fields in any order. -/
theorem fromDict_perm (record : PartialCallRecord) {data : List (String × Json)}
    (h : data.Perm record.asDict) : fromDict data = .ok record := by
  have hnames : (data.map Prod.fst).Perm persistedFields := h.map Prod.fst
  have hnodup : (data.map Prod.fst).Nodup := hnames.nodup_iff.mpr (by decide)
  have hlookup : ∀ name, data.lookup name = record.asDict.lookup name := lookup_perm h hnodup
  have hschema : (data.lookup "schema").getD .null = .str partialSchema := by
    rw [hlookup]
    rfl
  rw [fromDict, raiseIf_neg _ _ (not_not.mpr ⟨hnames.subset, hnames.symm.subset⟩), ok_bind]
  simp only [hschema, ne_eq, not_true_eq_false, raiseIf, if_false, ok_bind]
  rw [modelValidate_congr hlookup, modelValidate_asDict]

theorem canonicalJsonBytes_sortKeys (value : Json) :
    canonicalJsonBytes value.sortKeys = canonicalJsonBytes value := by
  rw [canonicalJsonBytes, canonicalJsonBytes, Json.sortKeys_sortKeys]

theorem entryName_canonical (record : PartialCallRecord) :
    entryName record.canonical = entryName record := rfl

/-- A frame that was encoded decodes to its record. -/
theorem decodeFrame_encodeFrame {record : PartialCallRecord} {body : Bytes}
    (h : encodeFrame record = .ok body) (path : String) (lineNumber : Nat) :
    decodeFrame body path lineNumber = .ok record.canonical := by
  simp only [encodeFrame, bind_eq_ok, pure, Except.pure, Except.ok.injEq] at h
  obtain ⟨recordText,hrecord,text,htext,rfl⟩ := h
  have hdecoded := TextFormats.decode_dumps _ _ htext
  rw [Json.sortKeys] at hdecoded
  have hperm : (sortPairs (Json.sortKeysFields (frameOf (hexdigest recordText)
      (.obj record.asDict)))).Perm _ := sortPairs_perm _
  have hnames := hperm.map Prod.fst
  rw [Json.names_sortKeysFields] at hnames
  have hnodup : ((frameOf (hexdigest recordText) (.obj record.asDict)).map
      Prod.fst).Nodup := by
    simp [frameOf]
  have hlookup := fun key => Json.lookup_sorted key hnodup
  have hbody : canonicalJsonBytes (.obj (sortPairs (Json.sortKeysFields record.asDict))) =
      .ok recordText := (canonicalJsonBytes_sortKeys (.obj record.asDict)).trans hrecord
  have hread : fromDict (sortPairs (Json.sortKeysFields record.asDict)) = .ok record.canonical := by
    refine fromDict_perm record.canonical ((sortPairs_perm _).trans ?_)
    rw [sortKeysFields_asDict]
    exact List.Perm.refl _
  have hframe : ∀ names : List String, names.Perm frameFields →
      ¬¬(names ⊆ frameFields ∧ frameFields ⊆ names) :=
    fun names h => not_not.mpr ⟨h.subset, h.symm.subset⟩
  simp only [decodeFrame, hdecoded, decodeFields]
  rw [raiseIf_neg _ _ (hframe _ hnames), ok_bind, hlookup, hlookup, hlookup]
  simp only [frameOf, List.lookup_cons, String.reduceBEq, beq_self_eq_true, Option.map_some,
    Option.getD_some, Json.sortKeys, ne_eq, not_true_eq_false, raiseIf, if_false, ok_bind,
    checkedRecord, hbody, hread]

theorem entryName_shape {record : PartialCallRecord} {name : String}
    (h : entryName record = .ok name) :
    ∃ bytes, name = hexdigest bytes ++ ".json" := by
  simp only [entryName, bind_eq_ok, pure, Except.pure, Except.ok.injEq] at h
  obtain ⟨bytes,_,rfl⟩ := h
  exact ⟨bytes, rfl⟩

theorem encodeFrame_complete {record : PartialCallRecord} {body : Bytes}
    (h : encodeFrame record = .ok body) : body.getLast? = some 0x0A := by
  simp only [encodeFrame, bind_eq_ok, pure, Except.pure, Except.ok.injEq] at h
  obtain ⟨_,_,text,_,rfl⟩ := h
  simp

end Records
end Whetstone.Execution.Partials
