import Whetstone.Execution.PartialRecords
import Whetstone.Lib.CrashSafe
import Whetstone.Lib.Dict
import Mathlib.Data.Prod.Lex
import Mathlib.Logic.Function.Basic

/-! The record directory of a partial log and the programs that work on it. Every operation is one
step of the file system, after which the process may be gone; the reads of a whole file are one
step, since no other process writes under the lock. Only the steps of a publication fail without
a cause in the directory. -/
namespace Whetstone.Execution.Partials
open Whetstone.Core Whetstone.Lib

/-! ### The directory -/

/- `owned` tells whether the file belongs to the user of the process; `version` stands for the
   times of its last change. -/
structure Inode where
  body : Bytes
  version : Nat
  regular : Bool
  owned : Bool
  links : Nat
  mode : Nat

structure FileStatus where
  inode : Nat
  regular : Bool
  owned : Bool
  links : Nat
  mode : Nat
  size : Nat
  version : Nat

/- `created` tells whether the directory is there. -/
structure Directory where
  created : Bool
  entries : Dict String Nat
  inodes : Nat → Inode
  fresh : Nat

inductive OsError where
  | fileNotFound
  | fileExists
  | other (message : String)

inductive FileOp where
  | openDirectory (create : Bool)
  | listNames
  | tokenHex
  | now
  | create (name : String)
  | openRead (name : String)
  | readAll (fd : Nat)
  | write (fd : Nat) (remaining : Bytes)
  | fsyncFile (fd : Nat)
  | fstat (fd : Nat)
  | close (fd : Nat)
  | stat (name : String)
  | pathStat (name : String)
  | replace (source target : String)
  | unlink (name : String)
  | fsyncDirectory

abbrev Payload : FileOp → Type
  | .listNames => List String
  | .tokenHex | .now => String
  | .create _ | .openRead _ | .write .. => Nat
  | .readAll _ => Bytes
  | .fstat _ | .stat _ | .pathStat _ => FileStatus
  | _ => Unit

/- Whether an operation belongs to a publication. -/
inductive Site where
  | publication
  | elsewhere

abbrev Op := Site × FileOp
abbrev Res (op : Op) := Except OsError (Payload op.2)

/- Sixteen random bytes in hexadecimal. -/
structure HexToken where
  text : String
  hex : text.toList.length = 32 ∧ ∀ c ∈ text.toList, Sha256.isLowerHex c = true

/- What the environment decides of an operation: whether the process is gone after it, with or
   without its effect, the error it raises and whether that leaves its effect, how many bytes are
   written, the random token and the time. -/
structure Answer where
  crash : Option Bool
  failure : Option OsError
  lasting : Bool
  count : Nat
  token : HexToken
  time : String

namespace Directory

variable (s : Directory)

def status (fd : Nat) : FileStatus where
  inode := fd
  regular := (s.inodes fd).regular
  owned := (s.inodes fd).owned
  links := (s.inodes fd).links
  mode := (s.inodes fd).mode
  size := (s.inodes fd).body.length
  version := (s.inodes fd).version

def find (name : String) : Except OsError Nat :=
  match s.entries.get? name with
  | none => .error .fileNotFound
  | some fd => .ok fd

def change (fd : Nat) (f : Inode → Inode) : Directory :=
  { s with inodes := Function.update s.inodes fd (f (s.inodes fd)) }

def createFile (name : String) : Directory :=
  { s with
    entries := s.entries.set name s.fresh
    inodes := Function.update s.inodes s.fresh ⟨[], 0, true, true, 1, 0o600⟩
    fresh := s.fresh + 1 }

def writeBytes (fd : Nat) (bytes : Bytes) : Directory :=
  s.change fd fun inode =>
    { inode with body := inode.body ++ bytes, version := inode.version + 1 }

def rename (source target : String) (fd : Nat) : Directory :=
  { s.change fd fun inode => { inode with version := inode.version + 1 } with
    entries := (s.entries.erase source).set target fd }

/- The operation, where nothing stands against it. -/
def perform : (o : FileOp) → Answer → Except OsError (Payload o) × Directory
  | .openDirectory create, _ =>
    if s.created then (.ok (), s)
    else if create then (.ok (), { s with created := true })
    else (.error .fileNotFound, s)
  | .listNames, _ => (.ok s.entries.keys, s)
  | .tokenHex, answer => (.ok answer.token.text, s)
  | .now, answer => (.ok answer.time, s)
  | .create name, _ =>
    if (s.entries.get? name).isSome then (.error .fileExists, s)
    else (.ok s.fresh, s.createFile name)
  | .openRead name, _ =>
    match s.find name with
    | .error error => (.error error, s)
    | .ok fd =>
      if (s.inodes fd).regular then (.ok fd, s)
      else (.error (.other "managed path must be a regular file"), s)
  | .readAll fd, _ => (.ok (s.inodes fd).body, s)
  | .write fd remaining, answer =>
    (.ok (remaining.take answer.count).length, s.writeBytes fd (remaining.take answer.count))
  | .fsyncFile _, _ => (.ok (), s)
  | .fstat fd, _ => (.ok (s.status fd), s)
  | .close _, _ => (.ok (), s)
  | .stat name, _ => ((s.find name).map s.status, s)
  | .pathStat name, _ => ((s.find name).map s.status, s)
  | .replace source target, _ =>
    match s.find source with
    | .error error => (.error error, s)
    | .ok fd => (.ok (), s.rename source target fd)
  | .unlink name, _ =>
    match s.find name with
    | .error error => (.error error, s)
    | .ok _ => (.ok (), { s with entries := s.entries.erase name })
  | .fsyncDirectory, _ => (.ok (), s)

/- What a failure leaves of an operation: a file that was created, or bytes that were written. -/
def failed (o : FileOp) (answer : Answer) : Directory :=
  match o with
  | .create _ | .write .. => if answer.lasting then (s.perform o answer).2 else s
  | _ => s

/- The failure of an operation, which only a publication meets. -/
def injected (site : Site) (answer : Answer) : Option OsError :=
  match site with
  | .publication => answer.failure
  | .elsewhere => none

end Directory

def exec (op : Op) (answer : Answer) (s : Directory) : Option (Res op) × Directory :=
  match answer.crash with
  | some effect => (none, if effect then (s.perform op.2 answer).2 else s)
  | none =>
    match Directory.injected op.1 answer with
    | some error => (some (.error error), s.failed op.2 answer)
    | none => (some (s.perform op.2 answer).1, (s.perform op.2 answer).2)

/-! ### Names -/

def matchesHex (count : Nat) (rest name : List Char) : Bool :=
  (name.take count).length = count ∧ (name.take count).all Sha256.isLowerHex ∧
    name.drop count = rest

/- `[0-9a-f]{64}\.json` -/
def isEntryName (name : String) : Bool := matchesHex 64 ".json".toList name.toList

/- `\.[0-9a-f]{64}\.[0-9a-f]{32}\.tmp` -/
def isTemporaryName (name : String) : Bool :=
  match name.toList with
  | '.' :: rest =>
    matchesHex 64 (rest.drop 64) rest && match rest.drop 64 with
      | '.' :: token => matchesHex 32 ".tmp".toList token
      | _ => false
  | _ => false

/- `Path.stem`: the name up to its last dot, unless that is its first or last character. -/
def pathStem (name : String) : String :=
  let suffix := name.toList.reverse.takeWhile (· ≠ '.')
  let stem := (name.toList.reverse.drop (suffix.length + 1)).reverse
  if suffix = [] ∨ stem = [] then name else String.ofList stem

def temporaryName (targetName token : String) : String :=
  "." ++ pathStem targetName ++ "." ++ token ++ ".tmp"

/-! ### Programs -/

inductive Failure where
  | os (error : OsError)
  | value (message : String)
  | rollback (message : String)

abbrev Run (α : Type) := Prog Op Res Failure α

namespace Run

def reply {α : Type} : Except OsError α → Run α
  | .ok a => .done a
  | .error error => .raise (.os error)

def call (site : Site) (o : FileOp) : Run (Payload o) := Prog.call (site, o) reply

def check (bad : Prop) [Decidable bad] (failure : Failure) : Run Unit :=
  if bad then .raise failure else .done ()

def ofValue {α : Type} : Except String α → Run α
  | .ok a => .done a
  | .error message => .raise (.value message)

def osError (message : String) : Failure := .os (.other message)

/- `try: … except error: return None`, for the errors of the system it names. -/
def orNone {α : Type} (p : Run α) (caught : OsError → Bool) : Run (Option α) :=
  (p.bind fun a => .done (some a)).handle fun failure => match failure with
    | .os error => if caught error then .done none else .raise failure
    | _ => .raise failure

end Run

def OsError.isNotFound : OsError → Bool
  | .fileNotFound => true
  | _ => false

def OsError.isExists : OsError → Bool
  | .fileExists => true
  | _ => false

def sameFileSnapshot (left right : FileStatus) : Prop :=
  left.inode = right.inode ∧ left.regular = right.regular ∧ left.mode = right.mode ∧
    left.owned = right.owned ∧ left.size = right.size ∧ left.version = right.version

instance (left right : FileStatus) : Decidable (sameFileSnapshot left right) :=
  inferInstanceAs (Decidable (_ ∧ _))

section Programs

variable [TextFormats]

structure PartialLog where
  path : String

variable (log : PartialLog)

def PartialLog.pathOf (name : String) : String := log.path ++ "/" ++ name

def readEntry (site : Site) (fd : Nat) (name : String) :
    Run (PartialCallRecord × Bytes × FileStatus) := do
  let path := log.pathOf name
  let before ← Run.call site (.fstat fd)
  let raw ← Run.call site (.readAll fd)
  let after ← Run.call site (.fstat fd)
  Run.check (¬ sameFileSnapshot before after)
    (Run.osError ("partial record changed while reading: " ++ path))
  let visible ← Run.call site (.stat name)
  Run.check (¬ sameFileSnapshot after visible)
    (Run.osError ("partial record path changed while reading: " ++ path))
  Run.check (raw.getLast? ≠ some 0x0A) (.value ("partial record is not complete: " ++ path))
  let record ← Run.ofValue (decodeFrame raw path 1)
  let expected ← Run.ofValue (entryName record)
  Run.check (name ≠ expected)
    (.value ("partial record filename does not match its key: " ++ path))
  return (record, raw, after)

def openedEntry (site : Site) (fd : Nat) (name : String) :
    Run (PartialCallRecord × Bytes × FileStatus) :=
  (readEntry log site fd name).ensure (Run.call site (.close fd))

structure PriorEntry where
  record : PartialCallRecord
  body : Bytes

def validateExistingKey (name : String) (expected : PartialCallRecord) :
    Run (Option PriorEntry) := do
  let opened ← Run.orNone (Run.call .elsewhere (.openRead name)) OsError.isNotFound
  match opened with
  | none => return none
  | some fd =>
    let (record, body, _) ← openedEntry log .elsewhere fd name
    Run.check (record.key ≠ expected.key)
      (.value ("partial record key does not match target: " ++ log.pathOf name))
    return some ⟨record, body⟩

def createTemporary (site : Site) (targetName : String) : Nat → Run (String × Nat)
  | 0 => .raise (.os .fileExists)
  | left + 1 => do
    let token ← Run.call site .tokenHex
    let temporary := temporaryName targetName token
    let created ← Run.orNone (Run.call site (.create temporary)) OsError.isExists
    match created with
    | none => createTemporary site targetName left
    | some fd => return (temporary, fd)

def validateCleanupCandidate (site : Site) (name : String) (requirePrivateMode : Bool) :
    Run FileStatus := do
  let before ← Run.call site (.stat name)
  Run.check (before.regular = false ∨ before.owned = false ∨ before.links ≠ 1 ∨
      (requirePrivateMode = true ∧ before.mode ≠ 0o600))
    (Run.osError ("unsafe managed partial entry: " ++ log.pathOf name))
  return before

/- The checks of `_verified_unlink`. -/
def verifyUnchanged (site : Site) (name : String) (requirePrivateMode : Bool) : Run Unit := do
  let changed := Run.osError ("managed partial entry changed before cleanup: " ++ log.pathOf name)
  let before ← validateCleanupCandidate log site name requirePrivateMode
  let fd ← Run.call site (.openRead name)
  let opened ← (Run.call site (.fstat fd)).ensure (Run.call site (.close fd))
  Run.check (opened.inode ≠ before.inode) changed
  let current ← Run.call site (.stat name)
  Run.check (¬ sameFileSnapshot opened current) changed

def verifiedUnlink (site : Site) (name : String) (requirePrivateMode : Bool) : Run Unit := do
  verifyUnchanged log site name requirePrivateMode
  Run.call site (.unlink name)

def validatePublishedEntry (site : Site) (name : String) (record : PartialCallRecord)
    (body : Bytes) (publishedStatus : FileStatus) : Run Unit := do
  let path := log.pathOf name
  let fd ← Run.call site (.openRead name)
  let (visibleRecord, visibleBody, visibleStatus) ← openedEntry log site fd name
  Run.check (visibleRecord.key ≠ record.key ∨ visibleBody ≠ body ∨
      visibleStatus.inode ≠ publishedStatus.inode)
    (Run.osError ("published partial record changed: " ++ path))
  let pathStatus ← Run.call site (.stat name)
  Run.check (¬ sameFileSnapshot visibleStatus pathStatus)
    (Run.osError ("published partial record path changed: " ++ path))
  let diagnosticStatus ← (Run.call site (.pathStat name)).handle fun failure => match failure with
    | .os _ => .raise (Run.osError ("published partial record is not visible by path: " ++ path))
    | _ => .raise failure
  Run.check (¬ sameFileSnapshot visibleStatus diagnosticStatus)
    (Run.osError ("published partial record path changed: " ++ path))

def entryExists (site : Site) (name : String) : Run Bool := do
  let found ← Run.orNone (Run.call site (.stat name)) OsError.isNotFound
  return found.isSome

/- The bytes that are left bound the writes that make progress. -/
def writeAll (site : Site) (fd : Nat) : Nat → Bytes → Run Unit
  | _, [] => return ()
  | 0, _ :: _ => .raise (Run.osError "partial frame write made no progress")
  | left + 1, remaining => do
    let written ← Run.call site (.write fd remaining)
    Run.check (written = 0) (Run.osError "partial frame write made no progress")
    writeAll site fd left (remaining.drop written)

/- Write a temporary file, and its status before it is closed. -/
def writeTemporary (site : Site) (fd : Nat) (body : Bytes) : Run FileStatus :=
  Prog.ensure (do
      writeAll site fd body.length body
      Run.call site (.fsyncFile fd)
      Run.call site (.fstat fd))
    (Run.call site (.close fd))

def removeTemporary (site : Site) (temporary : String) : Run Unit := do
  let present ← entryExists site temporary
  if present then verifiedUnlink log site temporary true

def restorePrior (site : Site) (name : String) : Option PriorEntry → Run Unit
  | none => do
    verifiedUnlink log site name false
    Run.call site .fsyncDirectory
  | some prior => do
    let (temporary, fd) ← createTemporary site name 4
    Prog.ensure (do
        let restoredStatus ← writeTemporary site fd prior.body
        Run.call site (.replace temporary name)
        Run.call site .fsyncDirectory
        validatePublishedEntry log site name prior.record prior.body restoredStatus)
      (removeTemporary log site temporary)

/- Once the entry is replaced, a failure restores the prior one; before, it removes the temporary
   file. -/
def publishEntry (site : Site) (name : String) (record : PartialCallRecord) (body : Bytes)
    (prior : Option PriorEntry) : Run Unit := do
  let (temporary, fd) ← createTemporary site name 4
  let publishedStatus ← Prog.handle (do
      let status ← writeTemporary site fd body
      Run.call site (.replace temporary name)
      return status)
    fun failure => (removeTemporary log site temporary).bind fun _ => .raise failure
  Prog.handle (do
      Run.call site .fsyncDirectory
      validatePublishedEntry log site name record body publishedStatus)
    fun failure =>
      ((restorePrior log site name prior).handle fun _ =>
        .raise (.rollback ("partial publication rollback failed: " ++ log.pathOf name))).bind
          fun _ => .raise failure

def openRecordDirectory (create : Bool) : Run Unit :=
  (Run.call .elsewhere (.openDirectory create)).handle fun failure => match failure with
    | .os .fileNotFound => .raise failure
    | .os _ => .raise (.value "partial storage must be a current per-key record directory")
    | _ => .raise failure

/- The copy with a time is not validated; its time is, the one check that it could fail. -/
def stamped (validated : PartialCallRecord) : Run PartialCallRecord :=
  match validated.recordedAt with
  | some _ => return validated
  | none => do
    let time ← Run.call .elsewhere .now
    Run.ofValue (create { validated.toRecordFields with recordedAt := some time })

def PartialLog.append (record : PartialCallRecord) : Run Unit := do
  let validated ← Run.ofValue (fromDict record.asDict)
  let stamped ← stamped validated
  let body ← Run.ofValue (encodeFrame stamped)
  openRecordDirectory true
  let name ← Run.ofValue (entryName stamped)
  let prior ← validateExistingKey log name stamped
  publishEntry log .publication name stamped body prior

def unexpectedEntry (name : String) : Failure :=
  .value ("unexpected partial storage entry: " ++ log.pathOf name)

def loadNames : List String → Run (List PartialCallRecord)
  | [] => return []
  | name :: rest =>
    if isTemporaryName name then loadNames rest
    else do
      Run.check (isEntryName name = false) (unexpectedEntry log name)
      let fd ← Run.call .elsewhere (.openRead name)
      let (record, _, _) ← openedEntry log .elsewhere fd name
      let later ← loadNames rest
      return record :: later

/- `records.sort(key=lambda record: (record.at or "", _entry_name(record)))` -/
def sortRecords (records : List PartialCallRecord) : Except String (List PartialCallRecord) := do
  let keyed ← records.mapM fun record => do
    return (toLex (record.recordedAt.getD "", ← entryName record), record)
  return (keyed.insertionSort fun a b => a.1 ≤ b.1).map Prod.snd

def PartialLog.load : Run (List PartialCallRecord) := do
  let opened ← Run.orNone (openRecordDirectory false) OsError.isNotFound
  match opened with
  | none => return []
  | some () =>
    let names ← Run.call .elsewhere .listNames
    let records ← loadNames log (names.insertionSort (· ≤ ·))
    Run.ofValue (sortRecords records)

def checkNames : List String → Run Unit
  | [] => return ()
  | name :: rest => do
    Run.check (isEntryName name = false ∧ isTemporaryName name = false) (unexpectedEntry log name)
    checkNames rest

def validateCandidates : List String → Run Unit
  | [] => return ()
  | name :: rest => do
    let _ ← validateCleanupCandidate log .elsewhere name (isTemporaryName name)
    validateCandidates rest

def unlinkNames : List String → Run Unit
  | [] => return ()
  | name :: rest => do
    verifiedUnlink log .elsewhere name (isTemporaryName name)
    unlinkNames rest

def PartialLog.delete : Run Unit := do
  let opened ← Run.orNone (openRecordDirectory false) OsError.isNotFound
  match opened with
  | none => return ()
  | some () =>
    let listed ← Run.call .elsewhere .listNames
    let names := listed.insertionSort (· ≤ ·)
    checkNames log names
    validateCandidates log names
    unlinkNames log names
    Run.call .elsewhere .fsyncDirectory

end Programs
end Whetstone.Execution.Partials
