import Whetstone.Core.Identity
import Whetstone.Provider.CallExecution

/-! The log of partial calls, a directory with one file for each key of a record. Times are left
out, and with them the order in which the records are loaded. -/
namespace Whetstone.Execution
open Whetstone.Core Whetstone.Lib Whetstone.Provider

structure PartialKey where
  phase : String
  taskId : String
  unit : String
  seedIndex : Nat
  requestHash : String
deriving DecidableEq

structure PartialCallRecord where
  key : PartialKey
  splitRole : String
  failed : Bool
  failureCode : String
  promptTokens : Option Int
  completionTokens : Option Int
  totalTokens : Option Int
  reasoningTokens : Option Int
  outputText : Option String
  finishReason : Option String
  providerError : Option (Dict String Json)
  cacheSource : Option CacheProvenance
deriving DecidableEq

def PartialCallRecord.validate (record : PartialCallRecord) : Except String Unit := do
  raiseIf (isFullHash record.key.requestHash = false)
    "request_hash must be a canonical 64-character lowercase hexadecimal digest"
  raiseIf (record.key.phase = "" ∨ record.key.taskId = "" ∨ record.key.unit = "")
    "partial identity fields must be non-empty"

/-- The file name of a record's key, a digest of which nothing is assumed. -/
class PartialNames where
  entryName : PartialKey → String

/- The files of a log by their names. -/
abbrev PartialLog := Dict String PartialCallRecord

section Log

variable [PartialNames]

/- The record replaces the one that its file holds, if that one has its key. -/
def PartialLog.append (log : PartialLog) (record : PartialCallRecord) :
    Except String PartialLog := do
  record.validate
  let name := PartialNames.entryName record.key
  raiseIf ((log.get? name).any (fun prior => decide (prior.key ≠ record.key)) = true)
    "partial record key does not match target"
  return log.set name record

def PartialLog.load (log : PartialLog) : List PartialCallRecord := log.values

theorem append_ok {log log' : PartialLog} {record : PartialCallRecord}
    (h : PartialLog.append log record = .ok log') :
    log' = log.set (PartialNames.entryName record.key) record := by
  unfold PartialLog.append at h
  obtain ⟨_,h⟩ := (check_bind_eq_ok _ _ _).mp h
  obtain ⟨_,h⟩ := (raiseIf_bind_eq_ok _ _ _ _).mp h
  cases h
  rfl

end Log

section Records

variable {F : Type}

def failureCodeOf (result : ProviderCallResult F) : String :=
  match result.terminal with
  | .ok _ => ""
  | .error failure =>
    match failure.cause with
    | .failure { code := some code, .. } => if code = "" then failure.failureClass.value else code
    | _ => failure.failureClass.value

/- The record of a call; a phase stands for an absent split role. -/
def partialCallRecord [AddCommMonoid F] (key : PartialKey) (splitRole : String)
    (execution : CallExecution F) : PartialCallRecord where
  key := key
  splitRole := if splitRole = "" then key.phase else splitRole
  failed := match execution.result.terminal with
    | .ok _ => false
    | .error _ => true
  failureCode := failureCodeOf execution.result
  promptTokens := execution.telemetry.promptTokens
  completionTokens := execution.telemetry.completionTokens
  totalTokens := execution.telemetry.totalTokens
  reasoningTokens := execution.telemetry.reasoningTokens
  outputText := match execution.result.terminal with
    | .ok response => some response.text
    | .error _ => none
  finishReason := execution.telemetry.finishReason
  providerError := execution.telemetry.providerError
  cacheSource := execution.provenance

end Records
end Whetstone.Execution
