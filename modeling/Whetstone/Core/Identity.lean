import Whetstone.Core.Json
import Whetstone.Lib.Raise

/-! Identity records shared by every subsystem. Hashes are the strings the source
carries; the functions that compute them belong to the modules that name a payload. -/
namespace Whetstone.Core
open Whetstone.Lib

def isFullHash (value : String) : Bool :=
  value.length = 64 ∧ value.toList.all fun c => c.isDigit || ('a' ≤ c && c ≤ 'f')

def requireFullHash (value field : String) : Except String Unit :=
  raiseIf (isFullHash value = false)
    (field ++ " must be a full 64-char lowercase SHA-256 hash, got '" ++ value ++ "'")

structure TypedRef where
  schemaName : String
  contentHash : String
deriving DecidableEq, Inhabited

structure TerminalFailure where
  code : String
  message : String
  details : Json
deriving DecidableEq, Inhabited

inductive ReplayPolicy where
  | idempotent
  | noRedrive
  | durableWorkflow
deriving DecidableEq, Inhabited

inductive TerminalOutcome where
  | succeeded
  | failed
  | recoveryRequired
deriving DecidableEq, Inhabited

structure EffectRequest where
  semanticKey : String
  requestHash : String
  replayPolicy : ReplayPolicy
deriving DecidableEq, Inhabited

structure EffectTerminal where
  request : EffectRequest
  outcome : TerminalOutcome
  ownerId : String
  attemptId : String
  fence : Nat
  resultRef : Option TypedRef
  failure : Option TerminalFailure
deriving DecidableEq, Inhabited

/-- The identity hash of a payload under a schema and its version. No property is assumed. -/
class IdentityHasher where
  computeIdentityHash : (schema : String) → (schemaVersion : Nat) → (payload : Json) → String

end Whetstone.Core
