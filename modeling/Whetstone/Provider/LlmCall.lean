import Whetstone.Eval.Plan
import Whetstone.Lib.Sha256

/-! The provider seed of an evaluation row. -/
namespace Whetstone.Provider
open Whetstone.Lib Whetstone.Eval

def encode (text : String) : List Nat := text.toUTF8.toList.map UInt8.toNat

/- `parts` are the identity parts as text. -/
def deriveRngSeed (parts : List String) : Int :=
  let digest := Sha256.sha256 (encode ("|".intercalate parts))
  (Sha256.bigEndian (digest.take 8) % 2147483648 : Nat)

def resolveEvalRngSeed (candidateId taskId taskHash : String) (seedIndex : Nat)
    (seedPlan : SeedPlan) : Int :=
  match (Dict.ofPairs seedPlan.rngSeeds).get? (keyed taskHash seedIndex) with
  | some rngSeed => rngSeed
  | none => deriveRngSeed [candidateId, taskId, toString seedIndex]

end Whetstone.Provider
