import Whetstone.Lib.Raise
import Whetstone.Provider.CallExecution

/-! The retry loop of one logical provider call. Delays and clock readings are left out; the
transport answers each attempt by its number. -/
namespace Whetstone.Provider
open Whetstone.Core Whetstone.Lib

structure ProviderInvocationEvidence (F : Type) where
  requestHash : String
  policyIdentity : String
  outcome : ProviderTransportOutcome F

def defaultRetryEligibility : SemanticFailureClass → Bool
  | .transportError => true
  | .rateLimit => true
  | .timeout => true
  | .providerRejection => false
  | .blankProviderGeneration => false
  | .malformedResponse => false

structure ProviderExecutionPolicy where
  transportPolicy : String
  maxAttempts : Nat
  retryEligibility : SemanticFailureClass → Bool
  positive : 1 ≤ maxAttempts

def ProviderExecutionPolicy.isRetryable (policy : ProviderExecutionPolicy)
    (failureClass : SemanticFailureClass) : Bool := policy.retryEligibility failureClass

variable {F : Type}

/- The attempts that are left, from the one with this number on. -/
def runAttempts (policy : ProviderExecutionPolicy) (requestHash : String)
    (transport : Nat → ProviderInvocationEvidence F) :
    Nat → Nat → List (ProviderTransportOutcome F) → Except String (ProviderCallResult F)
  | 0, _, _ => .error "list index out of range"
  | left + 1, attemptNumber, earlier => do
    let evidence := transport attemptNumber
    raiseIf (evidence.requestHash ≠ requestHash)
      "transport evidence request identity does not match the invoked request"
    raiseIf (evidence.policyIdentity ≠ policy.transportPolicy)
      "transport evidence policy identity does not match the invoked transport policy"
    match classifyOutcome evidence.outcome with
    | .ok _ => return ⟨earlier, evidence.outcome⟩
    | .error failure =>
      if policy.isRetryable failure.failureClass = true ∧ left ≠ 0 then
        runAttempts policy requestHash transport left (attemptNumber + 1)
          (earlier ++ [evidence.outcome])
      else return ⟨earlier, evidence.outcome⟩

def runProviderCall (policy : ProviderExecutionPolicy) (requestHash logicalCallId : String)
    (transport : Nat → ProviderInvocationEvidence F) : Except String (ProviderCallResult F) := do
  raiseIf (logicalCallId = "") "logical_call_id must be non-empty"
  runAttempts policy requestHash transport policy.maxAttempts 1 []

/-- The outcomes of the attempts that were made, each but the last a failure to retry. -/
structure Retried (policy : ProviderExecutionPolicy)
    (transport : Nat → ProviderInvocationEvidence F) (number : Nat)
    (outcomes : List (ProviderTransportOutcome F)) : Prop where
  answers : outcomes = (List.range (number - 1)).map fun i => (transport (i + 1)).outcome
  retryable : ∀ outcome ∈ outcomes, ∃ failure, classifyOutcome outcome = .error failure ∧
    policy.isRetryable failure.failureClass = true

theorem Retried.step {policy : ProviderExecutionPolicy}
    {transport : Nat → ProviderInvocationEvidence F} {number : Nat}
    {earlier : List (ProviderTransportOutcome F)} (h : Retried policy transport number earlier)
    (hnumber : 1 ≤ number) {failure : ProviderSemanticFailure F}
    (hfailure : classifyOutcome (transport number).outcome = .error failure)
    (hretry : policy.isRetryable failure.failureClass = true) :
    Retried policy transport (number + 1) (earlier ++ [(transport number).outcome]) := by
  obtain ⟨n,rfl⟩ : ∃ n, number = n + 1 := ⟨number - 1, by omega⟩
  constructor
  · rw [h.answers, Nat.add_sub_cancel, Nat.add_sub_cancel, List.range_succ, List.map_append]
    rfl
  · intro outcome hmem
    rcases List.mem_append.mp hmem with hold | hnew
    · exact h.retryable outcome hold
    · rw [List.mem_singleton.mp hnew]
      exact ⟨failure, hfailure, hretry⟩

theorem runAttempts_retried {policy : ProviderExecutionPolicy} {requestHash : String}
    {transport : Nat → ProviderInvocationEvidence F} {left number : Nat}
    {earlier : List (ProviderTransportOutcome F)} {result : ProviderCallResult F}
    (hnumber : 1 ≤ number) (hearlier : Retried policy transport number earlier)
    (h : runAttempts policy requestHash transport left number earlier = .ok result) :
    ∃ last, number ≤ last ∧ last < number + left ∧ Retried policy transport last result.earlier ∧
      result.last = (transport last).outcome := by
  induction left generalizing number earlier with
  | zero => cases h
  | succ left ih =>
    simp only [runAttempts, raiseIf_bind_eq_ok] at h
    obtain ⟨_,_,h⟩ := h
    cases hclass : classifyOutcome (transport number).outcome with
    | ok response =>
      rw [hclass] at h
      cases h
      exact ⟨number, le_rfl, by omega, hearlier, rfl⟩
    | error failure =>
      simp only [hclass] at h
      split at h
      · rename_i hretry
        obtain ⟨last,hle,hlt,hlast⟩ := ih (by omega) (hearlier.step hnumber hclass hretry.1) h
        exact ⟨last, by omega, by omega, hlast⟩
      · cases h
        exact ⟨number, le_rfl, by omega, hearlier, rfl⟩

/-- A call makes at most the attempts of its policy, and retries only failures that the policy
retries. -/
theorem runProviderCall_retried {policy : ProviderExecutionPolicy} {requestHash callId : String}
    {transport : Nat → ProviderInvocationEvidence F} {result : ProviderCallResult F}
    (h : runProviderCall policy requestHash callId transport = .ok result) :
    ∃ last, 1 ≤ last ∧ last ≤ policy.maxAttempts ∧ Retried policy transport last result.earlier ∧
      result.last = (transport last).outcome := by
  rw [runProviderCall, raiseIf_bind_eq_ok] at h
  obtain ⟨last,hle,hlt,hlast⟩ := runAttempts_retried le_rfl
    ⟨rfl, fun outcome hmem => (by cases hmem)⟩ h.2
  exact ⟨last, hle, by omega, hlast⟩

end Whetstone.Provider
