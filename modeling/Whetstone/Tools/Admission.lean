import Whetstone.Tools.Contracts
import Whetstone.Lib.Raise
import Whetstone.Lib.Dict

/-! Tool Call Store entries, the decisions on an existing key, and the scope keys.
The memory and SQLite backends both decide through these functions. -/
namespace Whetstone.Tools
open Whetstone.Core Whetstone.Lib

variable [ToolIdentity]

inductive ToolCallState where
  | accepted
  | refused
  | completed
deriving DecidableEq, Inhabited

def ToolCallState.value : ToolCallState → String
  | .accepted => "accepted"
  | .refused => "refused"
  | .completed => "completed"

def toolEffectRequest (call : ToolCall) : EffectRequest where
  semanticKey := ToolIdentity.effectSemanticKey call.storeNamespaceKey call.callId
  requestHash := ToolIdentity.effectRequestHash call
  replayPolicy := if call.toolConfig.idempotentReplay then .idempotent else .noRedrive

structure EntryFields where
  toolCall : ToolCall
  toolConfig : ToolConfig
  storeNamespaceKey : String
  capacityScope : ToolCapacityScope
  capacityScopeId : String
  state : ToolCallState
  capacityDebitOrdinal : Option Nat
  refusal : Option ToolRefusal
  toolResultRef : Option TypedRef
  effectTerminal : Option EffectTerminal
deriving DecidableEq

namespace EntryFields

def validateCitation (e : EntryFields) : Except String Unit := do
  raiseIf (e.toolConfig ≠ e.toolCall.toolConfig)
    "Tool Call Store entry must cite the call's exact Tool Config"
  raiseIf (e.storeNamespaceKey ≠ e.toolCall.storeNamespaceKey)
    "Tool Call Store entry namespace must match the exact call"
  raiseIf (e.capacityScope ≠ e.toolCall.capacityScope)
    "Tool Call Store entry scope must match the exact call"
  raiseIf (e.capacityScopeId ≠ e.toolCall.capacityScopeId)
    "Tool Call Store entry scope ID must match the exact call"

def validateState (e : EntryFields) : Except String Unit :=
  match e.state with
  | .accepted => do
    raiseIf (e.capacityDebitOrdinal = none) "an accepted entry must record an ordinal"
    raiseIf (e.capacityDebitOrdinal = some 0) "capacity debit ordinals are one-based"
    raiseIf (e.refusal ≠ none ∨ e.toolResultRef ≠ none ∨ e.effectTerminal ≠ none)
      "an accepted entry has no refusal or terminal result"
  | .refused => do
    raiseIf (e.capacityDebitOrdinal ≠ none) "a refused entry consumes no capacity"
    raiseIf (e.refusal = none ∨ e.toolResultRef = none ∨ e.effectTerminal ≠ none)
      "a refused entry requires its exact refusal and result"
  | .completed => do
    raiseIf (e.capacityDebitOrdinal = none) "a completed entry retains its capacity ordinal"
    raiseIf (e.capacityDebitOrdinal = some 0) "capacity debit ordinals are one-based"
    raiseIf (e.refusal ≠ none ∨ e.toolResultRef = none ∨ e.effectTerminal = none)
      "a completed entry requires its exact effect terminal and result"

def validateTerminal (e : EntryFields) : Except String Unit := do
  match e.toolResultRef with
  | none => pure ()
  | some ref =>
    raiseIf (ref.schemaName ≠ toolResultSchema) "terminal entry must reference a Tool Result"
  match e.effectTerminal with
  | none => pure ()
  | some terminal =>
    raiseIf (terminal.request ≠ toolEffectRequest e.toolCall)
      "completed entry effect terminal belongs to another exact Tool request"
    raiseIf (terminal.outcome ≠ .succeeded ∧ terminal.outcome ≠ .failed)
      "recovery-required effects have no completed Tool Result"
    raiseIf (terminal.resultRef ≠ e.toolResultRef)
      "completed entry effect terminal references another exact Tool Result"

def validate (e : EntryFields) : Except String Unit := do
  e.validateCitation
  e.validateState
  e.validateTerminal

end EntryFields

structure ToolCallStoreEntry extends EntryFields where
  valid : toEntryFields.validate = .ok ()
deriving DecidableEq

inductive AdmissionError where
  | value (message : String)
  | runtime (message : String)
  | conflict (existing : ToolCallStoreEntry) (attemptedState : ToolCallState) (detail : String)

def AdmissionError.message : AdmissionError → String
  | .value message => message
  | .runtime message => message
  | .conflict existing attemptedState detail =>
    "Tool Call Store key (" ++ existing.storeNamespaceKey ++ ", " ++ existing.toolCall.callId ++
      ") is in state '" ++ existing.state.value ++ "'; refusing divergent transition to '" ++
      attemptedState.value ++ "': " ++ detail

def EntryFields.modelValidate (e : EntryFields) : Except AdmissionError ToolCallStoreEntry :=
  match h : e.validate with
  | .ok () => .ok ⟨e, h⟩
  | .error message => .error (.value message)

abbrev EntryKey := String × String
abbrev ScopeKey := String × String × String × String

namespace ToolCallStoreEntry

def toolConfigHash (e : ToolCallStoreEntry) : String := ToolIdentity.toolConfigHash e.toolConfig

def entryKey (e : ToolCallStoreEntry) : EntryKey := (e.storeNamespaceKey, e.toolCall.callId)

def scopeKey (e : ToolCallStoreEntry) : ScopeKey :=
  (e.storeNamespaceKey, e.toolConfigHash, e.toolCall.capacityBinding.scope.value,
    e.toolCall.capacityBinding.capacityScopeId)

end ToolCallStoreEntry

def replayOrConflict (existing attempted : ToolCallStoreEntry) :
    Except AdmissionError ToolCallStoreEntry :=
  if existing.toolCall ≠ attempted.toolCall then
    .error (.conflict existing attempted.state
      "the existing key cites a different exact Tool Call")
  else if attempted.state = .accepted then .ok existing
  else if existing = attempted then .ok existing
  else .error (.conflict existing attempted.state
    "the existing key has a different immutable decision")

def completeTransition (existing : Option ToolCallStoreEntry) (completed : ToolCallStoreEntry) :
    Except AdmissionError ToolCallStoreEntry :=
  match existing with
  | none => .error (.conflict completed .completed "the exact Tool Call was never admitted")
  | some existing =>
    if existing.toolCall ≠ completed.toolCall then
      .error (.conflict existing .completed
        "the terminal result belongs to a different Tool Call")
    else if existing.state = .completed then replayOrConflict existing completed
    else if existing.state ≠ .accepted then
      .error (.conflict existing .completed "a refused call cannot become completed")
    else if existing.capacityDebitOrdinal ≠ completed.capacityDebitOrdinal then
      .error (.conflict existing .completed
        "completion changed the accepted capacity ordinal")
    else .ok completed

def backendScopeId (capacityScope : ToolCapacityScope) (capacityScopeId : String) :
    Except AdmissionError String :=
  if capacityScope = .global ∧ capacityScopeId ≠ globalCapacityScopeId then
    .error (.value "GLOBAL Tool Capacity requires capacity_scope_id 'global'")
  else .ok capacityScopeId

/- One scope as the query arguments name it. -/
structure ScopeQuery where
  storeNamespaceKey : String
  toolConfigHash : String
  capacityScope : ToolCapacityScope
  capacityScopeId : String

def ScopeQuery.key (q : ScopeQuery) : Except AdmissionError ScopeKey := do
  let scopeId ← backendScopeId q.capacityScope q.capacityScopeId
  return (q.storeNamespaceKey, q.toolConfigHash, q.capacityScope.value, scopeId)

def inScope (scope : ScopeKey) (e : ToolCallStoreEntry) : Except AdmissionError Bool :=
  match e.capacityDebitOrdinal with
  | none => .ok false
  | some _ => do
    let scopeId ← backendScopeId e.toolCall.capacityBinding.scope
      e.toolCall.capacityBinding.capacityScopeId
    return decide ((e.storeNamespaceKey, e.toolConfigHash,
      e.toolCall.capacityBinding.scope.value, scopeId) = scope)

def entriesInScope (entries : List ToolCallStoreEntry) (q : ScopeQuery) :
    Except AdmissionError (List ToolCallStoreEntry) := do
  let scope ← q.key
  let selected ← selectM (inScope scope) entries
  return selected.mergeSort fun a b =>
    decide (a.capacityDebitOrdinal.getD 0 ≤ b.capacityDebitOrdinal.getD 0)

def acceptedWithOrdinal (accepted : ToolCallStoreEntry) (ordinal : Nat) :
    Except AdmissionError ToolCallStoreEntry :=
  ({ accepted.toEntryFields with capacityDebitOrdinal := some ordinal }).modelValidate

def validateAdmissionAttempt (accepted refused : ToolCallStoreEntry) (maxAcceptedCalls : Int) :
    Except AdmissionError Unit := do
  raiseIf (accepted.state ≠ .accepted)
    (.value "admission accepted candidate must be accepted")
  raiseIf (refused.state ≠ .refused) (.value "admission refused candidate must be refused")
  raiseIf (accepted.toolCall ≠ refused.toolCall)
    (.value "admission candidates must cite one exact Tool Call")
  raiseIf (refused.refusal.map ToolRefusal.refusalClass ≠ some .capacity)
    (.value "admission refusal must be a capacity refusal")
  raiseIf (maxAcceptedCalls < 0) (.value "max_accepted_calls must be non-negative")

/-! ### What validation and the decisions guarantee -/

namespace ToolCallStoreEntry

theorem validate_parts (e : ToolCallStoreEntry) :
    e.validateCitation = .ok () ∧ e.validateState = .ok () ∧ e.validateTerminal = .ok () := by
  have h := e.valid
  rw [EntryFields.validate, bind_eq_ok] at h
  obtain ⟨_,hc,h⟩ := h
  rw [bind_eq_ok] at h
  obtain ⟨_,hs,ht⟩ := h
  exact ⟨hc, hs, ht⟩

theorem citation (e : ToolCallStoreEntry) :
    e.toolConfig = e.toolCall.toolConfig ∧ e.storeNamespaceKey = e.toolCall.storeNamespaceKey ∧
      e.capacityScope = e.toolCall.capacityScope ∧
      e.capacityScopeId = e.toolCall.capacityScopeId := by
  have h := e.validate_parts.1
  simpa only [EntryFields.validateCitation, raiseIf_bind_eq_ok, raiseIf_eq_ok, not_not] using h

theorem ordinal_none_iff (e : ToolCallStoreEntry) :
    e.capacityDebitOrdinal = none ↔ e.state = .refused := by
  have h := e.validate_parts.2.1
  unfold EntryFields.validateState at h
  cases hs : e.state with
  | refused => simp_all
  | accepted => simp_all
  | completed => simp_all

theorem refusal_ne_none (e : ToolCallStoreEntry) (hstate : e.state = .refused) :
    e.refusal ≠ none := by
  have h := e.validate_parts.2.1
  unfold EntryFields.validateState at h
  simp_all

/-- An entry with a result is decided for good. -/
theorem state_of_result (e : ToolCallStoreEntry) (href : e.toolResultRef ≠ none) :
    e.state ≠ .accepted := by
  have h := e.validate_parts.2.1
  unfold EntryFields.validateState at h
  intro hstate
  simp_all

theorem terminal_request (e : ToolCallStoreEntry) (terminal : EffectTerminal)
    (hterminal : e.effectTerminal = some terminal) :
    terminal.request = toolEffectRequest e.toolCall := by
  have h := e.validate_parts.2.2
  unfold EntryFields.validateTerminal at h
  rw [hterminal] at h
  cases href : e.toolResultRef <;> simp_all

/-- Entries that cite one exact call share their scope. -/
theorem scopeKey_eq_of_toolCall (e e' : ToolCallStoreEntry) (h : e.toolCall = e'.toolCall) :
    e.scopeKey = e'.scopeKey := by
  simp only [scopeKey, toolConfigHash, e.citation.1, e'.citation.1, e.citation.2.1,
    e'.citation.2.1, h]

theorem entryKey_eq_of_toolCall (e e' : ToolCallStoreEntry) (h : e.toolCall = e'.toolCall) :
    e.entryKey = e'.entryKey := by
  simp only [entryKey, e.citation.2.1, e'.citation.2.1, h]

end ToolCallStoreEntry

theorem modelValidate_fields (f : EntryFields) (e : ToolCallStoreEntry)
    (h : f.modelValidate = .ok e) : e.toEntryFields = f := by
  unfold EntryFields.modelValidate at h
  split at h
  · cases h
    rfl
  · cases h

theorem modelValidate_ok (f : EntryFields) (hf : f.validate = .ok ()) :
    f.modelValidate = .ok ⟨f, hf⟩ := by
  unfold EntryFields.modelValidate
  split
  · rfl
  · rename_i message h
    rw [hf] at h
    cases h

/-- An accepted candidate takes any positive ordinal. -/
theorem acceptedWithOrdinal_ok (accepted : ToolCallStoreEntry) (ordinal : Nat)
    (hstate : accepted.state = .accepted) (hpos : 0 < ordinal) :
    ∃ e, acceptedWithOrdinal accepted ordinal = .ok e ∧
      e.toEntryFields = { accepted.toEntryFields with capacityDebitOrdinal := some ordinal } := by
  obtain ⟨hc,hs,ht⟩ := accepted.validate_parts
  have hv : ({ accepted.toEntryFields with
      capacityDebitOrdinal := some ordinal } : EntryFields).validate = .ok () := by
    rw [EntryFields.validate, bind_eq_ok]
    refine ⟨(), hc, ?_⟩
    rw [bind_eq_ok]
    refine ⟨(), ?_, ht⟩
    have hne : ordinal ≠ 0 := Nat.pos_iff_ne_zero.mp hpos
    simp only [EntryFields.validateState, hstate, raiseIf_bind_eq_ok, raiseIf_eq_ok] at hs ⊢
    exact ⟨by simp, by simpa using hne, hs.2.2⟩
  exact ⟨⟨_, hv⟩, modelValidate_ok _ hv, rfl⟩

theorem replayOrConflict_ok (existing attempted e : ToolCallStoreEntry)
    (h : replayOrConflict existing attempted = .ok e) :
    e = existing ∧ existing.toolCall = attempted.toolCall := by
  unfold replayOrConflict at h
  split_ifs at h with h1 h2 h3 <;> simp_all

theorem completeTransition_ok (existing : Option ToolCallStoreEntry)
    (completed e : ToolCallStoreEntry)
    (h : completeTransition existing completed = .ok e) :
    ∃ held, existing = some held ∧ held.toolCall = completed.toolCall ∧
      (e = held ∨ held.state = .accepted ∧ e = completed ∧
        held.capacityDebitOrdinal = completed.capacityDebitOrdinal) := by
  cases existing with
  | none => simp [completeTransition] at h
  | some held =>
    refine ⟨held, rfl, ?_⟩
    simp only [completeTransition] at h
    split_ifs at h with h1 h2 h3 h4
    · simp only [not_not] at h1
      exact ⟨h1, .inl (replayOrConflict_ok held completed e h).1⟩
    · simp only [not_not] at h1 h3 h4
      cases h
      exact ⟨h1, .inr ⟨h3, rfl, h4⟩⟩

theorem inScope_eq (scope : ScopeKey) (e : ToolCallStoreEntry) :
    inScope scope e =
      .ok (e.capacityDebitOrdinal.isSome && decide (e.scopeKey = scope)) := by
  have hid : backendScopeId e.toolCall.capacityBinding.scope
      e.toolCall.capacityBinding.capacityScopeId =
        .ok e.toolCall.capacityBinding.capacityScopeId := by
    unfold backendScopeId
    rw [if_neg]
    rintro ⟨hg,hne⟩
    exact hne (by simp [ToolCapacityBinding.capacityScopeId, hg])
  unfold inScope
  cases e.capacityDebitOrdinal with
  | none => rfl
  | some n =>
    rw [hid]
    rfl

theorem entriesInScope_eq (entries : List ToolCallStoreEntry) (q : ScopeQuery) (scope : ScopeKey)
    (h : q.key = .ok scope) :
    entriesInScope entries q = .ok ((entries.filter fun e =>
      e.capacityDebitOrdinal.isSome && decide (e.scopeKey = scope)).mergeSort fun a b =>
        decide (a.capacityDebitOrdinal.getD 0 ≤ b.capacityDebitOrdinal.getD 0)) := by
  have hs := selectM_ok (inScope scope) _ entries fun e _ => inScope_eq scope e
  simp only [entriesInScope, h, hs, bind, Except.bind]
  rfl

end Whetstone.Tools
