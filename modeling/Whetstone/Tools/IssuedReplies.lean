import Whetstone.Tools.IssuedSlots

/-! What `issue` returns over a Tool Call Store that stands still: the terminal result of the
call's own entry, whatever the ledger already holds. -/
namespace Whetstone.Tools.Issued
open Whetstone.Lib

variable {Body Payload : Type} [DecidableEq Body] [DecidableEq Payload] [ToolIdentity]
variable {tools : ToolCallStore Payload} {request : OptimStepRequest Body}
variable {s : IssuedStore Body Payload}

variable (tools) in
/- A ledger program alone, over a Tool Call Store that does not change. -/
abbrev Replies {α : Type} (Q : α → Prop) (p : IssuedProg Body Payload α)
    (s : IssuedStore Body Payload) : Prop :=
  p.Leads (fun o => execute (.caller 0 []) o tools) (fun a _ => Q a) (fun _ => True) s

variable (tools) in
/- What the store holds of a call: its entry, and the terminal result of the entry. -/
def Answered (call : ToolCall) (result : ToolResult Payload) : Prop :=
  ∃ entry, tools.get call = .ok (some entry) ∧ tools.loadTerminalResult entry = .ok result

theorem replies_bind {α β : Type} {Q : α → Prop} {Q' : β → Prop} {p : IssuedProg Body Payload α}
    {f : α → IssuedProg Body Payload β} (hp : Replies tools Q p s)
    (hf : ∀ a t, Q a → Replies tools Q' (f a) t) : Replies tools Q' (p.bind f) s :=
  Prog.leads_bind hp hf

theorem replies_after {α β : Type} {Q : β → Prop} {p : IssuedProg Body Payload α}
    {f : α → IssuedProg Body Payload β} (hf : ∀ a t, Replies tools Q (f a) t) :
    Replies tools Q (p.bind f) s :=
  Prog.leads_bind (Prog.leads_true p s) fun a t _ => hf a t

theorem replies_refuse (bad : Prop) [Decidable bad] (error : IssuedError) :
    Replies tools (fun _ => ¬ bad) (refuse bad error) s :=
  Prog.leads_mono (Prog.leads_ofExcept _ s) (fun _ _ h => (raiseIf_eq_ok bad error).mp h.1)
    fun _ _ => trivial

theorem replies_fromToolStore {α : Type} (x : Except String α) :
    Replies tools (fun a => x = .ok a) (fromToolStore x) s := by
  cases x with
  | error message => trivial
  | ok a => rfl

theorem replies_toolStoreGet (call : ToolCall) : Replies tools
    (fun reply => reply = tools.get call) (perform (.toolStoreGet call) : IssuedProg Body _ _)
      s := by
  rintro _ _ ⟨⟩
  rfl

theorem replies_loadTerminalResult (entry : ToolCallStoreEntry) : Replies tools
    (fun reply => reply = tools.loadTerminalResult entry)
      (perform (.loadTerminalResult entry) : IssuedProg Body _ _) s := by
  rintro _ _ ⟨⟩
  rfl

/-! ### Claims -/

theorem replies_claimReference (call : ToolCall) :
    Replies tools (fun claim => claim.call = call)
      (claimReference request call : IssuedProg Body Payload _) s :=
  replies_after fun _ _ => rfl

/-- A claim is reserved for the very call it is asked for. -/
theorem replies_claimAndReserve (call : ToolCall) :
    Replies tools (fun claim => claim.call = call)
      (claimAndReserve request call : IssuedProg Body Payload _) s := by
  refine replies_bind (replies_claimReference call) fun requested t hrequested => ?_
  refine replies_after fun found t => ?_
  cases found with
  | none =>
    refine replies_after fun _ t => ?_
    exact replies_after fun _ _ => hrequested
  | some existingRef =>
    refine replies_after fun existing t => ?_
    refine replies_bind (replies_refuse _ _) fun _ t hsame => ?_
    refine replies_after fun _ _ => ?_
    exact (congrArg IssuedToolCallClaim.call (not_not.mp hsame)).trans hrequested

theorem replies_issuedClaim (ledger : Nat) (call : ToolCall) :
    Replies tools (fun claim => claim.call = call)
      (issuedClaim request ledger call : IssuedProg Body Payload _) s := by
  refine replies_after fun found t => ?_
  cases found with
  | none => exact replies_claimAndReserve call
  | some expected =>
    dsimp only
    split
    · split <;> trivial
    · rename_i hsame
      refine replies_after fun _ t => ?_
      exact replies_after fun _ _ => not_not.mp hsame

theorem replies_loadTerminal (ref : IssuedObject Body Payload) (claim : IssuedToolCallClaim Body) :
    Replies tools (fun terminal => terminal.claim = claim) (loadTerminal ref claim) s := by
  cases ref with
  | claim _ => trivial
  | slot _ => trivial
  | terminal _ =>
    refine replies_after fun found t => ?_
    cases found with
    | none => trivial
    | some object =>
      cases object with
      | claim _ => trivial
      | slot _ => trivial
      | terminal terminal =>
        exact replies_bind (replies_refuse _ _) fun _ _ hsame => not_not.mp hsame

theorem replies_terminalForClaim (claim : IssuedToolCallClaim Body) :
    Replies tools (fun existing => ∀ terminal, existing = some terminal → terminal.claim = claim)
      (terminalForClaim claim : IssuedProg Body Payload _) s := by
  refine replies_after fun found t => ?_
  cases found with
  | none => exact fun _ h => (by cases h)
  | some ref =>
    refine replies_bind (replies_loadTerminal ref claim) fun terminal _ hterminal => ?_
    rintro _ ⟨⟩
    exact hterminal

/-! ### Results -/

theorem replies_authoritativeTerminal (terminal : IssuedToolCallTerminal Body Payload) :
    Replies tools (fun found => Answered tools terminal.claim.call found.1)
      (authoritativeTerminal terminal) s := by
  refine replies_bind (replies_toolStoreGet _) fun reply t hreply => ?_
  refine replies_bind (replies_fromToolStore _) fun found t hget => ?_
  cases found with
  | none => trivial
  | some entry =>
    refine replies_bind (replies_loadTerminalResult entry) fun loaded t hloaded => ?_
    refine replies_bind (replies_fromToolStore _) fun result t hload => ?_
    exact replies_after fun _ _ => ⟨entry, hreply.symm.trans hget, hloaded.symm.trans hload⟩

/-- What is recorded is what the store itself answers. -/
theorem replies_recordTerminal (claim : IssuedToolCallClaim Body) (result : ToolResult Payload) :
    Replies tools (Answered tools claim.call) (recordTerminal claim result) s := by
  unfold recordTerminal
  split
  · refine replies_after fun persisted t => ?_
    refine replies_after fun _ t => ?_
    refine replies_after fun _ t => ?_
    refine replies_bind (replies_toolStoreGet _) fun reply t hreply => ?_
    refine replies_bind (replies_fromToolStore _) fun found t hget => ?_
    cases found with
    | none => trivial
    | some entry =>
      refine replies_bind (replies_loadTerminalResult entry) fun loaded t hloaded => ?_
      refine replies_bind (replies_fromToolStore _) fun authoritative t hload => ?_
      refine replies_after fun _ t => ?_
      refine replies_after fun _ t => ?_
      refine replies_after fun bound t => ?_
      cases bound with
      | none => trivial
      | some ref =>
        refine replies_after fun _ t => ?_
        exact replies_after fun _ _ => ⟨entry, hreply.symm.trans hget, hloaded.symm.trans hload⟩
  · trivial

theorem replies_finishCall (claim : IssuedToolCallClaim Body) (call : ToolCall) :
    Replies tools (Answered tools claim.call) (finishCall claim call) s := by
  have hexecuted : ∀ t, Replies tools (Answered tools claim.call)
      (finishCall.executed claim call) t := by
    intro t
    refine replies_after fun reply t => ?_
    exact replies_after fun result t => replies_recordTerminal claim result
  refine replies_after fun reply t => ?_
  refine replies_after fun found t => ?_
  cases found with
  | none => exact hexecuted t
  | some entry =>
    cases hstate : terminalState entry with
    | false => simpa [hstate] using hexecuted t
    | true =>
      simp only [hstate, if_true]
      refine replies_after fun loaded t => ?_
      exact replies_after fun result t => replies_recordTerminal claim result

theorem replies_withCleanup {α : Type} {Q : α → Prop} {p : IssuedProg Body Payload α}
    {cleanup : IssuedProg Body Payload Unit} (hp : Replies tools Q p s) :
    Replies tools Q (withCleanup p cleanup) s := by
  have hhandled : Replies tools Q (p.handle fun error => do
      cleanup
      raise error) s :=
    Prog.leads_handle hp fun _ _ _ => replies_after fun _ _ => trivial
  exact replies_bind hhandled fun a t ha => replies_after fun _ _ => ha

/-- Whatever stands on the ledger, a result that `issue` returns is the terminal result that the
Tool Call Store has of the very call. -/
theorem replies_issue (ledger : Nat) (call : ToolCall) :
    Replies tools (Answered tools call) (issue request ledger call) s := by
  refine replies_after fun _ t => ?_
  refine replies_after fun entered t => ?_
  cases entered with
  | false => exact replies_after fun _ _ => trivial
  | true =>
    have hlookup : Replies tools (fun found => found.1.call = call ∧
        ∀ terminal, found.2 = some terminal → terminal.claim = found.1)
        ((lookupCall request ledger call : IssuedProg Body Payload _).handle fun error => do
          perform (.leave ledger call.callId)
          perform (.release ledger)
          raise error) t := by
      have hfound : Replies tools (fun found => found.1.call = call ∧
          ∀ terminal, found.2 = some terminal → terminal.claim = found.1)
          (lookupCall request ledger call : IssuedProg Body Payload _) t :=
        replies_bind (replies_issuedClaim ledger call) fun claim t hclaim =>
          replies_bind (replies_terminalForClaim claim) fun existing _ hexisting =>
            ⟨hclaim, hexisting⟩
      exact Prog.leads_handle hfound fun _ _ _ =>
        replies_after fun _ _ => replies_after fun _ _ => trivial
    refine replies_bind hlookup fun found t hfound => ?_
    obtain ⟨claim,existing⟩ := found
    obtain ⟨hclaim,hexisting⟩ := hfound
    refine replies_after fun _ t => ?_
    refine replies_withCleanup ?_
    cases existing with
    | none =>
      rw [← hclaim]
      exact replies_finishCall claim _
    | some terminal =>
      refine replies_bind (replies_authoritativeTerminal terminal) fun found _ hanswered => ?_
      rw [hexisting terminal rfl, hclaim] at hanswered
      exact hanswered

end Whetstone.Tools.Issued
