import Whetstone.Tools.ExecutionSafety
import Whetstone.Tools.RecoverySafety

/-! The Tool Call Store and the tool executor as the authority a recovered ledger relies on.
A terminal result that was loaded once loads again in every later state, and an execution
that returns has left such a result. -/
namespace Whetstone.Tools
open Whetstone.Core Whetstone.Lib Whetstone.Experiment

/-- A terminal is verified against what is published for its request, and nothing else. -/
def VerifiesPublished [LeaseText] (authority : LeaseAuthority) : Prop :=
  ∀ terminal s s', authority.published s terminal.request =
    authority.published s' terminal.request →
      authority.verifyTerminal terminal s = authority.verifyTerminal terminal s'

section Authority

variable [ToolIdentity] [LeaseText] {F : Type} [FiniteFloats F] [DecidableEq F]
variable [RewardIdentity F] [ResultIdentity F]

/- The text of an exception; the time a busy lease ends is left out. -/
def ExecutionError.text : ExecutionError → String
  | .value message => message
  | .runtime message => message
  | .admission error => error.message
  | .lease message => message
  | .busy => "Tool execution is busy"
  | .requestConflict message => message
  | .recoveryRequired failure => failure.message
  | .evaluator (.evaluation failure) => failure.message
  | .evaluator (.validation reason) => reason
  | .evaluator (.other message) => message

variable {b : AdmissionBackend} {authority : LeaseAuthority} (r : CitingRefinement b)

/- A call of the facade that the environment has no part in. -/
def answered {α : Type} (p : ToolProg F α) (s : ExecutionState F b authority) :
    Except String α × ExecutionState F b authority :=
  match p.alone storeOp s with
  | some (.ok a, t) => (.ok a, t)
  | some (.error error, t) => (.error error.text, t)
  | none => (.error "the operation is not one of the stores", s)

def issuedResult (result : ToolResult F) : Issued.ToolResult (ToolResult F) :=
  ⟨result.call, result⟩

/-- One process executes through its own handle; the answers of the environment may end before
the execution does. -/
def executionAuthority (authority : LeaseAuthority) : Issued.ToolAuthority (ToolResult F) where
  State := ExecutionState F b authority
  Script := RuntimeToolHandle F × List (ExecutionAnswer F authority)
  inv := fun s => ExecutionInv r s
  get := fun call s => (answered (ToolCallStore.get call) s).1
  loadTerminalResult := fun entry s =>
    (answered (ToolCallStore.loadTerminalResult entry) s).1.map issuedResult
  persistResult := fun result s =>
    let (persisted, t) := answered (ToolCallStore.persistResult result.payload) s
    (persisted.map fun ref => decide (ref = toolResultReference result.payload), t)
  execute := fun call script s =>
    let run := (execute script.1 call).attempt
      ((executionMachine F b authority).solo ⟨0, script.1, call⟩) script.2 s
    match run.outcome with
    | .crashed => (none, run.state)
    | .raised error => (some (.error error.text), run.state)
    | .returned result => (some (.ok (issuedResult result)), run.state)

/-! ### Reading a terminal result -/

variable {s t : ExecutionState F b authority}

/- Everything `load_terminal_result` has checked of a result it returns. -/
structure Loaded (s : ExecutionState F b authority) (entry : ToolCallStoreEntry)
    (result : ToolResult F) : Prop where
  ref : entry.toolResultRef = some (toolResultReference result)
  durable : b.get (entry.storeNamespaceKey, entry.toolCall.callId) s.admission = .ok (some entry)
  verified : entry.state = .completed → ∃ terminal found, entry.effectTerminal = some terminal ∧
    authority.effectVerify terminal s.leases = .ok found
  stored : s.results.get? (toolResultReference result) = some result
  call : result.call = entry.toolCall
  refused : entry.state = .refused → result.refusal = entry.refusal
  completed : entry.state = .completed → ∃ terminal ordinal count,
    entry.effectTerminal = some terminal ∧
    terminal.outcome = (if result.terminalFailure.isSome then .failed else .succeeded) ∧
    terminal.failure = result.terminalFailure ∧ result.refusal = none ∧
    entry.capacityDebitOrdinal = some ordinal ∧
    b.acceptedCount (ToolCallStore.scopeOf entry) s.admission = .ok count ∧
    1 ≤ ordinal ∧ ordinal ≤ count ∧ result.provenanceOrdinal = some ordinal

abbrev Returns {α : Type} (p : ToolProg F α) (s : ExecutionState F b authority) (a : α) : Prop :=
  p.alone storeOp s = some (.ok a, s)

theorem Returns.bind {α β : Type} {p : ToolProg F α} {f : α → ToolProg F β} {a : α} {c : β}
    (hp : Returns p s a) (hf : Returns (f a) s c) : Returns (p.bind f) s c :=
  (Prog.alone_bind storeOp p f s s a hp).trans hf

theorem returns_refuseIf {bad : Prop} [Decidable bad] {message : String} (h : ¬ bad) :
    Returns (ToolCallStore.refuseIf bad message : ToolProg F Unit) s () := by
  rw [Returns, ToolCallStore.refuseIf, raiseIf_neg bad _ h]
  rfl

/- A check that returned has not failed, and has changed nothing. -/
theorem refuseIf_returned {bad : Prop} [Decidable bad] {message : String} {a : Unit}
    (h : (ToolCallStore.refuseIf bad message : ToolProg F Unit).alone storeOp s =
      some (.ok a, t)) : ¬ bad ∧ t = s := by
  rw [ToolCallStore.refuseIf] at h
  by_cases hbad : bad
  · rw [raiseIf_pos bad _ hbad] at h
    cases h
  · rw [raiseIf_neg bad _ hbad] at h
    cases h
    exact ⟨hbad, rfl⟩

theorem perform_returned {o : ToolOp F} {a : o.Reply}
    (h : (ToolCallStore.perform o : ToolProg F _).alone storeOp s = some (.ok a, t)) :
    storeOp o s = some (a, t) := by
  simp only [ToolCallStore.perform, Prog.perform, Prog.alone] at h
  cases hop : storeOp o s with
  | none =>
    rw [hop] at h
    cases h
  | some out =>
    rw [hop] at h
    cases h
    rfl

theorem fromAdmission_returned {α : Type} {x : Except AdmissionError α} {a : α}
    (h : (ToolCallStore.fromAdmission x : ToolProg F α).alone storeOp s = some (.ok a, t)) :
    x = .ok a ∧ t = s := by
  cases x with
  | error error => cases h
  | ok value =>
    cases h
    exact ⟨rfl, rfl⟩

theorem fromLease_returned {α : Type} {x : Except String α} {a : α}
    (h : (ToolCallStore.fromLease x : ToolProg F α).alone storeOp s = some (.ok a, t)) :
    x = .ok a ∧ t = s := by
  cases x with
  | error error => cases h
  | ok value =>
    cases h
    exact ⟨rfl, rfl⟩

open ToolCallStore

theorem validateResultAuthority_returned {result : ToolResult F} {entry : ToolCallStoreEntry}
    (h : (validateResultAuthority result entry).alone storeOp s = some (.ok (), t)) :
    t = s ∧ result.refusal = none ∧ ∃ ordinal count, entry.capacityDebitOrdinal = some ordinal ∧
      b.acceptedCount (scopeOf entry) s.admission = .ok count ∧ 1 ≤ ordinal ∧ ordinal ≤ count ∧
      result.provenanceOrdinal = some ordinal := by
  obtain ⟨_,_,h1,hrest⟩ := Prog.alone_bind_ok h
  obtain ⟨hrefusal,rfl⟩ := refuseIf_returned h1
  cases hordinal : entry.capacityDebitOrdinal with
  | none =>
    rw [hordinal] at hrest
    cases hrest
  | some ordinal =>
    rw [hordinal] at hrest
    obtain ⟨reply,_,h2,hcounted⟩ := Prog.alone_bind_ok hrest
    cases perform_returned h2
    obtain ⟨count,_,h3,hchecks⟩ := Prog.alone_bind_ok hcounted
    obtain ⟨hcount,rfl⟩ := fromAdmission_returned h3
    obtain ⟨_,_,h4,hpositive⟩ := Prog.alone_bind_ok hchecks
    obtain ⟨hwithin,rfl⟩ := refuseIf_returned h4
    obtain ⟨_,_,h5,hlast⟩ := Prog.alone_bind_ok hpositive
    obtain ⟨_,rfl⟩ := refuseIf_returned h5
    obtain ⟨hsame,rfl⟩ := refuseIf_returned hlast
    exact ⟨rfl, not_not.mp hrefusal, ordinal, count, rfl, hcount, (not_not.mp hwithin).1,
      (not_not.mp hwithin).2, not_not.mp hsame⟩

theorem returns_validateResultAuthority {result : ToolResult F} {entry : ToolCallStoreEntry}
    {ordinal count : Nat} (hrefusal : result.refusal = none)
    (hordinal : entry.capacityDebitOrdinal = some ordinal)
    (hcount : b.acceptedCount (scopeOf entry) s.admission = .ok count) (hpos : 1 ≤ ordinal)
    (hle : ordinal ≤ count) (hsame : result.provenanceOrdinal = some ordinal) :
    Returns (validateResultAuthority result entry) s () := by
  refine (returns_refuseIf (not_not.mpr hrefusal)).bind ?_
  rw [hordinal]
  have hread : Returns (perform (.acceptedCount (scopeOf entry)) : ToolProg F _) s (.ok count) := by
    rw [← hcount]
    rfl
  refine hread.bind ?_
  have hvalue : Returns (fromAdmission (.ok count) : ToolProg F Nat) s count := rfl
  refine hvalue.bind ((returns_refuseIf (not_not.mpr ⟨hpos, hle⟩)).bind ?_)
  refine (returns_refuseIf ?_).bind (returns_refuseIf (not_not.mpr hsame))
  rw [hsame]
  simp
  omega

theorem get_returned {call : ToolCall} {found : Option ToolCallStoreEntry}
    (h : (ToolCallStore.get call : ToolProg F _).alone storeOp s = some (.ok found, t)) :
    t = s ∧ b.get (callKey call) s.admission = .ok found ∧
      ∀ entry, found = some entry → entry.toolCall = call := by
  obtain ⟨reply,_,h1,hreply⟩ := Prog.alone_bind_ok h
  cases perform_returned h1
  obtain ⟨read,_,h2,hfound⟩ := Prog.alone_bind_ok hreply
  obtain ⟨hread,rfl⟩ := fromAdmission_returned h2
  cases read with
  | none =>
    cases hfound
    exact ⟨rfl, hread, fun _ he => by cases he⟩
  | some existing =>
    obtain ⟨_,_,h3,hlast⟩ := Prog.alone_bind_ok hfound
    by_cases hcall : existing.toolCall = call
    · rw [raiseIf_neg _ _ (not_not.mpr hcall)] at h3
      cases h3
      cases hlast
      refine ⟨rfl, hread, fun entry he => ?_⟩
      cases he
      exact hcall
    · rw [raiseIf_pos _ _ hcall] at h3
      cases h3

theorem returns_get {call : ToolCall} {entry : ToolCallStoreEntry}
    (hget : b.get (callKey call) s.admission = .ok (some entry)) (hcall : entry.toolCall = call) :
    Returns (ToolCallStore.get call : ToolProg F _) s (some entry) := by
  have hread : Returns (perform (.getEntry (callKey call)) : ToolProg F _) s (.ok (some entry)) := by
    rw [← hget]
    rfl
  refine hread.bind ?_
  have hvalue : Returns (fromAdmission (.ok (some entry)) : ToolProg F _) s (some entry) := rfl
  refine hvalue.bind ?_
  have hcheck : Returns (Prog.ofExcept (raiseIf (entry.toolCall ≠ call)
      (.admission (.conflict entry .accepted
        "the existing key cites a different exact Tool Call"))) : ToolProg F Unit) s () := by
    rw [raiseIf_neg _ _ (not_not.mpr hcall)]
    rfl
  exact hcheck.bind rfl

theorem verifyEntryTerminal_returned {entry : ToolCallStoreEntry} {a : Unit}
    (h : (verifyEntryTerminal entry : ToolProg F Unit).alone storeOp s = some (.ok a, t)) :
    t = s ∧ (entry.state = .completed → ∃ terminal found, entry.effectTerminal = some terminal ∧
      authority.effectVerify terminal s.leases = .ok found) := by
  unfold verifyEntryTerminal at h
  by_cases hstate : entry.state = .completed
  · rw [if_pos hstate] at h
    cases hterminal : entry.effectTerminal with
    | none =>
      rw [hterminal] at h
      cases h
    | some terminal =>
      rw [hterminal] at h
      obtain ⟨reply,_,h1,hreply⟩ := Prog.alone_bind_ok h
      cases perform_returned h1
      obtain ⟨found,_,h2,hlast⟩ := Prog.alone_bind_ok hreply
      obtain ⟨hfound,rfl⟩ := fromLease_returned h2
      cases hlast
      exact ⟨rfl, fun _ => ⟨terminal, found, rfl, hfound⟩⟩
  · rw [if_neg hstate] at h
    cases h
    exact ⟨rfl, fun hcompleted => absurd hcompleted hstate⟩

theorem returns_verifyEntryTerminal {entry : ToolCallStoreEntry}
    (h : entry.state = .completed → ∃ terminal found, entry.effectTerminal = some terminal ∧
      authority.effectVerify terminal s.leases = .ok found) :
    Returns (verifyEntryTerminal entry : ToolProg F Unit) s () := by
  unfold verifyEntryTerminal
  by_cases hstate : entry.state = .completed
  · obtain ⟨terminal,found,hterminal,hfound⟩ := h hstate
    rw [if_pos hstate, hterminal]
    have hread : Returns (perform (.verifyTerminal terminal) : ToolProg F _) s (.ok found) := by
      rw [← hfound]
      rfl
    have hvalue : Returns (fromLease (.ok found) : ToolProg F _) s found := rfl
    exact hread.bind (hvalue.bind rfl)
  · rw [if_neg hstate]
    rfl

theorem validateStoredOutcome_returned {result : ToolResult F} {entry : ToolCallStoreEntry}
    (h : (validateStoredOutcome result entry).alone storeOp s = some (.ok (), t)) :
    t = s ∧ (entry.state = .refused → result.refusal = entry.refusal) ∧
      (entry.state = .completed → ∃ terminal ordinal count, entry.effectTerminal = some terminal ∧
        terminal.outcome = (if result.terminalFailure.isSome then .failed else .succeeded) ∧
        terminal.failure = result.terminalFailure ∧ result.refusal = none ∧
        entry.capacityDebitOrdinal = some ordinal ∧
        b.acceptedCount (scopeOf entry) s.admission = .ok count ∧
        1 ≤ ordinal ∧ ordinal ≤ count ∧ result.provenanceOrdinal = some ordinal) := by
  unfold validateStoredOutcome at h
  cases hstate : entry.state with
  | accepted =>
    rw [hstate] at h
    cases h
    exact ⟨rfl, by simp, by simp⟩
  | refused =>
    rw [hstate] at h
    obtain ⟨hsame,rfl⟩ := refuseIf_returned h
    exact ⟨rfl, fun _ => not_not.mp hsame, by simp⟩
  | completed =>
    rw [hstate] at h
    cases hterminal : entry.effectTerminal with
    | none =>
      simp only [hterminal] at h
      cases h
    | some terminal =>
      simp only [hterminal] at h
      obtain ⟨_,_,h1,hfailure⟩ := Prog.alone_bind_ok h
      obtain ⟨houtcome,rfl⟩ := refuseIf_returned h1
      obtain ⟨_,_,h2,hlast⟩ := Prog.alone_bind_ok hfailure
      obtain ⟨hsame,rfl⟩ := refuseIf_returned h2
      obtain ⟨rfl,hrefusal,ordinal,count,hordinal⟩ := validateResultAuthority_returned hlast
      exact ⟨rfl, by simp, fun _ => ⟨terminal, ordinal, count, rfl, not_not.mp houtcome,
        not_not.mp hsame, hrefusal, hordinal⟩⟩

/-- A load that returns has checked all there is to check. -/
theorem loaded_of_returned {entry : ToolCallStoreEntry} {result : ToolResult F}
    (h : (loadTerminalResult entry : ToolProg F _).alone storeOp s = some (.ok result, t)) :
    Loaded s entry result ∧ t = s := by
  unfold loadTerminalResult at h
  cases href : entry.toolResultRef with
  | none =>
    rw [href] at h
    cases h
  | some ref =>
    rw [href] at h
    obtain ⟨reply,_,h1,hreply⟩ := Prog.alone_bind_ok h
    cases perform_returned h1
    obtain ⟨durable,_,h2,hdurable⟩ := Prog.alone_bind_ok hreply
    obtain ⟨hread,rfl⟩ := fromAdmission_returned h2
    obtain ⟨_,_,h3,hverify⟩ := Prog.alone_bind_ok hdurable
    obtain ⟨hentry,rfl⟩ := refuseIf_returned h3
    obtain ⟨_,_,h4,hresult⟩ := Prog.alone_bind_ok hverify
    obtain ⟨rfl,hverified⟩ := verifyEntryTerminal_returned h4
    obtain ⟨found,_,h5,hfound⟩ := Prog.alone_bind_ok hresult
    obtain ⟨stored,_,h6,hstored⟩ := Prog.alone_bind_ok h5
    have hget := perform_returned h6
    simp only [storeOp, Option.some.injEq, Prod.mk.injEq] at hget
    obtain ⟨hget,rfl⟩ := hget
    cases stored with
    | none => cases hstored
    | some value =>
      cases hstored
      obtain ⟨_,_,h7,hcall⟩ := Prog.alone_bind_ok hfound
      obtain ⟨hexact,rfl⟩ := refuseIf_returned h7
      obtain ⟨_,_,h8,houtcome⟩ := Prog.alone_bind_ok hcall
      obtain ⟨hcites,rfl⟩ := refuseIf_returned h8
      obtain ⟨_,_,h9,hlast⟩ := Prog.alone_bind_ok houtcome
      obtain ⟨rfl,hrefused,hcompleted⟩ := validateStoredOutcome_returned h9
      cases hlast
      rw [not_not.mp hentry] at hread
      refine ⟨⟨?_, hread, hverified, ?_, not_not.mp hcites, hrefused, hcompleted⟩, rfl⟩
      · rw [href, not_not.mp hexact]
      · rw [not_not.mp hexact]
        exact hget

theorem returns_validateStoredOutcome {entry : ToolCallStoreEntry} {result : ToolResult F}
    (h : Loaded s entry result) : Returns (validateStoredOutcome result entry) s () := by
  unfold validateStoredOutcome
  cases hstate : entry.state with
  | accepted => rfl
  | refused => exact returns_refuseIf (not_not.mpr (h.refused hstate))
  | completed =>
    obtain ⟨terminal,ordinal,count,hterminal,houtcome,hfailure,hrefusal,hordinal,hcount,hpos,hle,
      hsame⟩ := h.completed hstate
    simp only [hterminal]
    refine (returns_refuseIf (not_not.mpr houtcome)).bind ?_
    exact (returns_refuseIf (not_not.mpr hfailure)).bind
      (returns_validateResultAuthority hrefusal hordinal hcount hpos hle hsame)

/-- What was checked once is loaded. -/
theorem returns_loadTerminalResult {entry : ToolCallStoreEntry} {result : ToolResult F}
    (h : Loaded s entry result) :
    Returns (loadTerminalResult entry : ToolProg F _) s result := by
  unfold loadTerminalResult
  rw [h.ref]
  have hread : Returns (perform (.getEntry (entry.storeNamespaceKey, entry.toolCall.callId)) :
      ToolProg F _) s (.ok (some entry)) := by
    rw [← h.durable]
    rfl
  have hvalue : Returns (fromAdmission (.ok (some entry)) : ToolProg F _) s (some entry) := rfl
  have hresult : Returns (readResult (toolResultReference result) : ToolProg F _) s result := by
    have hget : Returns (perform (.getResult (toolResultReference result)) : ToolProg F _) s
        (some result) := by
      rw [← h.stored]
      rfl
    exact hget.bind rfl
  refine hread.bind (hvalue.bind ((returns_refuseIf (not_not.mpr rfl)).bind ?_))
  refine (returns_verifyEntryTerminal h.verified).bind (hresult.bind ?_)
  refine (returns_refuseIf (not_not.mpr rfl)).bind ?_
  refine (returns_refuseIf (not_not.mpr h.call)).bind ?_
  exact (returns_validateStoredOutcome h).bind rfl

/-! ### Later states -/

structure Later (s t : ExecutionState F b authority) : Prop where
  evolves : Evolves s t
  advance : ∀ L, r.represents s.admission L → ∃ L', r.represents t.admission L' ∧ Advance L L'

variable {r} {u : ExecutionState F b authority}

omit [ResultIdentity F] in
theorem Later.refl (s : ExecutionState F b authority) : Later r s s :=
  ⟨.refl s, fun L hL => ⟨L, hL, .refl L⟩⟩

omit [ResultIdentity F] in
theorem Later.trans (h : Later r s t) (h' : Later r t u) : Later r s u := by
  refine ⟨h.evolves.trans h'.evolves, fun L hL => ?_⟩
  obtain ⟨L1,h1,a1⟩ := h.advance L hL
  obtain ⟨L2,h2,a2⟩ := h'.advance L1 h1
  exact ⟨L2, h2, a1.trans a2⟩

omit [ResultIdentity F] in
theorem simulates_later {op : b.State → Except AdmissionError ToolCallStoreEntry × b.State}
    (hop : Simulates r.represents op) (L : Ledger) (hL : r.represents s.admission L) :
    ∃ L', r.represents (op s.admission).2 L' ∧ Advance L L' := by
  rcases hop s.admission L hL with ⟨error,he⟩ | ⟨e,a,L',he,hL',hadvance⟩
  · rw [he]
    exact ⟨L, hL, .refl L⟩
  · rw [he]
    exact ⟨L', hL', hadvance⟩

theorem execOp_later {l : Invocation F} {o : ToolOp F} {answer : ExecutionAnswer F authority}
    {reply : o.Reply} (hs : ∃ L, r.represents s.admission L)
    (h : execOp l o answer s = some (reply, t)) : Later r s t := by
  refine ⟨(execOp_evolves hs h).2.1, fun L hL => ?_⟩
  have hsame : ∀ {a : b.State}, a = s.admission → ∃ L', r.represents a L' ∧ Advance L L' := by
    rintro _ rfl
    exact ⟨L, hL, .refl L⟩
  cases o with
  | admitEntry accepted refused limit =>
    cases h
    exact simulates_later (admitCall_simulates accepted refused limit) L hL
  | refuseEntry entry =>
    cases h
    exact simulates_later (refuse_simulates entry) L hL
  | completeEntry entry =>
    cases h
    exact simulates_later (complete_simulates entry) L hL
  | putResult result =>
    cases h
    refine hsame ?_
    unfold ExecutionState.putResult
    split <;> rfl
  | evaluate call =>
    cases answer <;> cases h
    exact hsame rfl
  | acquire request owner =>
    cases answer <;> cases h
    exact hsame rfl
  | publish lease outcome ref failure =>
    cases answer <;> cases h
    exact hsame rfl
  | validate call =>
    cases answer <;> cases h
    exact hsame rfl
  | _ =>
    cases h
    exact hsame rfl

omit [LeaseText] in
theorem scopeOf_key (entry : ToolCallStoreEntry) : (scopeOf entry).key = .ok entry.scopeKey := by
  have hid : backendScopeId entry.toolCall.capacityBinding.scope
      entry.toolCall.capacityBinding.capacityScopeId =
        .ok entry.toolCall.capacityBinding.capacityScopeId := by
    unfold backendScopeId
    rw [if_neg]
    rintro ⟨hglobal,hne⟩
    exact hne (by simp [ToolCapacityBinding.capacityScopeId, hglobal])
  simp only [ScopeQuery.key, scopeOf, hid]
  rfl

/-- A result that was loaded stays so. -/
theorem Loaded.later {entry : ToolCallStoreEntry} {result : ToolResult F}
    (hverify : VerifiesPublished authority) (hs : ∃ L, r.represents s.admission L)
    (h : Loaded s entry result) (hst : Later r s t) : Loaded t entry result := by
  obtain ⟨L,hL⟩ := hs
  obtain ⟨L',hL',hadvance⟩ := hst.advance L hL
  have hdecided : entry.state ≠ .accepted := by
    apply entry.state_of_result
    rw [h.ref]
    simp
  refine ⟨h.ref, ?_, ?_, hst.evolves.results _ _ h.stored, h.call, h.refused, ?_⟩
  · have hentry : entryAt s (entry.storeNamespaceKey, entry.toolCall.callId) = some entry := by
      rw [entryAt, h.durable]
    have hkept := hst.evolves.terminal hentry hdecided
    rw [entryAt_represents hL'] at hkept
    rw [r.get _ L' _ hL', hkept]
  · intro hcompleted
    obtain ⟨terminal,found,hterminal,hfound⟩ := h.verified hcompleted
    refine ⟨terminal, found, hterminal, ?_⟩
    obtain ⟨kept,hkept,_⟩ := (bind_eq_ok _ _ _).mp hfound
    have hpublished := authority.verify_published _ _ _ hkept
    have hsame := hst.evolves.published _ _ hpublished
    rw [← hfound, LeaseAuthority.effectVerify, LeaseAuthority.effectVerify,
      hverify _ _ _ (hsame.trans hpublished.symm)]
  · intro hcompleted
    obtain ⟨terminal,ordinal,count,hterminal,houtcome,hfailure,hrefusal,hordinal,hcount,hpos,hle,
      hsame⟩ := h.completed hcompleted
    rw [r.acceptedCount _ L _ _ hL (scopeOf_key entry), Except.ok.injEq] at hcount
    refine ⟨terminal, ordinal, L'.consumed entry.scopeKey, hterminal, houtcome, hfailure, hrefusal,
      hordinal, r.acceptedCount _ L' _ _ hL' (scopeOf_key entry), hpos, ?_, hsame⟩
    rw [← hcount] at hle
    exact hle.trans (DebitLedger.consumed_mono hadvance.steps _)

/-! ### Executions -/

/- The operations of a load. -/
def ToolOp.isRead : ToolOp F → Prop
  | .getEntry _ | .acceptedCount _ | .getResult _ | .verifyTerminal _ => True
  | _ => False

omit [LeaseText] [ResultIdentity F] in
theorem all_refuseIf {P : ToolOp F → Prop} (bad : Prop) [Decidable bad] (message : String) :
    (refuseIf bad message : ToolProg F Unit).All P := Prog.all_ofExcept _

omit [LeaseText] [ResultIdentity F] in
theorem all_fromAdmission {P : ToolOp F → Prop} {α : Type} (x : Except AdmissionError α) :
    (fromAdmission x : ToolProg F α).All P := by
  cases x <;> trivial

omit [LeaseText] [ResultIdentity F] in
theorem all_fromLease {P : ToolOp F → Prop} {α : Type} (x : Except String α) :
    (fromLease x : ToolProg F α).All P := by
  cases x <;> trivial

omit [LeaseText] [ResultIdentity F] in
theorem all_perform {P : ToolOp F → Prop} {o : ToolOp F} (h : P o) :
    (perform o : ToolProg F _).All P := ⟨h, fun _ => trivial⟩

omit [LeaseText] [ResultIdentity F] in
theorem validateResultAuthority_reads (result : ToolResult F) (entry : ToolCallStoreEntry) :
    (validateResultAuthority result entry).All ToolOp.isRead := by
  refine Prog.all_bind (all_refuseIf _ _) fun _ => ?_
  cases entry.capacityDebitOrdinal with
  | none => trivial
  | some ordinal =>
    refine Prog.all_bind (all_perform trivial) fun reply => ?_
    refine Prog.all_bind (all_fromAdmission reply) fun count => ?_
    refine Prog.all_bind (all_refuseIf _ _) fun _ => ?_
    exact Prog.all_bind (all_refuseIf _ _) fun _ => all_refuseIf _ _

omit [LeaseText] in
theorem loadTerminalResult_reads (entry : ToolCallStoreEntry) :
    (loadTerminalResult entry : ToolProg F _).All ToolOp.isRead := by
  unfold loadTerminalResult
  cases entry.toolResultRef with
  | none => trivial
  | some ref =>
    refine Prog.all_bind (all_perform trivial) fun reply => ?_
    refine Prog.all_bind (all_fromAdmission reply) fun durable => ?_
    refine Prog.all_bind (all_refuseIf _ _) fun _ => ?_
    refine Prog.all_bind ?_ fun _ => ?_
    · unfold verifyEntryTerminal
      split
      · cases entry.effectTerminal with
        | none => trivial
        | some terminal =>
          refine Prog.all_bind (all_perform trivial) fun found => ?_
          exact Prog.all_bind (all_fromLease found) fun _ => trivial
      · trivial
    · refine Prog.all_bind (Prog.all_bind (all_perform trivial) ?_) fun result => ?_
      · intro found
        cases found <;> trivial
      · refine Prog.all_bind (all_refuseIf _ _) fun _ => ?_
        refine Prog.all_bind (all_refuseIf _ _) fun _ => ?_
        refine Prog.all_bind ?_ fun _ => trivial
        unfold validateStoredOutcome
        cases entry.state with
        | accepted => trivial
        | refused => exact all_refuseIf _ _
        | completed =>
          cases entry.effectTerminal with
          | none => trivial
          | some terminal =>
            refine Prog.all_bind (all_refuseIf _ _) fun _ => ?_
            exact Prog.all_bind (all_refuseIf _ _) fun _ =>
              validateResultAuthority_reads result entry

/- What the process of an invocation proves of what it returns, and promises of nothing else. -/
abbrev Leaves {α : Type} (l : Invocation F) (Q : α → ExecutionState F b authority → Prop)
    (p : ToolProg F α) (s : ExecutionState F b authority) : Prop :=
  p.Holds ((executionMachine F b authority).solo l)
    ⟨False, fun _ _ => True, fun _ => True, fun _ => True⟩ Q s

theorem leaves_after {α β : Type} {l : Invocation F} {Q : β → ExecutionState F b authority → Prop}
    (p : ToolProg F α) (f : α → ToolProg F β) (hf : ∀ a t, Leaves l Q (f a) t) :
    Leaves l Q (p.bind f) s :=
  Prog.holds_bind (Prog.holds_trivial p s) fun a t _ _ => hf a t

theorem leaves_load {l : Invocation F} (entry : ToolCallStoreEntry) :
    Leaves l (fun result u => ∃ entry, Loaded u entry result)
      (loadTerminalResult entry : ToolProg F _) s := by
  refine Prog.holds_of_returned _ s fun answers result hreturned => ⟨entry, ?_⟩
  have halone := Prog.alone_of_attempt storeOp ?_ (loadTerminalResult_reads entry)
    hreturned
  · obtain ⟨hloaded,hsame⟩ := loaded_of_returned halone
    rw [hsame]
    exact hloaded
  · intro o answer s reply t ho hexec
    cases o <;> first | exact ho.elim | skip
    all_goals
      simp only [Machine.solo, executionMachine, execOp, storeOp, Prod.mk.injEq,
        Option.some.injEq] at hexec ⊢
      exact hexec

theorem leaves_replayTerminal {l : Invocation F} (call : ToolCall) (terminal : EffectTerminal) :
    Leaves l (fun result u => ∃ entry, Loaded u entry result)
      (replayTerminal call terminal : ToolProg F _) s := by
  unfold replayTerminal
  cases terminal.outcome with
  | succeeded =>
    cases terminal.resultRef with
    | none => exact ⟨trivial, trivial⟩
    | some ref =>
      refine leaves_after _ _ fun _ _ => leaves_after _ _ fun _ _ => leaves_after _ _ fun _ _ => ?_
      exact leaves_load _
  | failed =>
    cases terminal.resultRef with
    | none => exact ⟨trivial, trivial⟩
    | some ref =>
      cases terminal.failure with
      | none => exact ⟨trivial, trivial⟩
      | some failure =>
        refine leaves_after _ _ fun _ _ => leaves_after _ _ fun _ _ =>
          leaves_after _ _ fun _ _ => ?_
        exact leaves_load _
  | recoveryRequired =>
    cases terminal.failure with
    | none => exact ⟨trivial, trivial⟩
    | some failure => exact ⟨trivial, trivial⟩

theorem leaves_executeDecided {l : Invocation F} (handle : RuntimeToolHandle F) (call : ToolCall)
    (entry : ToolCallStoreEntry) :
    Leaves l (fun result u => ∃ entry, Loaded u entry result)
      (executeDecided handle call entry) s := by
  unfold executeDecided
  split
  · exact leaves_load entry
  · refine leaves_after _ _ fun reply t => leaves_after _ _ fun acquired t => ?_
    cases acquired with
    | terminal terminal => exact leaves_replayTerminal call terminal
    | busy => exact ⟨trivial, trivial⟩
    | requestConflict => exact ⟨trivial, trivial⟩
    | lease lease =>
      unfold evaluateUnderLease
      cases entry.capacityDebitOrdinal with
      | none => exact ⟨trivial, trivial⟩
      | some ordinal =>
        refine leaves_after _ _ fun outcome t => ?_
        refine leaves_after _ _ fun _ _ => leaves_after _ _ fun _ _ =>
          leaves_after _ _ fun _ _ => leaves_after _ _ fun _ _ => ?_
        exact leaves_load _

/-- Every result that an execution returns was loaded last. -/
theorem leaves_execute {l : Invocation F} (handle : RuntimeToolHandle F) (call : ToolCall) :
    Leaves l (fun result u => ∃ entry, Loaded u entry result) (execute handle call) s := by
  refine leaves_after _ _ fun _ _ => leaves_after _ _ fun found t => ?_
  cases found with
  | some existing => exact leaves_executeDecided handle call existing
  | none =>
    refine leaves_after _ _ fun validated t => ?_
    cases validated with
    | ok _ => exact leaves_after _ _ fun entry _ => leaves_executeDecided handle call entry
    | error error =>
      cases error with
      | validation reason => exact leaves_after _ _ fun entry _ => leaves_load entry
      | evaluation failure => exact ⟨trivial, trivial⟩
      | other message => exact ⟨trivial, trivial⟩

/-! ### The authority -/

theorem answered_ok {α : Type} {p : ToolProg F α} {a : α} (h : (answered p s).1 = .ok a) :
    ∃ t, p.alone storeOp s = some (.ok a, t) := by
  unfold answered at h
  split at h
  · rename_i found t hfound
    cases h
    exact ⟨t, hfound⟩
  · cases h
  · cases h

theorem answered_returns {α : Type} {p : ToolProg F α} {a : α} (h : Returns p s a) :
    answered p s = (.ok a, s) := by
  unfold answered
  rw [h]

theorem loaded_of_authority {entry : ToolCallStoreEntry}
    {issued : Issued.ToolResult (ToolResult F)}
    (h : (executionAuthority r authority).loadTerminalResult entry s = .ok issued) :
    ∃ result, issued = issuedResult result ∧ Loaded s entry result := by
  have hload : (answered (loadTerminalResult entry) s).1.map issuedResult = .ok issued := h
  cases hresult : (answered (loadTerminalResult entry) s).1 with
  | error message =>
    rw [hresult] at hload
    cases hload
  | ok result =>
    rw [hresult] at hload
    cases hload
    obtain ⟨u,hu⟩ := answered_ok hresult
    exact ⟨result, rfl, (loaded_of_returned hu).1⟩

/-- An authoritative result is a loaded one, under the entry of its call. -/
theorem authoritative_iff (call : ToolCall) (entry : ToolCallStoreEntry)
    (issued : Issued.ToolResult (ToolResult F)) :
    (executionAuthority r authority).Authoritative s call entry issued ↔
      b.get (callKey call) s.admission = .ok (some entry) ∧ entry.toolCall = call ∧
        ∃ result, issued = issuedResult result ∧ Loaded s entry result := by
  constructor
  · intro h
    obtain ⟨t,ht⟩ := answered_ok h.get
    obtain ⟨_,hget,hcall⟩ := get_returned ht
    exact ⟨hget, hcall entry rfl, loaded_of_authority h.load⟩
  · rintro ⟨hget,hcall,result,rfl,hloaded⟩
    have hdecided : entry.state ≠ .accepted := by
      apply entry.state_of_result
      rw [hloaded.ref]
      simp
    refine ⟨?_, ?_, ?_, hloaded.call.trans hcall⟩
    · exact congrArg Prod.fst (answered_returns (returns_get hget hcall))
    · unfold Issued.terminalState
      cases hstate : entry.state with
      | accepted => exact absurd hstate hdecided
      | refused => rfl
      | completed => rfl
    · have hanswered := answered_returns (returns_loadTerminalResult hloaded)
      change (answered (loadTerminalResult entry) s).1.map issuedResult = .ok (issuedResult result)
      rw [hanswered]
      rfl

theorem authoritative_later (hverify : VerifiesPublished authority)
    (hs : ∃ L, r.represents s.admission L) (hst : Later r s t) (call : ToolCall)
    (entry : ToolCallStoreEntry) (issued : Issued.ToolResult (ToolResult F))
    (h : (executionAuthority r authority).Authoritative s call entry issued) :
    (executionAuthority r authority).Authoritative t call entry issued := by
  rw [authoritative_iff] at h ⊢
  obtain ⟨hget,hcall,result,rfl,hloaded⟩ := h
  have hlater := hloaded.later hverify hs hst
  refine ⟨?_, hcall, result, rfl, hlater⟩
  have hkey : callKey call = (entry.storeNamespaceKey, entry.toolCall.callId) := by
    rw [callKey, entry.citation.2.1, hcall]
  rw [hkey]
  exact hlater.durable

theorem answered_persistResult (result : ToolResult F) :
    answered (persistResult result) s = (.ok (toolResultReference result), s.putResult result) := by
  unfold answered persistResult
  simp only [Prog.bind_eq, perform, Prog.perform, Prog.bind, Prog.alone, storeOp, refuseIf,
    raiseIf_neg _ _ (not_not.mpr (rfl : toolResultReference result = toolResultReference result)),
    Prog.ofExcept, Prog.pure_eq]

theorem putResult_later (result : ToolResult F) : Later r s (s.putResult result) := by
  refine ⟨putResult_evolves result, fun L hL => ⟨L, ?_, .refl L⟩⟩
  unfold ExecutionState.putResult
  split <;> exact hL

theorem putResult_inv (result : ToolResult F) (h : ExecutionInv r s) :
    ExecutionInv r (s.putResult result) := by
  have hsame : (s.putResult result).admission = s.admission ∧
      (s.putResult result).history = s.history := by
    unfold ExecutionState.putResult
    split <;> exact ⟨rfl, rfl⟩
  refine ⟨?_, ?_, ?_⟩
  · rw [hsame.1]
    exact h.represents
  · intro invocation found hreturned
    rw [hsame.2] at hreturned
    exact (h.backed invocation found hreturned).evolves (putResult_evolves result)
  · rw [hsame.2]
    exact h.punctual

/-- A process that executes on its own moves on to later states. -/
theorem attempt_later {α : Type} (l : Invocation F) (p : ToolProg F α)
    (answers : List (ExecutionAnswer F authority)) (hs : ∃ L, r.represents s.admission L) :
    Later r s (p.attempt ((executionMachine F b authority).solo l) answers s).state := by
  suffices hkept : ∀ t, t = (p.attempt ((executionMachine F b authority).solo l) answers s).state →
      (∃ L, r.represents t.admission L) ∧ Later r s t from (hkept _ rfl).2
  rintro _ rfl
  refine Prog.attempt_invariant
    (P := fun t => (∃ L, r.represents t.admission L) ∧ Later r s t) ?_ p answers s ⟨hs, .refl s⟩
  intro o answer t ⟨ht,hst⟩
  unfold Machine.solo
  cases hexec : (executionMachine F b authority).exec l o answer t with
  | none => exact ⟨ht, hst⟩
  | some out =>
    obtain ⟨reply,u⟩ := out
    exact ⟨(execOp_evolves ht hexec).1, hst.trans (execOp_later ht hexec)⟩

/-- What a solo execution leaves: the invariant, and the result it returns backed and
loaded. -/
theorem execute_attempt (h : ExecutionInv r s) (handle : RuntimeToolHandle F) (call : ToolCall)
    (answers : List (ExecutionAnswer F authority)) :
    let run := (execute handle call).attempt
      ((executionMachine F b authority).solo ⟨0, handle, call⟩) answers s
    ExecutionInv r run.state ∧ Later r s run.state ∧
      ∀ result, run.outcome = .returned result → Backed run.state call result ∧
        ∃ entry, Loaded run.state entry result := by
  intro run
  have hlate : Late s.history ⟨0, handle, call⟩ → ∃ result, Backed s call result := by
    intro hl
    obtain ⟨earlier,result,hreturned,hcall⟩ := hl.returned
    refine ⟨result, ?_⟩
    have hbacked := h.backed earlier result hreturned
    rwa [hcall] at hbacked
  have hsafe : ExecutionSafe r ⟨0, handle, call⟩ _ (execute handle call) s :=
    safe_execute handle call hlate
  obtain ⟨hinv,hbacked⟩ := hsafe.attempt h (fun _ _ => trivial) answers
  have hleaves := (leaves_execute (l := ⟨0, handle, call⟩) (s := s) handle call).attempt answers
  exact ⟨hinv, attempt_later _ _ answers h.represents,
    fun result hresult => ⟨hbacked result hresult, hleaves.2.2.2 result hresult⟩⟩

theorem executionAuthority_persistResult (issued : Issued.ToolResult (ToolResult F)) :
    (executionAuthority r authority).persistResult issued s =
      (.ok true, s.putResult issued.payload) := by
  unfold executionAuthority
  simp only [answered_persistResult, Except.map, decide_true]

theorem executionAuthority_execute (h : ExecutionInv r s) (call : ToolCall)
    (script : RuntimeToolHandle F × List (ExecutionAnswer F authority)) :
    let out := (executionAuthority r authority).execute call script s
    ExecutionInv r out.2 ∧ Later r s out.2 ∧ ∀ issued, out.1 = some (.ok issued) →
      ∃ result entry, issued = issuedResult result ∧ result.call = call ∧
        Loaded (out.2 : ExecutionState F b authority) entry result := by
  obtain ⟨hinv,hlater,hreturned⟩ := execute_attempt h script.1 call script.2
  unfold executionAuthority
  cases hrun : ((execute script.1 call).attempt
      ((executionMachine F b authority).solo ⟨0, script.1, call⟩) script.2 s).outcome with
  | crashed =>
    simp only [hrun]
    exact ⟨hinv, hlater, fun issued h => by cases h⟩
  | raised error =>
    simp only [hrun]
    exact ⟨hinv, hlater, fun issued h => by cases h⟩
  | returned result =>
    simp only [hrun]
    refine ⟨hinv, hlater, fun issued h => ?_⟩
    cases h
    obtain ⟨⟨_,_,_,_,hcall,_⟩,entry,hloaded⟩ := hreturned result hrun
    exact ⟨result, entry, rfl, hcall, hloaded⟩

/-- The Tool Call Store and the executor meet the laws that recovery rests on. -/
theorem executionAuthority_steady (hverify : VerifiesPublished authority) :
    (executionAuthority (F := F) r authority).Steady where
  persist_inv := by
    intro issued s hs
    rw [executionAuthority_persistResult (r := r) (s := s)]
    exact putResult_inv issued.payload hs
  persist_keeps := by
    intro issued s hs call entry kept hkept
    rw [executionAuthority_persistResult (r := r) (s := s)]
    exact authoritative_later hverify hs.represents (putResult_later _) call entry kept hkept
  persist_exact := by
    intro issued s same h
    rw [executionAuthority_persistResult (r := r) (s := s)] at h
    cases h
    rfl
  execute_inv := by
    intro call script s hs
    exact (executionAuthority_execute hs call script).1
  execute_keeps := by
    intro call script s hs call' entry kept hkept
    exact authoritative_later hverify hs.represents
      (executionAuthority_execute hs call script).2.1 call' entry kept hkept
  execute_settles := by
    intro call script s issued hs h
    obtain ⟨result,entry,rfl,hcall,hloaded⟩ :=
      (executionAuthority_execute hs call script).2.2 issued h
    refine ⟨entry, (authoritative_iff call entry _).mpr ⟨?_, ?_, result, rfl, hloaded⟩⟩
    · have hkey : callKey call = (entry.storeNamespaceKey, entry.toolCall.callId) := by
        rw [callKey, entry.citation.2.1, ← hloaded.call, hcall]
      rw [hkey]
      exact hloaded.durable
    · exact hloaded.call.symm.trans hcall
  load_cites := by
    intro call s entry issued _ hget hload
    obtain ⟨t,ht⟩ := answered_ok hget
    obtain ⟨_,_,hcall⟩ := get_returned ht
    obtain ⟨result,rfl,hloaded⟩ := loaded_of_authority hload
    exact hloaded.call.trans (hcall entry rfl)

end Authority

section Recovered

variable [ToolIdentity] [LeaseText] {F : Type} [FiniteFloats F] [DecidableEq F]
variable [RewardIdentity F] [ResultIdentity F]
variable {Body : Type} [DecidableEq Body]

open Issued in
/-- Crash recovery of an issued Tool Call ledger. Whatever the backend of the Tool Call Store,
the lease authority, what earlier executions left in their stores, the calls within the budget
and the sessions before, each stopped at any operation: a session raises no exception of the
ledger, but for call ids that repeat; it never executes a call that has a terminal entry; and
once its adapter is through, the checkpoint returns, with one piece of evidence for each call
in the order of issue, that cites the authoritative terminal result of the call. -/
theorem issued_ledger_recovers {Text : Type} (codec : EntryCodec Text) (kind : BackendKind)
    (authority : LeaseAuthority) (hverify : VerifiesPublished authority)
    (earlier : List (RuntimeToolHandle F × ToolCall))
    (schedule : List (Nat × ExecutionAnswer F authority))
    (request : OptimStepRequest Body) (calls : List ToolCall)
    (hlimit : calls.length ≤ request.limit) :
    let A := executionAuthority (F := F) (citingRefinement codec kind) authority
    let tools : A.State :=
      executionAfter (backend codec kind) authority earlier schedule schedule.length
    ∀ (sessions : List (List (Option A.Script))) (scripts : List (Option A.Script)),
      let s := recovered A request calls tools sessions
      let run := (session request calls).attempt (recoveryExec A) scripts s
      let issued := (adapter request calls).attempt (recoveryExec A) scripts s
      (∀ error, run.outcome = .raised error → (∃ message, error = .toolStore message) ∨
        error = .value uniqueMessage ∧ ¬ (calls.map ToolCall.callId).Nodup) ∧
      (∀ event ∈ run.events, ∀ call, event.1 = .execute call →
        ∀ entry, A.get call event.2.tools = .ok (some entry) →
          entry.state ≠ .refused ∧ entry.state ≠ .completed) ∧
      ∀ results, issued.outcome = .returned results →
        ∀ later : Nat → Option A.Script, ∃ n evidence u,
          (checkpoint request).attempt (recoveryExec A) ((List.range n).map later)
            issued.state = u ∧
          u.outcome = .returned evidence ∧ List.Forall₂
            (fun call out => A.Authoritative u.state.tools call out.2 out.1) calls evidence := by
  intro A tools sessions scripts s run issued
  have hsteady : A.Steady := executionAuthority_steady hverify
  have htools : A.inv tools := run_executionInv earlier _
  obtain ⟨herrors,hcareful,hcheckpoint⟩ :=
    recovery_holds hsteady hlimit tools htools sessions scripts
  refine ⟨herrors, ?_, hcheckpoint⟩
  intro event hevent call hcall entry hget
  have hopen := hcareful event hevent call hcall entry hget
  unfold terminalState at hopen
  cases hstate : entry.state <;> simp_all

end Recovered

/-! ### A session that stops inside the execution of its only call -/

section Example

attribute [local instance] gradeIdentity exactFailures exactFiniteFloats gradeRewards gradeResults

theorem fencedLeases_verifiesPublished : VerifiesPublished fencedLeases := by
  intro terminal s s' hsame
  have hsame : FencedLeases.published s terminal.request =
    FencedLeases.published s' terminal.request := hsame
  change FencedLeases.verifyTerminal terminal s = FencedLeases.verifyTerminal terminal s'
  unfold FencedLeases.verifyTerminal
  rw [hsame]

abbrev gradeAuthority : Issued.ToolAuthority (ToolResult Rat) :=
  executionAuthority (citingRefinement plainCodec .sqlite) fencedLeases

/- The first session stops after the evaluation, before its publication. -/
def stoppedScript : gradeAuthority.Script :=
  (gradeHandle "first", [.silent, .validated (.ok ()), .silent, .silent, leaseAt "a" 0,
    .evaluated (.ok gradeEvaluation), .silent])

/- The next one finds the call accepted and the lease expired. -/
def resumedScript : gradeAuthority.Script :=
  (gradeHandle "second", [.silent, leaseAt "b" 100, .evaluated (.ok gradeEvaluation), .silent,
    leaseAt "b" 101] ++ List.replicate 12 .silent)

def gradeRequest : Issued.OptimStepRequest Unit := ⟨some 1, ()⟩

def unusedTools : gradeAuthority.State :=
  executionAfter (backend plainCodec .sqlite) fencedLeases [] [] 0

open Issued in
/-- The first session leaves an evaluation behind; the second returns the evidence. -/
theorem interrupted_grade_recovers :
    let s := recovered gradeAuthority gradeRequest [gradeCall] unusedTools
      [List.replicate 40 (some stoppedScript)]
    s.tools.history.length = 1 ∧ ∃ results,
      ((adapter gradeRequest [gradeCall]).attempt (recoveryExec gradeAuthority)
        (List.replicate 60 (some resumedScript)) s).outcome = .returned results ∧
      ∃ n evidence u, (checkpoint gradeRequest).attempt (recoveryExec gradeAuthority)
          ((List.range n).map fun _ => none)
          ((adapter gradeRequest [gradeCall]).attempt (recoveryExec gradeAuthority)
            (List.replicate 60 (some resumedScript)) s).state = u ∧
        u.outcome = .returned evidence ∧ List.Forall₂
          (fun call out => gradeAuthority.Authoritative u.state.tools call out.2 out.1)
          [gradeCall] evidence := by
  intro s
  have hrecovers := issued_ledger_recovers (F := Rat) plainCodec .sqlite fencedLeases
    fencedLeases_verifiesPublished [] [] gradeRequest [gradeCall] (by decide)
    [List.replicate 40 (some stoppedScript)] (List.replicate 60 (some resumedScript))
  have hreturned : ((adapter gradeRequest [gradeCall]).attempt (recoveryExec gradeAuthority)
      (List.replicate 60 (some resumedScript)) s).outcome.value?.isSome = true := by
    decide +kernel
  obtain ⟨results,hresults⟩ := Outcome.exists_returned _ hreturned
  exact ⟨by decide +kernel, results, hresults, hrecovers.2.2 results hresults fun _ => none⟩

end Example
end Whetstone.Tools
