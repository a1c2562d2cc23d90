import Whetstone.Optim.Codex.Adapter
import Whetstone.Optim.StepChecks
import Whetstone.Tools.IssuedQuiet
import Whetstone.Tools.IssuedReplies
import Whetstone.Tools.RecoveredExecution

/-! One invocation of the adapter. The runner answers once, the durable stores stand still, and
every call goes through the issued-call ledger of the Step, over the Tool Call Store. -/
namespace Whetstone.Optim.Codex
open Whetstone.Core Whetstone.Lib Whetstone.Experiment Whetstone.Tools Whetstone.Optim.Step

section Environment

variable [PyIdentifiers] [CandidateIdentity] [ToolIdentity] [CodexIdentity] [LeaseText]
variable (F : Type) [FiniteFloats F] [DecidableEq F] [RewardIdentity F] [ResultIdentity F]

/- What stands outside the adapter. `executor` is what the ledger would execute a call with that
   has no terminal entry. -/
structure CodexEnvironment (b : AdmissionBackend) (authority : LeaseAuthority) where
  leaseToken : String
  runner : String → Except RunnerError CodexOutputArtifact
  store : ExecutionState F b authority
  executor : ToolCall → Except String (Issued.ToolResult (ToolResult F))

/- The ledger, the calls made through the handle, and those that the ledger had executed. -/
structure CodexState where
  ledger : Issued.IssuedStore (OptimStepRequest F) (ToolResult F)
  issued : List ToolCall
  executed : List ToolCall

variable {F} {b : AdmissionBackend} {authority : LeaseAuthority}

def ledgerRequest (request : OptimStepRequest F) :
    Issued.OptimStepRequest (OptimStepRequest F) :=
  ⟨request.budget.remaining.get? toolCallsLabel, request⟩

variable (r : CitingRefinement b) (env : CodexEnvironment F b authority)

def CodexEnvironment.toolStore : Issued.ToolCallStore (ToolResult F) :=
  { (executionAuthority r authority).answers env.store with execute := env.executor }

variable (request : OptimStepRequest F)

/- `ledger.issue(call, handle)` of a harness that is alone with its ledger. -/
def issueAlone (call : ToolCall) (s : CodexState F) :
    Option (Except Issued.IssuedError (ToolResult F) × CodexState F) :=
  ((Issued.issue (ledgerRequest request) 0 call).alone
      (Issued.notedExec (env.toolStore r)) (s.ledger, s.executed)).map
    fun ended => (ended.1.map Issued.ToolResult.payload,
      ⟨ended.2.1, s.issued ++ [call], ended.2.2⟩)

def execCodex (o : CodexOp) (s : CodexState F) :
    Option (CodexOp.Reply (F := F) o × CodexState F) :=
  match o with
  | .mintLeaseToken => some (env.leaseToken, s)
  | .run leaseToken => some (env.runner leaseToken, s)
  | .putArtifact artifact => some (artifactRef artifact, s)
  | .acceptedCount query => some (b.acceptedCount query env.store.admission, s)
  | .admittedEntries query => some (b.admittedEntries query env.store.admission, s)
  | .findEntry key => some (b.get key env.store.admission, s)
  | .issue call => issueAlone r env request call s

/- The adapter on one request, with the ledger as the harness opened it. -/
def runInvoke (handles : List GuardedHandle)
    (ledger : Issued.IssuedStore (OptimStepRequest F) (ToolResult F)) :
    Option (Except CodexError (AdapterOutput F) × CodexState F) :=
  (invoke request handles).alone (execCodex r env request) ⟨ledger, [], []⟩

end Environment

/-! ### What holds of the durable stores -/

section Durable

variable [PyIdentifiers] [CandidateIdentity] [ToolIdentity] [LeaseText]
variable {F : Type} [FiniteFloats F] [DecidableEq F] [RewardIdentity F] [ResultIdentity F]
variable {b : AdmissionBackend} {authority : LeaseAuthority}
variable (store : ExecutionState F b authority) (request : OptimStepRequest F)

/- The capacity scope that a handle debits. -/
def GuardedHandle.scopeKey (handle : GuardedHandle) : ScopeKey :=
  (handle.config.storeNamespaceKey, ToolIdentity.toolConfigHash handle.config,
    handle.binding.scope.value, handle.binding.capacityScopeId)

/- An entry that debited the scope of the handle. -/
def Debited (handle : GuardedHandle) (entry : ToolCallStoreEntry) : Prop :=
  (∃ key, b.get key store.admission = .ok (some entry)) ∧
    (entry.state = .accepted ∨ entry.state = .completed) ∧ entry.scopeKey = handle.scopeKey

/- The template and the base that the call of an entry recorded. -/
def Records (entry : ToolCallStoreEntry) (template : String) (baseRef : TypedRef) : Prop :=
  ∃ rawBase, recordedArgs entry.toolCall = some (template, rawBase) ∧
    typedRefOf rawBase = some baseRef

omit [PyIdentifiers] [CandidateIdentity] [LeaseText] in
theorem Records.unique {entry : ToolCallStoreEntry} {template template' : String}
    {baseRef baseRef' : TypedRef} (h : Records entry template baseRef)
    (h' : Records entry template' baseRef') : template = template' ∧ baseRef = baseRef' := by
  obtain ⟨rawBase,hargs,href⟩ := h
  obtain ⟨rawBase',hargs',href'⟩ := h'
  rw [hargs] at hargs'
  cases hargs'
  rw [href] at href'
  cases href'
  exact ⟨rfl, rfl⟩

/- A reported call and the entry it was found under. -/
structure Reported (handle : GuardedHandle) (call : AdmittedCall F)
    (entry : ToolCallStoreEntry) : Prop where
  found : b.get (handle.config.storeNamespaceKey, call.callId) store.admission =
    .ok (some entry)
  completed : entry.state = .completed
  config : entry.toolCall.toolConfig = handle.config
  binding : entry.toolCall.capacityBinding = handle.binding
  recorded : Records entry call.template call.baseRef
  base : call.baseRef ∈ request.candidates.map Candidate.recordRef
  loaded : Loaded store entry call.result

/-- Every entry of the store stands under its own key. -/
def KeyedEntries : Prop :=
  ∀ key entry, b.get key store.admission = .ok (some entry) → entry.entryKey = key

end Durable

/-! ### What the adapter's own decisions establish -/

section Decisions

variable [PyIdentifiers] [ToolIdentity] {F : Type} [FiniteFloats F]
variable {request : OptimStepRequest F} {handle : GuardedHandle}

theorem seedCandidate_ok {seed : Candidate} (h : seedCandidate request = .ok seed) :
    seed ∈ request.candidates ∧ request.run.initialCandidateRef = some seed := by
  unfold seedCandidate at h
  split at h
  · cases h
  · rename_i found hfound
    split at h
    · rename_i hmem
      cases h
      exact ⟨hmem, hfound⟩
    · cases h

variable [CandidateIdentity]

theorem reportedCall_recorded {callId : String} {found : Option ToolCallStoreEntry}
    {call : ToolCall} {template : String} {baseRef : TypedRef}
    (h : reportedCall request handle callId found = .recorded call template baseRef) :
    ∃ entry, found = some entry ∧ entry.state = .completed ∧
      entry.toolCall.toolConfig = handle.config ∧ entry.toolCall.capacityBinding = handle.binding ∧
      Records entry template baseRef ∧ baseRef ∈ request.candidates.map Candidate.recordRef ∧
      call = entry.toolCall := by
  cases found with
  | none => cases h
  | some entry =>
    refine ⟨entry, rfl, ?_⟩
    simp only [reportedCall] at h
    split_ifs at h with hstate hbound
    rw [not_or, not_not, not_not] at hbound
    cases hargs : recordedArgs entry.toolCall with
    | none =>
      rw [hargs] at h
      cases h
    | some args =>
      obtain ⟨template',rawBase⟩ := args
      simp only [hargs] at h
      cases href : typedRefOf rawBase with
      | none =>
        rw [href] at h
        cases h
      | some baseRef' =>
        simp only [href] at h
        split_ifs at h with hbase
        cases h
        exact ⟨not_not.mp hstate, hbound.1, hbound.2, ⟨rawBase, hargs, href⟩, hbase, rfl⟩

theorem baseOf_some {ref : TypedRef} {base : Candidate} (h : baseOf request ref = some base) :
    base ∈ request.candidates ∧ base.recordRef = ref := by
  have hmem := List.mem_of_find?_eq_some h
  have href := List.find?_some h
  exact ⟨List.mem_reverse.mp hmem, of_decide_eq_true href⟩

theorem candidateFromDraft_ok {run : OptimRun F} {base candidate : Candidate}
    {candidateId template : String}
    (h : candidateFromDraft run base candidateId template = .ok candidate) :
    candidate = ⟨candidateId, base.recordRef,
        setField run.mutationField (.str template) base.payload⟩ ∧
      ∃ old, base.payload.lookup run.mutationField = some (.str old) ∧ old ≠ template := by
  unfold candidateFromDraft at h
  rw [bind_eq_ok] at h
  obtain ⟨_,_,h⟩ := h
  rw [bind_eq_ok] at h
  obtain ⟨_,hdiff,h⟩ := h
  cases h
  refine ⟨rfl, ?_⟩
  rw [diffCheck, raiseIf_bind_eq_ok, bind_eq_ok] at hdiff
  obtain ⟨_,value,hvalue,hdiff⟩ := hdiff
  rw [bind_eq_ok] at hdiff
  obtain ⟨old,hold,hdiff⟩ := hdiff
  rw [raiseIf_bind_eq_ok] at hdiff
  have hproposed : value = template := by
    simp only [proposedText, lookup_setField] at hvalue
    split at hvalue
    · cases hvalue
    · cases hvalue
      rfl
  refine ⟨old, ?_, fun hsame => hdiff.1 (hproposed.trans hsame.symm)⟩
  unfold baseText at hold
  split at hold
  · rename_i hlookup
    cases hold
    exact hlookup
  · cases hold
  · cases hold

variable [DecidableEq F] [RewardIdentity F]

/-- Only the initial candidate itself, under its own template, is its content. -/
theorem seedContentCandidate_some {call : AdmittedCall F} {seed : Candidate}
    (h : seedContentCandidate request call = .ok (some seed)) :
    seed ∈ request.candidates ∧ request.run.initialCandidateRef = some seed ∧
      call.baseRef = seed.recordRef ∧
      seed.payload.lookup request.run.mutationField = some (.str call.template) := by
  unfold seedContentCandidate at h
  split at h
  · cases h
  · rename_i found hfound
    split at h
    · cases h
    · rename_i hbase
      cases hseed : seedCandidate request with
      | error message =>
        rw [hseed] at h
        cases h
      | ok own =>
        obtain ⟨hmem,hown⟩ := seedCandidate_ok hseed
        rw [hfound] at hown
        cases hown
        simp only [hseed, Except.map] at h
        split at h
        · cases h
        · rename_i htemplate
          cases h
          exact ⟨hmem, hfound, not_not.mp hbase, not_not.mp htemplate⟩

theorem seedContentCandidate_none {call : AdmittedCall F} {seed : Candidate}
    (h : seedContentCandidate request call = .ok none)
    (hrun : request.run.initialCandidateRef = some seed) (hbase : call.baseRef = seed.recordRef) :
    seed.payload.lookup request.run.mutationField ≠ some (.str call.template) := by
  simp only [seedContentCandidate, hrun, if_neg (not_not.mpr hbase)] at h
  cases hseed : seedCandidate request with
  | error message =>
    rw [hseed] at h
    cases h
  | ok own =>
    obtain ⟨_,hown⟩ := seedCandidate_ok hseed
    rw [hrun] at hown
    cases hown
    simp only [hseed, Except.map] at h
    split at h
    · rename_i htemplate
      exact htemplate
    · cases h

end Decisions

section Reporting

variable [PyIdentifiers] [ToolIdentity] [CodexIdentity] [LeaseText]
variable {F : Type} [FiniteFloats F] [DecidableEq F] [RewardIdentity F] [ResultIdentity F]
variable {b : AdmissionBackend} {authority : LeaseAuthority}
variable (r : CitingRefinement b) (env : CodexEnvironment F b authority)
variable (request : OptimStepRequest F)

/- A program of the adapter, if it ends, ends with a result in `Q` or raises. -/
abbrev Ends {α : Type} (Q : α → CodexState F → Prop) (p : CodexProg F α) (s : CodexState F) :
    Prop :=
  p.Leads (execCodex r env request) Q (fun _ => True) s

variable {r env request} {handle : GuardedHandle} {s : CodexState F}

theorem ends_refuseIf (bad : Prop) [Decidable bad] (error : CodexError) :
    Ends r env request (fun _ t => ¬ bad ∧ t = s) (refuseIf bad error) s :=
  Prog.leads_mono (Prog.leads_ofExcept _ s)
    (fun _ _ h => ⟨(raiseIf_eq_ok bad error).mp h.1, h.2⟩) fun _ _ => trivial

theorem ends_fromValidation {α : Type} (x : Except String α) :
    Ends r env request (fun a t => x = .ok a ∧ t = s) (fromValidation x) s := by
  cases x with
  | error message => trivial
  | ok a => exact ⟨rfl, rfl⟩

theorem ends_fromAdmission {α : Type} (x : Except AdmissionError α) :
    Ends r env request (fun a t => x = .ok a ∧ t = s) (fromAdmission x) s := by
  cases x with
  | error message => trivial
  | ok a => exact ⟨rfl, rfl⟩

theorem ends_fromIssued {α : Type} (x : Except Issued.IssuedError α) :
    Ends r env request (fun a t => x = .ok a ∧ t = s) (fromIssued x) s := by
  cases x with
  | error message => trivial
  | ok a => exact ⟨rfl, rfl⟩

theorem ends_fromSeed {α : Type} (x : Except String α) :
    Ends r env request (fun a t => x = .ok a ∧ t = s) (fromSeed x) s := by
  cases x with
  | error message => trivial
  | ok a => exact ⟨rfl, rfl⟩

theorem ends_perform (o : CodexOp) :
    Ends r env request (fun reply t => execCodex r env request o s = some (reply, t))
      (perform o) s :=
  fun _ _ h => h

omit [PyIdentifiers] [CodexIdentity] in
/-- What the Tool Call Store answers for a call is loaded from the call's own entry. -/
theorem loaded_of_answered {call : ToolCall} {issued : Issued.ToolResult (ToolResult F)}
    (h : Issued.Answered (env.toolStore r) call issued) :
    ∃ entry, b.get (ToolCallStore.callKey call) env.store.admission = .ok (some entry) ∧
      entry.toolCall = call ∧ Loaded env.store entry issued.payload := by
  obtain ⟨entry,hget,hload⟩ := h
  obtain ⟨t,ht⟩ := answered_ok hget
  obtain ⟨_,hfound,hcall⟩ := get_returned ht
  obtain ⟨result,rfl,hloaded⟩ := loaded_of_authority (r := r) hload
  exact ⟨entry, hfound, hcall entry rfl, hloaded⟩

/-- A call through the handle returns what the store has of it, and is noted. -/
theorem ends_issueCall (call : ToolCall) :
    Ends r env request (fun result t => t.issued = s.issued ++ [call] ∧
      call.toolConfig = handle.config ∧ call.capacityBinding = handle.binding ∧
      ∃ entry, b.get (ToolCallStore.callKey call) env.store.admission = .ok (some entry) ∧
        entry.toolCall = call ∧ Loaded env.store entry result) (issueCall handle call) s := by
  refine Prog.leads_bind (ends_refuseIf _ _) ?_
  rintro _ _ ⟨hconfig,rfl⟩
  refine Prog.leads_bind (ends_refuseIf _ _) ?_
  rintro _ _ ⟨hbinding,rfl⟩
  refine Prog.leads_bind (ends_perform (.issue call)) ?_
  intro reply t hreply
  refine Prog.leads_mono (ends_fromIssued reply) ?_ fun _ _ => trivial
  rintro result _ ⟨rfl,rfl⟩
  obtain ⟨ended,hended,hresult⟩ := Option.map_eq_some_iff.mp hreply
  obtain ⟨reply,ledger,executed⟩ := ended
  cases reply with
  | error error => cases hresult
  | ok issued =>
    cases hresult
    refine ⟨rfl, not_not.mp hconfig, not_not.mp hbinding, ?_⟩
    exact loaded_of_answered ((Prog.leads_alone (Prog.leads_noting
      (Issued.replies_issue 0 call)) hended).1 issued rfl)

/-! ### The failing path -/

theorem ends_terminalize (stateDelta : List (String × Json)) (fallback : TerminalFailure)
    (alreadyIssued : List (AdmittedCall F)) (adoptable : Bool) :
    Ends r env request (fun output _ => output.proposedStatus = .failed)
      (terminalize handle stateDelta fallback alreadyIssued adoptable) s := by
  refine Prog.leads_bind (Prog.leads_true _ _) fun entries t _ => ?_
  refine Prog.leads_bind (Prog.leads_true _ _) fun count t _ => ?_
  exact Prog.leads_bind (Prog.leads_true _ _) fun issued t _ => rfl

theorem ends_failed {P : AdapterOutput F → CodexState F → Prop} (stateDelta : List (String × Json))
    (fallback : TerminalFailure) (alreadyIssued : List (AdmittedCall F)) (adoptable : Bool) :
    Ends r env request (fun output t => output.proposedStatus = .complete → P output t)
      (terminalize handle stateDelta fallback alreadyIssued adoptable) s := by
  refine Prog.leads_mono (ends_terminalize stateDelta fallback alreadyIssued adoptable) ?_
    fun _ _ => trivial
  intro output t hstatus hcomplete
  rw [hstatus] at hcomplete
  cases hcomplete

/-! ### The reported calls -/

variable [CandidateIdentity]

/-- Every id of the list is found, checked and issued in turn. -/
theorem ends_admittedCalls (hkeyed : KeyedEntries env.store) (callIds seen : List String)
    (admitted : List (AdmittedCall F)) :
    Ends r env request (fun found t => ∀ calls, found = .ok calls → ∃ new entries,
      calls = admitted ++ new ∧ new.map AdmittedCall.callId = callIds ∧ callIds.Nodup ∧
      (∀ id ∈ callIds, id ∉ seen) ∧ List.Forall₂ (Reported env.store request handle) new entries ∧
      t.issued = s.issued ++ entries.map fun entry => entry.toolCall)
      (admittedCalls request handle callIds seen admitted) s := by
  induction callIds generalizing seen admitted s with
  | nil =>
    rintro _ ⟨⟩
    exact ⟨[], [], (List.append_nil _).symm, rfl, List.nodup_nil, fun _ h => (by cases h), .nil,
      (List.append_nil _).symm⟩
  | cons callId rest ih =>
    unfold admittedCalls
    split
    · exact fun _ h => (by cases h)
    · rename_i hseen
      refine Prog.leads_bind (ends_perform _) ?_
      rintro _ _ ⟨⟩
      refine Prog.leads_bind (ends_fromAdmission _) ?_
      rintro found _ ⟨hfound,rfl⟩
      cases hreported : reportedCall request handle callId found with
      | rejected failure =>
        exact fun _ h => (by cases h)
      | malformed message =>
        trivial
      | recorded call template baseRef =>
        obtain ⟨entry,rfl,hstate,hconfig,hbinding,hrecords,hbase,rfl⟩ :=
          reportedCall_recorded hreported
        refine Prog.leads_bind (ends_issueCall entry.toolCall) ?_
        rintro result t ⟨hissued,_,_,entry',hget,hcall,hloaded⟩
        -- the entry that the handle reads is the one that the id was found under
        have hkey : ToolCallStore.callKey entry.toolCall =
            (handle.config.storeNamespaceKey, callId) := by
          have hown := hkeyed _ entry hfound
          rwa [ToolCallStoreEntry.entryKey, entry.citation.2.1] at hown
        have hsame : entry' = entry := by
          rw [hkey, hfound] at hget
          cases hget
          rfl
        subst hsame
        refine Prog.leads_mono (ih (callId :: seen) _) ?_ fun _ _ => trivial
        rintro found u hnew calls rfl
        obtain ⟨new,entries,rfl,hids,hnodup,hfresh,hall,hlog⟩ := hnew calls rfl
        refine ⟨⟨callId, result, template, baseRef⟩ :: new, entry' :: entries, by simp, by simp [hids],
          List.nodup_cons.mpr ⟨fun hmem => ?_, hnodup⟩, ?_, .cons ?_ hall, ?_⟩
        · exact hfresh callId hmem List.mem_cons_self
        · intro id hid
          rcases List.mem_cons.mp hid with rfl | hid
          · exact hseen
          · exact fun hmem => hfresh id hid (List.mem_cons_of_mem _ hmem)
        · exact ⟨hfound, hstate, hconfig, hbinding, hrecords, hbase, hloaded⟩
        · rw [hlog, hissued, List.map_cons, List.append_assoc]
          rfl

end Reporting
end Whetstone.Optim.Codex
