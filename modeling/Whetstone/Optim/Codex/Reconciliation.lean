import Whetstone.Optim.Codex.Completion

/-! When a Codex Step that does not complete is totalled: it fails with an output, it has issued
every call that can be rebuilt, and its failure accounts for the failures of the issued calls. -/
namespace Whetstone.Optim.Codex
open Whetstone.Core Whetstone.Lib Whetstone.Experiment Whetstone.Tools Whetstone.Optim.Step

section Statements

variable [PyIdentifiers] [CandidateIdentity] [ToolIdentity] [LeaseText]
variable {F : Type} [FiniteFloats F] [DecidableEq F] [RewardIdentity F] [ResultIdentity F]
variable {b : AdmissionBackend} {authority : LeaseAuthority}
variable (store : ExecutionState F b authority) (request : OptimStepRequest F)
variable (handle : GuardedHandle)

/- The call has recorded a template and a base that can be read. -/
def Rebuildable (entry : ToolCallStoreEntry) : Prop :=
  ∃ template baseRef, Records entry template baseRef

/-! ### The property -/

/- The result that the store has of an issued call. -/
def ResultOf (call : ToolCall) (result : ToolResult F) : Prop :=
  ∃ entry, b.get (ToolCallStore.callKey call) store.admission = .ok (some entry) ∧
    entry.toolCall = call ∧ Loaded store entry result

/- What a failed Step owes to the calls of its scope. -/
structure Reconciled (output : AdapterOutput F) (issued : List ToolCall) : Prop where
  rebuilt : ∀ entry, Debited store handle entry → entry.state = .completed → Rebuildable entry →
    entry.toolCall ∈ issued
  accounted : ∃ results, List.Forall₂ (ResultOf store) issued results ∧
    validateSharedTerminalFailure output.terminalFailure
      (results.filterMap fun result => result.terminalFailure) (results ≠ []) = .ok ()

/-- A Step that ends: it completes or fails, has issued no call twice and executed none, and has
reconciled its scope if it fails. -/
structure Totalled (output : AdapterOutput F) (t : CodexState F) : Prop where
  ended : output.proposedStatus = .complete ∨ output.proposedStatus = .failed
  once : (t.issued.map ToolCall.callId).Nodup
  unexecuted : t.executed = []
  reconciled : output.proposedStatus = .failed → Reconciled store handle output t.issued

/-! ### The condition -/

def storedResult (entry : ToolCallStoreEntry) : Option (ToolResult F) :=
  entry.toolResultRef.bind store.results.get?

def nestedFailures (entries : List ToolCallStoreEntry) : List TerminalFailure :=
  entries.filterMap fun entry => (storedResult store entry).bind fun result =>
    result.terminalFailure

/- The args have the types that a reconciliation asks for before it issues the call. -/
def usable (entry : ToolCallStoreEntry) : Bool := (recordedArgs entry.toolCall).isSome

/- The completed entries that no accepted report has put on the ledger. -/
def outstanding (entries accepted : List ToolCallStoreEntry) : List ToolCallStoreEntry :=
  (entries.filter fun entry =>
    entry.toolCall.callId ∉ accepted.map fun own => own.toolCall.callId).filter
      fun entry => entry.state = .completed

/-- The completed calls that are left, up to the first one without usable args, have a base and
fit into the budget, and behind that one there is nothing to rebuild and before it nothing that
failed. -/
structure Drains (limit : Nat) (accepted left : List ToolCallStoreEntry) : Prop where
  wellFormed : ∀ entry ∈ left.takeWhile usable, Rebuildable entry
  covered : accepted.length + (left.takeWhile usable).length ≤ limit
  dropped : ∀ entry rest, left.dropWhile usable = entry :: rest →
    (∀ failure ∈ nestedFailures store (accepted ++ left.takeWhile usable),
      failure = unusableEntryFailure entry.toolCall.callId) ∧ ∀ other ∈ rest, ¬ Rebuildable other

/- The reports that are accepted in turn, and what becomes of the first one that is not. -/
def readReports (find : String → Option ToolCallStoreEntry) : (callIds seen : List String) →
    List ToolCallStoreEntry × Option ReportedCall
  | [], _ => ([], none)
  | callId :: rest, seen =>
    if callId ∈ seen then ([], some (.rejected (unevaluatedFailure
      "Codex reported one Tool Call id more than once" callId)))
    else match find callId, reportedCall request handle callId (find callId) with
      | some entry, .recorded _ _ _ =>
        (entry :: (readReports find rest (callId :: seen)).1,
          (readReports find rest (callId :: seen)).2)
      | _, refused => ([], some refused)

def findEntry (callId : String) : Option ToolCallStoreEntry :=
  (b.get (handle.config.storeNamespaceKey, callId) store.admission).toOption.join

def reports (artifact : CodexOutputArtifact) : List ToolCallStoreEntry × Option ReportedCall :=
  readReports request handle (findEntry store handle) artifact.evaluatedCallIds []

/- The selected one of these calls is not a scored call with an empty template, unless that is
   the template of the seed. -/
def Draftable (artifact : CodexOutputArtifact) (accepted : List ToolCallStoreEntry) : Prop :=
  ∀ callId ∈ accepted.map fun own => own.toolCall.callId, artifact.selectedCallId = some callId →
    ∀ baseRef, Selects store handle callId "" baseRef → SelectsSeed store request handle callId

/- The artifact of this run: no report finds a malformed base, what the accepted reports leave
   can be drained, and where they leave nothing the selection can be drafted. -/
structure Settles (limit : Nat) (entries : List ToolCallStoreEntry)
    (artifact : CodexOutputArtifact) : Prop where
  wellFormed : ∀ message, (reports store request handle artifact).2 ≠ some (.malformed message)
  drains : Drains store limit (reports store request handle artifact).1
    (outstanding entries (reports store request handle artifact).1)
  selected : (reports store request handle artifact).2 = none →
    entries.length ≤ (reports store request handle artifact).1.length →
    Draftable store request handle artifact (reports store request handle artifact).1

/- The text of the exception, as the failure carries it. -/
def RunnerError.text : RunnerError → String
  | .wallBudget message _ _ => message
  | .mcpHost message cause => message ++ ": " ++ cause
  | .opaqueStep message _ => message
  | .other message => message

/- The entries that debited the scope of the handle, by their ordinals. -/
def scopeEntries : List ToolCallStoreEntry :=
  match scopeQuery handle.config handle.binding with
  | .ok query => (b.admittedEntries query store.admission).toOption.getD []
  | .error _ => []

def toolCallBudget : Nat := (request.budget.remaining.get? toolCallsLabel).getD 0

variable [CodexIdentity]

/- The artifact is of another run, or does not carry the token of this one. -/
def Foreign (leaseToken : String) (artifact : CodexOutputArtifact) : Prop :=
  artifact.runId ≠ request.runId ∨
    artifact.leaseTokenHash ≠ CodexIdentity.leaseTokenHash leaseToken

/-- The runner's exception has a text, and what its outcome leaves to reconcile can be drained. -/
def Reconcilable (leaseToken : String) : Except RunnerError CodexOutputArtifact → Prop
  | .error error => error.text ≠ "" ∧
    Drains store (toolCallBudget request) [] (outstanding (scopeEntries store handle) [])
  | .ok artifact =>
    (Foreign request leaseToken artifact →
      Drains store (toolCallBudget request) [] (outstanding (scopeEntries store handle) [])) ∧
    (¬ Foreign request leaseToken artifact →
      Settles store request handle (toolCallBudget request) (scopeEntries store handle) artifact)

end Statements
section Reconciliation

variable [PyIdentifiers] [ToolIdentity] [CodexIdentity] [LeaseText] [CandidateIdentity]
variable {F : Type} [FiniteFloats F] [DecidableEq F] [RewardIdentity F] [ResultIdentity F]
variable {b : AdmissionBackend} {authority : LeaseAuthority} {r : CitingRefinement b}
variable {env : CodexEnvironment F b authority} {store : ExecutionState F b authority}
variable {request : OptimStepRequest F} {handle : GuardedHandle} {s : CodexState F}

/-- What holds of the entries of a scope: they are the debits, each with an id of its own, of
calls of the handle, and the completed ones have a terminal result. -/
structure Standing (store : ExecutionState F b authority) (handle : GuardedHandle)
    (query : ScopeQuery) (entries : List ToolCallStoreEntry) : Prop where
  asked : scopeQuery handle.config handle.binding = .ok query
  count : b.acceptedCount query store.admission = .ok entries.length
  admitted : b.admittedEntries query store.admission = .ok entries
  mem : ∀ entry, entry ∈ entries ↔ Debited store handle entry
  ids : (entries.map fun entry => entry.toolCall.callId).Nodup
  called : ∀ entry ∈ entries, entry.toolCall.toolConfig = handle.config ∧
    entry.toolCall.capacityBinding = handle.binding
  keyed : KeyedEntries store
  read : ∀ key, ∃ found, b.get key store.admission = .ok found
  loads : ∀ entry ∈ entries, entry.state = .completed → ∃ result, Loaded store entry result

/- The state of a Step that has issued the calls of these entries and executed none. -/
structure AtCalls (request : OptimStepRequest F) (entries : List ToolCallStoreEntry)
    (s : CodexState F) : Prop where
  quiet : Issued.Quiet (ledgerRequest request) 0 (entries.map fun entry => entry.toolCall) s.ledger
  issued : s.issued = entries.map fun entry => entry.toolCall
  executed : s.executed = []
  within : entries.length ≤ toolCallBudget request

/- A program of the adapter ends, with a result in `Q` or an error in `E`. -/
abbrev Runs (r : CitingRefinement b) (env : CodexEnvironment F b authority)
    (request : OptimStepRequest F) {α : Type} (Q : α → CodexState F → Prop) (E : CodexError → Prop)
    (p : CodexProg F α) (s : CodexState F) : Prop :=
  p.Ends (execCodex r env request) Q E s

variable {query : ScopeQuery} {entries : List ToolCallStoreEntry}

/-! ### The entries of the scope -/

omit [PyIdentifiers] [CodexIdentity] [CandidateIdentity] in
theorem Standing.same_id (h : Standing store handle query entries) {entry other : ToolCallStoreEntry}
    (hentry : entry ∈ entries) (hother : other ∈ entries)
    (hid : entry.toolCall.callId = other.toolCall.callId) : entry = other :=
  List.inj_on_of_nodup_map h.ids hentry hother hid

omit [PyIdentifiers] [CodexIdentity] [CandidateIdentity] in
theorem Standing.found (h : Standing store handle query entries) {entry : ToolCallStoreEntry}
    (hentry : entry ∈ entries) :
    b.get (ToolCallStore.callKey entry.toolCall) store.admission = .ok (some entry) := by
  obtain ⟨⟨key,hkey⟩,_⟩ := (h.mem entry).mp hentry
  have hown := h.keyed key entry hkey
  rw [ToolCallStoreEntry.entryKey, entry.citation.2.1] at hown
  rwa [ToolCallStore.callKey, hown]

omit [PyIdentifiers] [CodexIdentity] [CandidateIdentity] in
theorem storedResult_of_loaded {entry : ToolCallStoreEntry} {result : ToolResult F}
    (h : Loaded store entry result) : storedResult store entry = some result := by
  rw [storedResult, h.ref, Option.bind_some]
  exact h.stored

omit [PyIdentifiers] [CodexIdentity] [CandidateIdentity] in
theorem scopeEntries_eq (h : Standing store handle query entries) :
    scopeEntries store handle = entries := by
  rw [scopeEntries, h.asked]
  dsimp only
  rw [h.admitted]
  rfl

/-! ### Calls through the handle -/

omit [CandidateIdentity] in
theorem runs_perform {α : Type} {Q : α → CodexState F → Prop} {E : CodexError → Prop}
    (o : CodexOp) (reply : CodexOp.Reply (F := F) o) (f : CodexOp.Reply (F := F) o → CodexProg F α)
    (t : CodexState F) (ho : execCodex r env request o s = some (reply, t))
    (hf : Runs r env request Q E (f reply) t) :
    Runs r env request Q E ((perform o).bind f) s :=
  ⟨reply, t, ho, hf⟩

omit [CandidateIdentity] in
theorem runs_refuseIf {α : Type} {Q : α → CodexState F → Prop} {E : CodexError → Prop}
    {bad : Prop} [Decidable bad] {error : CodexError} {f : Unit → CodexProg F α} (hbad : ¬ bad)
    (hf : Runs r env request Q E (f ()) s) :
    Runs r env request Q E ((refuseIf bad error).bind f) s := by
  rw [refuseIf, raiseIf_neg bad error hbad]
  exact hf

omit [CandidateIdentity] in
/-- A completed call of the scope that is not issued yet is answered by its result. -/
theorem runs_issueCall {issued : List ToolCallStoreEntry} {entry : ToolCallStoreEntry}
    {result : ToolResult F} (hs : AtCalls request issued s)
    (hfound : b.get (ToolCallStore.callKey entry.toolCall) env.store.admission = .ok (some entry))
    (hloaded : Loaded env.store entry result)
    (hconfig : entry.toolCall.toolConfig = handle.config)
    (hbinding : entry.toolCall.capacityBinding = handle.binding)
    (hnew : entry.toolCall.callId ∉ issued.map fun own => own.toolCall.callId) :
    Runs r env request (fun out t => out = result ∧ AtCalls request (issued ++ [entry]) t)
      (fun _ => toolCallBudget request ≤ issued.length) (issueCall handle entry.toolCall) s := by
  refine runs_refuseIf (not_not.mpr hconfig) (runs_refuseIf (not_not.mpr hbinding) ?_)
  have hstored := (authoritative_iff (r := r) (s := env.store) entry.toolCall entry
    (issuedResult result)).mpr ⟨hfound, rfl, result, rfl, hloaded⟩
  have hcallId : entry.toolCall.callId ∉
      (issued.map fun own => own.toolCall).map ToolCall.callId := by
    rwa [List.map_map]
  have hpersist : (env.toolStore r).persistResult (issuedResult result) = .ok true :=
    congrArg Prod.fst (executionAuthority_persistResult (r := r) (s := env.store) _)
  obtain ⟨reply,⟨ledger,executed⟩,halone,hok,herror⟩ := Prog.ends_alone
    (Issued.ends_issue hs.quiet hcallId hloaded.call hstored.get
      hstored.terminal hstored.load hpersist s.executed)
  have hexec : execCodex r env request (.issue entry.toolCall) s = some
      (reply.map Issued.ToolResult.payload, ⟨ledger, s.issued ++ [entry.toolCall], executed⟩) := by
    simp only [execCodex, issueAlone, halone, Option.map_some]
  refine runs_perform _ _ _ _ hexec ?_
  cases reply with
  | error error =>
    have hlimit := herror error rfl
    rw [List.length_map] at hlimit
    exact hlimit
  | ok out =>
    obtain ⟨rfl,hlimit,hquiet,hnoted⟩ := hok out rfl
    rw [List.length_map] at hlimit
    refine ⟨rfl, ⟨?_, ?_, ?_, ?_⟩⟩
    · rw [List.map_append]
      exact hquiet
    · rw [List.map_append]
      exact congrArg (· ++ [entry.toolCall]) hs.issued
    · exact hnoted.trans hs.executed
    · rw [List.length_append]
      exact hlimit

/-! ### The calls that are left -/

/- The terminal results of these entries. -/
abbrev Held (store : ExecutionState F b authority) (entries : List ToolCallStoreEntry)
    (results : List (ToolResult F)) : Prop :=
  List.Forall₂ (Loaded store) entries results

omit [PyIdentifiers] [CodexIdentity] [CandidateIdentity] in
theorem nestedFailures_of_held {results : List (ToolResult F)} (h : Held store entries results) :
    nestedFailures store entries = results.filterMap fun result => result.terminalFailure := by
  induction h with
  | nil => rfl
  | cons hloaded _ ih =>
    rw [nestedFailures, List.filterMap_cons, List.filterMap_cons, storedResult_of_loaded hloaded,
      ← ih]
    rfl

omit [PyIdentifiers] [CodexIdentity] [CandidateIdentity] in
theorem exists_held (h : ∀ entry ∈ entries, ∃ result, Loaded store entry result) :
    ∃ results, Held store entries results := by
  induction entries with
  | nil => exact ⟨[], .nil⟩
  | cons entry rest ih =>
    obtain ⟨result,hloaded⟩ := h entry List.mem_cons_self
    obtain ⟨results,hheld⟩ := ih fun own hown => h own (List.mem_cons_of_mem _ hown)
    exact ⟨result :: results, .cons hloaded hheld⟩

/- Where the reconciliation ends: at the end, or at the first entry without usable args. -/
def Drained (store : ExecutionState F b authority) (left : List ToolCallStoreEntry) :
    Except TerminalFailure (List (AdmittedCall F)) → Prop
  | .ok calls => left.dropWhile usable = [] ∧
    Held store (left.takeWhile usable) (calls.map AdmittedCall.result)
  | .error failure => ∃ entry rest, left.dropWhile usable = entry :: rest ∧
      failure = unusableEntryFailure entry.toolCall.callId

omit [CandidateIdentity] in
/-- The calls that are left are issued in order, up to the first one without usable args. -/
theorem runs_issueCompleted (h : Standing env.store handle query entries)
    {issued left : List ToolCallStoreEntry} (hs : AtCalls request issued s)
    (hsub : ∀ entry ∈ left, entry ∈ entries ∧ entry.state = .completed)
    (hids : ((issued ++ left).map fun own => own.toolCall.callId).Nodup) :
    Runs r env request (fun found t => (∀ entry ∈ left.takeWhile usable, Rebuildable entry) ∧
      issued.length + (left.takeWhile usable).length ≤ toolCallBudget request ∧
      AtCalls request (issued ++ left.takeWhile usable) t ∧ Drained env.store left found)
      (fun _ => ¬ ((∀ entry ∈ left.takeWhile usable, Rebuildable entry) ∧
        issued.length + (left.takeWhile usable).length ≤ toolCallBudget request))
      (issueCompleted handle left) s := by
  induction left generalizing issued s with
  | nil =>
    refine ⟨fun _ hmem => (by cases hmem), hs.within, ?_, rfl, .nil⟩
    rw [List.takeWhile_nil, List.append_nil]
    exact hs
  | cons entry rest ih =>
    obtain ⟨hmem,hcompleted⟩ := hsub entry List.mem_cons_self
    unfold issueCompleted
    cases hargs : recordedArgs entry.toolCall with
    | none =>
      have hstop : usable entry = false := by rw [usable, hargs]; rfl
      rw [List.takeWhile_cons_of_neg (by simp [hstop])]
      refine ⟨fun _ hmem => (by cases hmem), hs.within, ?_, entry, rest, ?_, rfl⟩
      · rw [List.append_nil]
        exact hs
      · rw [List.dropWhile_cons_of_neg (by simp [hstop])]
    | some args =>
      obtain ⟨template,rawBase⟩ := args
      have husable : usable entry = true := by rw [usable, hargs]; rfl
      rw [List.takeWhile_cons_of_pos husable]
      obtain ⟨result,hloaded⟩ := h.loads entry hmem hcompleted
      obtain ⟨hconfig,hbinding⟩ := h.called entry hmem
      have hmoved : ((issued ++ [entry] ++ rest).map fun own => own.toolCall.callId).Nodup := by
        rw [List.append_assoc]
        exact hids
      have hnew : entry.toolCall.callId ∉ issued.map fun own => own.toolCall.callId := by
        rw [List.map_append, List.nodup_append'] at hids
        exact fun hin => hids.2.2 hin (List.mem_map_of_mem List.mem_cons_self)
      refine Prog.ends_bind (Prog.ends_mono (runs_issueCall hs (h.found hmem) hloaded hconfig
        hbinding hnew) (fun _ _ hout => hout) ?_) ?_
      · rintro _ hexhausted ⟨_,hcovered⟩
        rw [List.length_cons] at hcovered
        omega
      rintro out t ⟨rfl,ht⟩
      cases href : typedRefOf rawBase with
      | none =>
        rintro ⟨hwell,_⟩
        obtain ⟨template',baseRef,rawBase',hargs',href'⟩ := hwell entry List.mem_cons_self
        rw [hargs] at hargs'
        cases hargs'
        rw [href] at href'
        cases href'
      | some baseRef =>
        have hbuilt : Rebuildable entry := ⟨template, baseRef, rawBase, hargs, href⟩
        have hwell : (∀ own ∈ entry :: rest.takeWhile usable, Rebuildable own) ↔
            ∀ own ∈ rest.takeWhile usable, Rebuildable own := by
          rw [List.forall_mem_cons, and_iff_right hbuilt]
        have hlength : issued.length + (entry :: rest.takeWhile usable).length =
            (issued ++ [entry]).length + (rest.takeWhile usable).length := by
          simp only [List.length_cons, List.length_append, List.length_nil]
          omega
        have happend : issued ++ entry :: rest.takeWhile usable =
            issued ++ [entry] ++ rest.takeWhile usable := by
          rw [List.append_assoc]
          rfl
        rw [hwell, hlength, happend]
        change Prog.Ends _ _ _ ((issueCompleted handle rest).bind _) t
        refine Prog.ends_bind (ih ht (fun own hown => hsub own (List.mem_cons_of_mem _ hown))
          hmoved) ?_
        rintro found u ⟨hall,hcovered,hu,hdrained⟩
        refine ⟨hall, hcovered, hu, ?_⟩
        have hdrop : (entry :: rest).dropWhile usable = rest.dropWhile usable :=
          List.dropWhile_cons_of_pos husable
        cases found with
        | error failure =>
          obtain ⟨last,behind,hlast,hfailure⟩ := hdrained
          exact ⟨last, behind, hdrop.trans hlast, hfailure⟩
        | ok calls =>
          refine ⟨hdrop.trans hdrained.1, ?_⟩
          rw [List.takeWhile_cons_of_pos husable]
          exact .cons hloaded hdrained.2

/-! ### The failure of the Step -/

omit [PyIdentifiers] [CodexIdentity] [CandidateIdentity] in
theorem loaded_unique {entry : ToolCallStoreEntry} {result result' : ToolResult F}
    (h : Loaded store entry result) (h' : Loaded store entry result') : result = result' :=
  Option.some.inj ((storedResult_of_loaded h).symm.trans (storedResult_of_loaded h'))

omit [PyIdentifiers] [CodexIdentity] [CandidateIdentity] in
theorem resultOf_iff_of_held {results results' : List (ToolResult F)}
    (h : Held store entries results) (hfound : ∀ entry ∈ entries,
      b.get (ToolCallStore.callKey entry.toolCall) store.admission = .ok (some entry)) :
    List.Forall₂ (ResultOf store) (entries.map fun entry => entry.toolCall) results' ↔
      results' = results := by
  induction h generalizing results' with
  | nil => simp
  | @cons entry result rest results hloaded _ ih =>
    have hrest := fun results' => @ih results' fun own hown =>
      hfound own (List.mem_cons_of_mem _ hown)
    rw [List.map_cons]
    constructor
    · rintro (_ | ⟨⟨found,hget,_,hresult⟩,htail⟩)
      rw [hfound entry List.mem_cons_self] at hget
      cases hget
      rw [(hrest _).mp htail, loaded_unique hloaded hresult]
    · rintro rfl
      exact .cons ⟨entry, hfound entry List.mem_cons_self, rfl, hloaded⟩ ((hrest _).mpr rfl)

omit [PyIdentifiers] [ToolIdentity] [CodexIdentity] [LeaseText] [CandidateIdentity] in
theorem supersededCodes_withDetail (failure : TerminalFailure) (codes : List String) :
    supersededCodes (withDetail failure supersededFailureCodesKey (.arr (codes.map .str))) =
      some codes := by
  simp only [supersededCodes, withDetail, lookup_setField]
  induction codes with
  | nil => rfl
  | cons code rest ih =>
    rw [List.map_cons, List.mapM_cons, ih]
    rfl

omit [ResultIdentity F] in
omit [PyIdentifiers] [ToolIdentity] [CodexIdentity] [LeaseText] [CandidateIdentity] in
/-- The failure that the adapter shares accounts for the calls it was made from. -/
theorem validate_sharedFailure (calls : List (AdmittedCall F)) (fallback : TerminalFailure)
    (alwaysSupersede : Bool) :
    validateSharedTerminalFailure (some (sharedFailure calls fallback alwaysSupersede))
      ((calls.map AdmittedCall.result).filterMap fun result => result.terminalFailure)
      (calls.map AdmittedCall.result ≠ []) = .ok () := by
  have hmap : (calls.map AdmittedCall.result).filterMap (fun result => result.terminalFailure) =
      calls.filterMap fun call => call.result.terminalFailure := List.filterMap_map
  rw [hmap]
  unfold sharedFailure
  cases hnested : calls.filterMap fun call => call.result.terminalFailure with
  | nil => simp [validateSharedTerminalFailure]
  | cons first rest =>
    have hsome : calls.map AdmittedCall.result ≠ [] := by
      intro hnone
      rw [List.map_eq_nil_iff.mp hnone] at hnested
      cases hnested
    dsimp only
    split
    · rename_i hadopts
      have hsame : ∀ failure ∈ first :: rest, failure = first :=
        List.forall_mem_cons.mpr ⟨rfl, hadopts.2⟩
      exact if_pos hsame
    · rw [validateSharedTerminalFailure]
      split
      · rfl
      · rw [if_neg (by simpa using hsome), validateSupersession, supersededCodes_withDetail]
        exact (raiseIf_eq_ok _ _).mpr (not_not.mpr (List.mergeSort_perm _ _))

omit [PyIdentifiers] [ToolIdentity] [CodexIdentity] [LeaseText] [CandidateIdentity] in
theorem validate_unusable (callId : String) (nested : List TerminalFailure) (allowed : Bool) :
    validateSharedTerminalFailure (some (unusableEntryFailure callId)) nested allowed = .ok () ↔
      ∀ failure ∈ nested, failure = unusableEntryFailure callId := by
  rw [validateSharedTerminalFailure]
  split
  · rename_i hsame
    exact ⟨fun _ => hsame, fun _ => rfl⟩
  · rename_i hother
    refine ⟨fun h => ?_, fun h => absurd h hother⟩
    split at h
    · cases h
    · cases h

/-! ### The failing path -/

omit [PyIdentifiers] [CodexIdentity] [LeaseText] [CandidateIdentity] in
theorem usable_of_rebuildable {entry : ToolCallStoreEntry} (h : Rebuildable entry) :
    usable entry = true := by
  obtain ⟨template,baseRef,rawBase,hargs,_⟩ := h
  rw [usable, hargs]
  rfl

omit [PyIdentifiers] [CodexIdentity] [LeaseText] [CandidateIdentity] in
theorem mem_outstanding {accepted : List ToolCallStoreEntry} {entry : ToolCallStoreEntry} :
    entry ∈ outstanding entries accepted ↔ entry ∈ entries ∧
      entry.toolCall.callId ∉ (accepted.map fun own => own.toolCall.callId) ∧
      entry.state = .completed := by
  simp only [outstanding, List.mem_filter, decide_eq_true_eq, and_assoc]

/- Completed entries of a scope, that a Step has put on its ledger one by one. -/
structure Picked (entries accepted : List ToolCallStoreEntry) : Prop where
  sub : ∀ entry ∈ accepted, entry ∈ entries ∧ entry.state = .completed
  nodup : (accepted.map fun own => own.toolCall.callId).Nodup

omit [PyIdentifiers] [CodexIdentity] [CandidateIdentity] in
theorem Standing.nodup (h : Standing store handle query entries)
    {accepted : List ToolCallStoreEntry} (hpicked : Picked entries accepted) :
    ((accepted ++ outstanding entries accepted).map fun own => own.toolCall.callId).Nodup := by
  rw [List.map_append, List.nodup_append']
  refine ⟨hpicked.nodup, ?_, ?_⟩
  · exact ((List.filter_sublist.trans List.filter_sublist).map _).nodup h.ids
  · intro callId hmem hleft
    obtain ⟨entry,hentry,rfl⟩ := List.mem_map.mp hleft
    exact (mem_outstanding.mp hentry).2.1 hmem

omit [PyIdentifiers] [CodexIdentity] [CandidateIdentity] in
/-- Every completed entry that can be rebuilt is issued, unless it stands behind one without
usable args. -/
theorem Standing.rebuilt_iff (h : Standing store handle query entries)
    {accepted : List ToolCallStoreEntry} (hpicked : Picked entries accepted) :
    (∀ entry, Debited store handle entry → entry.state = .completed → Rebuildable entry →
      entry.toolCall ∈ (accepted ++ (outstanding entries accepted).takeWhile usable).map
        fun own => own.toolCall) ↔
    ∀ entry rest, (outstanding entries accepted).dropWhile usable = entry :: rest →
      ∀ other ∈ rest, ¬ Rebuildable other := by
  have hsplit := List.takeWhile_append_dropWhile (p := usable)
    (l := outstanding entries accepted)
  constructor
  · intro hissued last rest hdrop other hother hbuilt
    rw [hdrop] at hsplit
    have hleft : other ∈ outstanding entries accepted := by
      rw [← hsplit]
      exact List.mem_append_right _ (List.mem_cons_of_mem _ hother)
    obtain ⟨hmem,_,hcompleted⟩ := mem_outstanding.mp hleft
    obtain ⟨own,hown,hcall⟩ := List.mem_map.mp
      (hissued other ((h.mem other).mp hmem) hcompleted hbuilt)
    have hnodup := h.nodup hpicked
    rw [← hsplit, ← List.append_assoc, List.map_append, List.nodup_append'] at hnodup
    refine hnodup.2.2 (List.mem_map_of_mem hown) ?_
    rw [hcall]
    exact List.mem_map_of_mem (List.mem_cons_of_mem _ hother)
  · intro hdropped entry hdebited hcompleted hbuilt
    have hmem := (h.mem entry).mpr hdebited
    refine List.mem_map_of_mem ?_
    by_cases hin : entry.toolCall.callId ∈ accepted.map fun own => own.toolCall.callId
    · obtain ⟨own,hown,hid⟩ := List.mem_map.mp hin
      rw [← h.same_id (hpicked.sub own hown).1 hmem hid]
      exact List.mem_append_left _ hown
    · have hleft := mem_outstanding.mpr ⟨hmem, hin, hcompleted⟩
      rw [← hsplit, List.mem_append] at hleft
      refine List.mem_append_right _ (hleft.resolve_right fun hdrop => ?_)
      cases hlist : (outstanding entries accepted).dropWhile usable with
      | nil =>
        rw [hlist] at hdrop
        cases hdrop
      | cons last rest =>
        have hlast : usable last = false := by
          have hhead := List.head?_dropWhile_not usable (outstanding entries accepted)
          rw [hlist] at hhead
          exact hhead
        rw [hlist] at hdrop
        cases List.mem_cons.mp hdrop with
        | inl hsame =>
          rw [← hsame, usable_of_rebuildable hbuilt] at hlast
          cases hlast
        | inr hrest => exact hdropped last rest hlist entry hrest hbuilt

omit [PyIdentifiers] [CodexIdentity] [LeaseText] [CandidateIdentity] [ResultIdentity F] in
theorem reconciledFailure_shared (left : List ToolCallStoreEntry) (calls : List (AdmittedCall F))
    (fallback : TerminalFailure) (adoptable : Bool) : ∃ own always,
    reconciledFailure left calls fallback adoptable = sharedFailure calls own always := by
  unfold reconciledFailure
  dsimp only
  split
  · exact ⟨_, true, rfl⟩
  · exact ⟨fallback, !adoptable, rfl⟩

/- The failure that a reconciliation ends with. -/
def settledFailure (left : List ToolCallStoreEntry) (admitted : List (AdmittedCall F))
    (fallback : TerminalFailure) (adoptable : Bool) :
    Except TerminalFailure (List (AdmittedCall F)) → TerminalFailure
  | .error failure => failure
  | .ok calls => reconciledFailure left (admitted ++ calls) fallback adoptable

omit [PyIdentifiers] [CodexIdentity] [CandidateIdentity] in
/-- The failure accounts for the issued calls, unless it stands for an entry without usable args
and one of the issued calls failed on its own. -/
theorem Standing.accounted_iff (h : Standing store handle query entries)
    {accepted : List ToolCallStoreEntry} (hpicked : Picked entries accepted)
    {admitted : List (AdmittedCall F)} (hheld : Held store accepted (admitted.map AdmittedCall.result))
    {found : Except TerminalFailure (List (AdmittedCall F))}
    (hdrained : Drained store (outstanding entries accepted) found) (left : List ToolCallStoreEntry)
    (fallback : TerminalFailure) (adoptable : Bool) :
    (∃ results, List.Forall₂ (ResultOf store)
      ((accepted ++ (outstanding entries accepted).takeWhile usable).map fun own => own.toolCall)
        results ∧ validateSharedTerminalFailure
          (some (settledFailure left admitted fallback adoptable found))
          (results.filterMap fun result => result.terminalFailure) (results ≠ []) = .ok ()) ↔
    ∀ entry rest, (outstanding entries accepted).dropWhile usable = entry :: rest →
      ∀ failure ∈ nestedFailures store
        (accepted ++ (outstanding entries accepted).takeWhile usable),
        failure = unusableEntryFailure entry.toolCall.callId := by
  have hissued : ∀ entry ∈ accepted ++ (outstanding entries accepted).takeWhile usable,
      entry ∈ entries ∧ entry.state = .completed := by
    intro entry hentry
    cases List.mem_append.mp hentry with
    | inl hown => exact hpicked.sub entry hown
    | inr htaken =>
      obtain ⟨hmem,_,hcompleted⟩ := mem_outstanding.mp (List.takeWhile_subset _ htaken)
      exact ⟨hmem, hcompleted⟩
  have hfound := fun entry hentry => h.found (hissued entry hentry).1
  obtain ⟨results,hall⟩ := exists_held fun entry hentry =>
    h.loads entry (hissued entry hentry).1 (hissued entry hentry).2
  simp only [resultOf_iff_of_held hall hfound, exists_eq_left]
  rw [nestedFailures_of_held hall]
  cases found with
  | error failure =>
    obtain ⟨last,rest,hdrop,rfl⟩ := hdrained
    rw [settledFailure, validate_unusable, hdrop]
    refine ⟨?_, fun hnested => hnested last rest rfl⟩
    rintro hnested _ _ ⟨⟩
    exact hnested
  | ok calls =>
    obtain ⟨hdrop,htaken⟩ := hdrained
    have hresults : results = (admitted ++ calls).map AdmittedCall.result := by
      refine (resultOf_iff_of_held ?_ hfound).mp ((resultOf_iff_of_held hall hfound).mpr rfl)
      rw [List.map_append]
      exact List.rel_append hheld htaken
    obtain ⟨own,always,hshared⟩ := reconciledFailure_shared left (admitted ++ calls) fallback
      adoptable
    rw [settledFailure, hshared, hresults, hdrop]
    refine ⟨fun _ _ _ hnone => (by cases hnone), fun _ => ?_⟩
    exact validate_sharedFailure _ _ _

omit [CodexIdentity] [CandidateIdentity] in
/-- A Step that fails at the end of its reconciliation is totalled exactly when what was left
could be drained. -/
theorem Standing.totalled_iff (h : Standing store handle query entries)
    {accepted : List ToolCallStoreEntry} (hpicked : Picked entries accepted)
    {admitted : List (AdmittedCall F)} (hheld : Held store accepted (admitted.map AdmittedCall.result))
    {found : Except TerminalFailure (List (AdmittedCall F))}
    (hdrained : Drained store (outstanding entries accepted) found)
    (hwell : ∀ entry ∈ (outstanding entries accepted).takeWhile usable, Rebuildable entry)
    (hs : AtCalls request (accepted ++ (outstanding entries accepted).takeWhile usable) s)
    (left : List ToolCallStoreEntry) (fallback : TerminalFailure) (adoptable : Bool)
    (stateDelta : List (String × Json)) :
    Totalled store handle
        (failedOutput stateDelta (settledFailure left admitted fallback adoptable found)) s ↔
      Drains store (toolCallBudget request) accepted (outstanding entries accepted) := by
  have hrebuilt := h.rebuilt_iff hpicked
  have haccounted := h.accounted_iff hpicked hheld hdrained left fallback adoptable
  rw [← hs.issued] at hrebuilt haccounted
  constructor
  · intro ht
    have hreconciled := ht.reconciled rfl
    refine ⟨hwell, by simpa using hs.within, fun entry rest hdrop => ?_⟩
    exact ⟨haccounted.mp hreconciled.accounted entry rest hdrop,
      hrebuilt.mp hreconciled.rebuilt entry rest hdrop⟩
  · intro hdrains
    refine ⟨.inr rfl, ?_, hs.executed, fun _ => ⟨?_, ?_⟩⟩
    · rw [hs.issued, List.map_map]
      refine ((List.Sublist.append_left (List.takeWhile_sublist _) accepted).map _).nodup
        (h.nodup hpicked)
    · exact hrebuilt.mpr fun entry rest hdrop => (hdrains.dropped entry rest hdrop).2
    · exact haccounted.mpr fun entry rest hdrop => (hdrains.dropped entry rest hdrop).1

omit [CandidateIdentity] in
theorem runs_acceptedCount (h : Standing env.store handle query entries) :
    Runs r env request (fun count t => t = s ∧ count = entries.length) (fun _ => False)
      (acceptedCount handle) s := by
  unfold acceptedCount
  rw [h.asked]
  refine runs_perform (.acceptedCount query) (.ok entries.length) _ s ?_ ⟨rfl, rfl⟩
  simp only [execCodex, h.count]

omit [CandidateIdentity] in
theorem runs_admittedEntries (h : Standing env.store handle query entries) :
    Runs r env request (fun found t => t = s ∧ found = entries) (fun _ => False)
      (admittedEntries handle) s := by
  unfold admittedEntries
  rw [h.asked]
  refine runs_perform (.admittedEntries query) (.ok entries) _ s ?_ ⟨rfl, rfl⟩
  simp only [execCodex, h.admitted]

omit [CandidateIdentity] in
/-- The one path a failing Step leaves by ends with a failed output. -/
theorem runs_terminalize (h : Standing env.store handle query entries)
    {accepted : List ToolCallStoreEntry} (hpicked : Picked entries accepted)
    {admitted : List (AdmittedCall F)}
    (hheld : Held env.store accepted (admitted.map AdmittedCall.result))
    (hids : admitted.map AdmittedCall.callId = accepted.map fun own => own.toolCall.callId)
    (hs : AtCalls request accepted s) (stateDelta : List (String × Json))
    (fallback : TerminalFailure) (adoptable : Bool) :
    Runs r env request (fun output t => Totalled env.store handle output t ↔
      Drains env.store (toolCallBudget request) accepted (outstanding entries accepted))
      (fun _ => ¬ Drains env.store (toolCallBudget request) accepted (outstanding entries accepted))
      (terminalize handle stateDelta fallback admitted adoptable) s := by
  have hsub : ∀ entry ∈ outstanding entries accepted, entry ∈ entries ∧ entry.state = .completed :=
    fun entry hleft => ⟨(mem_outstanding.mp hleft).1, (mem_outstanding.mp hleft).2.2⟩
  refine Prog.ends_bind (Prog.ends_mono (runs_admittedEntries h) (fun _ _ hfound => hfound)
    fun _ hraise => hraise.elim) ?_
  rintro _ _ ⟨rfl,rfl⟩
  refine Prog.ends_bind (Prog.ends_mono (runs_acceptedCount h) (fun _ _ hfound => hfound)
    fun _ hraise => hraise.elim) ?_
  rintro _ _ ⟨rfl,rfl⟩
  rw [hids]
  refine Prog.ends_bind (Prog.ends_mono (runs_issueCompleted h hs hsub (h.nodup hpicked))
    (fun _ _ hfound => hfound) ?_) ?_
  · intro _ hraise hdrains
    exact hraise ⟨hdrains.wellFormed, hdrains.covered⟩
  rintro found t ⟨hwell,_,ht,hdrained⟩
  have htotalled := h.totalled_iff hpicked hheld hdrained hwell ht
  cases found with
  | error failure => exact htotalled [] fallback adoptable _
  | ok calls => exact htotalled _ fallback adoptable _

/-! ### The reported calls -/

omit [CodexIdentity] [LeaseText] [DecidableEq F] [RewardIdentity F] [ResultIdentity F] in
theorem readReports_refused {find : String → Option ToolCallStoreEntry} {callId : String}
    {rest seen : List String} (hnew : callId ∉ seen)
    (hrefused : ∀ call template baseRef,
      reportedCall request handle callId (find callId) ≠ .recorded call template baseRef) :
    readReports request handle find (callId :: rest) seen =
      ([], some (reportedCall request handle callId (find callId))) := by
  rw [readReports, if_neg hnew]
  split
  · rename_i heq
    exact absurd heq (hrefused _ _ _)
  · rfl

omit [CodexIdentity] [LeaseText] [DecidableEq F] [RewardIdentity F] [ResultIdentity F] in
theorem readReports_recorded {find : String → Option ToolCallStoreEntry} {callId template : String}
    {rest seen : List String} {entry : ToolCallStoreEntry} {call : ToolCall} {baseRef : TypedRef}
    (hnew : callId ∉ seen) (hfind : find callId = some entry)
    (hrecorded : reportedCall request handle callId (some entry) =
      .recorded call template baseRef) :
    readReports request handle find (callId :: rest) seen =
      (entry :: (readReports request handle find rest (callId :: seen)).1,
        (readReports request handle find rest (callId :: seen)).2) := by
  rw [readReports, if_neg hnew, hfind, hrecorded]

omit [CodexIdentity] in
theorem held_of_reported {admitted : List (AdmittedCall F)} {accepted : List ToolCallStoreEntry}
    (h : List.Forall₂ (Reported store request handle) admitted accepted) :
    Held store accepted (admitted.map AdmittedCall.result) := by
  induction h with
  | nil => exact .nil
  | cons hreported _ ih => exact .cons hreported.loaded ih

omit [CodexIdentity] in
theorem Standing.picked (h : Standing store handle query entries)
    {admitted : List (AdmittedCall F)} {accepted : List ToolCallStoreEntry}
    (hreported : List.Forall₂ (Reported store request handle) admitted accepted)
    (hnodup : (accepted.map fun own => own.toolCall.callId).Nodup) : Picked entries accepted := by
  refine ⟨fun entry hentry => ?_, hnodup⟩
  obtain ⟨call,_,hcall⟩ := reported_entry hreported hentry
  exact ⟨(h.mem entry).mpr hcall.debited, hcall.completed⟩

/- The calls of the reports that were read, and the failure of the first one that was refused. -/
def Gathered (store : ExecutionState F b authority) (request : OptimStepRequest F)
    (handle : GuardedHandle) (accepted : List ToolCallStoreEntry) (refused : Option ReportedCall) :
    Except (Rejection F) (List (AdmittedCall F)) → Prop
  | .ok calls => refused = none ∧ List.Forall₂ (Reported store request handle) calls accepted
  | .error rejection => refused = some (.rejected rejection.failure) ∧
      List.Forall₂ (Reported store request handle) rejection.issued accepted

/-- The reports are issued in order, up to the first one that is refused. -/
theorem runs_admittedCalls (h : Standing env.store handle query entries) {callIds seen : List String}
    {admitted : List (AdmittedCall F)} {accepted : List ToolCallStoreEntry}
    (hs : AtCalls request accepted s)
    (hreported : List.Forall₂ (Reported env.store request handle) admitted accepted)
    (hnodup : (accepted.map fun own => own.toolCall.callId).Nodup)
    (hseen : ∀ own ∈ accepted, own.toolCall.callId ∈ seen) {read : List ToolCallStoreEntry}
    {refused : Option ReportedCall}
    (hread : readReports request handle (findEntry env.store handle) callIds seen = (read, refused)) :
    Runs r env request (fun found t => AtCalls request (accepted ++ read) t ∧
      ((accepted ++ read).map fun own => own.toolCall.callId).Nodup ∧
      Gathered env.store request handle (accepted ++ read) refused found)
      (fun _ => (accepted ++ read).length ≤ toolCallBudget request →
        ∃ message, refused = some (.malformed message))
      (admittedCalls request handle callIds seen admitted) s := by
  induction callIds generalizing seen admitted accepted s read with
  | nil =>
    cases hread
    rw [List.append_nil]
    exact ⟨hs, hnodup, rfl, hreported⟩
  | cons callId rest ih =>
    unfold admittedCalls
    by_cases hmem : callId ∈ seen
    · rw [readReports, if_pos hmem] at hread
      cases hread
      rw [if_pos hmem, List.append_nil]
      exact ⟨hs, hnodup, rfl, hreported⟩
    rw [if_neg hmem]
    obtain ⟨found,hget⟩ := h.read (handle.config.storeNamespaceKey, callId)
    have hfind : findEntry env.store handle callId = found := by
      rw [findEntry, hget]
      rfl
    refine runs_perform (.findEntry _) (.ok found) _ s (by simp only [execCodex, hget]) ?_
    refine Prog.ends_bind (Q := fun entry t => entry = found ∧ t = s) ⟨rfl, rfl⟩ ?_
    intro entry t hentry
    obtain ⟨hsame,rfl⟩ := hentry
    rw [hsame]
    cases hreport : reportedCall request handle callId found with
    | rejected failure =>
      rw [readReports_refused hmem (by simp [hfind, hreport]), hfind, hreport] at hread
      cases hread
      rw [List.append_nil]
      exact ⟨hs, hnodup, rfl, hreported⟩
    | malformed message =>
      rw [readReports_refused hmem (by simp [hfind, hreport]), hfind, hreport] at hread
      cases hread
      exact fun _ => ⟨message, rfl⟩
    | recorded call template baseRef =>
      obtain ⟨entry,rfl,hstate,hconfig,hbinding,hrecords,hbase,rfl⟩ :=
        reportedCall_recorded hreport
      rw [readReports_recorded hmem hfind hreport] at hread
      obtain ⟨rfl,rfl⟩ := Prod.mk.inj hread
      have hkey : ToolCallStore.callKey entry.toolCall =
          (handle.config.storeNamespaceKey, callId) := by
        have hown := h.keyed _ entry hget
        rwa [ToolCallStoreEntry.entryKey, entry.citation.2.1] at hown
      have hid : entry.toolCall.callId = callId := congrArg Prod.snd hkey
      have hdebited : Debited env.store handle entry := by
        refine ⟨⟨_, hget⟩, .inr hstate, ?_⟩
        rw [ToolCallStoreEntry.scopeKey, GuardedHandle.scopeKey, entry.citation.2.1,
          ToolCallStoreEntry.toolConfigHash, entry.citation.1, ToolCall.storeNamespaceKey, hconfig,
          hbinding]
      have hin := (h.mem entry).mpr hdebited
      obtain ⟨result,hloaded⟩ := h.loads entry hin hstate
      have hnew : entry.toolCall.callId ∉ accepted.map fun own => own.toolCall.callId := by
        rw [hid]
        intro hold
        obtain ⟨own,hown,hsame⟩ := List.mem_map.mp hold
        exact hmem (hsame ▸ hseen own hown)
      refine Prog.ends_bind (Prog.ends_mono (runs_issueCall hs (h.found hin) hloaded hconfig
        hbinding hnew) (fun _ _ hout => hout) ?_) ?_
      · intro _ hexhausted hcovered
        rw [List.length_append, List.length_cons] at hcovered
        omega
      rintro out t ⟨rfl,ht⟩
      have happend : ∀ tail, accepted ++ entry :: tail = accepted ++ [entry] ++ tail := by
        intro tail
        rw [List.append_assoc]
        rfl
      rw [happend]
      refine ih ht ?_ ?_ ?_ (Prod.eta _).symm
      · exact List.rel_append hreported (.cons ⟨hget, hstate, hconfig, hbinding, hrecords, hbase,
          hloaded⟩ .nil)
      · rw [List.map_append, List.nodup_append']
        refine ⟨hnodup, List.nodup_singleton _, fun own hown hlast => ?_⟩
        rw [List.mem_singleton.mp hlast] at hown
        exact hnew hown
      · intro own hown
        cases List.mem_append.mp hown with
        | inl hold => exact List.mem_cons_of_mem _ (hseen own hold)
        | inr hlast =>
          rw [List.mem_singleton.mp hlast, hid]
          exact List.mem_cons_self

/-! ### The selection -/

omit [CodexIdentity] [LeaseText] [CandidateIdentity] [DecidableEq F] [RewardIdentity F]
  [ResultIdentity F] in
theorem seedCandidate_eq {seed : Candidate} (hrun : request.run.initialCandidateRef = some seed)
    (hseed : seed ∈ request.candidates) : seedCandidate request = .ok seed := by
  rw [seedCandidate, hrun]
  exact if_pos hseed

omit [CodexIdentity] [LeaseText] [ResultIdentity F] in
theorem seedContentCandidate_ok {seed : Candidate}
    (hrun : request.run.initialCandidateRef = some seed) (hseed : seed ∈ request.candidates)
    (selected : AdmittedCall F) : ∃ found, seedContentCandidate request selected = .ok found := by
  simp only [seedContentCandidate, hrun, seedCandidate_eq hrun hseed, Except.map]
  split
  · exact ⟨none, rfl⟩
  · exact ⟨_, rfl⟩

omit [PyIdentifiers] [CodexIdentity] [CandidateIdentity] in
omit [LeaseText] in
theorem outstanding_nil {accepted : List ToolCallStoreEntry} (hpicked : Picked entries accepted)
    (henough : entries.length ≤ accepted.length) : outstanding entries accepted = [] := by
  rw [List.eq_nil_iff_forall_not_mem]
  intro entry hleft
  obtain ⟨hmem,hnew,_⟩ := mem_outstanding.mp hleft
  exact hnew (List.mem_map_of_mem (subset_of_length_le (List.Nodup.of_map _ hpicked.nodup)
    (fun own hown => (hpicked.sub own hown).1) henough hmem))

omit [CodexIdentity] [CandidateIdentity] in
/-- A Step that completes has issued no call twice and executed none. -/
theorem totalled_of_complete {accepted : List ToolCallStoreEntry} {output : AdapterOutput F}
    (hs : AtCalls request accepted s) (hnodup : (accepted.map fun own => own.toolCall.callId).Nodup)
    (hcomplete : output.proposedStatus = .complete) : Totalled store handle output s := by
  refine ⟨.inl hcomplete, ?_, hs.executed, fun hfailed => ?_⟩
  · rw [hs.issued, List.map_map]
    exact hnodup
  · rw [hcomplete] at hfailed
    cases hfailed

omit [CodexIdentity] in
theorem Reported.scored {call : AdmittedCall F} {entry : ToolCallStoreEntry}
    (h : Reported store request handle call entry) {template : String} {baseRef : TypedRef}
    (hselects : Selects store handle call.callId template baseRef) :
    call.result.output.isSome = true ∧ call.result.reward.isSome = true := by
  obtain ⟨found,result,hfound,_,_,hloaded,hscored⟩ := hselects.named
  rw [h.found] at hfound
  cases hfound
  rw [loaded_unique h.loaded hloaded]
  exact hscored

omit [CodexIdentity] in
theorem draftable_iff {artifact : CodexOutputArtifact} {accepted : List ToolCallStoreEntry}
    {callId : String} (hmem : callId ∈ accepted.map fun own => own.toolCall.callId)
    (hselected : artifact.selectedCallId = some callId) :
    Draftable store request handle artifact accepted ↔
      ∀ baseRef, Selects store handle callId "" baseRef →
        SelectsSeed store request handle callId := by
  constructor
  · exact fun h => h callId hmem hselected
  · intro h other _ hother
    rw [hselected] at hother
    cases hother
    exact h

/-- A scored selection is drafted, unless its template is empty and not the one of the seed. -/
theorem runs_acceptSelected (h : Standing env.store handle query entries)
    {accepted : List ToolCallStoreEntry} {admitted : List (AdmittedCall F)}
    (hs : AtCalls request accepted s)
    (hreported : List.Forall₂ (Reported env.store request handle) admitted accepted)
    (hpicked : Picked entries accepted) {seed : Candidate}
    (hrun : request.run.initialCandidateRef = some seed) (hseed : seed ∈ request.candidates)
    {artifact : CodexOutputArtifact} {selected : AdmittedCall F} (hmem : selected ∈ admitted)
    (hselected : artifact.selectedCallId = some selected.callId)
    (hdrains : Drains env.store (toolCallBudget request) accepted (outstanding entries accepted))
    (stateDelta : List (String × Json)) :
    Runs r env request (fun output t => Totalled env.store handle output t ∧
      Draftable env.store request handle artifact accepted)
      (fun _ => ¬ Draftable env.store request handle artifact accepted)
      (acceptSelected request handle stateDelta admitted selected) s := by
  have hids := reported_ids h.keyed hreported
  have hin : selected.callId ∈ accepted.map fun own => own.toolCall.callId := by
    rw [hids]
    exact List.mem_map_of_mem hmem
  obtain ⟨entry,hentry⟩ := exists_reported hreported hmem
  rw [draftable_iff hin hselected]
  have hfails : ∀ fallback adoptable, (∀ baseRef, Selects env.store handle selected.callId "" baseRef →
      SelectsSeed env.store request handle selected.callId) →
      Runs r env request (fun output t => Totalled env.store handle output t ∧
        ∀ baseRef, Selects env.store handle selected.callId "" baseRef →
          SelectsSeed env.store request handle selected.callId)
        (fun _ => ¬ ∀ baseRef, Selects env.store handle selected.callId "" baseRef →
          SelectsSeed env.store request handle selected.callId)
        (terminalize handle stateDelta fallback admitted adoptable) s := by
    intro fallback adoptable hdrafts
    refine Prog.ends_mono (runs_terminalize h hpicked (held_of_reported hreported) hids.symm hs
      stateDelta fallback adoptable) (fun _ _ hout => ⟨hout.mpr hdrains, hdrafts⟩) ?_
    exact fun _ hraise => absurd hdrains hraise
  unfold acceptSelected
  split
  · rename_i hunscored
    refine hfails _ _ fun baseRef hselects => ?_
    obtain ⟨houtput,hreward⟩ := hentry.scored hselects
    cases hunscored with
    | inl hnone => rw [Option.isNone_iff_eq_none.mp hnone] at houtput; cases houtput
    | inr hnone => rw [Option.isNone_iff_eq_none.mp hnone] at hreward; cases hreward
  · rename_i hscored
    rw [not_or] at hscored
    have hselects := hentry.selects (by simpa [← Option.isSome_iff_ne_none] using hscored.1)
      (by simpa [← Option.isSome_iff_ne_none] using hscored.2)
    obtain ⟨found,hfound⟩ := seedContentCandidate_ok hrun hseed selected
    rw [hfound]
    cases found with
    | some own =>
      obtain ⟨_,hown,hbase,htemplate⟩ := seedContentCandidate_some hfound
      rw [hbase] at hselects
      exact ⟨totalled_of_complete hs hpicked.nodup rfl,
        fun _ _ => ⟨own, selected.template, hown, hselects, htemplate⟩⟩
    | none =>
      have hother : ¬ SelectsSeed env.store request handle selected.callId := by
        rintro ⟨own,template,hown,hseeds,htemplate⟩
        obtain ⟨hsame,hbase⟩ := hselects.unique hseeds
        rw [← hsame] at htemplate
        exact seedContentCandidate_none hfound hown hbase htemplate
      obtain ⟨base,hbase⟩ : ∃ base, baseOf request selected.baseRef = some base := by
        obtain ⟨base,hoffered,href⟩ := List.mem_map.mp hentry.base
        refine Option.isSome_iff_exists.mp (List.find?_isSome.mpr ⟨base, ?_, ?_⟩)
        · exact List.mem_reverse.mpr hoffered
        · exact decide_eq_true href
      change Prog.Ends _ _ _ ((candidateFromCall request selected).bind _) s
      unfold candidateFromCall
      rw [hbase]
      dsimp only
      split
      · rename_i hempty
        rw [hempty] at hselects
        exact fun hdrafts => hother (hdrafts _ hselects)
      · rename_i hfull
        have hdrafts : ∀ baseRef, Selects env.store handle selected.callId "" baseRef →
            SelectsSeed env.store request handle selected.callId :=
          fun baseRef hempty => absurd (hselects.unique hempty).1 hfull
        cases hmade : candidateFromDraft request.run base selected.callId selected.template with
        | error message => exact hfails _ _ hdrafts
        | ok candidate => exact ⟨totalled_of_complete hs hpicked.nodup rfl, hdrafts⟩

/-! ### The whole Step -/

/-- Where everything is reported, only the selection is left to fail. -/
theorem runs_selectCandidate (h : Standing env.store handle query entries)
    {accepted : List ToolCallStoreEntry} {admitted : List (AdmittedCall F)}
    (hs : AtCalls request accepted s)
    (hreported : List.Forall₂ (Reported env.store request handle) admitted accepted)
    (hpicked : Picked entries accepted) {seed : Candidate}
    (hrun : request.run.initialCandidateRef = some seed) (hseed : seed ∈ request.candidates)
    (hdrains : Drains env.store (toolCallBudget request) accepted (outstanding entries accepted))
    (artifact : CodexOutputArtifact) (stateDelta : List (String × Json)) :
    Runs r env request (fun output t => Totalled env.store handle output t ∧
      Draftable env.store request handle artifact accepted)
      (fun _ => ¬ Draftable env.store request handle artifact accepted)
      (selectCandidate request handle artifact stateDelta admitted) s := by
  have hids := reported_ids h.keyed hreported
  unfold selectCandidate
  cases hselected : artifact.selectedCallId with
  | none =>
    rw [seedCandidate_eq hrun hseed]
    refine ⟨totalled_of_complete hs hpicked.nodup rfl, fun callId _ hnone => ?_⟩
    rw [hselected] at hnone
    cases hnone
  | some callId =>
    dsimp only
    cases hfind : admitted.find? fun call => call.callId = callId with
    | none =>
      have hunknown : callId ∉ accepted.map fun own => own.toolCall.callId := by
        rw [hids]
        intro hmem
        obtain ⟨call,hcall,hid⟩ := List.mem_map.mp hmem
        exact absurd (decide_eq_true hid) (List.find?_eq_none.mp hfind call hcall)
      refine Prog.ends_mono (runs_terminalize h hpicked (held_of_reported hreported) hids.symm hs
        stateDelta _ false) (fun _ _ hout => ⟨hout.mpr hdrains, fun other hmem hother => ?_⟩)
        fun _ hraise => absurd hdrains hraise
      rw [hselected] at hother
      cases hother
      exact absurd hmem hunknown
    | some selected =>
      have hid : selected.callId = callId := by simpa using List.find?_some hfind
      exact runs_acceptSelected h hs hreported hpicked hrun hseed
        (List.mem_of_find?_eq_some hfind) (hid ▸ hselected) hdrains stateDelta

theorem runs_settleReported (h : Standing env.store handle query entries)
    {accepted : List ToolCallStoreEntry} (hs : AtCalls request accepted s)
    (hnodup : (accepted.map fun own => own.toolCall.callId).Nodup) {seed : Candidate}
    (hrun : request.run.initialCandidateRef = some seed) (hseed : seed ∈ request.candidates)
    (artifact : CodexOutputArtifact) (stateDelta : List (String × Json))
    {refused : Option ReportedCall}
    (hread : reports env.store request handle artifact = (accepted, refused))
    {found : Except (Rejection F) (List (AdmittedCall F))}
    (hgathered : Gathered env.store request handle accepted refused found) :
    Runs r env request (fun output t => Totalled env.store handle output t ↔
      Settles env.store request handle (toolCallBudget request) entries artifact)
      (fun _ => ¬ Settles env.store request handle (toolCallBudget request) entries artifact)
      (settleReported request handle artifact stateDelta entries.length found) s := by
  have haccepted := congrArg Prod.fst hread
  have hrefused := congrArg Prod.snd hread
  dsimp only at haccepted hrefused
  -- a report that is not the whole scope leaves by the failing path
  have hfails : ∀ {admitted : List (AdmittedCall F)} (fallback : TerminalFailure),
      List.Forall₂ (Reported env.store request handle) admitted accepted →
      (∀ message, refused ≠ some (.malformed message)) →
      (refused = none → ¬ entries.length ≤ accepted.length) →
      Runs r env request (fun output t => Totalled env.store handle output t ↔
        Settles env.store request handle (toolCallBudget request) entries artifact)
        (fun _ => ¬ Settles env.store request handle (toolCallBudget request) entries artifact)
        (terminalize handle stateDelta fallback admitted false) s := by
    intro admitted fallback hreported hwell hleft
    have hsettles : Settles env.store request handle (toolCallBudget request) entries artifact ↔
        Drains env.store (toolCallBudget request) accepted (outstanding entries accepted) := by
      constructor
      · intro hsettled
        have hdrains := hsettled.drains
        rwa [haccepted] at hdrains
      · intro hdrains
        refine ⟨hrefused ▸ hwell, haccepted ▸ hdrains, fun hnone henough => ?_⟩
        exact absurd (haccepted ▸ henough) (hleft (hrefused ▸ hnone))
    refine Prog.ends_mono (runs_terminalize h (h.picked hreported hnodup)
      (held_of_reported hreported) (reported_ids h.keyed hreported).symm hs stateDelta fallback
      false) (fun _ _ hout => hout.trans hsettles.symm) ?_
    exact fun _ hraise hsettled => hraise (hsettles.mp hsettled)
  cases found with
  | error rejection =>
    obtain ⟨rfl,hreported⟩ := hgathered
    exact hfails _ hreported (by simp) (by simp)
  | ok admitted =>
    obtain ⟨rfl,hreported⟩ := hgathered
    unfold settleReported
    dsimp only
    split
    · rename_i hshort
      exact hfails _ hreported (by simp) (by rw [← hreported.length_eq]; omega)
    · rename_i hfull
      have henough : entries.length ≤ accepted.length := by
        rw [← hreported.length_eq]
        omega
      have hpicked := h.picked hreported hnodup
      have hdrains : Drains env.store (toolCallBudget request) accepted
          (outstanding entries accepted) := by
        rw [outstanding_nil hpicked henough]
        exact ⟨fun _ hmem => (by cases hmem), hs.within, fun _ _ hdrop => (by cases hdrop)⟩
      refine Prog.ends_mono (runs_selectCandidate h hs hreported hpicked hrun hseed hdrains artifact
        stateDelta) ?_ ?_
      · rintro output t ⟨htotalled,hdrafts⟩
        refine iff_of_true htotalled ⟨?_, haccepted ▸ hdrains, fun _ _ => haccepted ▸ hdrafts⟩
        exact fun message hnone => (by rw [hrefused] at hnone; cases hnone)
      · intro _ hraise hsettled
        refine hraise (haccepted ▸ hsettled.selected hrefused ?_)
        rw [haccepted]
        exact henough

omit [CodexIdentity] [LeaseText] [CandidateIdentity] [ResultIdentity F] in
theorem atCalls_nil {ledger : Issued.IssuedStore (OptimStepRequest F) (ToolResult F)}
    (h : Issued.Quiet (ledgerRequest request) 0 [] ledger) :
    AtCalls request [] ⟨ledger, [], []⟩ :=
  ⟨h, rfl, rfl, Nat.zero_le _⟩

omit [CandidateIdentity] in
theorem runs_terminalize_nil (h : Standing env.store handle query entries)
    (hs : AtCalls request [] s) (stateDelta : List (String × Json)) (fallback : TerminalFailure) :
    Runs r env request (fun output t => Totalled env.store handle output t ↔
      Drains env.store (toolCallBudget request) [] (outstanding entries []))
      (fun _ => ¬ Drains env.store (toolCallBudget request) [] (outstanding entries []))
      (terminalize handle stateDelta fallback [] false) s :=
  runs_terminalize h ⟨fun _ hmem => (by cases hmem), by simp⟩ .nil rfl hs stateDelta fallback false

theorem runs_settleArtifact (h : Standing env.store handle query entries)
    (hs : AtCalls request [] s) {seed : Candidate}
    (hrun : request.run.initialCandidateRef = some seed) (hseed : seed ∈ request.candidates)
    (leaseToken : String) (artifact : CodexOutputArtifact) :
    Runs r env request (fun output t => Totalled env.store handle output t ↔
      Reconcilable env.store request handle leaseToken (.ok artifact))
      (fun _ => ¬ Reconcilable env.store request handle leaseToken (.ok artifact))
      (settleArtifact request handle leaseToken artifact) s := by
  have hforeign : Foreign request leaseToken artifact →
      (Reconcilable env.store request handle leaseToken (.ok artifact) ↔
        Drains env.store (toolCallBudget request) [] (outstanding entries [])) := by
    intro hother
    rw [Reconcilable, scopeEntries_eq h, imp_iff_right hother]
    exact and_iff_left fun hown => absurd hother hown
  have hfails : ∀ stateDelta fallback, Foreign request leaseToken artifact →
      Runs r env request (fun output t => Totalled env.store handle output t ↔
        Reconcilable env.store request handle leaseToken (.ok artifact))
        (fun _ => ¬ Reconcilable env.store request handle leaseToken (.ok artifact))
        (terminalize handle stateDelta fallback [] false) s := by
    intro stateDelta fallback hother
    refine Prog.ends_mono (runs_terminalize_nil h hs stateDelta fallback)
      (fun _ _ hout => hout.trans (hforeign hother).symm) ?_
    exact fun _ hraise hreconciled => hraise ((hforeign hother).mp hreconciled)
  refine runs_perform (.putArtifact artifact) (artifactRef artifact) _ s rfl ?_
  refine Prog.ends_bind (Prog.ends_mono (runs_acceptedCount h) (fun _ _ hcount => hcount)
    fun _ hraise => hraise.elim) ?_
  rintro count _ ⟨rfl,hcount⟩
  dsimp only
  split
  · rename_i hrunId
    exact hfails _ _ (.inl hrunId)
  split
  · rename_i htoken
    exact hfails _ _ (.inr htoken)
  rename_i hrunId htoken
  have hown : ¬ Foreign request leaseToken artifact := not_or.mpr ⟨hrunId, htoken⟩
  have hreconcilable : Reconcilable env.store request handle leaseToken (.ok artifact) ↔
      Settles env.store request handle (toolCallBudget request) entries artifact := by
    rw [Reconcilable, scopeEntries_eq h, imp_iff_right hown]
    exact and_iff_right fun hother => absurd hother hown
  rw [hreconcilable, hcount]
  obtain ⟨accepted,refused,hread⟩ : ∃ accepted refused,
      reports env.store request handle artifact = (accepted, refused) := ⟨_, _, rfl⟩
  refine Prog.ends_bind (Prog.ends_mono (runs_admittedCalls h hs .nil List.nodup_nil
    (fun _ hmem => (by cases hmem)) hread) (fun _ _ hout => hout) ?_) ?_
  · intro _ hraise hsettled
    have hdrains := hsettled.drains
    have hwell := hsettled.wellFormed
    rw [hread] at hdrains hwell
    obtain ⟨message,hmalformed⟩ := hraise (by
      rw [List.nil_append]
      exact (Nat.le_add_right _ _).trans hdrains.covered)
    exact hwell message hmalformed
  · rintro found t ⟨ht,hnodup,hgathered⟩
    exact runs_settleReported h ht hnodup hrun hseed artifact _ hread hgathered

omit [PyIdentifiers] [CodexIdentity] [LeaseText] [CandidateIdentity] in
theorem terminalFailure_eq (code message : String) (details : List (String × Json)) :
    terminalFailure code message details = if message = "" then
      .error (.value "ID must be non-empty") else .ok ⟨code, message, .obj details⟩ := by
  unfold terminalFailure
  split
  · rename_i hempty
    rw [raiseIf_pos _ _ hempty]
    rfl
  · rename_i htext
    rw [raiseIf_neg _ _ htext]
    rfl

omit [DecidableEq F] [RewardIdentity F] [ResultIdentity F] in
omit [CodexIdentity] [LeaseText] [CandidateIdentity] in
/-- An exception of the runner becomes a failure unless it has no text. -/
theorem runnerFailure_ok {error : RunnerError} (hother : ∀ message, error ≠ .other message)
    (htext : error.text ≠ "") :
    ∃ stateDelta failure, runnerFailure request handle error = .ok (stateDelta, failure) := by
  cases error with
  | wallBudget message wallSeconds isolation =>
    rw [RunnerError.text] at htext
    rw [runnerFailure, terminalFailure_eq, if_neg htext]
    exact ⟨_, _, rfl⟩
  | mcpHost message cause =>
    rw [RunnerError.text] at htext
    rw [runnerFailure, terminalFailure_eq, if_neg htext]
    exact ⟨_, _, rfl⟩
  | opaqueStep message isolation =>
    rw [RunnerError.text] at htext
    rw [runnerFailure, terminalFailure_eq, if_neg htext]
    exact ⟨_, _, rfl⟩
  | other message => exact absurd rfl (hother message)

omit [DecidableEq F] [RewardIdentity F] [ResultIdentity F] in
omit [CodexIdentity] [LeaseText] [CandidateIdentity] in
theorem runnerFailure_error {error : RunnerError} (hother : ∀ message, error ≠ .other message)
    (htext : error.text = "") : ∃ own, runnerFailure request handle error = .error own := by
  cases error with
  | wallBudget message wallSeconds isolation =>
    rw [RunnerError.text] at htext
    rw [runnerFailure, terminalFailure_eq, if_pos htext]
    exact ⟨_, rfl⟩
  | mcpHost message cause =>
    rw [RunnerError.text] at htext
    rw [runnerFailure, terminalFailure_eq, if_pos htext]
    exact ⟨_, rfl⟩
  | opaqueStep message isolation =>
    rw [RunnerError.text] at htext
    rw [runnerFailure, terminalFailure_eq, if_pos htext]
    exact ⟨_, rfl⟩
  | other message => exact absurd rfl (hother message)

theorem runs_invokeHandle (h : Standing env.store handle query entries)
    (hs : AtCalls request [] s) {seed : Candidate}
    (hrun : request.run.initialCandidateRef = some seed) (hseed : seed ∈ request.candidates)
    (hmcp : handle.config.endpointKey.startsWith "mcp" = true)
    (hother : ∀ message, env.runner env.leaseToken ≠ .error (.other message)) :
    Runs r env request (fun output t => Totalled env.store handle output t ↔
      Reconcilable env.store request handle env.leaseToken (env.runner env.leaseToken))
      (fun _ =>
        ¬ Reconcilable env.store request handle env.leaseToken (env.runner env.leaseToken))
      (invokeHandle request handle) s := by
  refine runs_refuseIf (by simp [hmcp]) ?_
  refine runs_perform .mintLeaseToken env.leaseToken _ s rfl ?_
  refine runs_perform (.run env.leaseToken) (env.runner env.leaseToken) _ s rfl ?_
  cases houtcome : env.runner env.leaseToken with
  | ok artifact => exact runs_settleArtifact h hs hrun hseed env.leaseToken artifact
  | error error =>
    have hown : ∀ message, error ≠ .other message := by
      rintro message rfl
      exact hother message houtcome
    dsimp only
    by_cases htext : error.text = ""
    · obtain ⟨own,hraised⟩ : ∃ own, runnerFailure request handle error = .error own :=
        runnerFailure_error hown htext
      rw [hraised]
      exact fun hreconciled => hreconciled.1 htext
    · obtain ⟨stateDelta,failure,hmade⟩ : ∃ stateDelta failure,
          runnerFailure request handle error = .ok (stateDelta, failure) :=
        runnerFailure_ok hown htext
      rw [hmade]
      have hreconcilable : Reconcilable env.store request handle env.leaseToken (.error error) ↔
          Drains env.store (toolCallBudget request) [] (outstanding entries []) := by
        rw [Reconcilable, scopeEntries_eq h]
        exact and_iff_right htext
      rw [hreconcilable]
      exact runs_terminalize_nil h hs stateDelta failure

theorem runs_invoke (h : Standing env.store handle query entries)
    (hs : AtCalls request [] s) (hstep : request.stepIndex = 0) {seed : Candidate}
    (hrun : request.run.initialCandidateRef = some seed) (hseed : seed ∈ request.candidates)
    (hmcp : handle.config.endpointKey.startsWith "mcp" = true)
    (hother : ∀ message, env.runner env.leaseToken ≠ .error (.other message)) :
    Runs r env request (fun output t => Totalled env.store handle output t ↔
      Reconcilable env.store request handle env.leaseToken (env.runner env.leaseToken))
      (fun _ =>
        ¬ Reconcilable env.store request handle env.leaseToken (env.runner env.leaseToken))
      (invoke request [handle]) s :=
  runs_refuseIf (not_not.mpr hstep) (runs_invokeHandle h hs hrun hseed hmcp hother)

/-! ### The entries that a run of the authority leaves -/

omit [PyIdentifiers] [ToolIdentity] [CodexIdentity] [LeaseText] [CandidateIdentity] in
/-- The scope id of a valid binding determines its subject. -/
theorem subjectRef_eq (binding : ToolCapacityBinding) : binding.subjectRef =
    match binding.scope with
    | .global => none
    | .run => some ⟨runCapacitySubjectSchema, binding.capacityScopeId⟩
    | .step => some ⟨stepCapacitySubjectSchema, binding.capacityScopeId⟩ := by
  obtain ⟨scope,subject,hvalid⟩ := binding
  cases scope with
  | global =>
    cases subject with
    | none => rfl
    | some ref => cases hvalid
  | run =>
    cases subject with
    | none => cases hvalid
    | some ref =>
      simp only [validateBinding, ite_eq_right_iff, reduceCtorEq, imp_false, not_not] at hvalid
      obtain ⟨schema,hash⟩ := ref
      subst hvalid
      rfl
  | step =>
    cases subject with
    | none => cases hvalid
    | some ref =>
      simp only [validateBinding, ite_eq_right_iff, reduceCtorEq, imp_false, not_not] at hvalid
      obtain ⟨schema,hash⟩ := ref
      subst hvalid
      rfl

omit [PyIdentifiers] [ToolIdentity] [CodexIdentity] [LeaseText] [CandidateIdentity] in
theorem binding_of_scope {binding other : ToolCapacityBinding}
    (hvalue : binding.scope.value = other.scope.value)
    (hid : binding.capacityScopeId = other.capacityScopeId) : binding = other := by
  have hscope : binding.scope = other.scope := by
    cases hown : binding.scope <;> cases hother : other.scope <;>
      simp_all [ToolCapacityScope.value]
  have hsubject : binding.subjectRef = other.subjectRef := by
    rw [subjectRef_eq, subjectRef_eq other, hscope, hid]
  cases binding
  cases other
  cases hscope
  cases hsubject
  rfl

omit [PyIdentifiers] [CodexIdentity] [LeaseText] [CandidateIdentity] in
theorem authority_run_read {Text : Type} (codec : EntryCodec Text) (kind : BackendKind)
    (requests : List AdmissionRequest) (key : EntryKey) :
    ∃ found, (backend codec kind).get key (ToolAdmissionAuthority.run (backend codec kind)
      (backend codec kind).empty requests) = .ok found := by
  have r := (citingRefinement codec kind).toRefinement
  obtain ⟨L,hs,_⟩ := ToolAdmissionAuthority.run_simulates r requests _ _ r.init
  exact ⟨_, r.get _ L key hs⟩

omit [PyIdentifiers] [CodexIdentity] [LeaseText] [CandidateIdentity] in
theorem scopeQuery_ok (handle : GuardedHandle) : scopeQuery handle.config handle.binding = .ok
    ⟨handle.config.storeNamespaceKey, ToolIdentity.toolConfigHash handle.config,
      handle.binding.scope, handle.binding.capacityScopeId⟩ := by
  rw [scopeQuery, raiseIf_neg _ _ (not_not.mpr handle.valid)]
  rfl

omit [PyIdentifiers] [CodexIdentity] [CandidateIdentity] in
theorem standing_of_ledger (hledger : LedgerSound b store.admission) (hkeyed : KeyedEntries store)
    (hread : ∀ key, ∃ found, b.get key store.admission = .ok found)
    (hconfig : ∀ entry, Debited store handle entry → entry.toolCall.toolConfig = handle.config)
    (hloads : ∀ entry, Debited store handle entry → entry.state = .completed →
      ∃ result, Loaded store entry result) :
    ∃ query entries, Standing store handle query entries := by
  have hasked := scopeQuery_ok handle
  obtain ⟨entries,count,hentries,hcount,hordinals,hmem⟩ :=
    hledger.admitted _ _ (scopeQuery_key hasked)
  have hlength : entries.length = count := by
    simpa using congrArg List.length hordinals
  have hnodup : entries.Nodup := by
    refine List.Nodup.of_map (fun entry => entry.capacityDebitOrdinal) ?_
    rw [hordinals]
    exact List.Nodup.map (Option.some_injective _) List.nodup_range'
  refine ⟨_, entries, hasked, hlength ▸ hcount, hentries, hmem, ?_, ?_, hkeyed, hread,
    fun entry hentry => hloads entry ((hmem entry).mp hentry)⟩
  · refine List.Nodup.map_on (fun entry hentry other hother hid => ?_) hnodup
    obtain ⟨⟨key,hkey⟩,_,hscope⟩ := (hmem entry).mp hentry
    obtain ⟨⟨key',hkey'⟩,_,hscope'⟩ := (hmem other).mp hother
    have hsame : key = key' := by
      have hnamespace : entry.storeNamespaceKey = other.storeNamespaceKey :=
        congrArg Prod.fst (hscope.trans hscope'.symm)
      rw [← hkeyed key entry hkey, ← hkeyed key' other hkey']
      exact Prod.ext hnamespace hid
    rw [hsame, hkey'] at hkey
    cases hkey
    rfl
  · intro entry hentry
    have hdebited := (hmem entry).mp hentry
    have hscope := congrArg (fun key : ScopeKey => key.2.2) hdebited.2.2
    exact ⟨hconfig entry hdebited,
      binding_of_scope (congrArg Prod.fst hscope) (congrArg Prod.snd hscope)⟩

omit [ResultIdentity F] in
omit [PyIdentifiers] [CodexIdentity] [CandidateIdentity] in
/-- The entries of the scope are the debits of the handle. -/
theorem mem_scopeEntries {Text : Type} (codec : EntryCodec Text) (kind : BackendKind)
    (requests : List AdmissionRequest) {store : ExecutionState F (backend codec kind) authority}
    (hadmission : store.admission = ToolAdmissionAuthority.run (backend codec kind)
      (backend codec kind).empty requests) (entry : ToolCallStoreEntry) :
    entry ∈ scopeEntries store handle ↔ Debited store handle entry := by
  have hledger := (admission_ledger_invariant codec kind requests).1
  simp only [← hadmission] at hledger
  have hasked := scopeQuery_ok handle
  obtain ⟨entries,_,hentries,_,_,hmem⟩ := hledger.admitted _ _ (scopeQuery_key hasked)
  rw [scopeEntries, hasked]
  dsimp only
  rw [hentries]
  exact hmem entry

end Reconciliation

/-! ### A runner that fails behind one scored call -/

section Example

attribute [local instance] codexNames codexCandidates codexArtifacts gradeIdentity exactFailures
  exactFiniteFloats gradeRewards gradeResults

/- The process exits, and the admitted call is left to reconcile. -/
def exitedEnvironment : CodexEnvironment Rat (backend plainCodec .memory) fencedLeases where
  leaseToken := "token"
  runner := fun _ => .error (.opaqueStep "codex exited with 1" [])
  store := codexStore
  executor := fun _ => .error "nothing is executed"

theorem codexResult_loaded : Loaded codexStore codexCompleted codexResult where
  ref := rfl
  durable := rfl
  verified := fun _ => ⟨codexTerminal, _, rfl, rfl⟩
  stored := by decide +kernel
  call := rfl
  refused := fun h => by cases h
  completed := fun _ => ⟨codexTerminal, 1, 1, rfl, by decide +kernel, by decide +kernel,
    by decide +kernel, rfl, rfl, by decide, by decide, rfl⟩

/- A call that was admitted and scored with an empty object as its base. -/
def brokenCall : ToolCall where
  callId := "broken"
  toolConfig := codexTool
  capacityBinding := codexHandle.binding
  args := [("base_ref", .obj []), ("template", .str "b")]
  valid := by decide +kernel

def brokenResult : ToolResult Rat where
  call := brokenCall
  output := some [("score", .int 1)]
  evaluationEvidenceRefs := [codexGeneration]
  reward := some codexReward
  provenanceOrdinal := some 1
  valid := by decide +kernel

def brokenTerminal : EffectTerminal where
  request := toolEffectRequest brokenCall
  outcome := .succeeded
  ownerId := "owner"
  attemptId := "attempt"
  fence := 1
  resultRef := some (toolResultReference brokenResult)
  failure := none

def brokenAccepted : ToolCallStoreEntry where
  toEntryFields := { ToolCallStore.entryFields brokenCall .accepted with
    capacityDebitOrdinal := some 1 }
  valid := by decide +kernel

def brokenRefused : ToolCallStoreEntry where
  toEntryFields := { ToolCallStore.entryFields brokenCall .refused with
    refusal := some (ToolCallStore.capacityRefusal codexTool)
    toolResultRef := some ⟨toolResultSchema, "refused"⟩ }
  valid := by decide +kernel

def brokenCompleted : ToolCallStoreEntry where
  toEntryFields := { ToolCallStore.entryFields brokenCall .completed with
    capacityDebitOrdinal := some 1
    toolResultRef := some (toolResultReference brokenResult)
    effectTerminal := some brokenTerminal }
  valid := by decide +kernel

def brokenAdmissions : List AdmissionRequest :=
  [.admitCall brokenAccepted brokenRefused 2, .complete brokenCompleted]

def brokenEnvironment : CodexEnvironment Rat (backend plainCodec .memory) fencedLeases where
  leaseToken := "token"
  runner := fun _ => .error (.opaqueStep "codex exited with 1" [])
  store :=
    { admission := ToolAdmissionAuthority.run (backend plainCodec .memory)
        (backend plainCodec .memory).empty brokenAdmissions
      results := Dict.empty.set (toolResultReference brokenResult) brokenResult
      leases := Dict.empty.set brokenTerminal.request (.ended {
        request := brokenTerminal.request
        outcome := .succeeded
        ownerId := "owner"
        attemptId := "attempt"
        fence := 1
        resultRef := brokenTerminal.resultRef
        failure := none })
      history := [] }
  executor := fun _ => .error "nothing is executed"

theorem brokenResult_loaded : Loaded brokenEnvironment.store brokenCompleted brokenResult where
  ref := rfl
  durable := rfl
  verified := fun _ => ⟨brokenTerminal, _, rfl, rfl⟩
  stored := by decide +kernel
  call := rfl
  refused := fun h => by cases h
  completed := fun _ => ⟨brokenTerminal, 1, 1, rfl, by decide +kernel, by decide +kernel,
    by decide +kernel, rfl, rfl, by decide, by decide, rfl⟩

end Example
end Whetstone.Optim.Codex
