import Whetstone.Optim.Codex.GuardedStep

/-! What a completed Codex Step returns: every call of its scope was reported, issued once and
completed, and the candidate is the seed or the one that the selected call recorded. -/
namespace Whetstone.Optim.Codex
open Whetstone.Core Whetstone.Lib Whetstone.Experiment Whetstone.Tools Whetstone.Optim.Step

/-- As many distinct members as there are leave none out. -/
theorem subset_of_length_le {α : Type} {xs ys : List α} (hnodup : xs.Nodup) (hsub : xs ⊆ ys)
    (hlength : ys.length ≤ xs.length) : ys ⊆ xs :=
  ((List.subperm_of_subset hnodup hsub).perm_of_length_le hlength).symm.subset

/-! ### What a Step may return -/

section Statements

variable [PyIdentifiers] [CandidateIdentity] [ToolIdentity] [LeaseText]
variable {F : Type} [FiniteFloats F] [DecidableEq F] [RewardIdentity F] [ResultIdentity F]
variable {b : AdmissionBackend} {authority : LeaseAuthority}
variable (store : ExecutionState F b authority) (request : OptimStepRequest F)
variable (handle : GuardedHandle)

/- A selected id names a call with a score; what the call recorded. -/
structure Selects (callId template : String) (baseRef : TypedRef) : Prop where
  named : ∃ entry result, b.get (handle.config.storeNamespaceKey, callId) store.admission =
      .ok (some entry) ∧ entry.state = .completed ∧ Records entry template baseRef ∧
    Loaded store entry result ∧ result.output.isSome = true ∧ result.reward.isSome = true

/- The selected call is scored, has the initial candidate as its base and recorded the template
   of that candidate. -/
def SelectsSeed (callId : String) : Prop :=
  ∃ seed template, request.run.initialCandidateRef = some seed ∧
    Selects store handle callId template seed.recordRef ∧
    seed.payload.lookup request.run.mutationField = some (.str template)

/- The output keeps the initial candidate of the run. -/
structure RetainsSeed (output : AdapterOutput F) : Prop where
  seed : ∃ seed ∈ request.candidates, request.run.initialCandidateRef = some seed ∧
    output.retainedCandidate = some seed
  flag : output.seedRetained = true
  proposed : output.proposedCandidates = []
  accepted : output.acceptedCandidates = []

/- A request candidate with only its mutation field replaced. -/
structure Mutates (base : Candidate) (template : String)
    (candidate : Candidate) : Prop where
  offered : base ∈ request.candidates
  baseRef : candidate.baseRef = base.recordRef
  payload : candidate.payload = setField request.run.mutationField (.str template) base.payload
  replaced : ∃ old, base.payload.lookup request.run.mutationField = some (.str old) ∧
    old ≠ template

/- The output accepts the candidate that the selected call recorded, and no other. -/
structure AcceptsCall (callId : String) (output : AdapterOutput F) : Prop where
  candidate : ∃ base template candidate, Selects store handle callId template base.recordRef ∧
    baseOf request base.recordRef = some base ∧ candidate.candidateId = callId ∧
    Mutates request base template candidate ∧
    output.proposedCandidates = [candidate] ∧ output.acceptedCandidates = [candidate]
  flag : output.seedRetained = false
  retained : output.retainedCandidate = none

/- What a completed Step returns, by the id that its artifact selects. -/
def Returned (output : AdapterOutput F) : Option String → Prop
  | none => RetainsSeed request output
  | some callId => SelectsSeed store request handle callId ∧ RetainsSeed request output ∨
      ¬ SelectsSeed store request handle callId ∧ AcceptsCall store request handle callId output

/- The Step keeps the seed exactly when the artifact says so, and else accepts one candidate. -/
structure ReturnedCandidate (artifact : CodexOutputArtifact) (output : AdapterOutput F) :
    Prop where
  retains_iff : RetainsSeed request output ↔ artifact.selectedCallId = none ∨
    ∃ callId, artifact.selectedCallId = some callId ∧ SelectsSeed store request handle callId
  accepts : ¬ RetainsSeed request output → ∃ callId, artifact.selectedCallId = some callId ∧
    AcceptsCall store request handle callId output

/- A debited entry that its Step has paid for, reported and measured. -/
structure Accounted (artifact : CodexOutputArtifact) (issued : List ToolCall)
    (entry : ToolCallStoreEntry) : Prop where
  completed : entry.state = .completed
  base : ∃ template, ∃ base ∈ request.candidates, Records entry template base.recordRef
  named : artifact.evaluatedCallIds.count entry.toolCall.callId = 1
  issued : issued.count entry.toolCall = 1

/- What is known of a completed Step before the reported calls are counted against the scope. -/
structure Completed (artifact : CodexOutputArtifact) (output : AdapterOutput F)
    (issued : List ToolCall) : Prop where
  reported : ∃ (calls : List (AdmittedCall F)) (entries : List ToolCallStoreEntry)
    (query : ScopeQuery) (count : Nat), calls.map AdmittedCall.callId = artifact.evaluatedCallIds ∧
    artifact.evaluatedCallIds.Nodup ∧ List.Forall₂ (Reported store request handle) calls entries ∧
    issued = entries.map (fun entry => entry.toolCall) ∧
    scopeQuery handle.config handle.binding = .ok query ∧
    b.acceptedCount query store.admission = .ok count ∧ count ≤ calls.length
  returned : Returned store request handle output artifact.selectedCallId

end Statements

section Completion

variable [PyIdentifiers] [ToolIdentity] [CodexIdentity] [LeaseText] [CandidateIdentity]
variable {F : Type} [FiniteFloats F] [DecidableEq F] [RewardIdentity F] [ResultIdentity F]
variable {b : AdmissionBackend} {authority : LeaseAuthority} {r : CitingRefinement b}
variable {env : CodexEnvironment F b authority} {store : ExecutionState F b authority}
variable {request : OptimStepRequest F} {handle : GuardedHandle} {s : CodexState F}

/-! ### The selection -/

omit [CodexIdentity] in
theorem Reported.selects {call : AdmittedCall F} {entry : ToolCallStoreEntry}
    (h : Reported store request handle call entry) (houtput : call.result.output.isSome = true)
    (hreward : call.result.reward.isSome = true) :
    Selects store handle call.callId call.template call.baseRef :=
  ⟨entry, call.result, h.found, h.completed, h.recorded, h.loaded, houtput, hreward⟩

omit [PyIdentifiers] [CodexIdentity] [CandidateIdentity] in
theorem Selects.unique {callId template template' : String} {baseRef baseRef' : TypedRef}
    (h : Selects store handle callId template baseRef)
    (h' : Selects store handle callId template' baseRef') :
    template = template' ∧ baseRef = baseRef' := by
  obtain ⟨entry,_,hfound,_,hrecords,_⟩ := h.named
  obtain ⟨entry',_,hfound',_,hrecords',_⟩ := h'.named
  rw [hfound] at hfound'
  cases hfound'
  exact hrecords.unique hrecords'

theorem ends_candidateFromCall (selected : AdmittedCall F) :
    Ends r env request (fun made t => (∀ candidate, made = .ok candidate → ∃ base,
      baseOf request selected.baseRef = some base ∧
      candidateFromDraft request.run base selected.callId selected.template = .ok candidate) ∧
      t = s) (candidateFromCall request selected) s := by
  unfold candidateFromCall
  split
  · exact ⟨fun _ h => (by cases h), rfl⟩
  · rename_i base hbase
    split
    · trivial
    · refine ⟨fun candidate hmade => ⟨base, hbase, ?_⟩, rfl⟩
      cases hdraft : candidateFromDraft request.run base selected.callId selected.template with
      | error message =>
        rw [hdraft] at hmade
        cases hmade
      | ok own =>
        rw [hdraft] at hmade
        cases hmade
        rfl

omit [CodexIdentity] in
theorem exists_reported {calls : List (AdmittedCall F)} {entries : List ToolCallStoreEntry}
    (h : List.Forall₂ (Reported store request handle) calls entries) {call : AdmittedCall F}
    (hmem : call ∈ calls) : ∃ entry, Reported store request handle call entry := by
  induction h with
  | nil => cases hmem
  | cons hreported _ ih =>
    rcases List.mem_cons.mp hmem with rfl | hmem
    · exact ⟨_, hreported⟩
    · exact ih hmem

/-- A selection that is not the seed's content is rebuilt from its base. -/
theorem ends_acceptSelected {admitted : List (AdmittedCall F)} {selected : AdmittedCall F}
    {entry : ToolCallStoreEntry} {stateDelta : List (String × Json)}
    (h : Reported env.store request handle selected entry) :
    Ends r env request (fun output t => output.proposedStatus = .complete → t = s ∧
      Returned env.store request handle output (some selected.callId))
      (acceptSelected request handle stateDelta admitted selected) s := by
  unfold acceptSelected
  split
  · exact ends_failed _ _ _ _
  · rename_i hscored
    rw [not_or] at hscored
    have hselects := h.selects (by simpa [← Option.isSome_iff_ne_none] using hscored.1)
      (by simpa [← Option.isSome_iff_ne_none] using hscored.2)
    refine Prog.leads_bind (ends_fromSeed _) ?_
    rintro found _ ⟨hseed,rfl⟩
    cases found with
    | some seed =>
      rintro -
      obtain ⟨hmem,hrun,hbase,htemplate⟩ := seedContentCandidate_some hseed
      rw [hbase] at hselects
      exact ⟨rfl, .inl ⟨⟨seed, selected.template, hrun, hselects, htemplate⟩,
        ⟨⟨seed, hmem, hrun, rfl⟩, rfl, rfl, rfl⟩⟩⟩
    | none =>
      have hother : ¬ SelectsSeed env.store request handle selected.callId := by
        rintro ⟨seed,template,hrun,hseeds,htemplate⟩
        obtain ⟨hsame,hbase⟩ := hselects.unique hseeds
        rw [← hsame] at htemplate
        exact seedContentCandidate_none hseed hrun hbase htemplate
      refine Prog.leads_bind (ends_candidateFromCall selected) ?_
      rintro made _ ⟨hmade,rfl⟩
      cases made with
      | error failure => exact ends_failed _ _ _ _
      | ok candidate =>
        rintro -
        obtain ⟨base,hbase,hcandidate⟩ := hmade candidate rfl
        obtain ⟨rfl,old,hold,hne⟩ := candidateFromDraft_ok hcandidate
        obtain ⟨hmem,href⟩ := baseOf_some hbase
        rw [← href] at hselects hbase
        exact ⟨rfl, .inr ⟨hother, ⟨⟨base, selected.template, _, hselects, hbase, rfl,
          ⟨hmem, rfl, rfl, old, hold, hne⟩, rfl, rfl⟩, rfl, rfl⟩⟩⟩

theorem ends_selectCandidate (artifact : CodexOutputArtifact) {admitted : List (AdmittedCall F)}
    {entries : List ToolCallStoreEntry} {stateDelta : List (String × Json)}
    (h : List.Forall₂ (Reported env.store request handle) admitted entries) :
    Ends r env request (fun output t => output.proposedStatus = .complete → t = s ∧
      Returned env.store request handle output artifact.selectedCallId)
      (selectCandidate request handle artifact stateDelta admitted) s := by
  unfold selectCandidate
  cases hselected : artifact.selectedCallId with
  | none =>
    refine Prog.leads_bind (ends_fromSeed _) ?_
    rintro seed _ ⟨hseed,rfl⟩ -
    obtain ⟨hmem,hrun⟩ := seedCandidate_ok hseed
    exact ⟨rfl, ⟨seed, hmem, hrun, rfl⟩, rfl, rfl, rfl⟩
  | some callId =>
    dsimp only
    cases hfind : admitted.find? fun call => call.callId = callId with
    | none => exact ends_failed _ _ _ _
    | some selected =>
      have hid : selected.callId = callId := by simpa using List.find?_some hfind
      obtain ⟨entry,hentry⟩ := exists_reported h (List.mem_of_find?_eq_some hfind)
      rw [← hid]
      exact ends_acceptSelected hentry

/-! ### The whole Step -/

omit [CandidateIdentity] in
theorem ends_acceptedCount :
    Ends r env request (fun count t => t = s ∧ ∃ query,
      scopeQuery handle.config handle.binding = .ok query ∧
      b.acceptedCount query env.store.admission = .ok count) (acceptedCount handle) s := by
  refine Prog.leads_bind (ends_fromValidation _) ?_
  rintro query _ ⟨hquery,rfl⟩
  refine Prog.leads_bind (ends_perform _) ?_
  rintro _ _ ⟨⟩
  refine Prog.leads_mono (ends_fromAdmission _) ?_ fun _ _ => trivial
  rintro count _ ⟨hcount,rfl⟩
  exact ⟨rfl, query, hquery, hcount⟩

/-- A completed Step reported at least as many calls as its scope has debited. -/
theorem ends_settleArtifact (hkeyed : KeyedEntries env.store) (artifact : CodexOutputArtifact)
    (leaseToken : String) (hs : s.issued = []) :
    Ends r env request (fun output t => output.proposedStatus = .complete →
      Completed env.store request handle artifact output t.issued)
      (settleArtifact request handle leaseToken artifact) s := by
  refine Prog.leads_bind (ends_perform _) ?_
  rintro _ _ ⟨⟩
  refine Prog.leads_bind ends_acceptedCount ?_
  rintro count _ ⟨rfl,query,hquery,hcount⟩
  dsimp only
  split
  · exact ends_failed _ _ _ _
  split
  · exact ends_failed _ _ _ _
  refine Prog.leads_bind (ends_admittedCalls hkeyed artifact.evaluatedCallIds [] []) ?_
  intro found t hfound
  cases found with
  | error rejection => exact ends_failed _ _ _ _
  | ok admitted =>
    obtain ⟨calls,entries,hcalls,hids,hnodup,_,hreported,hissued⟩ := hfound admitted rfl
    rw [List.nil_append] at hcalls
    subst hcalls
    unfold settleReported
    dsimp only
    split
    · exact ends_failed _ _ _ _
    · rename_i henough
      refine Prog.leads_mono (ends_selectCandidate artifact hreported) ?_
        fun _ _ => trivial
      intro output u hdone hcomplete
      obtain ⟨rfl,hreturned⟩ := hdone hcomplete
      rw [hs, List.nil_append] at hissued
      exact ⟨⟨admitted, entries, query, count, hids, hnodup, hreported, hissued, hquery, hcount,
        Nat.le_of_not_lt henough⟩, hreturned⟩

theorem ends_invoke (hkeyed : KeyedEntries env.store) (handles : List GuardedHandle)
    (hs : s.issued = []) :
    Ends r env request (fun output t => output.proposedStatus = .complete →
      ∃ handle artifact, handles = [handle] ∧ env.runner env.leaseToken = .ok artifact ∧
        Completed env.store request handle artifact output t.issued) (invoke request handles) s := by
  refine Prog.leads_bind (ends_refuseIf _ _) ?_
  rintro _ _ ⟨-,rfl⟩
  match handles with
  | [] => trivial
  | _ :: _ :: _ => trivial
  | [handle] =>
    refine Prog.leads_bind (ends_refuseIf _ _) ?_
    rintro _ _ ⟨-,rfl⟩
    refine Prog.leads_bind (ends_perform _) ?_
    rintro _ _ ⟨⟩
    refine Prog.leads_bind (ends_perform _) ?_
    rintro reply _ hreply
    cases hreply
    cases hrun : env.runner env.leaseToken with
    | error error =>
      refine Prog.leads_bind (Prog.leads_true _ _) fun found t _ => ?_
      exact ends_failed _ _ _ _
    | ok artifact =>
      refine Prog.leads_mono (ends_settleArtifact hkeyed artifact env.leaseToken hs) ?_
        fun _ _ => trivial
      exact fun output t hdone hcomplete => ⟨handle, artifact, rfl, rfl, hdone hcomplete⟩

/-! ### Counting against the scope -/

omit [PyIdentifiers] [CodexIdentity] [LeaseText] [CandidateIdentity] [FiniteFloats F]
  [DecidableEq F] [RewardIdentity F] [ResultIdentity F] in
/-- The authority keeps every entry under the entry's own key. -/
theorem authority_run_keyed {Text : Type} (codec : EntryCodec Text) (kind : BackendKind)
    (requests : List AdmissionRequest) (key : EntryKey) (entry : ToolCallStoreEntry)
    (h : (backend codec kind).get key (ToolAdmissionAuthority.run (backend codec kind)
      (backend codec kind).empty requests) = .ok (some entry)) : entry.entryKey = key := by
  have r := (citingRefinement codec kind).toRefinement
  obtain ⟨L,hs,hadv⟩ := ToolAdmissionAuthority.run_simulates r requests _ _ r.init
  rw [r.get _ L key hs, Except.ok.injEq] at h
  exact hadv.keyed keyed_empty key entry h

omit [PyIdentifiers] [CodexIdentity] [LeaseText] [CandidateIdentity] in
theorem scopeQuery_key {query : ScopeQuery}
    (h : scopeQuery handle.config handle.binding = .ok query) :
    query.key = .ok handle.scopeKey := by
  rw [scopeQuery, raiseIf_bind_eq_ok] at h
  obtain ⟨_,h⟩ := h
  cases h
  have hid : backendScopeId handle.binding.scope handle.binding.capacityScopeId =
      .ok handle.binding.capacityScopeId := by
    unfold backendScopeId
    rw [if_neg]
    rintro ⟨hglobal,hne⟩
    exact hne (by simp [ToolCapacityBinding.capacityScopeId, hglobal])
  simp only [ScopeQuery.key, hid]
  rfl

omit [CodexIdentity] in
theorem Reported.debited {call : AdmittedCall F} {entry : ToolCallStoreEntry}
    (h : Reported store request handle call entry) : Debited store handle entry := by
  refine ⟨⟨_, h.found⟩, .inr h.completed, ?_⟩
  rw [ToolCallStoreEntry.scopeKey, GuardedHandle.scopeKey, entry.citation.2.1,
    ToolCallStoreEntry.toolConfigHash, entry.citation.1, ToolCall.storeNamespaceKey, h.config,
    h.binding]

omit [CodexIdentity] in
theorem Reported.callId (hkeyed : KeyedEntries store) {call : AdmittedCall F}
    {entry : ToolCallStoreEntry} (h : Reported store request handle call entry) :
    entry.toolCall.callId = call.callId :=
  congrArg Prod.snd (hkeyed _ entry h.found)

omit [CodexIdentity] in
theorem reported_ids (hkeyed : KeyedEntries store) {calls : List (AdmittedCall F)}
    {entries : List ToolCallStoreEntry}
    (h : List.Forall₂ (Reported store request handle) calls entries) :
    entries.map (fun entry => entry.toolCall.callId) = calls.map AdmittedCall.callId := by
  induction h with
  | nil => rfl
  | cons hreported _ ih => rw [List.map_cons, List.map_cons, ih, hreported.callId hkeyed]

omit [CodexIdentity] in
theorem reported_entry {calls : List (AdmittedCall F)} {entries : List ToolCallStoreEntry}
    (h : List.Forall₂ (Reported store request handle) calls entries) {entry : ToolCallStoreEntry}
    (hmem : entry ∈ entries) : ∃ call ∈ calls, Reported store request handle call entry := by
  induction h with
  | nil => cases hmem
  | cons hreported _ ih =>
    rcases List.mem_cons.mp hmem with rfl | hmem
    · exact ⟨_, List.mem_cons_self, hreported⟩
    · obtain ⟨call,hcall,hentry⟩ := ih hmem
      exact ⟨call, List.mem_cons_of_mem _ hcall, hentry⟩

omit [CodexIdentity] in
/-- No reported call stands in for a hidden one: the reported entries are distinct debits of the
scope, and there are as many of them as the scope has counted. -/
theorem Completed.accounted (hledger : LedgerSound b store.admission)
    (hkeyed : KeyedEntries store) {artifact : CodexOutputArtifact} {output : AdapterOutput F}
    {issued : List ToolCall} (h : Completed store request handle artifact output issued)
    {entry : ToolCallStoreEntry} (hdebited : Debited store handle entry) :
    Accounted request artifact issued entry := by
  obtain ⟨calls,entries,query,count,hids,hnodup,hreported,hissued,hquery,hcount,henough⟩ :=
    h.reported
  obtain ⟨all,total,_,htotal,hordinals,hmem⟩ := hledger.admitted query _ (scopeQuery_key hquery)
  have hcounted : total = count := by
    rw [hcount] at htotal
    cases htotal
    rfl
  have hlength : all.length = count := by
    have hlen := congrArg List.length hordinals
    simpa [hcounted] using hlen
  have hentryIds : (entries.map fun entry => entry.toolCall.callId) = artifact.evaluatedCallIds :=
    (reported_ids hkeyed hreported).trans hids
  have hdistinct : (entries.map fun entry => entry.toolCall.callId).Nodup := hentryIds ▸ hnodup
  have hsub : entries ⊆ all := by
    intro own hown
    obtain ⟨call,_,hcall⟩ := reported_entry hreported hown
    exact (hmem own).mpr hcall.debited
  have hlisted : entry ∈ entries := by
    refine subset_of_length_le (List.Nodup.of_map _ hdistinct) hsub ?_ ((hmem entry).mpr hdebited)
    rw [hlength, ← hreported.length_eq]
    exact henough
  obtain ⟨call,_,hcall⟩ := reported_entry hreported hlisted
  obtain ⟨base,hbase,href⟩ := List.mem_map.mp hcall.base
  have hcalls : (entries.map fun entry => entry.toolCall).Nodup := by
    refine List.Nodup.of_map ToolCall.callId ?_
    rwa [List.map_map]
  refine ⟨hcall.completed, ⟨call.template, base, hbase, href ▸ hcall.recorded⟩, ?_, ?_⟩
  · exact List.count_eq_one_of_mem hnodup (hentryIds ▸ List.mem_map_of_mem hlisted)
  · rw [hissued]
    exact List.count_eq_one_of_mem hcalls (List.mem_map_of_mem hlisted)

/-! ### The returned candidate -/

omit [CodexIdentity] in
theorem Returned.candidate {artifact : CodexOutputArtifact} {output : AdapterOutput F}
    (h : Returned store request handle output artifact.selectedCallId) :
    ReturnedCandidate store request handle artifact output := by
  cases hselected : artifact.selectedCallId with
  | none =>
    rw [hselected] at h
    exact ⟨⟨fun _ => .inl hselected, fun _ => h⟩, fun hnot => absurd h hnot⟩
  | some callId =>
    rw [hselected] at h
    rcases h with ⟨hseed,hretains⟩ | ⟨hother,haccepts⟩
    · exact ⟨⟨fun _ => .inr ⟨callId, hselected, hseed⟩, fun _ => hretains⟩,
        fun hnot => absurd hretains hnot⟩
    · refine ⟨⟨fun hretains => ?_, ?_⟩, fun _ => ⟨callId, hselected, haccepts⟩⟩
      · have hflag := hretains.flag
        rw [haccepts.flag] at hflag
        cases hflag
      · rintro (hnone | ⟨other,hsome,hseed⟩)
        · rw [hselected] at hnone
          cases hnone
        · rw [hselected] at hsome
          cases hsome
          exact absurd hseed hother

omit [CodexIdentity] [LeaseText] [CandidateIdentity] [DecidableEq F] [RewardIdentity F]
  [ResultIdentity F] in
theorem RetainsSeed.unique {output output' : AdapterOutput F} (h : RetainsSeed request output)
    (h' : RetainsSeed request output') :
    output'.proposedCandidates = output.proposedCandidates ∧
      output'.acceptedCandidates = output.acceptedCandidates ∧
      output'.retainedCandidate = output.retainedCandidate := by
  obtain ⟨seed,_,hrun,hretained⟩ := h.seed
  obtain ⟨seed',_,hrun',hretained'⟩ := h'.seed
  rw [hrun] at hrun'
  cases hrun'
  exact ⟨h'.proposed.trans h.proposed.symm, h'.accepted.trans h.accepted.symm,
    hretained'.trans hretained.symm⟩

omit [CodexIdentity] in
theorem AcceptsCall.unique {callId : String} {output output' : AdapterOutput F}
    (h : AcceptsCall store request handle callId output)
    (h' : AcceptsCall store request handle callId output') :
    output'.proposedCandidates = output.proposedCandidates ∧
      output'.acceptedCandidates = output.acceptedCandidates ∧
      output'.retainedCandidate = output.retainedCandidate := by
  obtain ⟨base,template,candidate,hselects,hbase,hid,hmutates,hproposed,haccepted⟩ := h.candidate
  obtain ⟨base',template',candidate',hselects',hbase',hid',hmutates',hproposed',haccepted'⟩ :=
    h'.candidate
  obtain ⟨rfl,href⟩ := hselects.unique hselects'
  have hsame : base = base' := by
    rw [href, hbase'] at hbase
    cases hbase
    rfl
  subst hsame
  have hcandidate : candidate' = candidate := by
    cases candidate
    cases candidate'
    simp only [Candidate.mk.injEq]
    exact ⟨hid'.trans hid.symm, hmutates'.baseRef.trans hmutates.baseRef.symm,
      hmutates'.payload.trans hmutates.payload.symm⟩
  rw [hproposed, haccepted, hproposed', haccepted', hcandidate]
  exact ⟨rfl, rfl, h'.retained.trans h.retained.symm⟩

omit [CodexIdentity] in
/-- The selected id alone decides what a completed Step returns. -/
theorem Returned.unique {selected : Option String} {output output' : AdapterOutput F}
    (h : Returned store request handle output selected)
    (h' : Returned store request handle output' selected) :
    output'.proposedCandidates = output.proposedCandidates ∧
      output'.acceptedCandidates = output.acceptedCandidates ∧
      output'.retainedCandidate = output.retainedCandidate := by
  cases selected with
  | none => exact RetainsSeed.unique h h'
  | some callId =>
    rcases h with ⟨hseed,h⟩ | ⟨hother,h⟩
    · rcases h' with ⟨_,h'⟩ | ⟨hother,_⟩
      · exact h.unique h'
      · exact absurd hseed hother
    · rcases h' with ⟨hseed,_⟩ | ⟨_,h'⟩
      · exact absurd hseed hother
      · exact h.unique h'

theorem completed_of_run (hkeyed : KeyedEntries env.store) {handles : List GuardedHandle}
    {ledger : Issued.IssuedStore (OptimStepRequest F) (ToolResult F)} {output : AdapterOutput F}
    {t : CodexState F} (hrun : runInvoke r env request handles ledger = some (.ok output, t))
    (hcomplete : output.proposedStatus = .complete) :
    ∃ handle artifact, handles = [handle] ∧ env.runner env.leaseToken = .ok artifact ∧
      Completed env.store request handle artifact output t.issued :=
  (Prog.leads_alone (ends_invoke hkeyed handles rfl) hrun).1 output rfl hcomplete

/-- What a completed Codex Step returns was paid for, reported and measured. Whatever entries a
run of the admission authority has left, over either backend, and whatever the runner returned:
a Step that completes has named every debited entry of its scope once and issued it once, all of
them completed and on a base of the request; it keeps the seed exactly when the artifact selects
nothing or a scored call that recorded the seed's own template on the seed, and else accepts the
one candidate that the selected scored call recorded. Of the artifact only the selected id
decides which candidate that is. -/
theorem completed_step_accounted {Text : Type} (codec : EntryCodec Text) (kind : BackendKind)
    (requests : List AdmissionRequest) (env : CodexEnvironment F (backend codec kind) authority)
    (hadmission : env.store.admission = ToolAdmissionAuthority.run (backend codec kind)
      (backend codec kind).empty requests)
    (request : OptimStepRequest F) (handles : List GuardedHandle)
    (ledger : Issued.IssuedStore (OptimStepRequest F) (ToolResult F)) (output : AdapterOutput F)
    (t : CodexState F)
    (hrun : runInvoke (citingRefinement codec kind) env request handles ledger =
      some (.ok output, t))
    (hcomplete : output.proposedStatus = .complete) :
    ∃ handle artifact, handles = [handle] ∧ env.runner env.leaseToken = .ok artifact ∧
      (∀ entry, Debited env.store handle entry → Accounted request artifact t.issued entry) ∧
      ReturnedCandidate env.store request handle artifact output ∧
      ∀ (env' : CodexEnvironment F (backend codec kind) authority) ledger' artifact' output' t',
        env'.store = env.store → env'.runner env'.leaseToken = .ok artifact' →
        artifact'.selectedCallId = artifact.selectedCallId →
        runInvoke (citingRefinement codec kind) env' request handles ledger' =
          some (.ok output', t') → output'.proposedStatus = .complete →
        output'.proposedCandidates = output.proposedCandidates ∧
          output'.acceptedCandidates = output.acceptedCandidates ∧
          output'.retainedCandidate = output.retainedCandidate := by
  have hledger := (admission_ledger_invariant codec kind requests).1
  have hkeyed := authority_run_keyed codec kind requests
  rw [← hadmission] at hledger
  have hkeyed : KeyedEntries env.store := by
    intro key entry hget
    rw [hadmission] at hget
    exact hkeyed key entry hget
  obtain ⟨handle,artifact,rfl,hrunner,hcompleted⟩ := completed_of_run hkeyed hrun hcomplete
  refine ⟨handle, artifact, rfl, hrunner,
    fun entry hdebited => hcompleted.accounted hledger hkeyed hdebited,
    hcompleted.returned.candidate, ?_⟩
  intro env' ledger' artifact' output' t' hstore hrunner' hselected hrun' hcomplete'
  obtain ⟨own,artifact'',hown,hrunner'',hcompleted'⟩ :=
    completed_of_run (hstore ▸ hkeyed) hrun' hcomplete'
  cases hown
  rw [hrunner'] at hrunner''
  cases hrunner''
  have hreturned := hcompleted'.returned
  rw [hstore, hselected] at hreturned
  exact hcompleted.returned.unique hreturned

end Completion
/-! ### A run that selects a scored call -/

section Example

@[reducible] def codexNames : PyIdentifiers := ⟨fun name => name ≠ ""⟩

/- The hash of a record is spelled with sixty-four letters of one kind. -/
def fullHash (letter : Char) : String := String.ofList (List.replicate 64 letter)

@[reducible] def codexCandidates : CandidateIdentity where
  identityHash := Candidate.candidateId
  contentHash := fun candidate => fullHash (if candidate.candidateId = "seed" then 'a' else 'b')

@[reducible] def codexArtifacts : CodexIdentity where
  artifactHash := fun artifact => artifact.runId
  leaseTokenHash := fun token => "hash of " ++ token

attribute [local instance] codexNames codexCandidates codexArtifacts gradeIdentity exactFailures
  exactFiniteFloats gradeRewards gradeResults

def codexTool : ToolConfig where
  definition := ⟨"evaluate", 1, ["base_ref", "template"], ["score"], [.capacity], none, rfl⟩
  endpointKey := "mcp"
  evalConfig := default
  rewardPolicyHash := "policy"
  capacity := ⟨2, .run⟩
  timeoutPolicyRef := none
  operationalPolicyRefs := [⟨"whetstone.policy", "codex"⟩]
  storeNamespaceKey := "namespace"
  idempotentReplay := true
  candidateTemplateField := "template"
  valid := rfl

def codexHandle : GuardedHandle where
  config := codexTool
  binding := ⟨.run, some ⟨runCapacitySubjectSchema, "codex"⟩, rfl⟩
  valid := rfl

def codexSeed : Candidate :=
  ⟨"seed", ⟨candidateRecordSchema, fullHash 'a'⟩, [("template", .str "a"), ("style", .str "s")]⟩

def codexRun : OptimRun Rat where
  runId := "run"
  optimizerConfig := ⟨⟨"whetstone.optimizer", "config"⟩, "config"⟩
  adapterKey := "codex"
  mode := .toolUsing
  terminalOutputContract := ⟨1, some 1, some 1, true, rfl⟩
  templateRenderContract := ⟨.literalBodyV1, [], []⟩
  initialCandidateRef := some codexSeed
  mutationField := "template"
  rewardPolicy := none
  toolConfigs := [codexTool]
  valid := by decide

def codexRequest : OptimStepRequest Rat where
  run := codexRun
  stepId := "step"
  kind := .proposal
  kindLabel := none
  stepIndex := 0
  priorStepResultRef := none
  priorStateRef := none
  priorHistoryRef := none
  candidates := [codexSeed]
  pools := []
  hyperparameters := []
  budget := ⟨Dict.empty, Dict.ofPairs [(toolCallsLabel, 2)]⟩
  stepOutputContract := ⟨1, some 1, some 1, true, rfl⟩

def codexCall : ToolCall where
  callId := "call"
  toolConfig := codexTool
  capacityBinding := codexHandle.binding
  args := [("base_ref", refJson codexSeed.recordRef), ("template", .str "b")]
  valid := by decide +kernel

def codexGeneration : TypedRef := ⟨"whetstone.eval", "generation"⟩

def codexReward : Reward Rat :=
  (applyRewardPolicy gradePolicy (Dict.ofPairs [("score", some (1 / 2))]) .internal
    [codexGeneration] (some 1)).toOption.get (by decide +kernel)

def codexResult : ToolResult Rat where
  call := codexCall
  output := some [("score", .int 1)]
  evaluationEvidenceRefs := [codexGeneration]
  reward := some codexReward
  provenanceOrdinal := some 1
  valid := by decide +kernel

def codexTerminal : EffectTerminal where
  request := toolEffectRequest codexCall
  outcome := .succeeded
  ownerId := "owner"
  attemptId := "attempt"
  fence := 1
  resultRef := some (toolResultReference codexResult)
  failure := none

def codexAccepted : ToolCallStoreEntry where
  toEntryFields := { ToolCallStore.entryFields codexCall .accepted with
    capacityDebitOrdinal := some 1 }
  valid := by decide +kernel

def codexRefused : ToolCallStoreEntry where
  toEntryFields := { ToolCallStore.entryFields codexCall .refused with
    refusal := some (ToolCallStore.capacityRefusal codexTool)
    toolResultRef := some ⟨toolResultSchema, "refused"⟩ }
  valid := by decide +kernel

def codexCompleted : ToolCallStoreEntry where
  toEntryFields := { ToolCallStore.entryFields codexCall .completed with
    capacityDebitOrdinal := some 1
    toolResultRef := some (toolResultReference codexResult)
    effectTerminal := some codexTerminal }
  valid := by decide +kernel

def codexAdmissions : List AdmissionRequest :=
  [.admitCall codexAccepted codexRefused 2, .complete codexCompleted]

def codexStore : ExecutionState Rat (backend plainCodec .memory) fencedLeases where
  admission := ToolAdmissionAuthority.run (backend plainCodec .memory)
    (backend plainCodec .memory).empty codexAdmissions
  results := Dict.empty.set (toolResultReference codexResult) codexResult
  leases := Dict.empty.set codexTerminal.request (.ended {
    request := codexTerminal.request
    outcome := .succeeded
    ownerId := "owner"
    attemptId := "attempt"
    fence := 1
    resultRef := codexTerminal.resultRef
    failure := none })
  history := []

/- The artifact selects the one call it reports. -/
def codexEnvironment : CodexEnvironment Rat (backend plainCodec .memory) fencedLeases where
  leaseToken := "token"
  runner := fun token => .ok
    ⟨"run", ["call"], some "call", CodexIdentity.leaseTokenHash token, [], []⟩
  store := codexStore
  executor := fun _ => .error "nothing is executed"

def codexLedger : Issued.IssuedStore (OptimStepRequest Rat) (ToolResult Rat) :=
  ⟨[], Dict.empty, Dict.empty.set 0 (.opened [])⟩

def codexOutcome : Option (AdapterOutput Rat) :=
  (runInvoke (citingRefinement plainCodec .memory) codexEnvironment codexRequest [codexHandle]
    codexLedger).bind fun ended => ended.1.toOption

def codexChild : Candidate :=
  ⟨"call", codexSeed.recordRef, [("template", .str "b"), ("style", .str "s")]⟩

/-- The Step completes with the candidate of its one call, which it has issued once. -/
theorem selected_call_accepted : ∃ output t,
    runInvoke (citingRefinement plainCodec .memory) codexEnvironment codexRequest [codexHandle]
      codexLedger = some (.ok output, t) ∧ output.proposedStatus = .complete ∧
      output.acceptedCandidates = [codexChild] ∧
      ∀ entry, Debited codexStore codexHandle entry →
        entry.state = .completed ∧ t.issued.count entry.toolCall = 1 := by
  have hout : codexOutcome.map (fun output => (output.proposedStatus, output.acceptedCandidates)) =
      some (.complete, [codexChild]) := by
    decide +kernel
  obtain ⟨output,houtput,hpair⟩ := Option.map_eq_some_iff.mp hout
  obtain ⟨hstatus,haccepted⟩ := Prod.mk.inj hpair
  obtain ⟨⟨reply,t⟩,hrun,hreply⟩ := Option.bind_eq_some_iff.mp houtput
  cases reply with
  | error error => cases hreply
  | ok returned =>
    cases hreply
    refine ⟨output, t, hrun, hstatus, haccepted, ?_⟩
    obtain ⟨handle,artifact,hhandle,-,haccounted,-⟩ := completed_step_accounted plainCodec .memory
      codexAdmissions codexEnvironment rfl codexRequest [codexHandle] codexLedger output t hrun
      hstatus
    cases hhandle
    exact fun entry hdebited => ⟨(haccounted entry hdebited).completed,
      (haccounted entry hdebited).issued⟩

end Example
end Whetstone.Optim.Codex
