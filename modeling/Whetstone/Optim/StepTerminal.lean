import Whetstone.Optim.StepChain

/-! The terminal result of a run. The checks of the requests and of the step results imply those
of the terminal result, whatever the steps were; what is left is the spend, whose evidence must
be readable and payable. -/
namespace Whetstone.Optim.Step
open Whetstone.Core Whetstone.Lib Whetstone.Experiment Whetstone.Eval Whetstone.Tools

/-! ### Spend that can be totalled -/

section Spend

variable {F : Type}

/- The evidence is stored, and so are the rows it refers to, each of which validates. -/
def Readable (get : TypedRef → Option (ForeignRecord F)) (ref : TypedRef) : Prop :=
  ∃ evidence, get ref = some evidence ∧ ∀ outputs, evidence.outputsRef = some outputs →
    ∃ outputsRef record, outputs = .ok outputsRef ∧ get outputsRef = some record ∧
      ∀ rows, record.outputs = some rows → ∀ row ∈ rows, ∃ usage, row = .ok usage

def observedRow : Except String (EvalOutputRowUsage F) → Option (UsageObservation F)
  | .ok row => rowObservation row
  | .error _ => none

/- The observations behind one evidence reference, as far as they can be read. -/
def observedRows (get : TypedRef → Option (ForeignRecord F)) (ref : TypedRef) :
    List (UsageObservation F) :=
  match (get ref).bind ForeignRecord.outputsRef with
  | some (.ok outputsRef) =>
    (((get outputsRef).bind ForeignRecord.outputs).getD []).filterMap observedRow
  | _ => []

theorem rowObservations_isOk (rows : List (Except String (EvalOutputRowUsage F))) :
    (∃ observed, rowObservations rows = .ok observed) ↔ ∀ row ∈ rows, ∃ usage, row = .ok usage := by
  constructor
  · rintro ⟨observed,h⟩ row hmem
    obtain ⟨parsed,hparsed,_⟩ := (bind_eq_ok _ _ _).mp h
    exact mapM_mem_ok hparsed row hmem
  · intro h
    obtain ⟨parsed,hparsed⟩ := mapM_exists_ok id rows h
    exact ⟨_, (bind_eq_ok _ _ _).mpr ⟨parsed, hparsed, rfl⟩⟩

theorem rowObservations_ok {rows : List (Except String (EvalOutputRowUsage F))}
    {observed : List (UsageObservation F)} (h : rowObservations rows = .ok observed) :
    observed = rows.filterMap observedRow := by
  obtain ⟨parsed,hparsed,hsame⟩ := (bind_eq_ok _ _ _).mp h
  cases hsame
  clear h
  induction rows generalizing parsed with
  | nil =>
    cases hparsed
    rfl
  | cons row rest ih =>
    rw [List.mapM_cons, bind_eq_ok] at hparsed
    obtain ⟨usage,hrow,hrest⟩ := hparsed
    obtain ⟨usages,husages,hsame⟩ := (bind_eq_ok _ _ _).mp hrest
    cases hsame
    cases hrow
    rw [List.filterMap_cons, List.filterMap_cons, ih usages husages]
    rfl

theorem refObservations_isOk (get : TypedRef → Option (ForeignRecord F)) (ref : TypedRef) :
    (∃ observed, refObservations get ref = .ok observed) ↔ Readable get ref := by
  unfold refObservations Readable
  cases hget : get ref with
  | none => simp
  | some evidence =>
    cases houtputs : evidence.outputsRef with
    | none => simp [houtputs]
    | some outputs =>
      cases outputs with
      | error message => simp [houtputs]
      | ok outputsRef =>
        cases hrecord : get outputsRef with
        | none => simp [houtputs, hrecord]
        | some record =>
          cases hrows : record.outputs with
          | none => simp [houtputs, hrecord, hrows]
          | some rows => simp [houtputs, hrecord, hrows, rowObservations_isOk]

theorem refObservations_ok {get : TypedRef → Option (ForeignRecord F)} {ref : TypedRef}
    {observed : List (UsageObservation F)} (h : refObservations get ref = .ok observed) :
    observed = observedRows get ref := by
  unfold refObservations at h
  unfold observedRows
  cases hget : get ref with
  | none => simp [hget] at h
  | some evidence =>
    cases houtputs : evidence.outputsRef with
    | none =>
      simp only [hget, houtputs, Except.ok.injEq] at h
      simp [houtputs, ← h]
    | some outputs =>
      cases outputs with
      | error message => simp [hget, houtputs] at h
      | ok outputsRef =>
        cases hrecord : get outputsRef with
        | none => simp [hget, houtputs, hrecord] at h
        | some record =>
          cases hrows : record.outputs with
          | none =>
            simp only [hget, houtputs, hrecord, hrows, Except.ok.injEq] at h
            simp [houtputs, hrecord, hrows, ← h]
          | some rows =>
            simp only [hget, houtputs, hrecord, hrows] at h
            simp [houtputs, hrecord, hrows, rowObservations_ok h]

theorem taskModelObservations_eq_ok (get : TypedRef → Option (ForeignRecord F))
    (refs : List TypedRef) (observed : List (UsageObservation F)) :
    taskModelObservations get refs = .ok observed ↔
      (∀ ref ∈ refs, Readable get ref) ∧ observed = refs.flatMap (observedRows get) := by
  have hflat : ∀ lists, refs.mapM (refObservations get) = .ok lists →
      lists = refs.map (observedRows get) :=
    fun lists h => mapM_ok_eq h _ fun _ _ => refObservations_ok
  unfold taskModelObservations
  rw [bind_eq_ok]
  constructor
  · rintro ⟨lists,hlists,hsame⟩
    cases hsame
    refine ⟨fun ref hmem => ?_, by rw [hflat lists hlists, List.flatMap_def]⟩
    exact (refObservations_isOk get ref).mp (mapM_mem_ok hlists ref hmem)
  · rintro ⟨hall,rfl⟩
    obtain ⟨lists,hlists⟩ := mapM_exists_ok (refObservations get) refs
      fun ref hmem => (refObservations_isOk get ref).mpr (hall ref hmem)
    exact ⟨lists, hlists, by rw [hflat lists hlists, List.flatMap_def]; rfl⟩

section Runs

variable [PyIdentifiers] [CandidateIdentity] [ToolIdentity] [FiniteFloats F] [DecidableEq F]
variable [RewardIdentity F] [ResultIdentity F] [RequestIdentity F]

/-- The cited evidence can be read, and what it and the proposer calls add up to is a spend. -/
structure Costable (get : TypedRef → Option (ForeignRecord F))
    (results : List (OptimStepResult F)) : Prop where
  readable : ∀ result ∈ results, ∀ ref ∈ evidenceRefs result, Readable get ref
  taskModel : Payable ((distinctRefs results).flatMap (observedRows get))
  proposer : Payable (proposerObservations []
    (results.flatMap fun result => result.fields.proposerUsage))

theorem aggregateRunCost_isOk (get : TypedRef → Option (ForeignRecord F))
    (results : List (OptimStepResult F)) :
    (∃ cost, aggregateRunCost get results = .ok cost) ↔ Costable get results := by
  have hdistinct : (∀ ref ∈ distinctRefs results, Readable get ref) ↔
      ∀ result ∈ results, ∀ ref ∈ evidenceRefs result, Readable get ref := by
    simp only [distinctRefs, List.mem_eraseDups, List.mem_flatMap]
    constructor
    · exact fun h result hmem ref href => h ref ⟨result, hmem, href⟩
    · rintro h ref ⟨result,hmem,href⟩
      exact h result hmem ref href
  unfold aggregateRunCost
  simp only [bind_eq_ok, taskModelObservations_eq_ok, hdistinct]
  constructor
  · rintro ⟨_,_,⟨hreadable,rfl⟩,taskModel,htask,proposer,hproposer,_⟩
    exact ⟨hreadable, (aggregateRoleCost_isOk _).mp ⟨taskModel, htask⟩,
      (aggregateRoleCost_isOk _).mp ⟨proposer, hproposer⟩⟩
  · rintro ⟨hreadable,htask,hproposer⟩
    obtain ⟨taskModel,htask⟩ := (aggregateRoleCost_isOk _).mpr htask
    obtain ⟨proposer,hproposer⟩ := (aggregateRoleCost_isOk _).mpr hproposer
    exact ⟨_, _, ⟨hreadable, rfl⟩, taskModel, htask, proposer, hproposer, rfl⟩

end Runs

/-- What can be read is read the same from a store that has grown. -/
theorem refObservations_grow {get later : TypedRef → Option (ForeignRecord F)}
    (hgrow : ∀ ref record, get ref = some record → later ref = some record) {ref : TypedRef}
    {observed : List (UsageObservation F)} (h : refObservations get ref = .ok observed) :
    refObservations later ref = .ok observed := by
  unfold refObservations at h ⊢
  cases hget : get ref with
  | none => simp [hget] at h
  | some evidence =>
    simp only [hget] at h
    simp only [hgrow _ _ hget]
    cases houtputs : evidence.outputsRef with
    | none => simpa [houtputs] using h
    | some outputs =>
      cases outputs with
      | error message => simp [houtputs] at h
      | ok outputsRef =>
        simp only [houtputs] at h ⊢
        cases hrecord : get outputsRef with
        | none => simp [hrecord] at h
        | some record =>
          simp only [hrecord] at h
          simpa only [hgrow _ _ hrecord] using h

section Growth

variable [PyIdentifiers] [CandidateIdentity] [ToolIdentity] [FiniteFloats F] [DecidableEq F]
variable [RewardIdentity F] [ResultIdentity F] [RequestIdentity F]

theorem aggregateRunCost_grow {get later : TypedRef → Option (ForeignRecord F)}
    (hgrow : ∀ ref record, get ref = some record → later ref = some record)
    {results : List (OptimStepResult F)} {cost : RunCostReport F}
    (h : aggregateRunCost get results = .ok cost) : aggregateRunCost later results = .ok cost := by
  unfold aggregateRunCost taskModelObservations at h ⊢
  obtain ⟨observed,hobserved,hcost⟩ := (bind_eq_ok _ _ _).mp h
  obtain ⟨lists,hlists,hsame⟩ := (bind_eq_ok _ _ _).mp hobserved
  have hlater := mapM_ok_mono (fun _ _ => refObservations_grow hgrow) hlists
  exact (bind_eq_ok _ _ _).mpr ⟨observed, (bind_eq_ok _ _ _).mpr ⟨lists, hlater, hsame⟩, hcost⟩

end Growth

end Spend
section Terminal

variable [PyIdentifiers] [CandidateIdentity] [ToolIdentity]
variable {F : Type} [FiniteFloats F] [DecidableEq F] [RewardIdentity F] [ResultIdentity F]
variable [RequestIdentity F] [StepResultIdentity F]

/-! ### The checks of the terminal result -/

theorem OptimResultFields.modelValidate_isOk {fields : OptimResultFields F}
    (h : fields.validate = .ok ()) : ∃ made, fields.modelValidate = .ok made ∧
      made.fields = fields := by
  unfold modelValidate
  split
  · exact ⟨_, rfl, rfl⟩
  · rename_i message he
    rw [h] at he
    cases he

variable [LeaseText] [HarnessIdentity F]
variable {authority : LeaseAuthority} {run : OptimRun F} {s t : StepState F authority}
variable {results : List (OptimStepResult F)}

/- What `terminalize` makes of the run's step results. -/
def terminalFields (run : OptimRun F) (results : List (OptimStepResult F))
    (last : OptimStepResult F) (cost : RunCostReport F) : OptimResultFields F where
  run := run
  proposals := if last.status = .failed then [] else last.fields.acceptedCandidates
  stepResults := results
  cost := cost
  terminalFailure := last.fields.terminalFailure
  seedRetained := last.fields.seedRetained
  provenanceNote := none
  provenanceOrdinal := none

/- A later part of a list stands behind its first elements. -/
def Behind {α : Type} (all : List α) (index : Nat) (rest : List α) : Prop :=
  index + rest.length = all.length ∧ ∀ j a, rest[j]? = some a → all[index + j]? = some a

omit [PyIdentifiers] [CandidateIdentity] [ToolIdentity] [LeaseText] in
theorem Behind.tail {α : Type} {all rest : List α} {index : Nat} {a : α}
    (h : Behind all index (a :: rest)) :
    all[index]? = some a ∧ Behind all (index + 1) rest := by
  refine ⟨h.2 0 a rfl, by rw [← h.1, List.length_cons]; omega, fun j b hb => ?_⟩
  have hnext := h.2 (j + 1) b (by simpa using hb)
  have hplace : index + (j + 1) = index + 1 + j := by omega
  rwa [hplace] at hnext

theorem Chain.continues (h : Chain run s results) {index : Nat} {result : OptimStepResult F}
    (hresult : results[index]? = some result) (hlast : index + 1 < results.length) :
    result.status = .continuing :=
  (h.linked index result _ hresult (List.getElem?_eq_getElem hlast)).1

theorem Chain.validateSteps (h : Chain run s results) (fields : OptimResultFields F)
    (hrun : fields.run = run) (hresults : fields.stepResults = results)
    (prior : Option (OptimStepResult F)) (index : Nat) (rest : List (OptimStepResult F))
    (hbehind : Behind results index rest)
    (hprior : ∀ p, prior = some p → ∃ before, index = before + 1 ∧ results[before]? = some p) :
    fields.validateSteps prior index rest = .ok () := by
  induction rest generalizing prior index with
  | nil => rfl
  | cons result rest ih =>
    obtain ⟨hresult,htail⟩ := hbehind.tail
    obtain ⟨hof,hindex⟩ := h.placed index result hresult
    rw [OptimResultFields.validateSteps, check_bind_eq_ok]
    refine ⟨?_, ih (some result) (index + 1) htail ?_⟩
    · have hstop : ¬ (index ≠ fields.stepResults.length - 1 ∧ result.status ≠ .continuing) := by
        rintro ⟨hne,hstatus⟩
        have hlt := (List.getElem?_eq_some_iff.mp hresult).1
        rw [hresults] at hne
        exact hstatus (h.continues hresult (by omega))
      have hplace : ¬ result.stepIndex ≠ index := not_not.mpr hindex
      have hexact : ¬ result.request.run ≠ fields.run := by rw [hrun]; exact not_not.mpr hof
      unfold OptimResultFields.validateStep
      rw [raiseIf_bind_eq_ok, raiseIf_bind_eq_ok, raiseIf_bind_eq_ok]
      refine ⟨hplace, hexact, hstop, ?_⟩
      cases prior with
      | none => rfl
      | some p =>
        obtain ⟨before,rfl,hbefore⟩ := hprior p rfl
        obtain ⟨_,hcites,hstate,hhistory,hbudget⟩ := h.linked before p result hbefore hresult
        simp only [raiseIf_bind_eq_ok, raiseIf_eq_ok, not_not, Bool.not_eq_false]
        exact ⟨hcites, hstate, hhistory, hbudget⟩
    · rintro p ⟨⟩
      exact ⟨index, rfl, hresult⟩

/-- The terminal result of a chain that has ended is valid. -/
theorem Chain.terminalFields_valid (h : Chain run s results) {last : OptimStepResult F}
    (hlast : results.getLast? = some last) (hstatus : last.status ≠ .continuing)
    (cost : RunCostReport F) : (terminalFields run results last cost).validate = .ok () := by
  have hsteps : (terminalFields run results last cost).validateSteps none 0 results = .ok () :=
    h.validateSteps _ rfl rfl none 0 results ⟨Nat.zero_add _, by simp⟩ (by simp)
  obtain ⟨hfailed,hcomplete⟩ := last.accepted
  have hof : last.request.run = run := by
    rw [List.getLast?_eq_getElem?] at hlast
    exact (h.placed _ _ hlast).1
  unfold OptimResultFields.validate
  simp only [terminalFields, hlast] at hsteps ⊢
  rw [check_bind_eq_ok]
  refine ⟨hsteps, ?_⟩
  have hkinds : last.status = .failed ∨ last.status = .complete := by
    revert hstatus
    generalize last.status = status
    cases status <;> simp
  rcases hkinds with hkind | hkind
  · simp [hkind, pure, Except.pure]
  · have hcount := hcomplete hkind
    rw [hof] at hcount
    simp [hkind, OptimResultFields.validateProposals, hcount]

/-! ### Programs alone -/

/- An invocation's operations, answered by one environment. -/
def answering (l : Invocation F) (environment : StepOp F → StepState F authority →
    StepAnswer F authority) (o : StepOp F) (s : StepState F authority) :
    Option (o.Reply × StepState F authority) :=
  execOp l o (environment o s) s

variable {l : Invocation F}
variable {environment : StepOp F → StepState F authority → StepAnswer F authority}
variable {α β : Type}

theorem alone_refuseIf {bad : Prop} [Decidable bad] (error : StepError) (h : ¬ bad)
    (f : Unit → StepProg F β) :
    (refuseIf bad error >>= f).alone (answering l environment) s =
      (f ()).alone (answering l environment) s := by
  unfold refuseIf
  rw [raiseIf_neg bad error h]
  rfl

theorem alone_check {x : Except String α} {a : α} (h : x = .ok a) (f : α → StepProg F β) :
    (check x >>= f).alone (answering l environment) s =
      (f a).alone (answering l environment) s := by
  rw [h]
  rfl

theorem alone_perform (o : StepOp F) (reply : o.Reply) (t : StepState F authority)
    (h : answering l environment o s = some (reply, t)) (f : o.Reply → StepProg F β) :
    (perform o >>= f).alone (answering l environment) s =
      (f reply).alone (answering l environment) t := by
  have hperform : (perform o).alone (answering l environment) s = some (.ok reply, t) := by
    rw [perform, Prog.perform, Prog.alone, h]
    rfl
  exact Prog.alone_bind _ _ _ _ _ _ hperform

theorem alone_load {schema wrongSchema notExact : String} {pick : Record F → Option α}
    {ref : TypedRef} {record : Record F} {a : α} (hschema : ref.schemaName = schema)
    (hget : s.objects.get? ref = some record) (href : record.ref = ref)
    (hpick : pick record = some a) :
    (load schema wrongSchema notExact pick ref).alone (answering l environment) s =
      some (.ok a, s) := by
  have hexact : ¬ ref.schemaName ≠ schema := not_not.mpr hschema
  have hown : ¬ record.ref ≠ ref := not_not.mpr href
  unfold load
  rw [alone_refuseIf _ hexact, alone_perform (.get ref) (some record) s]
  · simp only [hpick]
    rw [alone_refuseIf _ hown]
    rfl
  · exact congrArg (fun found => some (found, s)) hget

theorem alone_loadResult {result : OptimStepResult F} (h : Stored s (.result result)) :
    (loadResult result.recordRef).alone (answering l environment) s = some (.ok result, s) :=
  alone_load rfl h rfl rfl

theorem alone_loadTerminal {made : OptimResult F} (h : Stored s (.optimResult made)) :
    (loadTerminal made.recordRef).alone (answering l environment) s = some (.ok made, s) :=
  alone_load rfl h rfl rfl

theorem alone_resolve (key : BindingKey) (f : Option TypedRef → StepProg F β) :
    (perform (.resolve key) >>= f).alone (answering l environment) s =
      (f (s.bindings.get? key)).alone (answering l environment) s :=
  alone_perform (.resolve key) _ s rfl f

theorem alone_objects (f : Objects F → StepProg F β) :
    (perform .objects >>= f).alone (answering l environment) s =
      (f s.objects).alone (answering l environment) s :=
  alone_perform .objects _ s rfl f

/-! ### Terminalization -/

theorem Chain.alone_loadTerminalStep (h : Chain run s results) {index : Nat}
    {result : OptimStepResult F} (hresult : results[index]? = some result) :
    (loadTerminalStep run (results.length - 1) index result).alone (answering l environment) s =
      some (.ok (), s) := by
  obtain ⟨hbinding,hstored⟩ := h.bound index result hresult
  obtain ⟨hof,hindex⟩ := h.placed index result hresult
  have hactual : ¬ s.bindings.get? (.stepResult run.runId index) ≠ some result.recordRef :=
    not_not.mpr hbinding
  have hplace : ¬ (result.runId ≠ run.runId ∨ result.stepIndex ≠ index) := by
    rw [not_or, not_not, not_not]
    exact ⟨congrArg (fun run => run.runId) hof, hindex⟩
  have hexact : ¬ result.request.run ≠ run := not_not.mpr hof
  have hsame : ¬ result ≠ result := not_not.mpr rfl
  have hstop : ¬ (index < results.length - 1 ∧ result.status ≠ .continuing) := by
    rintro ⟨hlt,hstatus⟩
    exact hstatus (h.continues hresult (by omega))
  unfold loadTerminalStep
  rw [alone_resolve, alone_refuseIf _ hactual,
    Prog.bind_eq, Prog.alone_bind _ _ _ _ _ _ (alone_loadResult hstored), alone_refuseIf _ hsame,
    alone_refuseIf _ hplace, alone_refuseIf _ hexact]
  unfold refuseIf
  rw [raiseIf_neg _ _ hstop]
  rfl

theorem Chain.alone_loadTerminalSteps (h : Chain run s results) (index : Nat)
    (rest : List (OptimStepResult F)) (hbehind : Behind results index rest) :
    (loadTerminalSteps run (results.length - 1) index rest).alone (answering l environment) s =
      some (.ok (), s) := by
  induction rest generalizing index with
  | nil => rfl
  | cons result rest ih =>
    obtain ⟨hresult,htail⟩ := hbehind.tail
    unfold loadTerminalSteps
    rw [Prog.bind_eq, Prog.alone_bind _ _ _ _ _ _ (h.alone_loadTerminalStep hresult)]
    exact ih (index + 1) htail

/-- A chain that has ended is assembled unless its spend is refused. -/
theorem Chain.alone_assembleTerminal (l : Invocation F)
    (environment : StepOp F → StepState F authority → StepAnswer F authority) (h : Chain run s results) {last : OptimStepResult F}
    (hlast : results.getLast? = some last) (hstatus : last.status ≠ .continuing) :
    (∀ cost, aggregateRunCost (readForeign s.objects) results = .ok cost →
      ∃ made : OptimResult F, made.fields = terminalFields run results last cost ∧
        (assembleTerminal run results last).alone (answering l environment) s =
          some (.ok made, s)) ∧
    ∀ message, aggregateRunCost (readForeign s.objects) results = .error message →
      (assembleTerminal run results last).alone (answering l environment) s =
        some (.error (.store message), s) := by
  have hlater : ¬ s.bindings.get? (.stepResult run.runId results.length) ≠ none :=
    not_not.mpr (h.ended _ (Nat.le_refl _))
  have hsteps : (loadTerminalSteps run (results.length - 1) 0 results).alone
      (answering l environment) s = some (.ok (), s) :=
    h.alone_loadTerminalSteps 0 results ⟨Nat.zero_add _, by simp⟩
  unfold assembleTerminal
  rw [Prog.bind_eq, Prog.alone_bind _ _ _ _ _ _ hsteps, alone_resolve, alone_refuseIf _ hlater,
    alone_refuseIf _ hstatus, alone_objects]
  constructor
  · intro cost hcost
    obtain ⟨made,hmade,hfields⟩ :=
      OptimResultFields.modelValidate_isOk (h.terminalFields_valid hlast hstatus cost)
    refine ⟨made, hfields, ?_⟩
    have hanswered : (answered .store (aggregateRunCost (readForeign s.objects) results) :
        StepProg F _) = .done cost := by
      rw [hcost]
      rfl
    have hchecked : (check (terminalFields run results last cost).modelValidate : StepProg F _) =
        .done made := by
      rw [hmade]
      rfl
    rw [hanswered]
    exact congrArg (fun p => p.alone (answering l environment) s) hchecked
  · intro message hmessage
    rw [hmessage]
    rfl

/-- The chain as it stands once a terminal result is stored and bound. -/
theorem Chain.terminated (h : Chain run s results) (hst : Evolves s t)
    (hbindings : ∀ index, t.bindings.get? (.stepResult run.runId index) =
      s.bindings.get? (.stepResult run.runId index)) : Chain run t results where
  bound := fun index result hresult => (h.bound index result hresult).evolves hst
  ended := fun index hle => by rw [hbindings, h.ended index hle]
  placed := h.placed
  initial := h.initial
  linked := h.linked

omit [HarnessIdentity F] in
theorem readForeign_evolves (hst : Evolves s t) (ref : TypedRef) (record : ForeignRecord F)
    (h : readForeign s.objects ref = some record) : readForeign t.objects ref = some record := by
  unfold readForeign at h ⊢
  obtain ⟨found,hfound,hsame⟩ := Option.map_eq_some_iff.mp h
  rw [hst.objects _ _ hfound]
  exact congrArg some hsame

theorem alone_persist_collision {record : Record F} (h : (s.put record).1 = false)
    (f : Unit → StepProg F β) :
    (persist record >>= f).alone (answering l environment) s =
      some (.error (.collision record.ref), (s.put record).2) := by
  have hpersist : (persist record).alone (answering l environment) s =
      some (.error (.collision record.ref), (s.put record).2) := by
    unfold persist
    rw [alone_perform (.put record) false (s.put record).2]
    · rfl
    · rw [← h]
      rfl
  exact Prog.alone_bind_error _ _ _ _ _ _ hpersist

theorem alone_persist {record : Record F} (h : (s.put record).1 = true)
    (f : Unit → StepProg F β) :
    (persist record >>= f).alone (answering l environment) s =
      (f ()).alone (answering l environment) (s.put record).2 := by
  have hpersist : (persist record).alone (answering l environment) s =
      some (.ok (), (s.put record).2) := by
    unfold persist
    rw [alone_perform (.put record) true (s.put record).2]
    · rfl
    · rw [← h]
      rfl
  exact Prog.alone_bind _ _ _ _ _ _ hpersist

/-- A terminal result that is bound is returned again. -/
theorem Chain.alone_replay (h : Chain run s results) {last : OptimStepResult F}
    (hlast : results.getLast? = some last) (hstatus : last.status ≠ .continuing)
    {cost : RunCostReport F} (hcost : aggregateRunCost (readForeign s.objects) results = .ok cost)
    {made : OptimResult F} (hmade : made.fields = terminalFields run results last cost)
    (hstored : Stored s (.optimResult made))
    (hbound : s.bindings.get? (.optimResult run.runId) = some made.recordRef)
    (harness : OptimHarness F) (hrun : harness.boundRun = run) :
    (terminalize harness run results).alone (answering l environment) s =
      some (.ok (made, made.recordRef), s) := by
  obtain ⟨made',hmade',hassembled⟩ := (h.alone_assembleTerminal l environment hlast hstatus).1 cost hcost
  have hsame : made' = made := by
    cases made
    cases made'
    simp only at hmade hmade'
    subst hmade
    subst hmade'
    rfl
  subst hsame
  have hexact : ¬ run ≠ harness.boundRun := not_not.mpr hrun.symm
  have hagrees : ¬ (made'.recordRef ≠ made'.recordRef ∨ made' ≠ made') := by simp
  unfold terminalize
  rw [alone_refuseIf _ hexact, hlast]
  simp only
  rw [Prog.bind_eq, Prog.alone_bind _ _ _ _ _ _ hassembled, alone_resolve, hbound]
  unfold replayTerminal
  simp only
  rw [Prog.bind_eq, Prog.alone_bind _ _ _ _ _ _ (alone_loadTerminal hstored),
    alone_refuseIf _ hagrees]
  rfl

/-- What `terminalize` does with a chain that has ended and no terminal result: a spend that is
refused is raised; otherwise the result is bound, unless another record has its hash. -/
theorem Chain.alone_terminalize (l : Invocation F)
    (environment : StepOp F → StepState F authority → StepAnswer F authority) (h : Chain run s results) {last : OptimStepResult F}
    (hlast : results.getLast? = some last) (hstatus : last.status ≠ .continuing)
    (hopen : s.bindings.get? (.optimResult run.runId) = none)
    (harness : OptimHarness F) (hrun : harness.boundRun = run) :
    (∀ message, aggregateRunCost (readForeign s.objects) results = .error message →
      (terminalize harness run results).alone (answering l environment) s =
        some (.error (.store message), s)) ∧
    ∀ cost, aggregateRunCost (readForeign s.objects) results = .ok cost →
      ∃ made : OptimResult F, made.fields = terminalFields run results last cost ∧
        ((∃ t, (terminalize harness run results).alone (answering l environment) s =
            some (.error (.collision made.recordRef), t)) ∨
          ∃ t, (terminalize harness run results).alone (answering l environment) s =
              some (.ok (made, made.recordRef), t) ∧ Evolves s t ∧ Chain run t results ∧
            Stored t (.optimResult made) ∧
            t.bindings.get? (.optimResult run.runId) = some made.recordRef) := by
  have hassemble := h.alone_assembleTerminal l environment hlast hstatus
  have hexact : ¬ run ≠ harness.boundRun := not_not.mpr hrun.symm
  unfold terminalize
  rw [alone_refuseIf _ hexact, hlast]
  simp only
  constructor
  · intro message hmessage
    exact Prog.alone_bind_error _ _ _ _ _ _ (hassemble.2 message hmessage)
  · intro cost hcost
    obtain ⟨made,hmade,hassembled⟩ := hassemble.1 cost hcost
    refine ⟨made, hmade, ?_⟩
    rw [Prog.bind_eq, Prog.alone_bind _ _ _ _ _ _ hassembled, alone_resolve, hopen]
    simp only
    unfold bindTerminal
    obtain ⟨hbindings,_,_⟩ := put_rest (.optimResult made) s
    cases hput : (s.put (.optimResult made)).1 with
    | false => exact .inl ⟨_, alone_persist_collision hput _⟩
    | true =>
      rw [alone_persist hput]
      let key : BindingKey := .optimResult run.runId
      let t := ((s.put (.optimResult made)).2.bind key made.recordRef).2
      have hcreated : (s.put (.optimResult made)).2.bind key made.recordRef = (.created, t) := by
        have hnone : (s.put (.optimResult made)).2.bindings.get? key = none := by
          rw [hbindings]
          exact hopen
        simp only [t, StepState.bind, hnone]
      have hst : Evolves s t := (put_evolves _ s).trans (Moves.evolves (l := l) (.bind key _ _))
      refine .inr ⟨t, ?_, hst, h.terminated hst fun index => ?_, ?_, ?_⟩
      · rw [alone_perform (.bind key made.recordRef) .created t]
        · rfl
        · exact congrArg some hcreated
      · cases hget : t.bindings.get? (.stepResult run.runId index) with
        | none =>
          cases hold : s.bindings.get? (.stepResult run.runId index) with
          | none => rfl
          | some ref =>
            rw [hst.bindings _ _ hold] at hget
            cases hget
        | some ref =>
          rcases bind_written hget with hold | ⟨hkey,_⟩
          · rw [hbindings] at hold
            exact hold.symm
          · simp [key] at hkey
      · have hobjects : t.objects = (s.put (.optimResult made)).2.objects :=
          (bind_rest key made.recordRef _).1
        unfold Stored
        rw [hobjects]
        exact put_stored hput
      · exact bind_bound (.inl (congrArg Prod.fst hcreated))

/-- The durable chain of steps, and when it can be terminalized. Whatever the harnesses, their
requests and the schedule, the bound step results are one chain: contiguous from zero, each but
the last continuing, each citing the one before it and its state, history and budget. Along it
every label's consumed and remaining amounts add up to the same, and no step takes more than
remains. A chain that has ended is terminalized exactly when its cited evidence can be read and
its spend is payable; then the proposals are the accepted candidates of the last step, none if
it failed, and terminalizing again returns the same result. (A result is refused otherwise only
if another record has its hash.) -/
theorem step_chain_terminalizes_iff (laws : EffectLaws authority) (stored : Objects F)
    (hstored : HoldsRun run stored) (calls : List (OptimHarness F × OptimStepRequest F))
    (schedule : List (Nat × StepAnswer F authority)) :
    let s := ((stepMachine F authority).run (stepPool authority run stored calls) schedule).state
    (∃ results, Chain run s results) ∧ ∀ results, Chain run s results →
      (∀ label, ∃ amount, ∀ result ∈ results, result.request.budget.total label = amount ∧
        result.fields.budget.total label = amount) ∧
      (∀ result ∈ results, ∀ label amount,
        result.fields.budgetDelta.consumed.get? label = some amount →
        ∃ left, result.request.budget.remaining.get? label = some left ∧ amount ≤ left ∧
          result.fields.budget.remaining.get? label = some (left - amount)) ∧
      ∀ (harness : OptimHarness F) (last : OptimStepResult F), harness.boundRun = run →
        results.getLast? = some last → last.status ≠ .continuing →
        ∀ (l : Invocation F) (environment : StepOp F → StepState F authority →
          StepAnswer F authority),
        ((∃ made t, (terminalize harness run results).alone (answering l environment) s =
              some (.ok (made, made.recordRef), t) ∧
            made.fields.run = run ∧ made.fields.stepResults = results ∧
            made.fields.proposals =
              (if last.status = .failed then [] else last.fields.acceptedCandidates) ∧
            ∀ (again : OptimHarness F), again.boundRun = run →
              (terminalize again run results).alone (answering l environment) t =
                some (.ok (made, made.recordRef), t)) ∨
          ∃ ref t, (terminalize harness run results).alone (answering l environment) s =
            some (.error (.collision ref), t)) ↔
        Costable (readForeign s.objects) results := by
  intro s
  have hs : StepInv run s := run_stepInv laws hstored calls schedule
  refine ⟨hs.exists_chain, fun results hchain => ⟨hchain.total_eq, ?_, ?_⟩⟩
  · exact fun result _ label amount hdelta => result.covered hdelta
  · intro harness last hrun hlast hstatus l environment
    obtain ⟨hrefused,hmade⟩ := hchain.alone_terminalize l environment
      hlast hstatus (hs.unterminated run.runId) harness hrun
    rw [← aggregateRunCost_isOk]
    cases hcost : aggregateRunCost (readForeign s.objects) results with
    | error message =>
      rw [hrefused message hcost]
      simp
    | ok cost =>
      obtain ⟨made,hfields,hends⟩ := hmade cost hcost
      refine ⟨fun _ => ⟨cost, rfl⟩, fun _ => ?_⟩
      rcases hends with ⟨t,ht⟩ | ⟨t,ht,hst,hchain',hstored',hbound⟩
      · exact .inr ⟨_, t, ht⟩
      · refine .inl ⟨made, t, ht, ?_, ?_, ?_, ?_⟩
        · rw [hfields]
          rfl
        · rw [hfields]
          rfl
        · rw [hfields]
          rfl
        · exact fun again hagain => hchain'.alone_replay hlast hstatus
            (aggregateRunCost_grow (readForeign_evolves hst) hcost) hfields hstored' hbound
            again hagain

end Terminal

/-! ### A failed tool call whose evidence is not stored -/

section Example

attribute [local instance] plainNames namedCandidates namedTools keptFailures exactFiniteFloats
attribute [local instance] namedRewards namedResults namedRequests namedStepResults namedHarness

def gradingTool : ToolConfig where
  definition := ⟨"grade", 1, ["template"], ["score"], [.capacity, .validation], none, by decide⟩
  endpointKey := "grading"
  evalConfig := default
  rewardPolicyHash := "policy"
  capacity := ⟨4, .run⟩
  timeoutPolicyRef := none
  operationalPolicyRefs := []
  storeNamespaceKey := "grading"
  idempotentReplay := true
  candidateTemplateField := "template"
  valid := by decide

def gradedRun : OptimRun Rat where
  runId := "graded"
  optimizerConfig := ⟨⟨"whetstone.optimizer", "config"⟩, "config"⟩
  adapterKey := "agent"
  mode := .toolUsing
  terminalOutputContract := oneProposal
  templateRenderContract := ⟨.literalBodyV1, [], []⟩
  initialCandidateRef := none
  mutationField := "template"
  rewardPolicy := none
  toolConfigs := [gradingTool]
  valid := by decide

def gradedRequest : OptimStepRequest Rat where
  run := gradedRun
  stepId := "graded-step"
  kind := .tool
  kindLabel := none
  stepIndex := 0
  priorStepResultRef := none
  priorStateRef := none
  priorHistoryRef := none
  candidates := [seedCandidate]
  pools := []
  hyperparameters := []
  budget := ⟨Dict.empty, Dict.empty⟩
  stepOutputContract := oneProposal

def gradedCall : ToolCall where
  callId := "x"
  toolConfig := gradingTool
  capacityBinding := toolCapacityBinding gradedRequest gradingTool
  args := [("template", .str "text")]
  valid := by simp [validateCall, gradingTool, toolCapacityBinding]

def missingEvidence : TypedRef := ⟨evalFailureSchema, String.ofList (List.replicate 64 'a')⟩

/- The failure cites a well-formed reference that nothing is stored under. -/
def gradingFailure : TerminalFailure where
  code := "evaluation_failed"
  message := "the evaluation failed"
  details := .obj [(toolFailureEvidenceRefKey, .obj [
    ("schema_name", .str missingEvidence.schemaName),
    ("content_hash", .str missingEvidence.contentHash)])]

def gradedFields : ResultFields Rat where
  call := gradedCall
  terminalFailure := some gradingFailure
  provenanceOrdinal := some 1

def gradedResult : ToolResult Rat := ⟨gradedFields, by decide⟩

def gradedEntry : ToolCallStoreEntry where
  toolCall := gradedCall
  toolConfig := gradingTool
  storeNamespaceKey := "grading"
  capacityScope := .run
  capacityScopeId := "graded"
  state := .completed
  capacityDebitOrdinal := some 1
  refusal := none
  toolResultRef := some (toolResultReference gradedResult)
  effectTerminal := some ⟨toolEffectRequest gradedCall, .failed, "owner", "attempt", 1,
    some (toolResultReference gradedResult), some gradingFailure⟩
  valid := by decide

def gradedEvidence : ToolEvidence Rat := ⟨gradedResult, gradedEntry, by decide⟩

def gradedOutput : AdapterOutput Rat where
  proposedCandidates := []
  acceptedCandidates := []
  optimEvalRequests := []
  searchEvidence := []
  budgetDelta := ⟨Dict.empty⟩
  proposedStatus := .failed
  terminalFailure := some gradingFailure
  seedRetained := false
  retainedCandidate := none
  proposerUsage := []
  stateDelta := []
  historyDelta := []
  valid := by decide

def gradedHarness : OptimHarness Rat where
  boundRun := gradedRun
  ownerId := "owner"
  adapterRegistry := Dict.ofPairs [("agent", ⟨"agent", .toolUsing, .idempotent⟩)]
  adapterReplayPolicy := .idempotent
  evaluationReplayPolicy := none
  hasToolExecutor := true

def gradedStored : Objects Rat := Dict.empty.set gradedRun.recordRef (.run gradedRun)

def gradedSchedule : List (Nat × StepAnswer Rat keyedLeases) :=
  let silent (n : Nat) := List.replicate n ((0, .silent) : Nat × StepAnswer Rat keyedLeases)
  silent 6 ++ [(0, .handle (.ok (gradingTool, toolCapacityBinding gradedRequest gradingTool))),
    (0, leasedAt "a" 0), (0, .adapter (.ok gradedOutput) [some gradedEvidence] [])] ++ silent 3 ++
    [(0, leasedAt "a" 1)] ++ silent 5

def gradedCalls : List (OptimHarness Rat × OptimStepRequest Rat) :=
  [(gradedHarness, gradedRequest)]

def StepEvent.result : StepEvent Rat → Option (OptimStepResult Rat)
  | .returned _ result _ => some result
  | _ => none

theorem gradedStored_holdsRun : HoldsRun gradedRun gradedStored := by
  refine ⟨fun ref record hget => ?_, Dict.get?_set_self _ _ _⟩
  simp only [gradedStored, Dict.get?_set] at hget
  split at hget
  · rename_i href
    cases hget
    exact href.symm
  · cases hget

/- The one bound step result is the one that was returned. -/
theorem Chain.eq_singleton {run : OptimRun Rat} {s : StepState Rat keyedLeases}
    {results : List (OptimStepResult Rat)} (h : Chain run s results)
    {result : OptimStepResult Rat} (hbound : BoundAt run s 0 result)
    (hnext : s.bindings.get? (.stepResult run.runId 1) = none) : results = [result] := by
  cases results with
  | nil =>
    have hnone := h.ended 0 (Nat.le_refl 0)
    rw [hbound.1] at hnone
    cases hnone
  | cons first rest =>
    have hfirst := (h.bound 0 first rfl).unique hbound
    subst hfirst
    cases rest with
    | nil => rfl
    | cons second rest =>
      have hsecond := (h.bound 1 second rfl).1
      rw [hnext] at hsecond
      cases hsecond

/-- The run of a failed tool call whose failure cites evidence that is not stored has ended and
can not be terminalized. -/
theorem graded_run_stranded :
    let s := stepAfter keyedLeases gradedRun gradedStored gradedCalls gradedSchedule 18
    ∃ results last, Chain gradedRun s results ∧ results.getLast? = some last ∧
      last.status = .failed ∧ ∀ (l : Invocation Rat) (environment : StepOp Rat →
        StepState Rat keyedLeases → StepAnswer Rat keyedLeases),
        (terminalize gradedHarness gradedRun results).alone (answering l environment) s =
          some (.error (.store "no object is stored under the reference"), s) := by
  intro s
  have hs : StepInv gradedRun s :=
    run_stepInv keyedLeases_laws gradedStored_holdsRun gradedCalls (gradedSchedule.take 18)
  have hreturned : (s.history.filterMap StepEvent.result).map (fun result =>
      (result.request.stepIndex, result.status, evidenceRefs result)) =
      [(0, .failed, [missingEvidence])] := by decide +kernel
  have hnext : s.bindings.get? (.stepResult gradedRun.runId 1) = none := by decide +kernel
  have hmissing : s.objects.get? missingEvidence = none := by decide +kernel
  obtain ⟨result,hresult⟩ : ∃ result, s.history.filterMap StepEvent.result = [result] := by
    obtain ⟨result,hresult,_⟩ := List.map_eq_singleton_iff.mp hreturned
    exact ⟨result, hresult⟩
  rw [hresult] at hreturned
  simp only [List.map_cons, List.map_nil, List.cons.injEq, Prod.mk.injEq, and_true] at hreturned
  obtain ⟨hindex,hstatus,hrefs⟩ := hreturned
  have hmem : result ∈ s.history.filterMap StepEvent.result := by
    rw [hresult]
    exact List.mem_singleton.mpr rfl
  obtain ⟨event,hevent,hof⟩ := List.mem_filterMap.mp hmem
  cases event with
  | entered invocation settled => cases hof
  | invoked invocation => cases hof
  | returned invocation found ref =>
    cases hof
    obtain ⟨hrequest,_,hbound⟩ := hs.history _ hevent
    rw [← hrequest, hindex] at hbound
    obtain ⟨results,hchain⟩ := hs.exists_chain
    have hsingle := hchain.eq_singleton hbound hnext
    subst hsingle
    have hcost : aggregateRunCost (readForeign s.objects) [result] =
        .error "no object is stored under the reference" := by
      have hdistinct : distinctRefs [result] = [missingEvidence] := by
        simp only [distinctRefs, List.flatMap_cons, List.flatMap_nil, List.append_nil, hrefs]
        rfl
      unfold aggregateRunCost taskModelObservations
      rw [hdistinct, List.mapM_cons]
      simp [refObservations, readForeign, hmissing]
    have hlast : [result].getLast? = some result := rfl
    refine ⟨[result], result, hchain, hlast, hstatus, fun l environment => ?_⟩
    exact (hchain.alone_terminalize l environment hlast (by rw [hstatus]; decide)
      (hs.unterminated _) gradedHarness rfl).1 _ hcost

/-- The bound step results of a run whose first owner stopped are one chain, along which the
calls of a label add up to the same. -/
theorem search_chain_totals :
    let s := ((stepMachine Rat keyedLeases).run
      (stepPool keyedLeases searchRun searchStored searchCalls) searchSchedule).state
    ∃ results, Chain searchRun s results ∧ ∀ label, ∃ amount, ∀ result ∈ results,
      result.request.budget.total label = amount ∧ result.fields.budget.total label = amount := by
  intro s
  have hchains := step_chain_terminalizes_iff keyedLeases_laws searchStored
    searchStored_holdsRun searchCalls searchSchedule
  obtain ⟨results,hchain⟩ := hchains.1
  exact ⟨results, hchain, (hchains.2 results hchain).1⟩

end Example
end Whetstone.Optim.Step
