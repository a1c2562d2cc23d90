import Whetstone.Lib.FirstSeen
import Whetstone.Optim.Gepa.SteppedRun

/-! Evaluating a batch that repeats instances: the adapter asks for every distinct instance once and
hands out its row to each occurrence, which comes to evaluating the occurrences one by one. -/
namespace Whetstone.Optim.Gepa
open Whetstone.Core Whetstone.Lib Whetstone.Experiment Whetstone.Optim.Step

namespace WhetstoneGepaAdapter

/-! ### The collapse -/

/- What the scan knows of the instances it has met. -/
structure CollapsedBatch.Of (met : List GepaDataInstance) (batch : CollapsedBatch) : Prop where
  unique : batch.unique = firstSeen met
  new : ∀ position, batch.seen.get? position = none →
    ∀ item ∈ met, item.upstreamPosition ≠ position
  known : ∀ position index, batch.seen.get? position = some index →
    ∃ item ∈ met, item.upstreamPosition = position ∧ batch.unique[index]? = some item
  expansion : batch.expansion.map (fun index => batch.unique[index]?) = met.map some

theorem collapsed_empty : CollapsedBatch.Of [] ⟨[], .empty, []⟩ where
  unique := rfl
  new := fun _ _ _ hmem => (by cases hmem)
  known := fun _ _ h => (by cases h)
  expansion := rfl

/- Every place of an expansion is the place of an instance. -/
theorem CollapsedBatch.Of.bounded {met : List GepaDataInstance} {batch : CollapsedBatch}
    (h : batch.Of met) : ∀ index ∈ batch.expansion, index < batch.unique.length := by
  intro index hmem
  have hplace : batch.unique[index]? ∈ met.map some := by
    rw [← h.expansion]
    exact List.mem_map_of_mem hmem
  obtain ⟨item,_,hitem⟩ := List.mem_map.mp hplace
  exact (List.getElem?_eq_some_iff.mp hitem.symm).1

/-- One more instance is added as a new one, or found at its place. -/
theorem collapse_add {met : List GepaDataInstance} {batch : CollapsedBatch} (h : batch.Of met)
    (item : GepaDataInstance)
    (hsame : ∀ own ∈ met, own.upstreamPosition = item.upstreamPosition → own = item) :
    ∃ batch', batch.add item = .ok batch' ∧ batch'.Of (met ++ [item]) := by
  rw [CollapsedBatch.add]
  cases hseen : batch.seen.get? item.upstreamPosition with
  | none =>
    have hnew : item ∉ met := fun hmem => h.new _ hseen item hmem rfl
    refine ⟨_, rfl, ?_, ?_, ?_, ?_⟩
    · rw [firstSeen_append, ← h.unique, if_neg]
      rw [h.unique, mem_firstSeen]
      exact hnew
    · intro position hposition own hmem
      rw [Dict.get?_set] at hposition
      split at hposition
      · cases hposition
      rename_i hother
      cases List.mem_append.mp hmem with
      | inl hmet => exact h.new position hposition own hmet
      | inr hlast =>
        rw [List.mem_singleton.mp hlast]
        exact Ne.symm hother
    · intro position index hposition
      rw [Dict.get?_set] at hposition
      split at hposition
      · rename_i hlast
        cases hposition
        exact ⟨item, by simp, hlast.symm, by simp⟩
      · obtain ⟨own,hmem,hown,hplace⟩ := h.known position index hposition
        refine ⟨own, List.mem_append_left _ hmem, hown, ?_⟩
        rw [List.getElem?_append_left (List.getElem?_eq_some_iff.mp hplace).1]
        exact hplace
    · rw [List.map_append, List.map_append, ← h.expansion]
      congr 1
      · refine List.map_congr_left fun index hmem => ?_
        rw [List.getElem?_append_left (h.bounded index hmem)]
      · simp
  | some index =>
    obtain ⟨own,hmem,hposition,hplace⟩ := h.known _ _ hseen
    obtain rfl := hsame own hmem hposition
    refine ⟨_, (raiseIf_bind_eq_ok _ _ _ _).mpr ⟨not_not.mpr hplace, rfl⟩, ?_, ?_, ?_, ?_⟩
    · rw [firstSeen_append, if_pos ((mem_firstSeen _ _).mpr hmem), ← h.unique]
    · intro position hnone other hother
      rcases List.mem_append.mp hother with hmet | hlast
      · exact h.new position hnone other hmet
      · rw [List.mem_singleton.mp hlast]
        exact h.new position hnone own hmem
    · intro position place hknown
      obtain ⟨other,hother,hrest⟩ := h.known position place hknown
      exact ⟨other, List.mem_append_left _ hother, hrest⟩
    · rw [List.map_append, List.map_append, ← h.expansion]
      simp [hplace]

/-- A batch in which equal positions are equal instances is collapsed to its distinct instances. -/
theorem collapse_batch {met : List GepaDataInstance} {start : CollapsedBatch} (h : start.Of met)
    (batch : List GepaDataInstance)
    (hsame : ∀ a ∈ met ++ batch, ∀ b ∈ met ++ batch, a.upstreamPosition = b.upstreamPosition →
      a = b) :
    ∃ collapsed, batch.foldlM CollapsedBatch.add start = .ok collapsed ∧
      collapsed.Of (met ++ batch) := by
  induction batch generalizing met start with
  | nil => exact ⟨start, rfl, by rwa [List.append_nil]⟩
  | cons item rest ih =>
    obtain ⟨next,hadd,hnext⟩ := collapse_add h item fun own hmem =>
      hsame own (List.mem_append_left _ hmem) item (by simp)
    rw [List.append_cons] at hsame ⊢
    obtain ⟨collapsed,hrest,hof⟩ := ih hnext hsame
    exact ⟨collapsed, by rw [List.foldlM_cons, hadd]; exact hrest, hof⟩

/-- The rows of the distinct instances, handed out to the occurrences. -/
theorem expanded_rows {α : Type} {batch : List GepaDataInstance} {collapsed : CollapsedBatch}
    (h : collapsed.Of batch) (row : GepaDataInstance → α) :
    collapsed.expansion.filterMap (fun index => (collapsed.unique.map row)[index]?) =
      batch.map row := by
  have hrows : collapsed.expansion.map (fun index => (collapsed.unique.map row)[index]?) =
      (batch.map row).map some := by
    have hplaces := congrArg (List.map (Option.map row)) h.expansion
    rw [List.map_map, List.map_map] at hplaces
    rw [List.map_map]
    refine Eq.trans (List.map_congr_left fun index _ => ?_) hplaces
    simp
  have hsplit : collapsed.expansion.filterMap (fun index => (collapsed.unique.map row)[index]?) =
      (collapsed.expansion.map fun index => (collapsed.unique.map row)[index]?).filterMap id := by
    rw [List.filterMap_map]
    rfl
  rw [hsplit, hrows, List.filterMap_map]
  simp

/-! ### Projections of rows -/

section Projections

variable {F : Type} [FiniteFloats F] (adapter : WhetstoneGepaAdapter F)
variable {rows : List (GepaEvaluationRow F)} {captureTraces : Bool}

/- A projection of rows, and those of each row alone. -/
def Apart {β : Type} (whole : Option (List β)) (parts : List (Option (List β))) : Prop :=
  (whole = none ∧ ∀ part ∈ parts, part = none) ∨
    ∃ items, whole = some items ∧ parts = items.map fun item => some [item]

/- An evaluation of a batch and those of its occurrences, position by position. -/
structure EvaluatedApart (whole : EvaluationBatch F) (parts : List (EvaluationBatch F)) :
    Prop where
  outputs : parts.map EvaluationBatch.outputs = whole.outputs.map fun output => [output]
  scores : parts.map EvaluationBatch.scores = whole.scores.map fun score => [score]
  trajectories : Apart whole.trajectories (parts.map EvaluationBatch.trajectories)
  objectiveScores : Apart whole.objectiveScores (parts.map EvaluationBatch.objectiveScores)

def rowScore (row : GepaEvaluationRow F) : F :=
  if row.failureRef.isSome then adapter.evaluationAuthority.failureScore.value else row.score.value

/- The evaluation of an instance with this row. -/
def alone (row : GepaEvaluationRow F) : EvaluationBatch F where
  outputs := [row.output]
  scores := [adapter.rowScore row]
  trajectories := row.trajectory.map fun trajectory => [trajectory]
  objectiveScores := row.objectiveScores.map fun scores => [scores]

/- Rows that can be projected together: traced as asked, and all with objective scores or none. -/
def Uniform (captureTraces : Bool) (rows : List (GepaEvaluationRow F)) : Prop :=
  (∀ row ∈ rows, row.trajectory.isSome = captureTraces) ∧
    ((∀ row ∈ rows, row.objectiveScores.isSome = true) ∨ ∀ row ∈ rows, row.objectiveScores = none)

theorem projectBatch_single {row : GepaEvaluationRow F}
    (h : row.trajectory.isSome = captureTraces) :
    adapter.projectBatch captureTraces [row] = .ok (adapter.alone row) := by
  have htrajectories : projectTrajectories captureTraces [row] =
      .ok (row.trajectory.map fun trajectory => [trajectory]) := by
    cases htrajectory : row.trajectory with
    | none =>
      rw [htrajectory] at h
      subst h
      simp [projectTrajectories, htrajectory, raiseIf]
    | some trajectory =>
      rw [htrajectory] at h
      subst h
      simp [projectTrajectories, htrajectory, raiseIf]
  have hobjectives : projectObjectives [row] =
      .ok (row.objectiveScores.map fun scores => [scores]) := by
    cases hscores : row.objectiveScores with
    | none =>
      simp [projectObjectives, hscores, raiseIf]
    | some scores =>
      simp [projectObjectives, hscores, raiseIf]
  rw [projectBatch, htrajectories, hobjectives]
  rfl

theorem apart_filterMap {α β : Type} (f : α → Option β) (l : List α)
    (h : ∀ a ∈ l, (f a).isSome = true) :
    l.map (fun a => (f a).map fun b => [b]) = (l.filterMap f).map fun b => some [b] := by
  induction l with
  | nil => rfl
  | cons a rest ih =>
    obtain ⟨b,hb⟩ := Option.isSome_iff_exists.mp (h a List.mem_cons_self)
    rw [List.map_cons, List.filterMap_cons_some hb, List.map_cons,
      ih fun own hown => h own (List.mem_cons_of_mem _ hown), hb]
    rfl

theorem projectTrajectories_uniform (h : ∀ row ∈ rows, row.trajectory.isSome = captureTraces) :
    ∃ whole, projectTrajectories captureTraces rows = .ok whole := by
  cases captureTraces with
  | true =>
    refine ⟨_, (raiseIf_bind_eq_ok _ _ _ _).mpr ⟨fun hmissing => ?_, rfl⟩⟩
    obtain ⟨row,hmem,hnone⟩ := List.any_eq_true.mp hmissing
    simp [Option.isSome_iff_ne_none.mp (h row hmem)] at hnone
  | false =>
    refine ⟨_, (raiseIf_bind_eq_ok _ _ _ _).mpr ⟨fun hpresent => ?_, rfl⟩⟩
    obtain ⟨row,hmem,hsome⟩ := List.any_eq_true.mp hpresent
    rw [h row hmem] at hsome
    cases hsome

theorem projectObjectives_uniform (h : (∀ row ∈ rows, row.objectiveScores.isSome = true) ∨
    ∀ row ∈ rows, row.objectiveScores = none) : ∃ whole, projectObjectives rows = .ok whole := by
  refine ⟨_, (raiseIf_bind_eq_ok _ _ _ _).mpr ⟨fun hmixed => ?_, rfl⟩⟩
  obtain ⟨hpresent,hmissing⟩ := hmixed
  cases h with
  | inl hall =>
    rw [List.all_eq_true.mpr hall] at hmissing
    cases hmissing
  | inr hnone =>
    obtain ⟨row,hmem,hsome⟩ := List.any_eq_true.mp hpresent
    rw [hnone row hmem] at hsome
    cases hsome

theorem projectBatch_uniform (h : Uniform captureTraces rows) :
    ∃ whole, adapter.projectBatch captureTraces rows = .ok whole := by
  obtain ⟨trajectories,htrajectories⟩ := projectTrajectories_uniform h.1
  obtain ⟨objectives,hobjectives⟩ := projectObjectives_uniform h.2
  rw [projectBatch, htrajectories, hobjectives]
  exact ⟨_, rfl⟩

theorem projectTrajectories_apart {whole : Option (List (GepaTrajectoryProjection F))}
    (h : projectTrajectories captureTraces rows = .ok whole) :
    (∀ row ∈ rows, row.trajectory.isSome = captureTraces) ∧
      Apart whole (rows.map fun row => row.trajectory.map fun trajectory => [trajectory]) := by
  cases captureTraces with
  | true =>
    simp only [projectTrajectories, if_true, raiseIf_bind_eq_ok] at h
    obtain ⟨hpresent,hwhole⟩ := h
    have hall : ∀ row ∈ rows, row.trajectory.isSome = true := by
      intro row hmem
      cases htrajectory : row.trajectory with
      | some trajectory => rfl
      | none => exact absurd (List.any_eq_true.mpr ⟨row, hmem, by simp [htrajectory]⟩) hpresent
    exact ⟨hall, .inr ⟨_, (Except.ok.inj hwhole).symm, apart_filterMap _ _ hall⟩⟩
  | false =>
    simp only [projectTrajectories, Bool.false_eq_true, if_false, raiseIf_bind_eq_ok] at h
    obtain ⟨habsent,hwhole⟩ := h
    have hall : ∀ row ∈ rows, row.trajectory = none := by
      intro row hmem
      cases htrajectory : row.trajectory with
      | none => rfl
      | some trajectory =>
        exact absurd (List.any_eq_true.mpr ⟨row, hmem, by simp [htrajectory]⟩) habsent
    refine ⟨fun row hmem => by rw [hall row hmem]; rfl, .inl ⟨(Except.ok.inj hwhole).symm, ?_⟩⟩
    intro part hpart
    obtain ⟨row,hmem,rfl⟩ := List.mem_map.mp hpart
    rw [hall row hmem]
    rfl

theorem projectObjectives_apart {whole : Option (List (Dict String F))}
    (h : projectObjectives rows = .ok whole) :
    ((∀ row ∈ rows, row.objectiveScores.isSome = true) ∨
        ∀ row ∈ rows, row.objectiveScores = none) ∧
      Apart whole (rows.map fun row => row.objectiveScores.map fun scores => [scores]) := by
  simp only [projectObjectives, raiseIf_bind_eq_ok] at h
  obtain ⟨hsame,hwhole⟩ := h
  have hwhole := Except.ok.inj hwhole
  by_cases hevery : rows.all (fun row => row.objectiveScores.isSome) = true
  · rw [if_pos hevery] at hwhole
    have hall := List.all_eq_true.mp hevery
    exact ⟨.inl hall, .inr ⟨_, hwhole.symm, apart_filterMap _ _ hall⟩⟩
  · rw [if_neg hevery] at hwhole
    have hnone : ∀ row ∈ rows, row.objectiveScores = none := by
      intro row hmem
      cases hscores : row.objectiveScores with
      | none => rfl
      | some scores =>
        exact absurd ⟨List.any_eq_true.mpr ⟨row, hmem, by simp [hscores]⟩,
          Bool.eq_false_iff.mpr hevery⟩ hsame
    refine ⟨.inr hnone, .inl ⟨hwhole.symm, fun part hpart => ?_⟩⟩
    obtain ⟨row,hmem,rfl⟩ := List.mem_map.mp hpart
    rw [hnone row hmem]
    rfl

/-- Rows that are projected together are projected one by one to the same. -/
theorem projectBatch_apart {whole : EvaluationBatch F}
    (h : adapter.projectBatch captureTraces rows = .ok whole) :
    Uniform captureTraces rows ∧ EvaluatedApart whole (rows.map adapter.alone) ∧
      whole.scores = rows.map adapter.rowScore := by
  rw [projectBatch, bind_eq_ok] at h
  obtain ⟨trajectories,htrajectories,h⟩ := h
  obtain ⟨objectives,hobjectives,h⟩ := (bind_eq_ok _ _ _).mp h
  cases h
  obtain ⟨hcaptured,htrajectories⟩ := projectTrajectories_apart htrajectories
  obtain ⟨hscored,hobjectives⟩ := projectObjectives_apart hobjectives
  refine ⟨⟨hcaptured, hscored⟩, ⟨?_, ?_, ?_, ?_⟩, rfl⟩
  · rw [List.map_map, List.map_map]
    rfl
  · rw [List.map_map, List.map_map]
    rfl
  · rw [List.map_map]
    exact htrajectories
  · rw [List.map_map]
    exact hobjectives

end Projections

/-! ### Runs -/

section Runs

variable {F : Type} [FiniteFloats F] [DecidableEq F] [RewardIdentity F] [GepaIdentity F]
variable [PythonRandom]

/- A broker that answers with one row for each requested instance, as a function of the candidate
   and the instance. -/
structure AnswersWith (broker : GepaEvaluationEffectRequest F → GepaEvaluationEffectResult F)
    (row : List GepaCandidateComponent → (captureTraces : Bool) → GepaDataInstance →
      GepaEvaluationRow F) : Prop where
  hash : ∀ request, (broker request).requestHash = GepaIdentity.evaluationHash request
  rows : ∀ request, (broker request).rows =
    request.data.map (row request.candidate request.captureTraces)
  data : ∀ candidate captureTraces item, (row candidate captureTraces item).data = item

variable (broker : GepaEvaluationEffectRequest F → GepaEvaluationEffectResult F)

def serveRows : (e : GepaEffect F) → List (GepaEffect F) → Option (e.Result × List (GepaEffect F))
  | .evaluate request, asked => some (broker request, asked ++ [.evaluate request])
  | .propose _, _ => none

/- A run of a method before a broker, with the effects that it has asked for. -/
def runBefore {α : Type} (method : AdapterM F α) (st : AdapterState F) :
    Option (Except SearchError α × List (GepaEffect F)) :=
  ((method st).alone (serveRows broker) []).map fun ended => (ended.1.bind Prod.fst, ended.2)

variable (adapter : WhetstoneGepaAdapter F) (batch : List GepaDataInstance)
variable (candidate : Dict String String) (captureTraces : Bool) (st : AdapterState F)

/- The request for the distinct instances of a batch. -/
def requestFor (data : List GepaDataInstance) : EvaluationRequestFields F where
  slot := ⟨adapter.context, st.nextInvocationOrdinal⟩
  candidate := candidateComponents candidate
  upstreamCandidateIndex := none
  data := data
  captureTraces := captureTraces
  authority := adapter.evaluationAuthority

open AdapterM

/- What is left of an evaluation when its result is there. -/
def received (request : GepaEvaluationEffectRequest F) (collapsed : CollapsedBatch)
    (result : GepaEvaluationEffectResult F) : AdapterM F (EvaluationBatch F) := do
  refuseIf (result.requestHash ≠ GepaIdentity.evaluationHash request)
    "GEPA evaluation result belongs to another effect request"
  refuseIf (result.rows.length ≠ collapsed.unique.length)
    "GEPA evaluation result row count does not match the batch"
  refuseIf (result.rows.map (fun row => row.data) ≠ collapsed.unique)
    "GEPA evaluation rows are not in requested data order"
  ofExcept (adapter.projectBatch captureTraces
    (collapsed.expansion.filterMap fun index => result.rows[index]?))

variable {broker adapter batch candidate captureTraces st}

omit [DecidableEq F] [RewardIdentity F] [GepaIdentity F] [PythonRandom] in
theorem create_fields {fields : EvaluationRequestFields F} {request : GepaEvaluationEffectRequest F}
    (h : fields.create = .ok request) : request.toEvaluationRequestFields = fields := by
  rw [EvaluationRequestFields.create] at h
  split at h
  · cases h
    rfl
  · cases h

omit [DecidableEq F] in
theorem evaluate_refused {message : String}
    (h : adapter.validateCandidate candidate = .error message) :
    runBefore broker (adapter.evaluate batch candidate captureTraces) st =
      some (.error (.value message), []) := by
  have hraised : adapter.evaluate batch candidate captureTraces st =
      .done (.error (.value message), st) := by
    simp only [evaluate, h]
    rfl
  rw [runBefore, hraised]
  rfl

omit [DecidableEq F] in
theorem evaluate_creates {collapsed : CollapsedBatch}
    (hcandidate : adapter.validateCandidate candidate = .ok ())
    (hcollapsed : batch.foldlM CollapsedBatch.add ⟨[], .empty, []⟩ = .ok collapsed) :
    adapter.evaluate batch candidate captureTraces st = (do
      let request ← AdapterM.ofExcept
        (requestFor adapter candidate captureTraces st collapsed.unique).create
      let result ← effect (.evaluate request)
      adapter.received captureTraces request collapsed result)
      { st with nextInvocationOrdinal := st.nextInvocationOrdinal + 1 } := by
  simp only [evaluate, hcandidate, hcollapsed]
  rfl

omit [DecidableEq F] in
theorem evaluate_unasked {collapsed : CollapsedBatch} {message : String}
    (hcandidate : adapter.validateCandidate candidate = .ok ())
    (hcollapsed : batch.foldlM CollapsedBatch.add ⟨[], .empty, []⟩ = .ok collapsed)
    (h : (requestFor adapter candidate captureTraces st collapsed.unique).create =
      .error message) :
    runBefore broker (adapter.evaluate batch candidate captureTraces) st =
      some (.error (.value message), []) := by
  rw [runBefore, evaluate_creates hcandidate hcollapsed, h]
  rfl

omit [DecidableEq F] in
/-- A request that is made is the only effect, and its rows are projected for the occurrences. -/
theorem evaluate_asked {row : List GepaCandidateComponent → Bool → GepaDataInstance →
      GepaEvaluationRow F} (hbroker : AnswersWith broker row) {collapsed : CollapsedBatch}
    {request : GepaEvaluationEffectRequest F}
    (hcandidate : adapter.validateCandidate candidate = .ok ())
    (hcollapsed : batch.foldlM CollapsedBatch.add ⟨[], .empty, []⟩ = .ok collapsed)
    (hof : collapsed.Of batch)
    (h : (requestFor adapter candidate captureTraces st collapsed.unique).create = .ok request) :
    runBefore broker (adapter.evaluate batch candidate captureTraces) st =
      some (SearchError.ofValue (adapter.projectBatch captureTraces
        (batch.map (row (candidateComponents candidate) captureTraces))), [.evaluate request]) := by
  obtain ⟨hcandidates,hdata,hcapture⟩ : request.candidate = candidateComponents candidate ∧
      request.data = collapsed.unique ∧ request.captureTraces = captureTraces := by
    have hfields := create_fields h
    rw [hfields]
    exact ⟨rfl, rfl, rfl⟩
  have hrows : (broker request).rows =
      collapsed.unique.map (row (candidateComponents candidate) captureTraces) := by
    rw [hbroker.rows, hcandidates, hdata, hcapture]
  have hnames : (broker request).rows.map (fun own => own.data) = collapsed.unique := by
    rw [hrows, List.map_map]
    exact List.map_id'' (fun item => hbroker.data _ _ item) _
  have hreceived : ∀ st', adapter.received captureTraces request collapsed (broker request) st' =
      .done (SearchError.ofValue (adapter.projectBatch captureTraces
        (batch.map (row (candidateComponents candidate) captureTraces))), st') := by
    intro st'
    have hlength : ¬ (broker request).rows.length ≠ collapsed.unique.length := by
      rw [hrows, List.length_map]
      exact fun hne => hne rfl
    simp only [received, refuseIf, raiseIf_neg _ _ (not_not.mpr (hbroker.hash request)),
      raiseIf_neg _ _ hlength, raiseIf_neg _ _ (not_not.mpr hnames)]
    rw [hrows, expanded_rows hof]
    rfl
  rw [runBefore, evaluate_creates hcandidate hcollapsed, h]
  have hcall : ((do
      let request ← AdapterM.ofExcept (.ok request)
      let result ← effect (.evaluate request)
      adapter.received captureTraces request collapsed result) : AdapterM F _)
        { st with nextInvocationOrdinal := st.nextInvocationOrdinal + 1 } =
      .call (.evaluate request) fun result =>
        adapter.received captureTraces request collapsed result
          { st with nextInvocationOrdinal := st.nextInvocationOrdinal + 1 } := rfl
  rw [hcall, Prog.alone, serveRows]
  dsimp only
  rw [hreceived]
  rfl

omit [DecidableEq F] [RewardIdentity F] [GepaIdentity F] [PythonRandom] in
theorem create_iff (fields : EvaluationRequestFields F) :
    (∃ request, fields.create = .ok request) ↔ fields.validate = .ok () := by
  rw [EvaluationRequestFields.create]
  constructor
  · rintro ⟨request,h⟩
    split at h
    · rename_i hvalid
      exact hvalid
    · cases h
  · intro hvalid
    split
    · exact ⟨_, rfl⟩
    · rename_i herror
      rw [hvalid] at herror
      cases herror

omit [PythonRandom] in
theorem ofValue_eq_ok {α : Type} {x : Except String α} {a : α}
    (h : SearchError.ofValue x = .ok a) : x = .ok a := by
  cases x with
  | error message => cases h
  | ok b => exact congrArg Except.ok (Except.ok.inj h)

omit [DecidableEq F] [RewardIdentity F] [GepaIdentity F] in
/-- A request for one instance of a valid request is valid. -/
theorem requestFor_single {data : List GepaDataInstance}
    (h : (requestFor adapter candidate captureTraces st data).validate = .ok ())
    (item : GepaDataInstance) (st' : AdapterState F) :
    (requestFor adapter candidate captureTraces st' [item]).validate = .ok () := by
  simp only [EvaluationRequestFields.validate, raiseIf_bind_eq_ok, raiseIf_eq_ok, not_not] at h ⊢
  obtain ⟨hcandidate,hnames,_⟩ := h
  refine ⟨hcandidate, hnames, by simp [requestFor], by simp [requestFor], by simp [requestFor], ?_⟩
  simp only [requestFor, List.map_singleton]
  rfl

omit [DecidableEq F] in
/-- What an occurrence alone is evaluated to. -/
theorem evaluate_single {row : List GepaCandidateComponent → Bool → GepaDataInstance →
      GepaEvaluationRow F} (hbroker : AnswersWith broker row)
    (hcandidate : adapter.validateCandidate candidate = .ok ()) {data : List GepaDataInstance}
    (hvalid : (requestFor adapter candidate captureTraces st data).validate = .ok ())
    {item : GepaDataInstance}
    (hcaptured : (row (candidateComponents candidate) captureTraces item).trajectory.isSome =
      captureTraces) (st' : AdapterState F) :
    ∃ asked, runBefore broker (adapter.evaluate [item] candidate captureTraces) st' =
      some (.ok (adapter.alone (row (candidateComponents candidate) captureTraces item)), asked) := by
  obtain ⟨collapsed,hcollapsed,hof⟩ := collapse_batch collapsed_empty [item] (by simp)
  have hunique : collapsed.unique = [item] := hof.unique
  obtain ⟨request,hrequest⟩ := (create_iff _).mpr (requestFor_single hvalid item st')
  have hrun := evaluate_asked hbroker hcandidate hcollapsed hof (hunique ▸ hrequest)
  rw [List.map_singleton, projectBatch_single adapter hcaptured] at hrun
  exact ⟨_, hrun⟩

end Runs

/-- A batch is evaluated through one request for its distinct instances in the order of their first
occurrences, unless the candidate or that request is refused; rows that can be projected together
are, and what is returned for the batch is position by position what is returned for each occurrence
alone, so that every instance has the weight of its occurrences. -/
theorem evaluate_collapsed {F : Type} [FiniteFloats F] [DecidableEq F] [RewardIdentity F]
    [GepaIdentity F] [PythonRandom]
    (broker : GepaEvaluationEffectRequest F → GepaEvaluationEffectResult F)
    (row : List GepaCandidateComponent → Bool → GepaDataInstance → GepaEvaluationRow F)
    (hbroker : AnswersWith broker row) (adapter : WhetstoneGepaAdapter F)
    (batch : List GepaDataInstance)
    (hbatch : ∀ a ∈ batch, ∀ b ∈ batch, a.upstreamPosition = b.upstreamPosition → a = b)
    (candidate : Dict String String) (captureTraces : Bool) (st : AdapterState F) :
    ∃ outcome asked,
      runBefore broker (adapter.evaluate batch candidate captureTraces) st = some (outcome, asked) ∧
      (adapter.validateCandidate candidate = .ok () ∧
          (adapter.requestFor candidate captureTraces st (firstSeen batch)).validate = .ok () →
        (∃ request, asked = [.evaluate request] ∧ request.toEvaluationRequestFields =
          adapter.requestFor candidate captureTraces st (firstSeen batch)) ∧
        ((∃ whole, outcome = .ok whole) ↔
          Uniform captureTraces (batch.map (row (candidateComponents candidate) captureTraces)))) ∧
      (¬ (adapter.validateCandidate candidate = .ok () ∧
          (adapter.requestFor candidate captureTraces st (firstSeen batch)).validate = .ok ()) →
        asked = [] ∧ ∃ message, outcome = .error (.value message)) ∧
      ∀ whole, outcome = .ok whole → ∃ (single : GepaDataInstance → EvaluationBatch F)
          (score : GepaDataInstance → F),
        (∀ item ∈ batch, ∀ st', ∃ asked',
          runBefore broker (adapter.evaluate [item] candidate captureTraces) st' =
            some (.ok (single item), asked')) ∧
        EvaluatedApart whole (batch.map single) ∧
        (∀ item ∈ batch, (single item).scores = [score item]) ∧
        ∀ (M : Type) [AddCommMonoid M] (value : F → M), (whole.scores.map value).sum =
          ((firstSeen batch).map fun item => batch.count item • value (score item)).sum := by
  obtain ⟨collapsed,hcollapsed,hof⟩ := collapse_batch collapsed_empty batch hbatch
  have hunique : collapsed.unique = firstSeen batch := hof.unique
  cases hcandidate : adapter.validateCandidate candidate with
  | error message =>
    refine ⟨_, _, evaluate_refused hcandidate, fun h => (by cases h.1), fun _ => ⟨rfl, _, rfl⟩,
      fun whole hwhole => (by cases hwhole)⟩
  | ok _ =>
    cases hrequest : (adapter.requestFor candidate captureTraces st collapsed.unique).create with
    | error message =>
      refine ⟨_, _, evaluate_unasked hcandidate hcollapsed hrequest, fun h => ?_,
        fun _ => ⟨rfl, _, rfl⟩, fun whole hwhole => (by cases hwhole)⟩
      rw [hunique] at hrequest
      obtain ⟨request,hother⟩ := (create_iff _).mpr h.2
      rw [hrequest] at hother
      cases hother
    | ok request =>
      have hfields := create_fields hrequest
      have hvalid := (create_iff _).mp ⟨request, hrequest⟩
      rw [hunique] at hfields hvalid
      refine ⟨_, _, evaluate_asked hbroker hcandidate hcollapsed hof hrequest,
        fun _ => ⟨⟨request, rfl, hfields⟩, ?_⟩, fun h => absurd ⟨rfl, hvalid⟩ h,
        fun whole hwhole => ?_⟩
      · constructor
        · rintro ⟨whole,hwhole⟩
          exact (projectBatch_apart adapter (ofValue_eq_ok hwhole)).1
        · intro huniform
          obtain ⟨whole,hwhole⟩ := projectBatch_uniform adapter huniform
          exact ⟨whole, by rw [hwhole]; rfl⟩
      · obtain ⟨huniform,happart,hscores⟩ := projectBatch_apart adapter (ofValue_eq_ok hwhole)
        refine ⟨fun item => adapter.alone (row (candidateComponents candidate) captureTraces item),
          fun item => adapter.rowScore (row (candidateComponents candidate) captureTraces item),
          fun item hmem st' => ?_, ?_, fun _ _ => rfl, fun M _ value => ?_⟩
        · exact evaluate_single hbroker hcandidate hvalid
            (huniform.1 _ (List.mem_map_of_mem hmem)) st'
        · rw [List.map_map] at happart
          exact happart
        · rw [hscores, List.map_map, List.map_map, firstSeen_weighted]
          rfl

/-! ### A batch with a repeated instance -/

section Example

attribute [local instance] exactFiniteFloats titledRewards firstChoice ordinalHashes

def laterTask : GepaDataInstance :=
  ⟨4, "later-task", "later-task-hash", ⟨"whetstone.task", "later-task"⟩, "loader"⟩

/- A row whose score is the position of its instance. -/
def placedRow (_ : List GepaCandidateComponent) (captureTraces : Bool) (item : GepaDataInstance) :
    GepaEvaluationRow Rat where
  toEvaluationRowFields := { (perfectRow captureTraces).toEvaluationRowFields with
    data := item
    score := exactFinite item.upstreamPosition }
  valid := rfl

def placedBroker (request : GepaEvaluationEffectRequest Rat) : GepaEvaluationEffectResult Rat where
  requestHash := GepaIdentity.evaluationHash request
  rows := request.data.map (placedRow request.candidate request.captureTraces)
  logicalMetricCalls := request.data.length
  resolution := none
  valid := by
    have hvalid := request.valid
    simp only [EvaluationRequestFields.validate, raiseIf_bind_eq_ok] at hvalid
    obtain ⟨_,_,hdata,_⟩ := hvalid
    simp [EvaluationResultFields.validate, raiseIf_bind_eq_ok, hdata]

theorem placedBroker_answers : AnswersWith placedBroker placedRow where
  hash _ := rfl
  rows _ := rfl
  data _ _ _ := rfl

theorem placedRow_uniform (components : List GepaCandidateComponent) (captureTraces : Bool)
    (batch : List GepaDataInstance) :
    Uniform captureTraces (batch.map (placedRow components captureTraces)) := by
  refine ⟨fun row hmem => ?_, .inr fun row hmem => ?_⟩
  · obtain ⟨item,_,rfl⟩ := List.mem_map.mp hmem
    cases captureTraces with
    | true => rfl
    | false => rfl
  · obtain ⟨item,_,rfl⟩ := List.mem_map.mp hmem
    rfl

theorem evaluate_collapsed_repeated :
    ∃ whole request, ∃ single : GepaDataInstance → EvaluationBatch Rat,
    runBefore placedBroker (toyAdapter.evaluate [laterTask, oneTask, laterTask] seedText true)
      toyAdapter.resetEffectOrdinal = some (.ok whole, [.evaluate request]) ∧
      request.data = [laterTask, oneTask] ∧
      EvaluatedApart whole [single laterTask, single oneTask, single laterTask] := by
  obtain ⟨outcome,asked,hrun,hasked,_,hwhole⟩ := evaluate_collapsed placedBroker placedRow
    placedBroker_answers toyAdapter [laterTask, oneTask, laterTask] (by decide) seedText true
    toyAdapter.resetEffectOrdinal
  obtain ⟨⟨request,rfl,hfields⟩,hreturned⟩ := hasked (by decide)
  obtain ⟨whole,rfl⟩ := hreturned.mpr (placedRow_uniform _ _ _)
  obtain ⟨single,score,_,happart,_⟩ := hwhole whole rfl
  exact ⟨whole, request, single, hrun, by rw [hfields]; decide, happart⟩

/-- An empty batch is refused, without a request. -/
theorem empty_batch_unasked : ¬ ∃ whole request,
    runBefore placedBroker (toyAdapter.evaluate [] seedText true) toyAdapter.resetEffectOrdinal =
      some (.ok whole, [.evaluate request]) := by
  have hrun : runBefore placedBroker (toyAdapter.evaluate [] seedText true)
      toyAdapter.resetEffectOrdinal =
        some (.error (.value "GEPA evaluation batch cannot be empty"), []) := rfl
  rintro ⟨whole,request,h⟩
  rw [hrun] at h
  cases h

end Example

end WhetstoneGepaAdapter
end Whetstone.Optim.Gepa
