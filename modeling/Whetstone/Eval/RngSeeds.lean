import Whetstone.Eval.DerivedSampling

/-! The seed of a trial on an engine and on the engines derived from it. -/
namespace Whetstone.Eval
open Whetstone.Core Whetstone.Lib Whetstone.Experiment Whetstone.Provider

theorem getElem?_of_mem_zip {α β : Type} (xs : List α) (ys : List β) (a : α) (b : β)
    (h : (a, b) ∈ xs.zip ys) : ∃ i : Nat, xs[i]? = some a ∧ ys[i]? = some b := by
  obtain ⟨i,hi⟩ := List.getElem?_of_mem h
  exact ⟨i, List.getElem?_zip_eq_some.mp hi⟩

theorem mem_zip_map {α β γ : Type} (f : α → β) (g : α → γ) (xs : List α) (a : α) (h : a ∈ xs) :
    (f a, g a) ∈ (xs.map f).zip (xs.map g) := by
  rw [List.zip_map', List.mem_map]
  exact ⟨a, h, rfl⟩

/- Distinct second components determine the first ones. -/
theorem zip_fst_eq {α β : Type} (xs : List α) (ys : List β) (hys : ys.Nodup) (a a' : α) (b : β)
    (h : (a, b) ∈ xs.zip ys) (h' : (a', b) ∈ xs.zip ys) : a = a' := by
  obtain ⟨i,hxi,hyi⟩ := getElem?_of_mem_zip xs ys a b h
  obtain ⟨j,hxj,hyj⟩ := getElem?_of_mem_zip xs ys a' b h'
  have hi := (List.getElem?_eq_some_iff.mp hyi).1
  have hij : i = j := (List.getElem?_inj hi hys).mp (hyi.trans hyj.symm)
  subst hij
  rw [hxi] at hxj
  exact Option.some.inj hxj

/-! ### Seeds -/

theorem carriedSeed_of_empty {source : EvalSplit} (taskHash : String) (seedIndex : Nat)
    (h : source.seedPlan.rngSeeds = []) :
    carriedSeed source taskHash seedIndex = deriveRngSeed [taskHash, toString seedIndex] := by
  rw [carriedSeed, h]
  rfl

/- A plan filled from another carries on what the other carried. -/
theorem carriedSeed_of_grid {source : EvalSplit} {f : String → Nat → Int} (taskHashes : List String) (numSeeds : Nat)
    (hnodup : taskHashes.Nodup)
    (h : source.seedPlan.rngSeeds = gridSeeds taskHashes numSeeds f) (taskHash : String)
    (hmem : taskHash ∈ taskHashes) (seedIndex : Nat) (hlt : seedIndex < numSeeds) :
    carriedSeed source taskHash seedIndex = f taskHash seedIndex := by
  rw [carriedSeed, h, get?_gridSeeds taskHashes numSeeds f hnodup taskHash hmem seedIndex hlt]

theorem resolveEvalRngSeed_of_empty (candidateId taskId taskHash : String) (seedIndex : Nat)
    (plan : SeedPlan) (h : plan.rngSeeds = []) :
    resolveEvalRngSeed candidateId taskId taskHash seedIndex plan =
      deriveRngSeed [candidateId, taskId, toString seedIndex] := by
  rw [resolveEvalRngSeed, h]
  rfl

theorem resolveEvalRngSeed_of_grid {f : String → Nat → Int} (candidateId taskId : String)
    (taskHashes : List String) (numSeeds : Nat) (hnodup : taskHashes.Nodup) (plan : SeedPlan)
    (h : plan.rngSeeds = gridSeeds taskHashes numSeeds f) (taskHash : String)
    (hmem : taskHash ∈ taskHashes) (seedIndex : Nat) (hlt : seedIndex < numSeeds) :
    resolveEvalRngSeed candidateId taskId taskHash seedIndex plan = f taskHash seedIndex := by
  rw [resolveEvalRngSeed, h,
    get?_gridSeeds taskHashes numSeeds f hnodup taskHash hmem seedIndex hlt]

section Frame

variable [IdentityHasher] {frame : SplitFrame} {tasks : List SamplingTask}
variable {taskHashes : List String} {numSeeds : Nat} {rngSeeds : List (String × Int)}
variable {source : EvalSplit}

theorem manifestNamespace_framed
    (h : FramedSplit frame tasks taskHashes numSeeds rngSeeds source) :
    manifestNamespace source = .ok frame.namespaceName := by
  have hmanifest : source.taskSet.manifestId = frame.planId :=
    (TaskSet.create_eq_ok h.taskSet).1
  have hrole : '.' ∉ frame.splitRole.value.toList := by
    cases frame.splitRole with
    | internalEval => decide
    | official => decide
    | heldOut => decide
  have hparts := rpartition_append '.' frame.namespaceName frame.splitRole.value hrole
  have hdot : String.singleton '.' = "." := rfl
  rw [hdot] at hparts
  simp only [manifestNamespace, hmanifest, SplitFrame.planId, hparts, h.splitRole_eq]
  simp

/-- A split with one hash for each of its tasks. -/
structure AlignedSplit (frame : SplitFrame) (tasks : List SamplingTask)
    (taskHashes : List String) (numSeeds : Nat) (rngSeeds : List (String × Int))
    (source : EvalSplit) : Prop extends
    FramedSplit frame tasks taskHashes numSeeds rngSeeds source where
  aligned : tasks.length = taskHashes.length

namespace AlignedSplit

variable (h : AlignedSplit frame tasks taskHashes numSeeds rngSeeds source)
include h

theorem requireAligned_ok : requireAligned source = .ok () := by
  have haligned := h.aligned
  rw [requireAligned, h.toFramedSplit.tasks_eq, h.toFramedSplit.taskHashes_eq,
    raiseIf_neg _ _ (by omega), ok_bind, raiseIf_neg _ _ (by omega)]

theorem taskHashById_pairs : taskHashById source =
    Dict.ofPairs ((tasks.map SamplingTask.taskId).zip taskHashes) := by
  rw [taskHashById, h.toFramedSplit.tasks_eq, h.toFramedSplit.taskHashes_eq]

theorem sourceById_some (taskId : String) (hknown : taskId ∈ tasks.map SamplingTask.taskId) :
    ∃ task, (sourceById source).get? taskId = some task ∧ task.taskId = taskId := by
  rw [sourceById, h.toFramedSplit.tasks_eq]
  cases hget : (Dict.ofPairs (tasks.map fun task => (task.taskId, task))).get? taskId with
  | none =>
    rw [Dict.get?_ofPairs_eq_none_iff, List.map_map] at hget
    exact absurd hknown hget
  | some task =>
    have hmem := Dict.mem_of_get?_ofPairs _ _ _ hget
    obtain ⟨x,_,hx⟩ := List.mem_map.mp hmem
    cases hx
    exact ⟨task, rfl, rfl⟩

theorem taskHashById_some (taskId : String) (hknown : taskId ∈ tasks.map SamplingTask.taskId) :
    ∃ taskHash, (taskHashById source).get? taskId = some taskHash := by
  rw [h.taskHashById_pairs]
  cases hget : (Dict.ofPairs ((tasks.map SamplingTask.taskId).zip taskHashes)).get? taskId with
  | none =>
    have hlen : (tasks.map SamplingTask.taskId).length ≤ taskHashes.length := by
      rw [List.length_map, h.aligned]
    rw [Dict.get?_ofPairs_eq_none_iff, List.map_fst_zip hlen] at hget
    exact absurd hknown hget
  | some taskHash => exact ⟨taskHash, rfl⟩

theorem taskHashById_inj (a b taskHash : String)
    (ha : (taskHashById source).get? a = some taskHash)
    (hb : (taskHashById source).get? b = some taskHash) : a = b := by
  rw [h.taskHashById_pairs] at ha hb
  exact zip_fst_eq _ _ h.toFramedSplit.hashes_nodup a b taskHash
    (Dict.mem_of_get?_ofPairs _ _ _ ha) (Dict.mem_of_get?_ofPairs _ _ _ hb)

end AlignedSplit

theorem AlignedSplit.hashOf_nodup
    (h : AlignedSplit frame tasks taskHashes numSeeds rngSeeds source) (taskIds : List String)
    (hnodup : taskIds.Nodup) (hknown : ∀ taskId ∈ taskIds, taskId ∈ tasks.map SamplingTask.taskId) :
    (taskIds.map (hashOf source)).Nodup := by
  refine List.Nodup.map_on ?_ hnodup
  intro a ha b hb hab
  obtain ⟨x,hx⟩ := h.taskHashById_some a (hknown a ha)
  obtain ⟨y,hy⟩ := h.taskHashById_some b (hknown b hb)
  rw [hashOf, hashOf, hx, hy] at hab
  have hxy : x = y := hab
  subst hxy
  exact h.taskHashById_inj a b x hx hy

theorem AlignedSplit.selected_ids
    (h : AlignedSplit frame tasks taskHashes numSeeds rngSeeds source) (taskIds : List String)
    (hknown : ∀ taskId ∈ taskIds, taskId ∈ tasks.map SamplingTask.taskId) :
    (selectedTasks source taskIds).map SamplingTask.taskId = taskIds := by
  induction taskIds with
  | nil => rfl
  | cons taskId rest ih =>
    obtain ⟨task,hget,hid⟩ := h.sourceById_some taskId (hknown taskId List.mem_cons_self)
    have hrest := ih fun x hx => hknown x (List.mem_cons_of_mem taskId hx)
    rw [selectedTasks, List.filterMap_cons_some hget, List.map_cons, hid]
    exact congrArg _ hrest

/-- Narrowing to known tasks succeeds and carries a seed for every trial it keeps. -/
theorem AlignedSplit.deriveSampling_ok
    (h : AlignedSplit frame tasks taskHashes numSeeds rngSeeds source) (taskIds : List String)
    (hne : taskIds ≠ []) (hnodup : taskIds.Nodup)
    (hknown : ∀ taskId ∈ taskIds, taskId ∈ tasks.map SamplingTask.taskId) :
    ∃ derived, deriveSampling source taskIds = .ok derived ∧
      AlignedSplit frame (selectedTasks source taskIds) (taskIds.map (hashOf source)) numSeeds
        (gridSeeds (taskIds.map (hashOf source)) numSeeds (carriedSeed source)) derived := by
  have hframed := h.toFramedSplit
  have hpos := hframed.numSeeds_pos
  have hhashes := h.hashOf_nodup taskIds hnodup hknown
  have hids := h.selected_ids taskIds hknown
  have hselhash : (selectedTasks source taskIds).map (fun task => hashOf source task.taskId) =
      taskIds.map (hashOf source) := by
    have hcomp := congrArg (List.map (hashOf source)) hids
    rwa [List.map_map] at hcomp
  have hhne : taskIds.map (hashOf source) ≠ [] := by simpa using hne
  have hselne : selectedTasks source taskIds ≠ [] := by
    intro hnil
    rw [hnil] at hids
    exact hne hids.symm
  have hunknown : taskIds.filter (fun taskId => ((sourceById source).get? taskId).isNone) = [] := by
    rw [List.filter_eq_nil_iff]
    intro taskId hmem
    obtain ⟨task,hget,_⟩ := h.sourceById_some taskId (hknown taskId hmem)
    simp [hget]
  obtain ⟨plan,hcreate⟩ := gridSeeds_create_ok (taskIds.map (hashOf source)) numSeeds
    (carriedSeed source) frame.planId definitionVersion hpos hhne hhashes
  have hplan := seedPlanFromProvenance_grid (taskIds.map (hashOf source)) numSeeds
    (carriedSeed source) frame.planId definitionVersion hpos hhne hhashes
  have hrows : gridRows (taskIds.map (hashOf source)) numSeeds (carriedSeed source) =
      taskIds.flatMap fun taskId => (List.range numSeeds).map fun seedIndex =>
        (⟨hashOf source taskId, seedIndex,
          some (carriedSeed source (hashOf source taskId) seedIndex)⟩ :
          TaskTrialProvenanceRow) := by
    rw [gridRows, List.flatMap_map]
  rw [hrows, hcreate] at hplan
  obtain ⟨base,hbase⟩ := deriveEvalSplit_ok frame (selectedTasks source taskIds)
    (fun task => hashOf source task.taskId) numSeeds hpos hselne (by rwa [hselhash])
  have hbframed := deriveEvalSplit_framed hbase
  rw [hselhash] at hbframed
  obtain ⟨hrevision,_,hversion,_,_,hproc,hagg⟩ := hframed.records
  refine ⟨{ base with seedPlan := plan }, ?_, ?_⟩
  · simp only [SplitFrame.planId] at hplan
    simp only [deriveSampling, raiseIf_neg _ _ hne, raiseIf_neg _ _ (not_not.mpr hnodup),
      hunknown, raiseIf_neg _ _ (not_not.mpr (rfl : ([] : List String) = [])), ok_bind,
      h.requireAligned_ok, manifestNamespace_framed hframed, hframed.numSeeds_eq, hversion,
      hframed.splitRole_eq, hrevision, hproc, hagg, hplan, hbase]
    rfl
  · refine ⟨hbframed.withSeeds hcreate, ?_⟩
    have hlen := congrArg List.length hids
    rw [List.length_map] at hlen
    rw [List.length_map, hlen]

/-- One trial of a known task can be derived, with the seed its source carries for it. -/
theorem AlignedSplit.deriveTaskSeedSampling_ok
    (h : AlignedSplit frame tasks taskHashes numSeeds rngSeeds source) (taskId : String)
    (hknown : taskId ∈ tasks.map SamplingTask.taskId) (seedIndex : Nat) :
    ∃ derived task, deriveTaskSeedSampling source taskId seedIndex = .ok derived ∧
      (sourceById source).get? taskId = some task ∧ task.taskId = taskId ∧
      FramedSplit frame [task] [hashOf source taskId] 1
        [(keyed (hashOf source taskId) 0, carriedSeed source (hashOf source taskId) seedIndex)]
        derived := by
  have hframed := h.toFramedSplit
  obtain ⟨task,hget,hid⟩ := h.sourceById_some taskId hknown
  have hsingle : [hashOf source taskId] ≠ [] := by simp
  have hnodup : [hashOf source taskId].Nodup := List.nodup_singleton _
  let seed : String → Nat → Int := fun _ _ => carriedSeed source (hashOf source taskId) seedIndex
  obtain ⟨plan,hcreate⟩ := gridSeeds_create_ok [hashOf source taskId] 1 seed frame.planId
    definitionVersion (by omega) hsingle hnodup
  have hplan := seedPlanFromProvenance_grid [hashOf source taskId] 1 seed frame.planId
    definitionVersion (by omega) hsingle hnodup
  rw [hcreate] at hplan
  obtain ⟨taskSet,htask,_⟩ := TaskSet.create_ok frame.planId definitionVersion
    frame.datasetRevision [hashOf source taskId] hsingle hnodup
  refine ⟨frame.split [task] taskSet plan, task, ?_, hget, hid, htask, hcreate, rfl⟩
  obtain ⟨hrevision,htaskVersion,hplanVersion,hsampling,heval,hproc,hagg⟩ := hframed.records
  have hrows : [(⟨hashOf source taskId, 0,
      some (carriedSeed source (hashOf source taskId) seedIndex)⟩ : TaskTrialProvenanceRow)] =
      gridRows [hashOf source taskId] 1 seed := rfl
  simp only [SplitFrame.planId] at hplan htask
  simp only [deriveTaskSeedSampling, hget, h.requireAligned_ok, ok_bind,
    manifestNamespace_framed hframed, hframed.splitRole_eq, hplanVersion, htaskVersion, hrevision,
    hsampling, heval, hproc, hagg, hrows, hplan, htask]
  exact assembleSplit_eq frame [task] taskSet plan

/-! ### Engines -/

variable {configs : EvalConfigs}

theorem EngineSampling.create_ok {sampling : EvalSplit}
    (h : validateSamplingContract configs sampling = .ok ()) :
    EngineSampling.create configs sampling = .ok ⟨configs, sampling, h⟩ := by
  unfold EngineSampling.create
  split
  · rfl
  · rename_i message hm
    rw [h] at hm
    cases hm

/- On a sampling of known tasks the search for its trial raises nothing. -/
theorem AlignedSplit.isTaskSeedSampling_ok
    (h : AlignedSplit frame tasks taskHashes numSeeds rngSeeds source) (sampling : EvalSplit)
    (hknown : ∀ task ∈ sampling.tasks, task.taskId ∈ tasks.map SamplingTask.taskId) :
    ∃ found, isTaskSeedSampling source sampling = .ok found ∧
      ∀ task seedIndex, sampling.tasks = [task] → sampling.seedPlan.numSeeds = 1 →
        seedIndex < numSeeds →
        deriveTaskSeedSampling source task.taskId seedIndex = .ok sampling → found = true := by
  unfold isTaskSeedSampling
  split
  · rename_i task htasks
    have htask : task.taskId ∈ tasks.map SamplingTask.taskId := hknown task (by simp [htasks])
    split
    · have hderive : ∀ seedIndex ∈ List.range source.seedPlan.numSeeds,
          (do
            let expected ← deriveTaskSeedSampling source task.taskId seedIndex
            return decide (expected = sampling) : Except String Bool) =
          .ok (decide (deriveTaskSeedSampling source task.taskId seedIndex = .ok sampling)) := by
        intro seedIndex _
        obtain ⟨derived,_,hok,_⟩ := h.deriveTaskSeedSampling_ok task.taskId htask seedIndex
        rw [hok, ok_bind]
        simp [pure, Except.pure]
      refine ⟨_, anyM_ok _ _ _ hderive, ?_⟩
      intro task' seedIndex hsingle _ hlt hok
      rw [htasks, List.cons.injEq] at hsingle
      rw [List.any_eq_true]
      refine ⟨seedIndex, ?_, ?_⟩
      · rw [h.toFramedSplit.numSeeds_eq]
        exact List.mem_range.mpr hlt
      · rw [hsingle.1, hok]
        simp
    · rename_i hne
      exact ⟨false, rfl, fun _ _ _ hone => absurd hone hne⟩
  · rename_i hne
    exact ⟨false, rfl, fun task _ hsingle => absurd hsingle (hne task)⟩

/-- The contract of an engine's sampling, for samplings of the tasks of its canonical split. -/
theorem AlignedSplit.validateSamplingContract_ok
    (h : AlignedSplit frame tasks taskHashes numSeeds rngSeeds source)
    (hconfigs : configs.splitFor frame.splitRole = .ok source) (sampling : EvalSplit)
    (hrole : sampling.splitRole = frame.splitRole)
    (hknown : ∀ task ∈ sampling.tasks, task.taskId ∈ tasks.map SamplingTask.taskId)
    (hcase : source.evalConfig = sampling.evalConfig ∨
      (∃ task seedIndex, sampling.tasks = [task] ∧ sampling.seedPlan.numSeeds = 1 ∧
        seedIndex < numSeeds ∧
        deriveTaskSeedSampling source task.taskId seedIndex = .ok sampling) ∨
      deriveSampling source (sampling.tasks.map SamplingTask.taskId) = .ok sampling) :
    validateSamplingContract configs sampling = .ok () := by
  obtain ⟨found,hfound,htrial⟩ := h.isTaskSeedSampling_ok sampling hknown
  simp only [validateSamplingContract, hrole, hconfigs, ok_bind]
  by_cases heval : source.evalConfig = sampling.evalConfig
  · rw [if_pos heval]
    rfl
  · rw [if_neg heval, hfound, ok_bind]
    cases found with
    | true => rfl
    | false =>
      rcases hcase with hc | hc | hc
      · exact absurd hc heval
      · obtain ⟨task,seedIndex,h1,h2,h3,h4⟩ := hc
        exact absurd (htrial task seedIndex h1 h2 h3 h4) (by simp)
      · rw [if_neg (by simp), hc, ok_bind, raiseIf_neg _ _ (not_not.mpr rfl)]

/-- A trial engine of a canonical split, and the seed of its one row. -/
theorem AlignedSplit.forTaskSeed_ok
    (h : AlignedSplit frame tasks taskHashes numSeeds [] source)
    (hconfigs : configs.splitFor frame.splitRole = .ok source) (taskId : String)
    (hknown : taskId ∈ tasks.map SamplingTask.taskId) (seedIndex : Nat)
    (hlt : seedIndex < numSeeds) (engine : EngineSampling) (hengine : engine.configs = configs)
    (hseeds : engine.sampling.seedPlan.numSeeds = numSeeds)
    (hsame : deriveTaskSeedSampling engine.sampling taskId seedIndex =
      deriveTaskSeedSampling source taskId seedIndex) (candidateId : String) :
    ∃ trial, engine.forTaskSeed taskId seedIndex = .ok trial ∧
      resolveEvalRngSeed candidateId taskId (hashOf source taskId) 0 trial.sampling.seedPlan =
        deriveRngSeed [hashOf source taskId, toString seedIndex] := by
  obtain ⟨derived,task,hok,_,hid,hframed⟩ := h.deriveTaskSeedSampling_ok taskId hknown seedIndex
  have hvalid : validateSamplingContract configs derived = .ok () := by
    refine h.validateSamplingContract_ok hconfigs derived hframed.splitRole_eq ?_ (.inr (.inl
      ⟨task, seedIndex, hframed.tasks_eq, hframed.numSeeds_eq, hlt, ?_⟩))
    · intro x hx
      rw [hframed.tasks_eq, List.mem_singleton] at hx
      rw [hx, hid]
      exact hknown
    · rw [hid]
      exact hok
  subst hengine
  refine ⟨⟨engine.configs, derived, hvalid⟩, ?_, ?_⟩
  · have hge : ¬ engine.sampling.seedPlan.numSeeds ≤ seedIndex := by omega
    rw [EngineSampling.forTaskSeed]
    simp only [raiseIf_neg _ _ hge, ok_bind, hsame, hok]
    exact EngineSampling.create_ok hvalid
  · have hgrid : derived.seedPlan.rngSeeds = gridSeeds [hashOf source taskId] 1
        (fun _ _ => carriedSeed source (hashOf source taskId) seedIndex) := hframed.rngSeeds_eq
    rw [resolveEvalRngSeed_of_grid candidateId taskId [hashOf source taskId] 1
      (List.nodup_singleton _) derived.seedPlan hgrid (hashOf source taskId) (by simp) 0
      (by omega)]
    exact carriedSeed_of_empty _ _ h.toFramedSplit.rngSeeds_eq

/-! ### Narrowed samplings -/

section Narrowed

variable {narrowed : EvalSplit} {taskIds : List String}
variable (h : AlignedSplit frame tasks taskHashes numSeeds rngSeeds source)
variable (hknown : ∀ taskId ∈ taskIds, taskId ∈ tasks.map SamplingTask.taskId)
variable (hn : AlignedSplit frame (selectedTasks source taskIds) (taskIds.map (hashOf source))
  numSeeds (gridSeeds (taskIds.map (hashOf source)) numSeeds (carriedSeed source)) narrowed)
variable (hnodup : taskIds.Nodup)
include h hknown hn hnodup

/- The tasks a narrowed sampling keeps have the hashes of their source. -/
theorem AlignedSplit.narrowed_hashOf (taskId : String) (hmem : taskId ∈ taskIds) :
    hashOf narrowed taskId = hashOf source taskId := by
  have hget : (taskHashById narrowed).get? taskId = some (hashOf source taskId) := by
    rw [hn.taskHashById_pairs, h.selected_ids taskIds hknown]
    refine Dict.get?_ofPairs_of_mem _ ?_ _ _ ?_
    · rw [List.map_fst_zip (by rw [List.length_map])]
      exact hnodup
    · have hpair := mem_zip_map id (hashOf source) taskIds taskId hmem
      rwa [List.map_id] at hpair
  rw [hashOf, hget, Option.getD_some]

theorem AlignedSplit.narrowed_carriedSeed (taskId : String) (hmem : taskId ∈ taskIds)
    (seedIndex : Nat) (hlt : seedIndex < numSeeds) :
    carriedSeed narrowed (hashOf source taskId) seedIndex =
      carriedSeed source (hashOf source taskId) seedIndex :=
  carriedSeed_of_grid _ numSeeds (h.hashOf_nodup taskIds hnodup hknown)
    hn.toFramedSplit.rngSeeds_eq _ (List.mem_map_of_mem hmem) seedIndex hlt

omit hnodup in
theorem AlignedSplit.narrowed_sourceById (taskId : String) (hmem : taskId ∈ taskIds) :
    (sourceById narrowed).get? taskId = (sourceById source).get? taskId := by
  have hin : taskId ∈ (selectedTasks source taskIds).map SamplingTask.taskId := by
    rwa [h.selected_ids taskIds hknown]
  obtain ⟨task,hget,_⟩ := hn.sourceById_some taskId hin
  have hpair := Dict.mem_of_get?_ofPairs _ _ _ hget
  rw [hn.toFramedSplit.tasks_eq] at hpair
  obtain ⟨x,hx,hxeq⟩ := List.mem_map.mp hpair
  cases hxeq
  obtain ⟨id,_,hid⟩ := List.mem_filterMap.mp hx
  have hidx : id = task.taskId := by
    have hmemid := Dict.mem_of_get?_ofPairs _ _ _ hid
    obtain ⟨y,_,hy⟩ := List.mem_map.mp hmemid
    cases hy
    rfl
  subst hidx
  rw [hget, hid]

end Narrowed

/- A trial derived from a narrowed sampling is the trial derived from its source. -/
theorem AlignedSplit.deriveTaskSeed_of_narrowed
    (h : AlignedSplit frame tasks taskHashes numSeeds rngSeeds source) (taskIds : List String)
    (hne : taskIds ≠ []) (hnodup : taskIds.Nodup)
    (hknown : ∀ taskId ∈ taskIds, taskId ∈ tasks.map SamplingTask.taskId) (narrowed : EvalSplit)
    (hnarrowed : deriveSampling source taskIds = .ok narrowed) (taskId : String)
    (hmem : taskId ∈ taskIds) (seedIndex : Nat) (hlt : seedIndex < numSeeds) :
    deriveTaskSeedSampling narrowed taskId seedIndex =
      deriveTaskSeedSampling source taskId seedIndex := by
  obtain ⟨derived,hok,hderived⟩ := h.deriveSampling_ok taskIds hne hnodup hknown
  rw [hnarrowed, Except.ok.injEq] at hok
  subst hok
  have hin : taskId ∈ (selectedTasks source taskIds).map SamplingTask.taskId := by
    rwa [h.selected_ids taskIds hknown]
  obtain ⟨a,task,ha,hgeta,_,hframeda⟩ := hderived.deriveTaskSeedSampling_ok taskId hin seedIndex
  obtain ⟨b,task',hb,hgetb,_,hframedb⟩ :=
    h.deriveTaskSeedSampling_ok taskId (hknown taskId hmem) seedIndex
  have htask : task = task' := by
    rw [h.narrowed_sourceById hknown hderived taskId hmem, hgetb, Option.some.injEq] at hgeta
    exact hgeta.symm
  rw [h.narrowed_hashOf hknown hderived hnodup taskId hmem,
    h.narrowed_carriedSeed hknown hderived hnodup taskId hmem seedIndex hlt, htask] at hframeda
  rw [ha, hb, hframeda.unique hframedb]

/-- One trial, one seed on every derived engine: for a split an experiment derives, any engine
narrowed to an ordered subset with the task and any trial engine of either give the trial the
seed of its task hash and index, for every candidate. The split's own engine has no seed in its
plan and takes the seed of the candidate, task and index. -/
theorem derived_engines_share_rng_seed (configs : EvalConfigs) (frame : SplitFrame)
    (tasks : List SamplingTask) (taskHashOf : SamplingTask → String) (numSeeds : Nat)
    (split : EvalSplit)
    (hsplit : deriveEvalSplit frame.namespaceName frame.datasetRevision frame.splitRole tasks
      taskHashOf frame.procedure frame.aggregation numSeeds = .ok split)
    (hconfigs : configs.splitFor frame.splitRole = .ok split)
    (candidateId taskId taskHash : String) (seedIndex : Nat)
    (htask : (taskHashById split).get? taskId = some taskHash) (hseed : seedIndex < numSeeds) :
    ∃ own, EngineSampling.create configs split = .ok own ∧ own.sampling = split ∧
      resolveEvalRngSeed candidateId taskId taskHash seedIndex own.sampling.seedPlan =
        deriveRngSeed [candidateId, taskId, toString seedIndex] ∧
      (∃ trial, own.forTaskSeed taskId seedIndex = .ok trial ∧
        resolveEvalRngSeed candidateId taskId taskHash 0 trial.sampling.seedPlan =
          deriveRngSeed [taskHash, toString seedIndex]) ∧
      ∀ taskIds, taskIds.Nodup → (∀ x ∈ taskIds, x ∈ tasks.map SamplingTask.taskId) →
        taskId ∈ taskIds →
        ∃ narrowed, own.forTaskIds taskIds = .ok narrowed ∧
          resolveEvalRngSeed candidateId taskId taskHash seedIndex narrowed.sampling.seedPlan =
            deriveRngSeed [taskHash, toString seedIndex] ∧
          (taskIds = tasks.map SamplingTask.taskId →
            narrowed.sampling.evalConfig = split.evalConfig) ∧
          ∃ trial, narrowed.forTaskSeed taskId seedIndex = .ok trial ∧
            resolveEvalRngSeed candidateId taskId taskHash 0 trial.sampling.seedPlan =
              deriveRngSeed [taskHash, toString seedIndex] := by
  have hframed := deriveEvalSplit_framed hsplit
  have h : AlignedSplit frame tasks (tasks.map taskHashOf) numSeeds [] split :=
    ⟨hframed, by rw [List.length_map]⟩
  have hhash : hashOf split taskId = taskHash := by rw [hashOf, htask, Option.getD_some]
  have hknown : taskId ∈ tasks.map SamplingTask.taskId := by
    by_contra hnot
    have hnone : (taskHashById split).get? taskId = none := by
      rw [h.taskHashById_pairs, Dict.get?_ofPairs_eq_none_iff,
        List.map_fst_zip (by rw [List.length_map, List.length_map])]
      exact hnot
    rw [hnone] at htask
    cases htask
  have hvalid : validateSamplingContract configs split = .ok () := by
    refine h.validateSamplingContract_ok hconfigs split hframed.splitRole_eq ?_ (.inl rfl)
    intro task hmem
    rw [hframed.tasks_eq] at hmem
    exact List.mem_map_of_mem hmem
  have hscoped : ∀ engine : EngineSampling, engine.configs = configs →
      engine.sampling.seedPlan.numSeeds = numSeeds →
      deriveTaskSeedSampling engine.sampling taskId seedIndex =
        deriveTaskSeedSampling split taskId seedIndex →
      ∃ trial, engine.forTaskSeed taskId seedIndex = .ok trial ∧
        resolveEvalRngSeed candidateId taskId taskHash 0 trial.sampling.seedPlan =
          deriveRngSeed [taskHash, toString seedIndex] := by
    intro engine hengine hseeds hsame
    have hscope := h.forTaskSeed_ok hconfigs taskId hknown seedIndex hseed engine hengine hseeds
      hsame candidateId
    rwa [hhash] at hscope
  refine ⟨⟨configs, split, hvalid⟩, EngineSampling.create_ok hvalid, rfl,
    resolveEvalRngSeed_of_empty _ _ _ _ _ hframed.rngSeeds_eq,
    hscoped ⟨configs, split, hvalid⟩ rfl hframed.numSeeds_eq rfl, ?_⟩
  intro taskIds hnodup hids hmem
  have hne : taskIds ≠ [] := List.ne_nil_of_mem hmem
  obtain ⟨narrowed,hnarrowed,hn⟩ := h.deriveSampling_ok taskIds hne hnodup hids
  have hsel := h.selected_ids taskIds hids
  have htasks : narrowed.tasks.map SamplingTask.taskId = taskIds := by
    rw [hn.toFramedSplit.tasks_eq, hsel]
  have hnvalid : validateSamplingContract configs narrowed = .ok () := by
    refine h.validateSamplingContract_ok hconfigs narrowed hn.toFramedSplit.splitRole_eq ?_
      (.inr (.inr (by rw [htasks]; exact hnarrowed)))
    intro task htask
    apply hids
    rw [← htasks]
    exact List.mem_map_of_mem htask
  refine ⟨⟨configs, narrowed, hnvalid⟩, ?_, ?_, ?_, ?_⟩
  · rw [EngineSampling.forTaskIds, hnarrowed]
    exact EngineSampling.create_ok hnvalid
  · have hmemHash : taskHash ∈ taskIds.map (hashOf split) := by
      rw [← hhash]
      exact List.mem_map_of_mem hmem
    rw [resolveEvalRngSeed_of_grid candidateId taskId _ numSeeds
      (h.hashOf_nodup taskIds hnodup hids) narrowed.seedPlan hn.toFramedSplit.rngSeeds_eq
      taskHash hmemHash seedIndex hseed]
    exact carriedSeed_of_empty _ _ hframed.rngSeeds_eq
  · intro hall
    -- with every task kept, and ids that are distinct, the hashes are those of the split
    have hsame : taskIds.map (hashOf split) = tasks.map taskHashOf := by
      rw [hall, List.map_map]
      apply List.map_congr_left
      intro task htask
      have hget : (taskHashById split).get? task.taskId = some (taskHashOf task) := by
        rw [h.taskHashById_pairs]
        refine Dict.get?_ofPairs_of_mem _ ?_ _ _
          (mem_zip_map SamplingTask.taskId taskHashOf tasks task htask)
        rw [List.map_fst_zip (by rw [List.length_map, List.length_map]), ← hall]
        exact hnodup
      rw [Function.comp, hashOf, hget, Option.getD_some]
    have hnf := hn.toFramedSplit
    rw [hsame] at hnf
    exact hnf.evalConfig_eq hframed
  · refine hscoped ⟨configs, narrowed, hnvalid⟩ rfl hn.toFramedSplit.numSeeds_eq ?_
    exact h.deriveTaskSeed_of_narrowed taskIds hne hnodup hids narrowed hnarrowed taskId hmem
      seedIndex hseed

end Frame

/-! ### A split of one task -/

@[reducible] def schemaHasher : IdentityHasher := ⟨fun schema _ _ => schema⟩

attribute [local instance] schemaHasher

def soloFrame (splitRole : SplitRole) : SplitFrame := ⟨"toy", "revision", splitRole, default, default⟩

def soloTask : SamplingTask := ⟨"task-a", []⟩

def soloTaskSet (splitRole : SplitRole) (taskHash : String) : TaskSet :=
  ⟨"toy." ++ splitRole.value, "1", "revision", [taskHash], none, by simp [validateSelector]⟩

def soloPlan (splitRole : SplitRole) (taskHash : String) : SeedPlan :=
  ⟨"toy." ++ splitRole.value, "1", [taskHash], 2, [], by simp [validateSlots]⟩

def soloSplit (splitRole : SplitRole) (taskHash : String) : EvalSplit :=
  (soloFrame splitRole).split [soloTask] (soloTaskSet splitRole taskHash)
    (soloPlan splitRole taskHash)

def soloHash : String := "9f86d081884c7d659a2feaa0c55ad015a3bf4f1b2b0b822cd15d6c15b0f00a08"

def soloConfigs : EvalConfigs where
  procedureConfigHash := ""
  internal := soloSplit .internalEval soloHash
  official := soloSplit .official "official-hash"
  heldOut := none
  valid := by decide +kernel

/-- Non-vacuity: the internal split of an experiment with one task and two seeds. -/
theorem derived_engines_share_rng_seed_solo :
    deriveEvalSplit "toy" "revision" .internalEval [soloTask] (fun _ => soloHash) default default
        2 = .ok (soloSplit .internalEval soloHash) ∧
      ∃ own, EngineSampling.create soloConfigs (soloSplit .internalEval soloHash) = .ok own ∧
        ∃ trial, own.forTaskSeed "task-a" 1 = .ok trial ∧
          resolveEvalRngSeed "candidate" "task-a" soloHash 0 trial.sampling.seedPlan =
            deriveRngSeed [soloHash, toString 1] := by
  have hsplit : deriveEvalSplit "toy" "revision" .internalEval [soloTask] (fun _ => soloHash)
      default default 2 = .ok (soloSplit .internalEval soloHash) := by decide +kernel
  obtain ⟨own,hown,_,_,htrial,_⟩ := derived_engines_share_rng_seed soloConfigs
    (soloFrame .internalEval) [soloTask] (fun _ => soloHash) 2 (soloSplit .internalEval soloHash)
    hsplit rfl "candidate" "task-a" soloHash 1 (by decide +kernel) (by omega)
  exact ⟨hsplit, own, hown, htrial⟩

/- The seed of trial zero on the split's own engine and on the engine narrowed to all tasks,
   with whether the two engines have one eval config. -/
def soloSeeds : Except String (Int × Int × Bool) := do
  let own ← EngineSampling.create soloConfigs (soloSplit .internalEval soloHash)
  let narrowed ← own.forTaskIds ["task-a"]
  return (resolveEvalRngSeed "candidate" "task-a" soloHash 0 own.sampling.seedPlan,
    resolveEvalRngSeed "candidate" "task-a" soloHash 0 narrowed.sampling.seedPlan,
    decide (own.sampling.evalConfig = narrowed.sampling.evalConfig))

/-- Narrowing to the full task list keeps the eval config and changes the seed. -/
theorem narrowed_engine_changes_rng_seed :
    soloSeeds = .ok (1353944193, 10525052, true) ∧ (1353944193 : Int) ≠ 10525052 := by
  decide +kernel

end Whetstone.Eval
