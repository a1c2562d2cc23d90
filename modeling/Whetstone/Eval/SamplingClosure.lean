import Whetstone.Eval.RngSeeds

/-! Chains of derivations that start at the engine of an experiment's split. Every sampling on
such a chain is the split itself, a narrowing of it, or one trial of it. -/
namespace Whetstone.Eval
open Whetstone.Core Whetstone.Lib Whetstone.Experiment

inductive SamplingCall where
  | forTaskIds (taskIds : List String)
  | forTaskSeed (taskId : String) (seedIndex : Nat)

def SamplingCall.narrows : SamplingCall → Bool
  | .forTaskIds _ => true
  | .forTaskSeed _ _ => false

section Derivation

variable [IdentityHasher]

def EngineSampling.taskIds (engine : EngineSampling) : List String :=
  engine.sampling.tasks.map SamplingTask.taskId

def EngineSampling.InRange (engine : EngineSampling) : SamplingCall → Prop
  | .forTaskIds taskIds => taskIds ≠ [] ∧ taskIds.Nodup ∧ taskIds ⊆ engine.taskIds
  | .forTaskSeed taskId seedIndex =>
    taskId ∈ engine.taskIds ∧ seedIndex < engine.sampling.seedPlan.numSeeds

def EngineSampling.derive (engine : EngineSampling) : SamplingCall → Except String EngineSampling
  | .forTaskIds taskIds => engine.forTaskIds taskIds
  | .forTaskSeed taskId seedIndex => engine.forTaskSeed taskId seedIndex

/- The engines that a list of calls, each in range of the engine before it, leads to. -/
inductive Derives (start : EngineSampling) : List SamplingCall → EngineSampling → Prop where
  | refl : Derives start [] start
  | step {calls : List SamplingCall} {engine next : EngineSampling} (call : SamplingCall)
      (before : Derives start calls engine) (range : engine.InRange call)
      (ok : engine.derive call = .ok next) : Derives start (calls ++ [call]) next

variable {frame : SplitFrame} {tasks : List SamplingTask} {taskHashes : List String}
variable {numSeeds : Nat} {rngSeeds : List (String × Int)} {source : EvalSplit}

section Source

variable (h : AlignedSplit frame tasks taskHashes numSeeds rngSeeds source)
include h

theorem AlignedSplit.narrowed_selected {narrowed : EvalSplit} {wide narrow : List String}
    (hwide : ∀ taskId ∈ wide, taskId ∈ tasks.map SamplingTask.taskId)
    (hn : AlignedSplit frame (selectedTasks source wide) (wide.map (hashOf source)) numSeeds
      (gridSeeds (wide.map (hashOf source)) numSeeds (carriedSeed source)) narrowed)
    (hsub : narrow ⊆ wide) : selectedTasks narrowed narrow = selectedTasks source narrow := by
  apply List.filterMap_congr
  intro taskId hmem
  exact h.narrowed_sourceById hwide hn taskId (hsub hmem)

/-- Narrowing twice is narrowing once. -/
theorem AlignedSplit.deriveSampling_of_narrowed {narrowed : EvalSplit} (wide narrow : List String)
    (hwne : wide ≠ []) (hwnodup : wide.Nodup)
    (hwide : ∀ taskId ∈ wide, taskId ∈ tasks.map SamplingTask.taskId)
    (hnarrowed : deriveSampling source wide = .ok narrowed)
    (hne : narrow ≠ []) (hnodup : narrow.Nodup) (hsub : narrow ⊆ wide) :
    deriveSampling narrowed narrow = deriveSampling source narrow := by
  obtain ⟨derived,hok,hn⟩ := h.deriveSampling_ok wide hwne hwnodup hwide
  rw [hnarrowed, Except.ok.injEq] at hok
  subst hok
  have hin : ∀ taskId ∈ narrow,
      taskId ∈ (selectedTasks source wide).map SamplingTask.taskId := by
    rw [h.selected_ids wide hwide]
    exact hsub
  obtain ⟨a,ha,hframeda⟩ := hn.deriveSampling_ok narrow hne hnodup hin
  obtain ⟨b,hb,hframedb⟩ := h.deriveSampling_ok narrow hne hnodup
    fun taskId hmem => hwide taskId (hsub hmem)
  have hhashes : narrow.map (hashOf narrowed) = narrow.map (hashOf source) :=
    List.map_congr_left fun taskId hmem =>
      h.narrowed_hashOf hwide hn hwnodup taskId (hsub hmem)
  have hseeds : gridSeeds (narrow.map (hashOf source)) numSeeds (carriedSeed narrowed) =
      gridSeeds (narrow.map (hashOf source)) numSeeds (carriedSeed source) := by
    apply List.flatMap_congr
    intro taskHash hmem
    obtain ⟨taskId,hid,rfl⟩ := List.mem_map.mp hmem
    apply List.map_congr_left
    intro seedIndex hindex
    rw [h.narrowed_carriedSeed hwide hn hwnodup taskId (hsub hid) seedIndex
      (List.mem_range.mp hindex)]
  have hfa := hframeda.toFramedSplit
  rw [h.narrowed_selected hwide hn hsub, hhashes, hseeds] at hfa
  rw [ha, hb, hfa.unique hframedb.toFramedSplit]

/-- One trial, as a split of one task with one seed. -/
theorem AlignedSplit.trial_aligned {trial : EvalSplit} (taskId : String) (seedIndex : Nat)
    (hknown : taskId ∈ tasks.map SamplingTask.taskId)
    (hok : deriveTaskSeedSampling source taskId seedIndex = .ok trial) :
    ∃ task, task.taskId = taskId ∧
      AlignedSplit frame [task] [hashOf source taskId] 1
        [(keyed (hashOf source taskId) 0, carriedSeed source (hashOf source taskId) seedIndex)]
        trial := by
  obtain ⟨derived,task,hderived,_,hid,hframed⟩ :=
    h.deriveTaskSeedSampling_ok taskId hknown seedIndex
  rw [hok, Except.ok.injEq] at hderived
  subst hderived
  exact ⟨task, hid, hframed, rfl⟩

end Source

/-! ### A trial is its own narrowing and its own trial -/

section Trial

variable {task : SamplingTask} {taskHash : String} {seed : Int} {trial : EvalSplit}
variable (h : AlignedSplit frame [task] [taskHash] 1 [(keyed taskHash 0, seed)] trial)
include h

theorem AlignedSplit.trial_hashOf : hashOf trial task.taskId = taskHash := by
  rw [hashOf, h.taskHashById_pairs]
  simp [Dict.ofPairs]

theorem AlignedSplit.trial_carriedSeed : carriedSeed trial taskHash 0 = seed := by
  have hgrid : trial.seedPlan.rngSeeds = gridSeeds [taskHash] 1 (fun _ _ => seed) :=
    h.toFramedSplit.rngSeeds_eq
  exact carriedSeed_of_grid [taskHash] 1 (List.nodup_singleton _) hgrid taskHash (by simp) 0
    (by omega)

theorem AlignedSplit.trial_sourceById : (sourceById trial).get? task.taskId = some task := by
  rw [sourceById, h.toFramedSplit.tasks_eq]
  simp [Dict.ofPairs]

theorem AlignedSplit.deriveSampling_trial : deriveSampling trial [task.taskId] = .ok trial := by
  obtain ⟨derived,hok,hderived⟩ := h.deriveSampling_ok [task.taskId] (by simp)
    (List.nodup_singleton _) (by simp)
  have hframed := hderived.toFramedSplit
  have hselected : selectedTasks trial [task.taskId] = [task] := by
    simp [selectedTasks, h.trial_sourceById]
  have hseeds : gridSeeds [taskHash] 1 (carriedSeed trial) = [(keyed taskHash 0, seed)] := by
    simp [gridSeeds, h.trial_carriedSeed]
  rw [List.map_cons, List.map_nil, h.trial_hashOf, hselected, hseeds] at hframed
  rw [hok, hframed.unique h.toFramedSplit]

theorem AlignedSplit.deriveTaskSeed_trial :
    deriveTaskSeedSampling trial task.taskId 0 = .ok trial := by
  obtain ⟨derived,task',hok,hget,_,hframed⟩ :=
    h.deriveTaskSeedSampling_ok task.taskId (by simp) 0
  rw [h.trial_sourceById, Option.some.injEq] at hget
  rw [h.trial_hashOf, h.trial_carriedSeed, ← hget] at hframed
  rw [hok, hframed.unique h.toFramedSplit]

end Trial

/-! ### Samplings on a chain -/

/-- What the sampling of an engine on a chain may be. -/
inductive OnChain (tasks : List SamplingTask) (numSeeds : Nat) (source : EvalSplit) :
    EvalSplit → Prop where
  | canonical : OnChain tasks numSeeds source source
  | narrowed {sampling : EvalSplit} (taskIds : List String) (hne : taskIds ≠ [])
      (hnodup : taskIds.Nodup) (hknown : ∀ x ∈ taskIds, x ∈ tasks.map SamplingTask.taskId)
      (hok : deriveSampling source taskIds = .ok sampling) : OnChain tasks numSeeds source sampling
  | trial {sampling : EvalSplit} (taskId : String) (seedIndex : Nat)
      (hknown : taskId ∈ tasks.map SamplingTask.taskId) (hlt : seedIndex < numSeeds)
      (hok : deriveTaskSeedSampling source taskId seedIndex = .ok sampling) :
      OnChain tasks numSeeds source sampling

section Chain

variable {sampling : EvalSplit}
variable (h : AlignedSplit frame tasks taskHashes numSeeds rngSeeds source)
include h

theorem AlignedSplit.onChain_role (hs : OnChain tasks numSeeds source sampling) :
    sampling.splitRole = frame.splitRole := by
  cases hs with
  | canonical => exact h.toFramedSplit.splitRole_eq
  | narrowed taskIds hne hnodup hknown hok =>
    obtain ⟨derived,hderived,hn⟩ := h.deriveSampling_ok taskIds hne hnodup hknown
    rw [hok, Except.ok.injEq] at hderived
    subst hderived
    exact hn.toFramedSplit.splitRole_eq
  | trial taskId seedIndex hknown hlt hok =>
    obtain ⟨_,_,ht⟩ := h.trial_aligned taskId seedIndex hknown hok
    exact ht.toFramedSplit.splitRole_eq

theorem AlignedSplit.narrowed_taskIds (taskIds : List String) (hne : taskIds ≠ [])
    (hnodup : taskIds.Nodup) (hknown : ∀ x ∈ taskIds, x ∈ tasks.map SamplingTask.taskId)
    (hok : deriveSampling source taskIds = .ok sampling) :
    sampling.tasks.map SamplingTask.taskId = taskIds ∧ sampling.seedPlan.numSeeds = numSeeds := by
  obtain ⟨derived,hderived,hn⟩ := h.deriveSampling_ok taskIds hne hnodup hknown
  rw [hok, Except.ok.injEq] at hderived
  subst hderived
  rw [hn.toFramedSplit.tasks_eq]
  exact ⟨h.selected_ids taskIds hknown, hn.toFramedSplit.numSeeds_eq⟩

theorem AlignedSplit.trial_taskIds (taskId : String) (seedIndex : Nat)
    (hknown : taskId ∈ tasks.map SamplingTask.taskId)
    (hok : deriveTaskSeedSampling source taskId seedIndex = .ok sampling) :
    ∃ task, sampling.tasks = [task] ∧ task.taskId = taskId ∧ sampling.seedPlan.numSeeds = 1 := by
  obtain ⟨task,hid,ht⟩ := h.trial_aligned taskId seedIndex hknown hok
  exact ⟨task, ht.toFramedSplit.tasks_eq, hid, ht.toFramedSplit.numSeeds_eq⟩

/-- The constructor of an engine accepts every sampling on a chain. -/
theorem AlignedSplit.onChain_valid {configs : EvalConfigs}
    (hconfigs : configs.splitFor frame.splitRole = .ok source)
    (hs : OnChain tasks numSeeds source sampling) :
    validateSamplingContract configs sampling = .ok () := by
  have hrole := h.onChain_role hs
  cases hs with
  | canonical =>
    refine h.validateSamplingContract_ok hconfigs source hrole ?_ (.inl rfl)
    intro task hmem
    rw [h.toFramedSplit.tasks_eq] at hmem
    exact List.mem_map_of_mem hmem
  | narrowed taskIds hne hnodup hknown hok =>
    obtain ⟨hids,_⟩ := h.narrowed_taskIds taskIds hne hnodup hknown hok
    refine h.validateSamplingContract_ok hconfigs sampling hrole ?_ (.inr (.inr ?_))
    · intro task hmem
      apply hknown
      rw [← hids]
      exact List.mem_map_of_mem hmem
    · rw [hids]
      exact hok
  | trial taskId seedIndex hknown hlt hok =>
    obtain ⟨task,htasks,hid,hone⟩ := h.trial_taskIds taskId seedIndex hknown hok
    refine h.validateSamplingContract_ok hconfigs sampling hrole ?_
      (.inr (.inl ⟨task, seedIndex, htasks, hone, hlt, ?_⟩))
    · intro other hmem
      rw [htasks, List.mem_singleton] at hmem
      rw [hmem, hid]
      exact hknown
    · rw [hid]
      exact hok

/-- Narrowing a sampling on a chain leaves it on the chain, and what it leaves depends on the
tasks alone. -/
theorem AlignedSplit.onChain_narrow (hs : OnChain tasks numSeeds source sampling)
    (taskIds : List String) (hne : taskIds ≠ []) (hnodup : taskIds.Nodup)
    (hsub : taskIds ⊆ sampling.tasks.map SamplingTask.taskId) :
    ∃ derived, deriveSampling sampling taskIds = .ok derived ∧
      OnChain tasks numSeeds source derived ∧
      derived.tasks.map SamplingTask.taskId = taskIds ∧
      ∀ narrow, narrow ≠ [] → narrow.Nodup → narrow ⊆ taskIds →
        deriveSampling derived narrow = deriveSampling sampling narrow := by
  have hsource : ∀ wide, wide ≠ [] → wide.Nodup → wide ⊆ tasks.map SamplingTask.taskId →
      ∃ derived, deriveSampling source wide = .ok derived ∧
        OnChain tasks numSeeds source derived ∧
        derived.tasks.map SamplingTask.taskId = wide ∧
        ∀ narrow, narrow ≠ [] → narrow.Nodup → narrow ⊆ wide →
          deriveSampling derived narrow = deriveSampling source narrow := by
    intro wide hwne hwnodup hwide
    obtain ⟨derived,hok,_⟩ := h.deriveSampling_ok wide hwne hwnodup hwide
    refine ⟨derived, hok, .narrowed wide hwne hwnodup hwide hok,
      (h.narrowed_taskIds wide hwne hwnodup hwide hok).1, ?_⟩
    intro narrow hnne hnnodup hnsub
    exact h.deriveSampling_of_narrowed wide narrow hwne hwnodup hwide hok hnne hnnodup hnsub
  cases hs with
  | canonical =>
    rw [h.toFramedSplit.tasks_eq] at hsub
    exact hsource taskIds hne hnodup hsub
  | narrowed wide hwne hwnodup hwide hok =>
    rw [(h.narrowed_taskIds wide hwne hwnodup hwide hok).1] at hsub
    have honce : ∀ narrow, narrow ≠ [] → narrow.Nodup → narrow ⊆ wide →
        deriveSampling sampling narrow = deriveSampling source narrow := by
      intro narrow hnne hnnodup hnsub
      exact h.deriveSampling_of_narrowed wide narrow hwne hwnodup hwide hok hnne hnnodup hnsub
    obtain ⟨derived,hderived,hon,hids,hnarrow⟩ := hsource taskIds hne hnodup
      fun x hx => hwide x (hsub hx)
    refine ⟨derived, ?_, hon, hids, ?_⟩
    · rw [honce taskIds hne hnodup hsub, hderived]
    · intro narrow hnne hnnodup hnsub
      rw [hnarrow narrow hnne hnnodup hnsub,
        honce narrow hnne hnnodup fun x hx => hsub (hnsub hx)]
  | trial taskId seedIndex hknown hlt hok =>
    obtain ⟨task,hid,ht⟩ := h.trial_aligned taskId seedIndex hknown hok
    -- a list of distinct ids of one task is that task
    have hsingle : taskIds = [task.taskId] := by
      rw [ht.toFramedSplit.tasks_eq, List.map_cons, List.map_nil] at hsub
      cases taskIds with
      | nil => exact absurd rfl hne
      | cons first rest =>
        have hfirst := List.mem_singleton.mp (hsub List.mem_cons_self)
        cases rest with
        | nil => rw [hfirst]
        | cons second rest =>
          have hsecond := List.mem_singleton.mp (hsub (by simp : second ∈ first :: second :: rest))
          rw [hfirst, hsecond] at hnodup
          simp at hnodup
    refine ⟨sampling, ?_, .trial taskId seedIndex hknown hlt hok, ?_, fun _ _ _ _ => rfl⟩
    · rw [hsingle]
      exact ht.deriveSampling_trial
    · rw [hsingle, ht.toFramedSplit.tasks_eq]
      rfl

/-- A trial of a sampling on a chain is on the chain. -/
theorem AlignedSplit.onChain_trial (hs : OnChain tasks numSeeds source sampling)
    (taskId : String) (seedIndex : Nat)
    (hknown : taskId ∈ sampling.tasks.map SamplingTask.taskId)
    (hlt : seedIndex < sampling.seedPlan.numSeeds) :
    ∃ derived, deriveTaskSeedSampling sampling taskId seedIndex = .ok derived ∧
      OnChain tasks numSeeds source derived := by
  cases hs with
  | canonical =>
    rw [h.toFramedSplit.tasks_eq] at hknown
    rw [h.toFramedSplit.numSeeds_eq] at hlt
    obtain ⟨derived,_,hok,_⟩ := h.deriveTaskSeedSampling_ok taskId hknown seedIndex
    exact ⟨derived, hok, .trial taskId seedIndex hknown hlt hok⟩
  | narrowed wide hwne hwnodup hwide hok =>
    obtain ⟨hids,hseeds⟩ := h.narrowed_taskIds wide hwne hwnodup hwide hok
    rw [hids] at hknown
    rw [hseeds] at hlt
    obtain ⟨derived,_,hderived,_⟩ :=
      h.deriveTaskSeedSampling_ok taskId (hwide taskId hknown) seedIndex
    refine ⟨derived, ?_, .trial taskId seedIndex (hwide taskId hknown) hlt hderived⟩
    rw [h.deriveTaskSeed_of_narrowed wide hwne hwnodup hwide sampling hok taskId hknown seedIndex
      hlt, hderived]
  | trial own ownIndex hown hownlt hok =>
    obtain ⟨task,hid,ht⟩ := h.trial_aligned own ownIndex hown hok
    rw [ht.toFramedSplit.tasks_eq, List.map_cons, List.map_nil, List.mem_singleton] at hknown
    rw [ht.toFramedSplit.numSeeds_eq] at hlt
    have hzero : seedIndex = 0 := by omega
    refine ⟨sampling, ?_, .trial own ownIndex hown hownlt hok⟩
    rw [hknown, hzero]
    exact ht.deriveTaskSeed_trial

end Chain

/-! ### Engines on a chain -/

section Engines

variable {configs : EvalConfigs}

theorem EngineSampling.forTaskIds_eq (engine : EngineSampling) {taskIds : List String}
    {derived : EvalSplit} (hok : deriveSampling engine.sampling taskIds = .ok derived)
    (hvalid : validateSamplingContract engine.configs derived = .ok ()) :
    engine.forTaskIds taskIds = .ok ⟨engine.configs, derived, hvalid⟩ := by
  rw [EngineSampling.forTaskIds, hok, ok_bind]
  exact EngineSampling.create_ok hvalid

theorem EngineSampling.forTaskSeed_eq (engine : EngineSampling) {taskId : String}
    {seedIndex : Nat} {derived : EvalSplit} (hlt : seedIndex < engine.sampling.seedPlan.numSeeds)
    (hok : deriveTaskSeedSampling engine.sampling taskId seedIndex = .ok derived)
    (hvalid : validateSamplingContract engine.configs derived = .ok ()) :
    engine.forTaskSeed taskId seedIndex = .ok ⟨engine.configs, derived, hvalid⟩ := by
  have hge : ¬ engine.sampling.seedPlan.numSeeds ≤ seedIndex := by omega
  simp only [EngineSampling.forTaskSeed, raiseIf_neg _ _ hge, ok_bind, hok]
  exact EngineSampling.create_ok hvalid

variable (h : AlignedSplit frame tasks taskHashes numSeeds rngSeeds source)
variable (hconfigs : configs.splitFor frame.splitRole = .ok source)
include h hconfigs

/-- Every call in range of an engine on a chain gives an engine on the chain. -/
theorem AlignedSplit.derive_onChain (engine : EngineSampling) (hengine : engine.configs = configs)
    (hs : OnChain tasks numSeeds source engine.sampling) (call : SamplingCall)
    (hrange : engine.InRange call) :
    ∃ next, engine.derive call = .ok next ∧ next.configs = configs ∧
      OnChain tasks numSeeds source next.sampling := by
  cases call with
  | forTaskIds taskIds =>
    obtain ⟨hne,hnodup,hsub⟩ := hrange
    obtain ⟨derived,hok,hon,_⟩ := h.onChain_narrow hs taskIds hne hnodup hsub
    have hvalid := h.onChain_valid hconfigs hon
    rw [← hengine] at hvalid
    exact ⟨_, engine.forTaskIds_eq hok hvalid, hengine, hon⟩
  | forTaskSeed taskId seedIndex =>
    obtain ⟨hknown,hlt⟩ := hrange
    obtain ⟨derived,hok,hon⟩ := h.onChain_trial hs taskId seedIndex hknown hlt
    have hvalid := h.onChain_valid hconfigs hon
    rw [← hengine] at hvalid
    exact ⟨_, engine.forTaskSeed_eq hlt hok hvalid, hengine, hon⟩

theorem AlignedSplit.derives_onChain (own : EngineSampling) (hown : own.configs = configs)
    (hsampling : own.sampling = source) {calls : List SamplingCall} {engine : EngineSampling}
    (hd : Derives own calls engine) :
    engine.configs = configs ∧ OnChain tasks numSeeds source engine.sampling := by
  induction hd with
  | refl =>
    rw [hsampling]
    exact ⟨hown, .canonical⟩
  | step call before range ok ih =>
    obtain ⟨next,hok,hnext⟩ := h.derive_onChain hconfigs _ ih.1 ih.2 call range
    rw [ok, Except.ok.injEq] at hok
    rw [hok]
    exact hnext

omit hconfigs in
/-- Narrowing calls alone never leave the narrowings of the split. -/
theorem AlignedSplit.derives_narrowed (own : EngineSampling) (hsampling : own.sampling = source)
    {calls : List SamplingCall} {engine : EngineSampling} (hd : Derives own calls engine)
    (hcalls : ∀ call ∈ calls, call.narrows = true) :
    engine.sampling = source ∨ ∃ taskIds, taskIds ≠ [] ∧ taskIds.Nodup ∧
      (∀ x ∈ taskIds, x ∈ tasks.map SamplingTask.taskId) ∧
      deriveSampling source taskIds = .ok engine.sampling := by
  induction hd with
  | refl => exact .inl hsampling
  | @step calls engine next call before range ok ih =>
    have hbefore := ih fun x hx => hcalls x (List.mem_append_left [call] hx)
    have hnarrows := hcalls call (by simp)
    cases call with
    | forTaskSeed taskId seedIndex => cases hnarrows
    | forTaskIds taskIds =>
      obtain ⟨hne,hnodup,hsub⟩ := range
      obtain ⟨derived,hderived,hcreate⟩ := (bind_eq_ok _ _ _).mp ok
      have hnext : next.sampling = derived := by
        unfold EngineSampling.create at hcreate
        split at hcreate
        · cases hcreate
          rfl
        · cases hcreate
      rw [hnext]
      rw [EngineSampling.taskIds] at hsub
      rcases hbefore with hsource | ⟨wide,hwne,hwnodup,hwide,hok⟩
      · rw [hsource] at hderived hsub
        rw [h.toFramedSplit.tasks_eq] at hsub
        exact .inr ⟨taskIds, hne, hnodup, hsub, hderived⟩
      · rw [(h.narrowed_taskIds wide hwne hwnodup hwide hok).1] at hsub
        refine .inr ⟨taskIds, hne, hnodup, fun x hx => hwide x (hsub hx), ?_⟩
        rw [← h.deriveSampling_of_narrowed wide taskIds hwne hwnodup hwide hok hne hnodup hsub]
        exact hderived

/-- Two narrowings in a row are the second one, as engines. -/
theorem AlignedSplit.forTaskIds_twice (engine : EngineSampling)
    (hengine : engine.configs = configs) (hs : OnChain tasks numSeeds source engine.sampling)
    (wide narrow : List String) (hwide : engine.InRange (.forTaskIds wide)) (hne : narrow ≠ [])
    (hnodup : narrow.Nodup) (hsub : narrow ⊆ wide) :
    (engine.forTaskIds wide >>= fun narrowed => narrowed.forTaskIds narrow) =
      engine.forTaskIds narrow := by
  obtain ⟨hwne,hwnodup,hwsub⟩ := hwide
  obtain ⟨derived,hok,hon,_,hagain⟩ := h.onChain_narrow hs wide hwne hwnodup hwsub
  obtain ⟨last,hlast,hlaston,_⟩ := h.onChain_narrow hs narrow hne hnodup
    fun x hx => hwsub (hsub hx)
  have hvalid := h.onChain_valid hconfigs hon
  have hlastValid := h.onChain_valid hconfigs hlaston
  rw [← hengine] at hvalid hlastValid
  have hsecond : deriveSampling derived narrow = .ok last := by
    rw [hagain narrow hne hnodup hsub, hlast]
  rw [engine.forTaskIds_eq hok hvalid, ok_bind, engine.forTaskIds_eq hlast hlastValid]
  exact EngineSampling.forTaskIds_eq ⟨engine.configs, derived, hvalid⟩ hsecond hlastValid

/-- A trial is the same engine from the split's own engine and from any narrowing of it. -/
theorem AlignedSplit.forTaskSeed_narrowed (own engine : EngineSampling)
    (hown : own.configs = configs) (hsampling : own.sampling = source)
    (hengine : engine.configs = configs) (taskIds : List String) (hne : taskIds ≠ [])
    (hnodup : taskIds.Nodup) (hknown : ∀ x ∈ taskIds, x ∈ tasks.map SamplingTask.taskId)
    (hok : deriveSampling source taskIds = .ok engine.sampling) (taskId : String) (seedIndex : Nat)
    (hrange : engine.InRange (.forTaskSeed taskId seedIndex)) :
    engine.forTaskSeed taskId seedIndex = own.forTaskSeed taskId seedIndex := by
  obtain ⟨hmem,hlt⟩ := hrange
  obtain ⟨hids,hseeds⟩ := h.narrowed_taskIds taskIds hne hnodup hknown hok
  rw [EngineSampling.taskIds, hids] at hmem
  rw [hseeds] at hlt
  obtain ⟨derived,_,hderived,_⟩ :=
    h.deriveTaskSeedSampling_ok taskId (hknown taskId hmem) seedIndex
  have hvalid := h.onChain_valid hconfigs
    (.trial taskId seedIndex (hknown taskId hmem) hlt hderived)
  have hnarrowed := h.deriveTaskSeed_of_narrowed taskIds hne hnodup hknown engine.sampling hok
    taskId hmem seedIndex hlt
  have hleft := engine.forTaskSeed_eq (by omega) (hnarrowed.trans hderived) (hengine ▸ hvalid)
  have hright := own.forTaskSeed_eq (by rw [hsampling, h.toFramedSplit.numSeeds_eq]; exact hlt)
    (hsampling ▸ hderived) (hown ▸ hvalid)
  rw [hleft, hright]
  simp [hengine, hown]

end Engines

/-- Derivation is closed and path-independent. From the engine of a split an experiment derives,
every chain of calls in range can be continued by every call in range; two narrowings in a row
are the second one; and after narrowings only, a trial is the trial of the split's own engine. -/
theorem sampling_derivation_closed (configs : EvalConfigs) (frame : SplitFrame)
    (tasks : List SamplingTask) (taskHashOf : SamplingTask → String) (numSeeds : Nat)
    (split : EvalSplit)
    (hsplit : deriveEvalSplit frame.namespaceName frame.datasetRevision frame.splitRole tasks
      taskHashOf frame.procedure frame.aggregation numSeeds = .ok split)
    (hconfigs : configs.splitFor frame.splitRole = .ok split) :
    ∃ own, EngineSampling.create configs split = .ok own ∧ own.sampling = split ∧
      ∀ calls engine, Derives own calls engine →
        (∀ call, engine.InRange call → ∃ next, engine.derive call = .ok next) ∧
        (∀ wide narrow, engine.InRange (.forTaskIds wide) → narrow ≠ [] → narrow.Nodup →
          narrow ⊆ wide →
          (engine.forTaskIds wide >>= fun narrowed => narrowed.forTaskIds narrow) =
            engine.forTaskIds narrow) ∧
        ((∀ call ∈ calls, call.narrows = true) → ∀ taskId seedIndex,
          engine.InRange (.forTaskSeed taskId seedIndex) →
          engine.forTaskSeed taskId seedIndex = own.forTaskSeed taskId seedIndex) := by
  have hframed := deriveEvalSplit_framed hsplit
  have h : AlignedSplit frame tasks (tasks.map taskHashOf) numSeeds [] split :=
    ⟨hframed, by rw [List.length_map]⟩
  have hvalid := h.onChain_valid hconfigs .canonical
  refine ⟨⟨configs, split, hvalid⟩, EngineSampling.create_ok hvalid, rfl, ?_⟩
  intro calls engine hd
  obtain ⟨hengine,hs⟩ := h.derives_onChain hconfigs _ rfl rfl hd
  refine ⟨?_, ?_, ?_⟩
  · intro call hrange
    obtain ⟨next,hok,_⟩ := h.derive_onChain hconfigs engine hengine hs call hrange
    exact ⟨next, hok⟩
  · intro wide narrow hwide hne hnodup hsub
    exact h.forTaskIds_twice hconfigs engine hengine hs wide narrow hwide hne hnodup hsub
  · intro hcalls taskId seedIndex hrange
    rcases h.derives_narrowed _ rfl hd hcalls with hsame | ⟨taskIds,hne,hnodup,hknown,hok⟩
    · cases engine
      cases hengine
      cases hsame
      rfl
    · exact h.forTaskSeed_narrowed hconfigs ⟨configs, split, hvalid⟩ engine rfl rfl hengine
        taskIds hne hnodup hknown hok taskId seedIndex hrange

end Derivation

section Solo

attribute [local instance] schemaHasher

def soloEngine : EngineSampling :=
  ⟨soloConfigs, soloSplit .internalEval soloHash, by decide +kernel⟩

/-- Non-vacuity: on the experiment of one task and two seeds, the second trial is the same engine
from the split's own engine and from the narrowing to its task. -/
theorem sampling_derivation_closed_solo :
    deriveEvalSplit "toy" "revision" .internalEval [soloTask] (fun _ => soloHash) default default
        2 = .ok (soloSplit .internalEval soloHash) ∧
      ∃ own narrowed trial : EngineSampling,
        EngineSampling.create soloConfigs (soloSplit .internalEval soloHash) = .ok own ∧
        own.forTaskIds ["task-a"] = .ok narrowed ∧ narrowed.forTaskSeed "task-a" 1 = .ok trial ∧
        own.forTaskSeed "task-a" 1 = .ok trial := by
  have hsplit : deriveEvalSplit "toy" "revision" .internalEval [soloTask] (fun _ => soloHash)
      default default 2 = .ok (soloSplit .internalEval soloHash) := by decide +kernel
  obtain ⟨own,hown,hsampling,hclosed⟩ := sampling_derivation_closed soloConfigs
    (soloFrame .internalEval) [soloTask] (fun _ => soloHash) 2 (soloSplit .internalEval soloHash)
    hsplit rfl
  have hsolo : own = soloEngine := by
    have hcreate : EngineSampling.create soloConfigs (soloSplit .internalEval soloHash) =
        .ok soloEngine := EngineSampling.create_ok soloEngine.valid
    rw [hcreate, Except.ok.injEq] at hown
    exact hown.symm
  have hwide : own.InRange (.forTaskIds ["task-a"]) := by
    refine ⟨by simp, by simp, ?_⟩
    rw [hsolo]
    decide
  obtain ⟨narrowed,hnarrowed⟩ := (hclosed [] own .refl).1 _ hwide
  have hd : Derives own [.forTaskIds ["task-a"]] narrowed := .step _ .refl hwide hnarrowed
  have hkept : (soloEngine.forTaskIds ["task-a"]).map
      (fun engine => (engine.taskIds, engine.sampling.seedPlan.numSeeds)) =
        .ok (["task-a"], 2) := by decide +kernel
  have hrange : narrowed.InRange (.forTaskSeed "task-a" 1) := by
    have hok : soloEngine.forTaskIds ["task-a"] = .ok narrowed := by
      rw [← hsolo]
      exact hnarrowed
    rw [hok] at hkept
    simp only [Except.map, Except.ok.injEq, Prod.mk.injEq] at hkept
    refine ⟨?_, ?_⟩
    · rw [hkept.1]
      simp
    · rw [hkept.2]
      omega
  obtain ⟨trial,htrial⟩ := (hclosed _ narrowed hd).1 _ hrange
  have hsame := (hclosed _ narrowed hd).2.2 (by simp [SamplingCall.narrows]) "task-a" 1 hrange
  exact ⟨hsplit, own, narrowed, trial, hown, hnarrowed, htrial, hsame.symm.trans htrial⟩

end Solo

end Whetstone.Eval
