import Whetstone.Eval.Config
import Whetstone.Lib.Text
import Mathlib.Data.List.Nodup

/-! Task sets and seed plans. A seed plan names every trial of every task; the seeds of the
trials are provenance and no part of its identity. -/
namespace Whetstone.Eval
open Whetstone.Core Whetstone.Lib

structure SelectionRule where
  kind : String
  params : List (String × String)
deriving DecidableEq, Inhabited

def validateSelector (taskHashes : List String) (selectionRule : Option SelectionRule) :
    Except String Unit := do
  raiseIf (taskHashes ≠ [] ↔ selectionRule.isSome = true)
    "TaskSet carries exactly one of task_hashes or selection_rule"
  raiseIf (¬ taskHashes.Nodup) "task_hashes must be unique"

structure TaskSet where
  manifestId : String
  version : String
  datasetRevision : String
  taskHashes : List String
  selectionRule : Option SelectionRule
  valid : validateSelector taskHashes selectionRule = .ok ()
deriving DecidableEq

def TaskSet.create (manifestId version datasetRevision : String) (taskHashes : List String) :
    Except String TaskSet :=
  match h : validateSelector taskHashes none with
  | .ok () => .ok ⟨manifestId, version, datasetRevision, taskHashes, none, h⟩
  | .error message => .error message

def selectorPayload (taskSet : TaskSet) : String × Json :=
  match taskSet.selectionRule with
  | some rule => ("selection_rule", .obj [("kind", .str rule.kind),
      ("params", .arr (rule.params.map fun pair => .arr [.str pair.1, .str pair.2]))])
  | none => ("task_hashes", .arr (taskSet.taskHashes.map .str))

def TaskSet.identityPayload (taskSet : TaskSet) : Json :=
  .obj [("manifest_id", .str taskSet.manifestId), ("version", .str taskSet.version),
    ("dataset_revision", .str taskSet.datasetRevision), selectorPayload taskSet]

def TaskSet.identityHash [IdentityHasher] (taskSet : TaskSet) : String :=
  identityHashFor schemaTaskSet taskSet.identityPayload

def slotKeys (taskHashes : List String) (numSeeds : Nat) : List String :=
  taskHashes.flatMap fun taskHash => (List.range numSeeds).map (keyed taskHash)

def unknownSlots (taskHashes : List String) (numSeeds : Nat) (rngSeeds : List (String × Int)) :
    List String :=
  ((rngSeeds.map Prod.fst).filter (· ∉ slotKeys taskHashes numSeeds)).mergeSort
    (fun a b => decide (a ≤ b))

def validateSlots (taskHashes : List String) (numSeeds : Nat) (rngSeeds : List (String × Int)) :
    Except String Unit := do
  raiseIf (numSeeds < 1) "num_seeds must be at least 1"
  raiseIf (taskHashes = []) "task_hashes must not be empty"
  raiseIf (¬ taskHashes.Nodup) "task_hashes must be unique"
  raiseIf (¬ (rngSeeds.map Prod.fst).Nodup) "repeat seed keys must be unique"
  raiseIf (∃ pair ∈ rngSeeds, pair.1 ∉ slotKeys taskHashes numSeeds)
    ("repeat seeds reference unknown slots: " ++
      ", ".intercalate (unknownSlots taskHashes numSeeds rngSeeds))

structure SeedPlan where
  planId : String
  version : String
  taskHashes : List String
  numSeeds : Nat
  rngSeeds : List (String × Int)
  valid : validateSlots taskHashes numSeeds rngSeeds = .ok ()
deriving DecidableEq

def SeedPlan.create (planId version : String) (taskHashes : List String) (numSeeds : Nat)
    (rngSeeds : List (String × Int)) : Except String SeedPlan :=
  match h : validateSlots taskHashes numSeeds rngSeeds with
  | .ok () => .ok ⟨planId, version, taskHashes, numSeeds, rngSeeds, h⟩
  | .error message => .error message

def SeedPlan.identityPayload (plan : SeedPlan) : Json :=
  .obj [("plan_id", .str plan.planId), ("version", .str plan.version),
    ("task_hashes", .arr (plan.taskHashes.map .str)), ("num_seeds", .int plan.numSeeds)]

def SeedPlan.identityHash [IdentityHasher] (plan : SeedPlan) : String :=
  identityHashFor schemaSeedPlan plan.identityPayload

structure TaskTrialProvenanceRow where
  taskHash : String
  seedIndex : Nat
  rngSeed : Option Int
deriving DecidableEq

/- What the loop over provenance rows has collected; `indices` has the keys of `taskOrder`. -/
structure Provenance where
  taskOrder : List String
  indices : Dict String (List Nat)
  seeds : Dict (String × Nat) Int

def Provenance.indicesOf (p : Provenance) (taskHash : String) : List Nat :=
  (p.indices.get? taskHash).getD []

def Provenance.addRow (p : Provenance) (row : TaskTrialProvenanceRow) :
    Except String Provenance := do
  raiseIf (row.seedIndex ∈ p.indicesOf row.taskHash)
    "duplicate (task_hash, seed_index) in provenance rows"
  return {
    taskOrder := if (p.indices.get? row.taskHash).isSome then p.taskOrder
      else p.taskOrder ++ [row.taskHash]
    indices := p.indices.set row.taskHash (p.indicesOf row.taskHash ++ [row.seedIndex])
    seeds := match row.rngSeed with
      | some seed => p.seeds.set (row.taskHash, row.seedIndex) seed
      | none => p.seeds }

def contiguousIndices (indices : List Nat) (numSeeds : Nat) : Bool :=
  decide (indices ⊆ List.range numSeeds ∧ List.range numSeeds ⊆ indices)

def Provenance.seedPairs (p : Provenance) (numSeeds : Nat) : List (String × Int) :=
  p.taskOrder.flatMap fun taskHash => (List.range numSeeds).filterMap fun index =>
    (p.seeds.get? (taskHash, index)).map fun seed => (keyed taskHash index, seed)

def seedPlanFromProvenance (rows : List TaskTrialProvenanceRow) (planId version : String) :
    Except String SeedPlan := do
  let p ← rows.foldlM Provenance.addRow ⟨[], Dict.empty, Dict.empty⟩
  raiseIf (p.taskOrder = []) "provenance rows are empty"
  let counts := p.taskOrder.map fun taskHash => (p.indicesOf taskHash).length
  let numSeeds := counts.headD 0
  raiseIf (∃ count ∈ counts, count ≠ numSeeds)
    "every task must have the same number of repeat slots"
  match p.taskOrder.find? fun taskHash => !contiguousIndices (p.indicesOf taskHash) numSeeds with
  | some taskHash => .error ("task '" ++ taskHash ++ "' repeat indices are not contiguous 0.." ++
      toString (numSeeds - 1))
  | none => SeedPlan.create planId version p.taskOrder numSeeds (p.seedPairs numSeeds)

/-! ### Plans that validate -/

theorem TaskSet.create_ok (manifestId version datasetRevision : String)
    (taskHashes : List String) (hne : taskHashes ≠ []) (hnodup : taskHashes.Nodup) :
    ∃ taskSet, TaskSet.create manifestId version datasetRevision taskHashes = .ok taskSet ∧
      taskSet.manifestId = manifestId ∧ taskSet.version = version ∧
      taskSet.datasetRevision = datasetRevision ∧ taskSet.taskHashes = taskHashes ∧
      taskSet.selectionRule = none := by
  have hvalid : validateSelector taskHashes none = .ok () := by
    simp [validateSelector, hne, hnodup]
  refine ⟨⟨manifestId, version, datasetRevision, taskHashes, none, hvalid⟩, ?_, rfl, rfl, rfl,
    rfl, rfl⟩
  unfold TaskSet.create
  split
  · rfl
  · rename_i message h
    rw [hvalid] at h
    cases h

theorem TaskSet.create_eq_ok {manifestId version datasetRevision : String}
    {taskHashes : List String} {taskSet : TaskSet}
    (h : TaskSet.create manifestId version datasetRevision taskHashes = .ok taskSet) :
    taskSet.manifestId = manifestId ∧ taskSet.version = version ∧
      taskSet.datasetRevision = datasetRevision ∧ taskSet.taskHashes = taskHashes ∧
      taskSet.selectionRule = none ∧ taskHashes ≠ [] ∧ taskHashes.Nodup := by
  unfold TaskSet.create at h
  split at h
  · rename_i hvalid
    cases h
    simp only [validateSelector, raiseIf_bind_eq_ok, raiseIf_eq_ok] at hvalid
    refine ⟨rfl, rfl, rfl, rfl, rfl, ?_, not_not.mp hvalid.2⟩
    intro hnil
    simp [hnil] at hvalid
  · cases h

theorem SeedPlan.create_ok (planId version : String) (taskHashes : List String) (numSeeds : Nat)
    (rngSeeds : List (String × Int)) (hseeds : 1 ≤ numSeeds) (hne : taskHashes ≠ [])
    (hnodup : taskHashes.Nodup) (hkeys : (rngSeeds.map Prod.fst).Nodup)
    (hknown : ∀ pair ∈ rngSeeds, pair.1 ∈ slotKeys taskHashes numSeeds) :
    ∃ plan, SeedPlan.create planId version taskHashes numSeeds rngSeeds = .ok plan ∧
      plan.planId = planId ∧ plan.version = version ∧ plan.taskHashes = taskHashes ∧
      plan.numSeeds = numSeeds ∧ plan.rngSeeds = rngSeeds := by
  have hvalid : validateSlots taskHashes numSeeds rngSeeds = .ok () := by
    simp only [validateSlots, raiseIf_bind_eq_ok, raiseIf_eq_ok]
    refine ⟨by omega, hne, not_not.mpr hnodup, not_not.mpr hkeys, ?_⟩
    intro hex
    obtain ⟨pair,hmem,hunknown⟩ := hex
    exact hunknown (hknown pair hmem)
  refine ⟨⟨planId, version, taskHashes, numSeeds, rngSeeds, hvalid⟩, ?_, rfl, rfl, rfl, rfl, rfl⟩
  unfold SeedPlan.create
  split
  · rfl
  · rename_i message h
    rw [hvalid] at h
    cases h

theorem SeedPlan.create_eq_ok {planId version : String} {taskHashes : List String}
    {numSeeds : Nat} {rngSeeds : List (String × Int)} {plan : SeedPlan}
    (h : SeedPlan.create planId version taskHashes numSeeds rngSeeds = .ok plan) :
    plan.planId = planId ∧ plan.version = version ∧ plan.taskHashes = taskHashes ∧
      plan.numSeeds = numSeeds ∧ plan.rngSeeds = rngSeeds := by
  unfold SeedPlan.create at h
  split at h
  · cases h
    exact ⟨rfl, rfl, rfl, rfl, rfl⟩
  · cases h

theorem SeedPlan.numSeeds_pos (plan : SeedPlan) : 1 ≤ plan.numSeeds := by
  have h := plan.valid
  simp only [validateSlots, raiseIf_bind_eq_ok] at h
  omega

/-! ### Provenance that fills a plan -/

/- One row for every task and seed index, in plan order. -/
def gridRows (taskHashes : List String) (numSeeds : Nat) (seed : String → Nat → Int) :
    List TaskTrialProvenanceRow :=
  taskHashes.flatMap fun taskHash => (List.range numSeeds).map fun index =>
    ⟨taskHash, index, some (seed taskHash index)⟩

def gridSeeds (taskHashes : List String) (numSeeds : Nat) (seed : String → Nat → Int) :
    List (String × Int) :=
  taskHashes.flatMap fun taskHash => (List.range numSeeds).map fun index =>
    (keyed taskHash index, seed taskHash index)

/-- The loop has read all rows of `before` and the first `count` rows of `current`. -/
structure Collected (seed : String → Nat → Int) (numSeeds : Nat) (before : List String)
    (current : String) (count : Nat) (p : Provenance) : Prop where
  order : p.taskOrder = if count = 0 then before else before ++ [current]
  indices : ∀ taskHash, p.indices.get? taskHash =
    if taskHash ∈ before then some (List.range numSeeds)
    else if taskHash = current ∧ 0 < count then some (List.range count) else none
  seeds : ∀ taskHash index, p.seeds.get? (taskHash, index) =
    if (taskHash ∈ before ∧ index < numSeeds) ∨ (taskHash = current ∧ index < count) then
      some (seed taskHash index) else none

variable {seed : String → Nat → Int} {numSeeds : Nat} {before : List String} {current : String}

theorem Collected.addRow {count : Nat} {p : Provenance}
    (h : Collected seed numSeeds before current count p) (hnew : current ∉ before) :
    ∃ p', p.addRow ⟨current, count, some (seed current count)⟩ = .ok p' ∧
      Collected seed numSeeds before current (count + 1) p' := by
  have hget := h.indices current
  rw [if_neg hnew] at hget
  have hindices : p.indicesOf current = List.range count := by
    unfold Provenance.indicesOf
    rw [hget]
    by_cases hc : 0 < count
    · simp [hc]
    · have h0 : count = 0 := by omega
      simp [h0]
  have hfresh : ¬ count ∈ p.indicesOf current := by simp [hindices]
  refine ⟨⟨if (p.indices.get? current).isSome then p.taskOrder else p.taskOrder ++ [current],
    p.indices.set current (p.indicesOf current ++ [count]),
    p.seeds.set (current, count) (seed current count)⟩, ?_, ?_, ?_, ?_⟩
  · simp only [Provenance.addRow, raiseIf_neg _ _ hfresh]
    rfl
  · rw [hget, h.order]
    by_cases hc : 0 < count
    · have h0 : count ≠ 0 := by omega
      simp [h0, hc]
    · have h0 : count = 0 := by omega
      simp [h0]
  · intro taskHash
    rw [Dict.get?_set, hindices, ← List.range_succ]
    by_cases hk : taskHash = current
    · rw [if_pos hk, hk, if_neg hnew]
      simp
    · rw [if_neg hk, h.indices taskHash]
      simp [hk]
  · intro taskHash index
    rw [Dict.get?_set, h.seeds taskHash index]
    by_cases hk : (taskHash, index) = (current, count)
    · cases hk
      simp
    · rw [if_neg hk]
      have hiff : (taskHash = current ∧ index < count + 1) ↔ (taskHash = current ∧ index < count) := by
        constructor
        · intro hx
          refine ⟨hx.1, ?_⟩
          have hne : index ≠ count := fun he => hk (by rw [hx.1, he])
          omega
        · intro hx
          exact ⟨hx.1, by omega⟩
      simp only [hiff]

theorem Collected.addRows {p : Provenance} (h : Collected seed numSeeds before current 0 p)
    (hnew : current ∉ before) (count : Nat) :
    ∃ p', ((List.range count).map fun index =>
        (⟨current, index, some (seed current index)⟩ : TaskTrialProvenanceRow)).foldlM
          Provenance.addRow p = .ok p' ∧ Collected seed numSeeds before current count p' := by
  induction count with
  | zero => exact ⟨p, rfl, h⟩
  | succ count ih =>
    obtain ⟨p1,hfold,hp1⟩ := ih
    obtain ⟨p2,hrow,hp2⟩ := hp1.addRow hnew
    refine ⟨p2, ?_, hp2⟩
    rw [List.range_succ, List.map_append, List.foldlM_append, hfold]
    simp only [ok_bind, List.map_cons, List.map_nil, List.foldlM_cons, List.foldlM_nil, hrow]
    rfl

/- A finished task joins those before it. -/
theorem Collected.next {p : Provenance} (h : Collected seed numSeeds before current numSeeds p)
    (hpos : 1 ≤ numSeeds) (following : String) :
    Collected seed numSeeds (before ++ [current]) following 0 p where
  order := by
    have h0 : numSeeds ≠ 0 := by omega
    rw [h.order, if_neg h0, if_pos rfl]
  indices := by
    intro taskHash
    rw [h.indices taskHash]
    have hlt : 0 < numSeeds := by omega
    by_cases hb : taskHash ∈ before
    · simp [hb]
    · by_cases hc : taskHash = current
      · simp [hc, hlt]
      · simp [hb, hc]
  seeds := by
    intro taskHash index
    rw [h.seeds taskHash index]
    by_cases hlt : index < numSeeds
    · simp [hlt]
    · simp [hlt]

theorem Collected.fold (rest : List String) (hpos : 1 ≤ numSeeds) (hnodup : (before ++ rest).Nodup)
    {p : Provenance} (h : ∀ following, Collected seed numSeeds before following 0 p) :
    ∃ p', (gridRows rest numSeeds seed).foldlM Provenance.addRow p = .ok p' ∧
      ∀ following, Collected seed numSeeds (before ++ rest) following 0 p' := by
  induction rest generalizing before p with
  | nil => exact ⟨p, rfl, by simpa using h⟩
  | cons taskHash rest ih =>
    have hnew : taskHash ∉ before := by
      intro hmem
      exact (List.nodup_append.mp hnodup).2.2 taskHash hmem taskHash List.mem_cons_self rfl
    obtain ⟨p1,hrows,hp1⟩ := (h taskHash).addRows hnew numSeeds
    have hassoc : before ++ taskHash :: rest = before ++ [taskHash] ++ rest := by simp
    rw [hassoc] at hnodup
    obtain ⟨p2,hrest,hp2⟩ := ih hnodup fun following => hp1.next hpos following
    refine ⟨p2, ?_, ?_⟩
    · rw [gridRows, List.flatMap_cons, List.foldlM_append, hrows]
      exact hrest
    · rw [hassoc]
      exact hp2

theorem gridSeeds_keys (taskHashes : List String) (numSeeds : Nat) (seed : String → Nat → Int) :
    (gridSeeds taskHashes numSeeds seed).map Prod.fst = slotKeys taskHashes numSeeds := by
  simp [gridSeeds, slotKeys, List.map_flatMap, Function.comp_def]

theorem slotKeys_nodup (taskHashes : List String) (numSeeds : Nat) (h : taskHashes.Nodup) :
    (slotKeys taskHashes numSeeds).Nodup := by
  rw [slotKeys, List.nodup_flatMap]
  constructor
  · intro taskHash _
    refine List.Nodup.map ?_ List.nodup_range
    intro i j hij
    exact ((keyed_inj taskHash taskHash i j).mp hij).2
  · refine List.Pairwise.imp ?_ h
    intro a b hab key ha hb
    obtain ⟨i,_,rfl⟩ := List.mem_map.mp ha
    obtain ⟨j,_,hj⟩ := List.mem_map.mp hb
    exact hab ((keyed_inj b a j i).mp hj).1.symm

theorem gridSeeds_create_ok (taskHashes : List String) (numSeeds : Nat)
    (seed : String → Nat → Int) (planId version : String) (hpos : 1 ≤ numSeeds)
    (hne : taskHashes ≠ []) (hnodup : taskHashes.Nodup) :
    ∃ plan, SeedPlan.create planId version taskHashes numSeeds
      (gridSeeds taskHashes numSeeds seed) = .ok plan := by
  have hkeys : ((gridSeeds taskHashes numSeeds seed).map Prod.fst).Nodup := by
    rw [gridSeeds_keys]
    exact slotKeys_nodup taskHashes numSeeds hnodup
  have hknown : ∀ pair ∈ gridSeeds taskHashes numSeeds seed,
      pair.1 ∈ slotKeys taskHashes numSeeds := by
    intro pair hmem
    rw [← gridSeeds_keys taskHashes numSeeds seed]
    exact List.mem_map_of_mem hmem
  obtain ⟨plan,hcreate,_⟩ := SeedPlan.create_ok planId version taskHashes numSeeds
    (gridSeeds taskHashes numSeeds seed) hpos hne hnodup hkeys hknown
  exact ⟨plan, hcreate⟩

/-- Provenance with one row per trial yields the plan of these tasks with these seeds. -/
theorem seedPlanFromProvenance_grid (taskHashes : List String) (numSeeds : Nat)
    (seed : String → Nat → Int) (planId version : String) (hpos : 1 ≤ numSeeds)
    (hne : taskHashes ≠ []) (hnodup : taskHashes.Nodup) :
    seedPlanFromProvenance (gridRows taskHashes numSeeds seed) planId version =
      SeedPlan.create planId version taskHashes numSeeds (gridSeeds taskHashes numSeeds seed) := by
  have hstart : ∀ following, Collected seed numSeeds [] following 0
      (⟨[], Dict.empty, Dict.empty⟩ : Provenance) :=
    fun following => ⟨rfl, fun _ => by simp, fun _ _ => by simp⟩
  obtain ⟨p,hfold,hp⟩ := Collected.fold taskHashes hpos (by simpa using hnodup) hstart
  have hcol := hp ""
  rw [List.nil_append] at hcol
  have horder : p.taskOrder = taskHashes := by simpa using hcol.order
  have hindices : ∀ taskHash ∈ taskHashes, p.indicesOf taskHash = List.range numSeeds := by
    intro taskHash hmem
    simp [Provenance.indicesOf, hcol.indices taskHash, hmem]
  have hcounts : (taskHashes.map fun taskHash => (p.indicesOf taskHash).length) =
      taskHashes.map fun _ => numSeeds := by
    apply List.map_congr_left
    intro taskHash hmem
    rw [hindices taskHash hmem, List.length_range]
  have hhead : (taskHashes.map fun _ => numSeeds).headD 0 = numSeeds := by
    cases taskHashes with
    | nil => exact absurd rfl hne
    | cons taskHash rest => rfl
  have hpairs : p.seedPairs numSeeds = gridSeeds taskHashes numSeeds seed := by
    rw [Provenance.seedPairs, horder, gridSeeds]
    apply List.flatMap_congr
    intro taskHash hmem
    rw [← List.filterMap_eq_map]
    apply List.filterMap_congr
    intro index hindex
    have hlt : index < numSeeds := List.mem_range.mp hindex
    simp [hcol.seeds taskHash index, hmem, hlt]
  have hfind : (taskHashes.find? fun taskHash =>
      !contiguousIndices (p.indicesOf taskHash) numSeeds) = none := by
    rw [List.find?_eq_none]
    intro taskHash hmem
    simp [contiguousIndices, hindices taskHash hmem]
  have hequal : ¬ ∃ count ∈ taskHashes.map fun _ => numSeeds, count ≠ numSeeds := by simp
  simp only [seedPlanFromProvenance, hfold, ok_bind, horder, hcounts, hhead, hfind, hpairs,
    raiseIf_neg _ _ hne, raiseIf_neg _ _ hequal]

/-- The seed a filled plan carries for a trial. -/
theorem get?_gridSeeds (taskHashes : List String) (numSeeds : Nat) (seed : String → Nat → Int)
    (hnodup : taskHashes.Nodup) (taskHash : String) (hmem : taskHash ∈ taskHashes) (index : Nat)
    (hindex : index < numSeeds) :
    (Dict.ofPairs (gridSeeds taskHashes numSeeds seed)).get? (keyed taskHash index) =
      some (seed taskHash index) := by
  apply Dict.get?_ofPairs_of_mem
  · rw [gridSeeds_keys]
    exact slotKeys_nodup taskHashes numSeeds hnodup
  · refine List.mem_flatMap.mpr ⟨taskHash, hmem, ?_⟩
    exact List.mem_map.mpr ⟨index, List.mem_range.mpr hindex, rfl⟩

end Whetstone.Eval
