import Whetstone.Eval.Plan
import Whetstone.Lib.FirstSeen
import Mathlib.Data.List.ProdSigma

/-! Seed plans from the rows of a finished evaluation. The rows come in any order; they fill a
plan exactly when they are a rectangle of tasks and seed indices. -/
namespace Whetstone.Eval
open Whetstone.Core Whetstone.Lib

structure TaskTrialId where
  taskHash : String
  seedIndex : Nat
  rngSeed : Option Int
deriving DecidableEq

structure TaskTrial where
  taskTrialId : TaskTrialId
deriving DecidableEq

def SeedPlan.taskTrials (plan : SeedPlan) : List TaskTrial :=
  let seeds := Dict.ofPairs plan.rngSeeds
  plan.taskHashes.flatMap fun taskHash => (List.range plan.numSeeds).map fun index =>
    ⟨⟨taskHash, index, seeds.get? (keyed taskHash index)⟩⟩

/- The provenance row of a trial. -/
def TaskTrial.row (trial : TaskTrial) : TaskTrialProvenanceRow :=
  ⟨trial.taskTrialId.taskHash, trial.taskTrialId.seedIndex, trial.taskTrialId.rngSeed⟩

def TaskTrialProvenanceRow.slot (row : TaskTrialProvenanceRow) : String × Nat :=
  (row.taskHash, row.seedIndex)

/-! ### What the loop collects -/

def indicesFor (rows : List TaskTrialProvenanceRow) (taskHash : String) : List Nat :=
  (rows.filter fun row => row.taskHash = taskHash).map TaskTrialProvenanceRow.seedIndex

theorem mem_indicesFor (rows : List TaskTrialProvenanceRow) (taskHash : String) (index : Nat) :
    index ∈ indicesFor rows taskHash ↔ (taskHash, index) ∈ rows.map TaskTrialProvenanceRow.slot := by
  simp only [indicesFor, List.mem_map, List.mem_filter, decide_eq_true_eq,
    TaskTrialProvenanceRow.slot, Prod.mk.injEq, and_assoc]

theorem indicesFor_absent (rows : List TaskTrialProvenanceRow) (taskHash : String)
    (h : taskHash ∉ rows.map TaskTrialProvenanceRow.taskHash) : indicesFor rows taskHash = [] := by
  rw [indicesFor, List.map_eq_nil_iff, List.filter_eq_nil_iff]
  intro row hrow
  rw [decide_eq_true_eq]
  exact fun hsame => h (hsame ▸ List.mem_map_of_mem hrow)

theorem indicesFor_append (rows : List TaskTrialProvenanceRow) (row : TaskTrialProvenanceRow)
    (taskHash : String) : indicesFor (rows ++ [row]) taskHash =
      if row.taskHash = taskHash then indicesFor rows taskHash ++ [row.seedIndex]
      else indicesFor rows taskHash := by
  rw [indicesFor, List.filter_append, List.map_append, ← indicesFor]
  by_cases h : row.taskHash = taskHash <;> simp [h]

/-- The loop has read `rows`. -/
structure Collects (rows : List TaskTrialProvenanceRow) (p : Provenance) : Prop where
  slots : (rows.map TaskTrialProvenanceRow.slot).Nodup
  order : p.taskOrder = firstSeen (rows.map TaskTrialProvenanceRow.taskHash)
  held : ∀ taskHash, (p.indices.get? taskHash).isSome = true ↔
    taskHash ∈ rows.map TaskTrialProvenanceRow.taskHash
  indices : ∀ taskHash, p.indicesOf taskHash = indicesFor rows taskHash
  seeds : ∀ taskHash index seed, p.seeds.get? (taskHash, index) = some seed ↔
    ⟨taskHash, index, some seed⟩ ∈ rows

namespace Collects
variable {rows : List TaskTrialProvenanceRow} {p : Provenance}

theorem addRow_new {row : TaskTrialProvenanceRow} {p' : Provenance} (h : Collects rows p)
    (hok : p.addRow row = .ok p') : row.slot ∉ rows.map TaskTrialProvenanceRow.slot := by
  rw [Provenance.addRow, raiseIf_bind_eq_ok, h.indices, mem_indicesFor] at hok
  exact hok.1

/-- A row in a new slot is collected. -/
theorem addRow {row : TaskTrialProvenanceRow} (h : Collects rows p)
    (hnew : row.slot ∉ rows.map TaskTrialProvenanceRow.slot) :
    ∃ p', p.addRow row = .ok p' ∧ Collects (rows ++ [row]) p' := by
  have hfree : ¬ row.seedIndex ∈ p.indicesOf row.taskHash := by
    rw [h.indices, mem_indicesFor]
    exact hnew
  rw [Provenance.addRow, raiseIf_neg _ _ hfree, ok_bind]
  refine ⟨_, rfl, ?_, ?_, ?_, ?_, ?_⟩
  · rw [List.map_append, List.map_cons, List.map_nil, ← List.concat_eq_append]
    exact List.Nodup.concat hnew h.slots
  · rw [List.map_append, List.map_cons, List.map_nil, firstSeen_append, ← h.order]
    have hmem : row.taskHash ∈ p.taskOrder ↔ (p.indices.get? row.taskHash).isSome = true := by
      rw [h.order, mem_firstSeen, h.held]
    by_cases hseen : (p.indices.get? row.taskHash).isSome = true
    · rw [if_pos hseen, if_pos (hmem.mpr hseen)]
    · rw [if_neg hseen, if_neg fun hp => hseen (hmem.mp hp)]
  · intro taskHash
    rw [List.map_append, List.mem_append, List.map_cons, List.map_nil, List.mem_singleton,
      Dict.get?_set]
    by_cases hown : taskHash = row.taskHash
    · simp [hown]
    · rw [if_neg hown, h.held]
      simp [hown]
  · intro taskHash
    rw [indicesFor_append, ← h.indices taskHash, Provenance.indicesOf, Dict.get?_set]
    by_cases hown : taskHash = row.taskHash
    · subst hown
      rw [if_pos rfl, if_pos rfl, Option.getD_some]
    · rw [if_neg hown, if_neg (Ne.symm hown), Provenance.indicesOf]
  · intro taskHash index seed
    rw [List.mem_append, List.mem_singleton, ← h.seeds taskHash index seed]
    have habsent : ∀ s, p.seeds.get? row.slot ≠ some s := by
      intro s hs
      exact hnew (List.mem_map.mpr ⟨_, (h.seeds _ _ s).mp hs, rfl⟩)
    obtain ⟨ownHash,ownIndex,ownSeed⟩ := row
    cases ownSeed with
    | none => simp
    | some own =>
      by_cases hown : (taskHash, index) = (ownHash, ownIndex)
      · cases hown
        have hnone := habsent seed
        simp only [TaskTrialProvenanceRow.slot] at hnone
        simp [hnone, eq_comm]
      · rw [Dict.get?_set, if_neg hown]
        have hrow : (⟨taskHash, index, some seed⟩ : TaskTrialProvenanceRow) ≠
            ⟨ownHash, ownIndex, some own⟩ := by
          intro he
          cases he
          exact hown rfl
        simp [hrow]

end Collects

theorem collects_nil : Collects [] ⟨[], Dict.empty, Dict.empty⟩ where
  slots := List.nodup_nil
  order := rfl
  held _ := by simp
  indices _ := rfl
  seeds _ _ _ := by simp

/-- The loop reads rows exactly when no slot repeats, and collects them. -/
theorem foldlM_addRow (rows : List TaskTrialProvenanceRow) :
    (∀ p, rows.foldlM Provenance.addRow ⟨[], Dict.empty, Dict.empty⟩ = .ok p → Collects rows p) ∧
      ((rows.map TaskTrialProvenanceRow.slot).Nodup →
        ∃ p, rows.foldlM Provenance.addRow ⟨[], Dict.empty, Dict.empty⟩ = .ok p) := by
  induction rows using List.reverseRecOn with
  | nil =>
    refine ⟨fun p hp => ?_, fun _ => ⟨_, rfl⟩⟩
    cases hp
    exact collects_nil
  | append_singleton rows row ih =>
    have hlast : ∀ p : Provenance, [row].foldlM Provenance.addRow p = p.addRow row := by
      intro p
      rw [List.foldlM_cons]
      cases p.addRow row <;> rfl
    simp only [List.foldlM_append, hlast]
    constructor
    · intro p hp
      obtain ⟨before,hbefore,hrow⟩ := (bind_eq_ok _ _ _).mp hp
      have hcollects := ih.1 before hbefore
      obtain ⟨p',hp',hnext⟩ := hcollects.addRow (hcollects.addRow_new hrow)
      rw [hrow] at hp'
      cases hp'
      exact hnext
    · intro hnodup
      rw [List.map_append, List.nodup_append] at hnodup
      obtain ⟨hfront,_,hdisjoint⟩ := hnodup
      obtain ⟨before,hbefore⟩ := ih.2 hfront
      have hnew : row.slot ∉ rows.map TaskTrialProvenanceRow.slot :=
        fun hmem => hdisjoint _ hmem _ (by simp) rfl
      obtain ⟨p,hp,_⟩ := (ih.1 before hbefore).addRow hnew
      exact ⟨p, (bind_eq_ok _ _ _).mpr ⟨before, hbefore, hp⟩⟩

/-! ### Rectangles -/

/-- One row for each of `n` seed indices of each task. -/
structure Rectangular (rows : List TaskTrialProvenanceRow) (n : Nat) : Prop where
  nonempty : rows ≠ []
  slots : (rows.map TaskTrialProvenanceRow.slot).Nodup
  contiguous : ∀ taskHash ∈ rows.map TaskTrialProvenanceRow.taskHash, ∀ index,
    (taskHash, index) ∈ rows.map TaskTrialProvenanceRow.slot ↔ index < n

variable {rows : List TaskTrialProvenanceRow} {p : Provenance} {n : Nat}

theorem indicesFor_nodup (h : (rows.map TaskTrialProvenanceRow.slot).Nodup) (taskHash : String) :
    (indicesFor rows taskHash).Nodup := by
  have hslots : (indicesFor rows taskHash).map (fun index => (taskHash, index)) =
      (rows.filter fun row => row.taskHash = taskHash).map TaskTrialProvenanceRow.slot := by
    rw [indicesFor, List.map_map]
    apply List.map_congr_left
    intro row hrow
    have hsame : row.taskHash = taskHash := of_decide_eq_true (List.mem_filter.mp hrow).2
    rw [Function.comp, TaskTrialProvenanceRow.slot, hsame]
  apply List.Nodup.of_map (fun index => (taskHash, index))
  rw [hslots]
  exact h.sublist (List.filter_sublist.map TaskTrialProvenanceRow.slot)

theorem contiguousIndices_iff (rows : List TaskTrialProvenanceRow) (n : Nat)
    (taskHash : String) : contiguousIndices (indicesFor rows taskHash) n = true ↔
      ∀ index, (taskHash, index) ∈ rows.map TaskTrialProvenanceRow.slot ↔ index < n := by
  simp only [contiguousIndices, decide_eq_true_eq, List.subset_def, mem_indicesFor, List.mem_range]
  exact ⟨fun hboth index => ⟨fun hm => hboth.1 hm, fun hlt => hboth.2 hlt⟩,
    fun hall => ⟨fun {index} => (hall index).mp, fun {index} => (hall index).mpr⟩⟩

theorem length_indicesFor (h : (rows.map TaskTrialProvenanceRow.slot).Nodup) {taskHash : String}
    (hall : ∀ index, (taskHash, index) ∈ rows.map TaskTrialProvenanceRow.slot ↔ index < n) :
    (indicesFor rows taskHash).length = n := by
  have hperm : (indicesFor rows taskHash).Perm (List.range n) := by
    rw [List.perm_ext_iff_of_nodup (indicesFor_nodup h taskHash) List.nodup_range]
    intro index
    rw [mem_indicesFor, hall, List.mem_range]
  rw [hperm.length_eq, List.length_range]

theorem Collects.mem_order (h : Collects rows p) (taskHash : String) :
    taskHash ∈ p.taskOrder ↔ taskHash ∈ rows.map TaskTrialProvenanceRow.taskHash := by
  rw [h.order, mem_firstSeen]

/-- The checks after the loop pass exactly on a rectangle, whose width they find. -/
theorem Collects.plan_eq (h : Collects rows p)
    (hfold : rows.foldlM Provenance.addRow ⟨[], Dict.empty, Dict.empty⟩ = .ok p)
    (hrect : Rectangular rows n) (planId version : String) :
    seedPlanFromProvenance rows planId version =
      SeedPlan.create planId version p.taskOrder n (p.seedPairs n) := by
  have hcounts : (p.taskOrder.map fun taskHash => (p.indicesOf taskHash).length) =
      p.taskOrder.map fun _ => n := by
    apply List.map_congr_left
    intro taskHash hmem
    rw [h.indices]
    exact length_indicesFor h.slots (hrect.contiguous taskHash ((h.mem_order taskHash).mp hmem))
  obtain ⟨row,hrow⟩ := List.exists_mem_of_ne_nil rows hrect.nonempty
  have hmem := (h.mem_order row.taskHash).mpr (List.mem_map_of_mem hrow)
  have hne : p.taskOrder ≠ [] := List.ne_nil_of_mem hmem
  have hhead : (p.taskOrder.map fun _ => n).headD 0 = n := by
    cases hp : p.taskOrder with
    | nil => exact absurd hp hne
    | cons taskHash rest => rfl
  have hequal : ¬ ∃ count ∈ p.taskOrder.map fun _ => n, count ≠ n := by simp
  have hfind : (p.taskOrder.find? fun taskHash =>
      !contiguousIndices (p.indicesOf taskHash) n) = none := by
    rw [List.find?_eq_none]
    intro taskHash hmem
    rw [h.indices, (contiguousIndices_iff rows _ taskHash).mpr
      (hrect.contiguous taskHash ((h.mem_order taskHash).mp hmem))]
    exact Bool.false_ne_true
  simp only [seedPlanFromProvenance, hfold, ok_bind, hcounts, hhead, hfind,
    raiseIf_neg _ _ hne, raiseIf_neg _ _ hequal]

theorem rectangular_of_ok {planId version : String} {plan : SeedPlan}
    (hok : seedPlanFromProvenance rows planId version = .ok plan) : ∃ n, Rectangular rows n := by
  rw [seedPlanFromProvenance, bind_eq_ok] at hok
  obtain ⟨p,hfold,hok⟩ := hok
  have h := (foldlM_addRow rows).1 p hfold
  rw [raiseIf_bind_eq_ok, raiseIf_bind_eq_ok] at hok
  obtain ⟨hne,_,hok⟩ := hok
  refine ⟨(p.taskOrder.map fun taskHash => (p.indicesOf taskHash).length).headD 0, ?_, h.slots, ?_⟩
  · rintro rfl
    exact hne h.order
  · intro taskHash hmem
    split at hok
    · cases hok
    · rename_i hfind
      have hcont := List.find?_eq_none.mp hfind taskHash ((h.mem_order taskHash).mpr hmem)
      rw [Bool.not_eq_true, Bool.not_eq_false', h.indices] at hcont
      exact (contiguousIndices_iff rows _ taskHash).mp hcont

/-! ### The slots of a plan -/

def slotsOf (taskHashes : List String) (n : Nat) : List (String × Nat) :=
  taskHashes.product (List.range n)

theorem mem_slotsOf (taskHashes : List String) (slot : String × Nat) :
    slot ∈ slotsOf taskHashes n ↔ slot.1 ∈ taskHashes ∧ slot.2 < n := by
  rw [← List.mem_range (m := slot.2)]
  exact List.mem_product

theorem slotsOf_nodup {taskHashes : List String} (h : taskHashes.Nodup) :
    (slotsOf taskHashes n).Nodup := h.product List.nodup_range

theorem slotKeys_eq (taskHashes : List String) (n : Nat) :
    slotKeys taskHashes n = (slotsOf taskHashes n).map fun slot => keyed slot.1 slot.2 := by
  rw [slotsOf, List.product, List.map_flatMap]
  simp only [List.map_map]
  rfl

theorem keyed_injective : Function.Injective fun slot : String × Nat => keyed slot.1 slot.2 := by
  rintro ⟨a,i⟩ ⟨b,j⟩ h
  obtain ⟨rfl,rfl⟩ := (keyed_inj a b i j).mp h
  rfl

/- The seeds that `seedOf` gives to the slots of a plan, in plan order. -/
def seedsInOrder (seedOf : String × Nat → Option Int) (slots : List (String × Nat)) :
    List (String × Int) :=
  slots.filterMap fun slot => (seedOf slot).map fun seed => (keyed slot.1 slot.2, seed)

theorem mem_seedsInOrder (seedOf : String × Nat → Option Int) (slots : List (String × Nat))
    (key : String) (seed : Int) : (key, seed) ∈ seedsInOrder seedOf slots ↔
      ∃ slot ∈ slots, seedOf slot = some seed ∧ keyed slot.1 slot.2 = key := by
  simp only [seedsInOrder, List.mem_filterMap, Option.map_eq_some_iff, Prod.mk.injEq]
  refine exists_congr fun slot => and_congr_right fun _ => ?_
  exact ⟨fun hex => hex.elim fun _ h => ⟨h.2.2 ▸ h.1, h.2.1⟩, fun h => ⟨seed, h.1, h.2, rfl⟩⟩

theorem seedsInOrder_sublist (seedOf : String × Nat → Option Int) (slots : List (String × Nat)) :
    ((seedsInOrder seedOf slots).map Prod.fst).Sublist
      (slots.map fun slot => keyed slot.1 slot.2) := by
  induction slots with
  | nil => exact List.Sublist.refl _
  | cons slot rest ih =>
    rw [seedsInOrder, List.filterMap_cons, List.map_cons]
    cases seedOf slot with
    | none => exact ih.cons _
    | some seed => exact ih.cons_cons _

theorem seedsInOrder_keys {taskHashes : List String} (h : taskHashes.Nodup)
    (seedOf : String × Nat → Option Int) :
    ((seedsInOrder seedOf (slotsOf taskHashes n)).map Prod.fst).Nodup :=
  ((slotsOf_nodup h).map keyed_injective).sublist (seedsInOrder_sublist seedOf _)

/-- A slot is read back with the seed that was written for it. -/
theorem get?_seedsInOrder {taskHashes : List String} (h : taskHashes.Nodup)
    (seedOf : String × Nat → Option Int) {slot : String × Nat}
    (hslot : slot ∈ slotsOf taskHashes n) :
    (Dict.ofPairs (seedsInOrder seedOf (slotsOf taskHashes n))).get? (keyed slot.1 slot.2) =
      seedOf slot := by
  have hkeys := seedsInOrder_keys h seedOf (n := n)
  apply Option.ext
  intro seed
  constructor
  · intro hget
    obtain ⟨other,_,hseed,hkey⟩ := (mem_seedsInOrder _ _ _ _).mp
      (Dict.mem_of_get?_ofPairs _ _ _ hget)
    rwa [keyed_injective hkey] at hseed
  · intro hseed
    exact Dict.get?_ofPairs_of_mem _ hkeys _ _ ((mem_seedsInOrder _ _ _ _).mpr
      ⟨slot, hslot, hseed, rfl⟩)

theorem seedPairs_eq (p : Provenance) (n : Nat) :
    p.seedPairs n = seedsInOrder p.seeds.get? (slotsOf p.taskOrder n) := by
  rw [seedsInOrder, slotsOf, List.product, List.filterMap_flatMap]
  simp only [List.filterMap_map]
  rfl

theorem taskTrials_rows (plan : SeedPlan) : plan.taskTrials.map TaskTrial.row =
    (slotsOf plan.taskHashes plan.numSeeds).map fun slot =>
      ⟨slot.1, slot.2, (Dict.ofPairs plan.rngSeeds).get? (keyed slot.1 slot.2)⟩ := by
  rw [SeedPlan.taskTrials, slotsOf, List.product, List.map_flatMap, List.map_flatMap]
  simp only [List.map_map]
  rfl

/-! ### Plans and their rows -/

theorem Rectangular.pos (h : Rectangular rows n) : 1 ≤ n := by
  obtain ⟨row,hrow⟩ := List.exists_mem_of_ne_nil rows h.nonempty
  have hlt := (h.contiguous row.taskHash (List.mem_map_of_mem hrow) row.seedIndex).mp
    (List.mem_map_of_mem hrow)
  omega

/- The slots of a rectangle are those of the plan with its tasks. -/
theorem Rectangular.mem_slots (h : Rectangular rows n) {taskHashes : List String}
    (htasks : ∀ taskHash, taskHash ∈ taskHashes ↔
      taskHash ∈ rows.map TaskTrialProvenanceRow.taskHash) (slot : String × Nat) :
    slot ∈ slotsOf taskHashes n ↔ slot ∈ rows.map TaskTrialProvenanceRow.slot := by
  rw [mem_slotsOf, htasks]
  constructor
  · intro hslot
    exact (h.contiguous slot.1 hslot.1 slot.2).mpr hslot.2
  · intro hslot
    obtain ⟨row,hrow,rfl⟩ := List.mem_map.mp hslot
    have htask : row.taskHash ∈ rows.map TaskTrialProvenanceRow.taskHash := List.mem_map_of_mem hrow
    exact ⟨htask, (h.contiguous _ htask _).mp hslot⟩

/-- The rows of a slot table that answers as the collected seeds do. -/
theorem Collects.rows_perm (h : Collects rows p) (hrect : Rectangular rows n) :
    ((slotsOf p.taskOrder n).map fun slot =>
      (⟨slot.1, slot.2, p.seeds.get? slot⟩ : TaskTrialProvenanceRow)).Perm rows := by
  have hnodup : p.taskOrder.Nodup := h.order ▸ firstSeen_nodup _
  have hslots := hrect.mem_slots h.mem_order
  have hleft : ((slotsOf p.taskOrder n).map fun slot =>
      (⟨slot.1, slot.2, p.seeds.get? slot⟩ : TaskTrialProvenanceRow)).Nodup := by
    refine (slotsOf_nodup hnodup).map ?_
    intro a b hab
    exact Prod.ext (congrArg TaskTrialProvenanceRow.taskHash hab)
      (congrArg TaskTrialProvenanceRow.seedIndex hab)
  rw [List.perm_ext_iff_of_nodup hleft (List.Nodup.of_map _ h.slots)]
  have hseed : ∀ row ∈ rows, p.seeds.get? row.slot = row.rngSeed := by
    intro row hrow
    apply Option.ext
    intro seed
    have hget := h.seeds row.taskHash row.seedIndex seed
    rw [TaskTrialProvenanceRow.slot, hget]
    constructor
    · intro hmem
      exact congrArg TaskTrialProvenanceRow.rngSeed
        (List.inj_on_of_nodup_map h.slots hrow hmem rfl)
    · intro hown
      rw [← hown]
      exact hrow
  intro row
  rw [List.mem_map]
  constructor
  · intro hex
    obtain ⟨slot,hslot,rfl⟩ := hex
    obtain ⟨row,hrow,rfl⟩ := List.mem_map.mp ((hslots slot).mp hslot)
    rw [hseed row hrow]
    exact hrow
  · intro hrow
    refine ⟨row.slot, (hslots _).mpr (List.mem_map_of_mem hrow), ?_⟩
    rw [hseed row hrow]
    rfl

/-- A rectangle has a plan, whose trials are its rows. -/
theorem plan_of_rectangular (hrect : Rectangular rows n) (planId version : String) :
    ∃ p plan, Collects rows p ∧ seedPlanFromProvenance rows planId version = .ok plan ∧
      plan.planId = planId ∧ plan.version = version ∧ plan.taskHashes = p.taskOrder ∧
      plan.numSeeds = n ∧ plan.rngSeeds = seedsInOrder p.seeds.get? (slotsOf p.taskOrder n) ∧
      (plan.taskTrials.map TaskTrial.row).Perm rows := by
  obtain ⟨p,hfold⟩ := (foldlM_addRow rows).2 hrect.slots
  have h := (foldlM_addRow rows).1 p hfold
  have hnodup : p.taskOrder.Nodup := h.order ▸ firstSeen_nodup _
  have hne : p.taskOrder ≠ [] := by
    obtain ⟨row,hrow⟩ := List.exists_mem_of_ne_nil rows hrect.nonempty
    exact List.ne_nil_of_mem ((h.mem_order row.taskHash).mpr (List.mem_map_of_mem hrow))
  have hknown : ∀ pair ∈ p.seedPairs n, pair.1 ∈ slotKeys p.taskOrder n := by
    intro pair hpair
    rw [seedPairs_eq] at hpair
    rw [slotKeys_eq]
    exact (seedsInOrder_sublist _ _).subset (List.mem_map_of_mem hpair)
  have hkeys : ((p.seedPairs n).map Prod.fst).Nodup := by
    rw [seedPairs_eq]
    exact seedsInOrder_keys hnodup _
  obtain ⟨plan,hcreate,hid,hversion,htasks,hseeds,hpairs⟩ := SeedPlan.create_ok planId version
    p.taskOrder n (p.seedPairs n) hrect.pos hne hnodup hkeys hknown
  rw [seedPairs_eq] at hpairs
  refine ⟨p, plan, h, ?_, hid, hversion, htasks, hseeds, hpairs, ?_⟩
  · rw [h.plan_eq hfold hrect, hcreate]
  · have hrows : plan.taskTrials.map TaskTrial.row = (slotsOf p.taskOrder n).map fun slot =>
        (⟨slot.1, slot.2, p.seeds.get? slot⟩ : TaskTrialProvenanceRow) := by
      rw [taskTrials_rows, htasks, hseeds, hpairs]
      apply List.map_congr_left
      intro slot hslot
      rw [get?_seedsInOrder hnodup _ hslot]
    rw [hrows]
    exact h.rows_perm hrect

/- What the validation of a plan says. -/
theorem SeedPlan.valid_spec (plan : SeedPlan) : plan.taskHashes ≠ [] ∧ plan.taskHashes.Nodup ∧
    (plan.rngSeeds.map Prod.fst).Nodup ∧
      ∀ pair ∈ plan.rngSeeds, pair.1 ∈ slotKeys plan.taskHashes plan.numSeeds := by
  have h := plan.valid
  simp only [validateSlots, raiseIf_bind_eq_ok, raiseIf_eq_ok, not_not] at h
  obtain ⟨_,hne,hnodup,hkeys,hknown⟩ := h
  refine ⟨hne, hnodup, hkeys, ?_⟩
  intro pair hpair
  by_contra hout
  exact hknown ⟨pair, hpair, hout⟩

theorem SeedPlan.rows_slots (plan : SeedPlan) :
    (plan.taskTrials.map TaskTrial.row).map TaskTrialProvenanceRow.slot =
      slotsOf plan.taskHashes plan.numSeeds := by
  rw [taskTrials_rows, List.map_map]
  exact List.map_id _

theorem SeedPlan.rows_order (plan : SeedPlan) :
    firstSeen ((plan.taskTrials.map TaskTrial.row).map TaskTrialProvenanceRow.taskHash) =
      plan.taskHashes := by
  have hblocks : (plan.taskTrials.map TaskTrial.row).map TaskTrialProvenanceRow.taskHash =
      plan.taskHashes.flatMap fun taskHash => (List.range plan.numSeeds).map fun _ => taskHash := by
    rw [taskTrials_rows, List.map_map, slotsOf, List.product, List.map_flatMap]
    simp only [List.map_map]
    rfl
  have hpos := plan.numSeeds_pos
  rw [hblocks]
  refine firstSeen_flatMap _ _ ?_ plan.valid_spec.2.1
  intro taskHash _
  constructor
  · rw [ne_eq, List.map_eq_nil_iff, List.range_eq_nil]
    omega
  · simp

theorem SeedPlan.rectangular (plan : SeedPlan) :
    Rectangular (plan.taskTrials.map TaskTrial.row) plan.numSeeds where
  nonempty := by
    intro hnil
    have horder := plan.rows_order
    rw [hnil] at horder
    exact plan.valid_spec.1 horder.symm
  slots := by
    rw [plan.rows_slots]
    exact slotsOf_nodup plan.valid_spec.2.1
  contiguous := by
    intro taskHash htask index
    rw [← mem_firstSeen, plan.rows_order] at htask
    rw [plan.rows_slots, mem_slotsOf]
    exact and_iff_right htask

/-- The trials of a plan give the plan back, with its seeds in plan order. -/
theorem SeedPlan.again (plan : SeedPlan) :
    ∃ again, seedPlanFromProvenance (plan.taskTrials.map TaskTrial.row) plan.planId plan.version =
        .ok again ∧ again.planId = plan.planId ∧ again.version = plan.version ∧
      again.taskHashes = plan.taskHashes ∧ again.numSeeds = plan.numSeeds ∧
      again.rngSeeds.Perm plan.rngSeeds ∧
      (again.rngSeeds.map Prod.fst).Sublist (slotKeys plan.taskHashes plan.numSeeds) := by
  obtain ⟨p,again,h,hok,hid,hversion,htasks,hseeds,hpairs,_⟩ :=
    plan_of_rectangular plan.rectangular plan.planId plan.version
  obtain ⟨_,hnodup,hkeys,hknown⟩ := plan.valid_spec
  have horder : p.taskOrder = plan.taskHashes := h.order.trans plan.rows_order
  rw [horder] at htasks hpairs
  refine ⟨again, hok, hid, hversion, htasks, hseeds, ?_, ?_⟩
  · have hsame : (again.rngSeeds.map Prod.fst).Nodup := by
      rw [hpairs]
      exact seedsInOrder_keys hnodup _
    rw [List.perm_ext_iff_of_nodup (List.Nodup.of_map _ hsame) (List.Nodup.of_map _ hkeys)]
    rintro ⟨key,seed⟩
    have hcollected : ∀ slot ∈ slotsOf plan.taskHashes plan.numSeeds,
        p.seeds.get? slot = some seed ↔ (keyed slot.1 slot.2, seed) ∈ plan.rngSeeds := by
      intro slot hslot
      rw [h.seeds slot.1 slot.2 seed, taskTrials_rows, List.mem_map]
      constructor
      · intro hex
        obtain ⟨other,_,hrow⟩ := hex
        simp only [TaskTrialProvenanceRow.mk.injEq] at hrow
        obtain ⟨hhash,hindex,hseed⟩ := hrow
        rw [hhash, hindex] at hseed
        exact Dict.mem_of_get?_ofPairs _ _ _ hseed
      · intro hmem
        exact ⟨slot, hslot, congrArg _ (Dict.get?_ofPairs_of_mem _ hkeys _ _ hmem)⟩
    rw [hpairs, mem_seedsInOrder]
    constructor
    · intro hex
      obtain ⟨slot,hslot,hseed,rfl⟩ := hex
      exact (hcollected slot hslot).mp hseed
    · intro hmem
      have hkey := hknown _ hmem
      rw [slotKeys_eq] at hkey
      obtain ⟨slot,hslot,rfl⟩ := List.mem_map.mp hkey
      exact ⟨slot, hslot, (hcollected slot hslot).mpr hmem, rfl⟩
  · rw [hpairs, slotKeys_eq]
    exact seedsInOrder_sublist _ _

/-- Provenance makes a plan exactly when it is a rectangle; the trials of the plan are then its
rows, and the trials of a plan make that plan. -/
theorem seedPlanFromProvenance_rectangular (rows : List TaskTrialProvenanceRow)
    (planId version : String) :
    ((∃ plan, seedPlanFromProvenance rows planId version = .ok plan) ↔
        ∃ n, Rectangular rows n) ∧
      (∀ plan, seedPlanFromProvenance rows planId version = .ok plan →
        plan.planId = planId ∧ plan.version = version ∧ Rectangular rows plan.numSeeds ∧
          plan.taskHashes = firstSeen (rows.map TaskTrialProvenanceRow.taskHash) ∧
          (plan.taskTrials.map TaskTrial.row).Perm rows) ∧
      ∀ plan : SeedPlan, ∃ again,
        seedPlanFromProvenance (plan.taskTrials.map TaskTrial.row) plan.planId plan.version =
            .ok again ∧ again.planId = plan.planId ∧ again.version = plan.version ∧
          again.taskHashes = plan.taskHashes ∧ again.numSeeds = plan.numSeeds ∧
          again.rngSeeds.Perm plan.rngSeeds ∧
          (again.rngSeeds.map Prod.fst).Sublist (slotKeys plan.taskHashes plan.numSeeds) := by
  refine ⟨⟨fun h => ?_, fun h => ?_⟩, ?_, SeedPlan.again⟩
  · obtain ⟨plan,hok⟩ := h
    exact rectangular_of_ok hok
  · obtain ⟨n,hrect⟩ := h
    obtain ⟨_,plan,_,hok,_⟩ := plan_of_rectangular hrect planId version
    exact ⟨plan, hok⟩
  · intro plan hok
    obtain ⟨n,hrect⟩ := rectangular_of_ok hok
    obtain ⟨p,plan',h,hok',hid,hversion,htasks,hseeds,_,htrials⟩ :=
      plan_of_rectangular hrect planId version
    rw [hok'] at hok
    cases hok
    exact ⟨hid, hversion, hseeds.symm ▸ hrect, htasks.trans h.order, htrials⟩

end Whetstone.Eval
