import Whetstone.Lib.OrderStatistics
import Whetstone.Lib.Raise
import Mathlib.Algebra.Order.Field.Rat
import Mathlib.Algebra.Order.Floor.Ring
import Mathlib.Data.Rat.Floor
import Mathlib.Tactic.Linarith
import Mathlib.Tactic.FieldSimp

/-! The paired bootstrap, in exact arithmetic: a percentile interval and a two-sided p-value read
from the same resamples. -/
namespace Whetstone.Eval.Analysis
open Whetstone.Lib

/-- `random.Random(seed)`: the value of its `call`-th `randrange(n)`. -/
class RandomSource where
  randrange : (seed : Int) → (call n : Nat) → Nat
  below : ∀ seed call n, 0 < n → randrange seed call n < n

def defaultResamples : Int := 10000

structure BootstrapCI where
  point : Rat
  low : Rat
  high : Rat
  level : Rat
  resamples : Int
  pValue : Rat
  degenerate : Bool
deriving DecidableEq

def BootstrapCI.delta (ci : BootstrapCI) : Rat := ci.point

def BootstrapCI.excludesZero (ci : BootstrapCI) : Bool := 0 < ci.low ∨ ci.high < 0

def twoSidedP (values : List Rat) (resamples : Int) : Except String Rat := do
  raiseIf (resamples < 1) "resamples must be at least 1"
  raiseIf (values = []) "a bootstrap p-value needs at least one resample"
  let n := values.length
  let atOrBelow := values.countP fun value => value ≤ 0
  let atOrAbove := values.countP fun value => 0 ≤ value
  let raw := 2 * ((min atOrBelow atOrAbove : Nat) : Rat) / n
  return min 1 (max (1 / resamples) raw)

def degenerateCi (point level : Rat) (resamples : Int) : BootstrapCI :=
  ⟨point, point, point, level, resamples, 1, true⟩

def mean (values : List Rat) : Except String Rat := do
  raiseIf (values = []) "mean of an empty sequence is undefined"
  return values.sum / values.length

/- `int(x)`, which truncates. -/
def truncated (x : Rat) : Int := x.num.tdiv x.den

/- `values[index]`; a negative index counts from the end. -/
def indexed (values : List Rat) (index : Int) : Except String Rat :=
  let position := if index < 0 then index + values.length else index
  if position < 0 then .error "list index out of range"
  else match values[position.toNat]? with
    | some value => .ok value
    | none => .error "list index out of range"

def tailOf (level : Rat) : Rat := (1 - level) / 2

def lowIndex (level : Rat) (resamples : Int) : Int := max 0 (truncated (tailOf level * resamples))

def highIndex (level : Rat) (resamples : Int) : Int :=
  min (resamples - 1) (truncated ((1 - tailOf level) * resamples))

def sortedValues (values : List Rat) : List Rat := values.mergeSort fun x y => decide (x ≤ y)

/- The values come back sorted: `values.sort()` works in place. -/
def percentileBounds (values : List Rat) (level : Rat) (resamples : Int) :
    Except String (List Rat × Rat × Rat) := do
  let values := sortedValues values
  let low ← indexed values (lowIndex level resamples)
  let high ← indexed values (highIndex level resamples)
  return (values, low, high)

def validateInterval (level : Rat) (resamples : Int) : Except String Unit := do
  raiseIf (¬ (0 < level ∧ level < 1)) "level must be in (0, 1)"
  raiseIf (resamples < 1) "resamples must be at least 1"

section Resamples
variable [RandomSource]

def resampleIndices (n : Nat) (resamples seed : Int) : Except String (List (List Nat)) := do
  raiseIf (n = 0) "bootstrap requires at least one task"
  raiseIf (resamples < 1) "resamples must be at least 1"
  return (List.range resamples.toNat).map fun draw => (List.range n).map fun i =>
    RandomSource.randrange seed (draw * n + i) n

/- `sum(per_task[i] for i in idx) / n` -/
def resampledMean (perTask : List Rat) (n : Nat) (idx : List Nat) : Rat :=
  (idx.map fun i => perTask.getD i 0).sum / n

def bootstrapPairedDeltaCi (aPerTask bPerTask : List Rat) (level : Rat) (resamples seed : Int) :
    Except String BootstrapCI := do
  validateInterval level resamples
  raiseIf (aPerTask.length ≠ bPerTask.length)
    "paired bootstrap requires aligned per-task score vectors"
  raiseIf (aPerTask = []) "bootstrap requires at least one task"
  let n := aPerTask.length
  let bMean ← mean bPerTask
  let aMean ← mean aPerTask
  let point := bMean - aMean
  if n = 1 then return degenerateCi point level resamples
  else
    let draws ← resampleIndices n resamples seed
    let deltas := draws.map fun idx => resampledMean bPerTask n idx - resampledMean aPerTask n idx
    let (sorted, low, high) ← percentileBounds deltas level resamples
    let pValue ← twoSidedP sorted resamples
    return ⟨point, low, high, level, resamples, pValue, false⟩

end Resamples

/-! ### The order-statistic indices -/

theorem truncated_bounds {x : Rat} (h : 0 ≤ x) :
    0 ≤ truncated x ∧ (truncated x : Rat) ≤ x ∧ x < truncated x + 1 := by
  have hfloor : truncated x = ⌊x⌋ := by
    rw [truncated, Int.tdiv_eq_ediv_of_nonneg (Rat.num_nonneg.mpr h), Rat.floor_def']
  rw [hfloor]
  exact ⟨Int.floor_nonneg.mpr h, Int.floor_le x, Int.lt_floor_add_one x⟩

theorem tail_bounds {level : Rat} (h : 0 < level ∧ level < 1) {resamples : Int}
    (hr : 1 ≤ resamples) :
    0 < tailOf level * resamples ∧ tailOf level * resamples < (resamples : Rat) / 2 := by
  have hr' : (1 : Rat) ≤ resamples := by exact_mod_cast hr
  have hpos : (0 : Rat) < resamples := by linarith
  have htail : 0 < tailOf level ∧ tailOf level < 1 / 2 := by
    unfold tailOf
    constructor <;> linarith [h.1, h.2]
  have hhalf := mul_lt_mul_of_pos_right htail.2 hpos
  exact ⟨mul_pos htail.1 hpos, by linarith⟩

/-- Where the two bounds stand. `tailOf level * resamples` resamples lie beyond each; the upper
index is that of the last resample when truncation would leave the list. -/
theorem index_bounds {level : Rat} (h : 0 < level ∧ level < 1) {resamples : Int}
    (hr : 1 ≤ resamples) :
    0 ≤ lowIndex level resamples ∧ lowIndex level resamples ≤ highIndex level resamples ∧
      highIndex level resamples < resamples ∧
      (lowIndex level resamples : Rat) ≤ tailOf level * resamples ∧
      tailOf level * resamples < lowIndex level resamples + 1 ∧
      (highIndex level resamples : Rat) ≤ resamples - tailOf level * resamples ∧
      (resamples - tailOf level * resamples < (highIndex level resamples : Rat) + 1 ∨
        highIndex level resamples = resamples - 1) := by
  obtain ⟨hpos,hhalf⟩ := tail_bounds h hr
  have hr' : (1 : Rat) ≤ resamples := by exact_mod_cast hr
  obtain ⟨hl0,hl1,hl2⟩ := truncated_bounds hpos.le
  have hupper : (1 - tailOf level) * resamples = resamples - tailOf level * resamples := by ring
  have hupper0 : 0 ≤ (1 - tailOf level) * (resamples : Rat) := by
    rw [hupper]
    linarith
  obtain ⟨hu0,hu1,hu2⟩ := truncated_bounds hupper0
  rw [hupper] at hu1 hu2
  have hlow : lowIndex level resamples = truncated (tailOf level * resamples) := max_eq_right hl0
  have hinside : truncated (tailOf level * resamples) ≤ resamples - 1 := by
    have hlt : (truncated (tailOf level * resamples) : Rat) < resamples := by linarith
    have : truncated (tailOf level * resamples) < resamples := by exact_mod_cast hlt
    omega
  have hbelow : truncated (tailOf level * resamples) ≤
      truncated ((1 - tailOf level) * resamples) := by
    have hlt : (truncated (tailOf level * resamples) : Rat) <
        truncated ((1 - tailOf level) * resamples) + 1 := by
      rw [hupper]
      linarith
    have : truncated (tailOf level * resamples) <
        truncated ((1 - tailOf level) * resamples) + 1 := by exact_mod_cast hlt
    omega
  rw [hupper] at hbelow
  rw [hlow, highIndex, hupper]
  refine ⟨hl0, le_min hinside hbelow, ?_, hl1, hl2, ?_, ?_⟩
  · exact lt_of_le_of_lt (min_le_left _ _) (by omega)
  · have hmin : ((min (resamples - 1) (truncated (resamples - tailOf level * resamples)) : Int) :
        Rat) ≤ truncated (resamples - tailOf level * resamples) := by
      exact_mod_cast min_le_right _ _
    linarith
  · by_cases hcut : truncated (resamples - tailOf level * resamples) ≤ resamples - 1
    · rw [min_eq_right hcut]
      exact .inl hu2
    · exact .inr (min_eq_left (by omega))

/-! ### Reading the resamples -/

theorem sortedValues_perm (values : List Rat) : (sortedValues values).Perm values :=
  List.mergeSort_perm _ _

theorem sortedValues_sorted (values : List Rat) : (sortedValues values).Pairwise (· ≤ ·) := by
  have hsorted := @List.pairwise_mergeSort Rat (fun x y => decide (x ≤ y))
    (fun a b c hab hbc => decide_eq_true ((of_decide_eq_true hab).trans (of_decide_eq_true hbc)))
    (fun a b => by simpa using le_total a b) values
  exact hsorted.imp of_decide_eq_true

theorem indexed_ok {values : List Rat} {index : Int} (h0 : 0 ≤ index)
    (hlt : index < values.length) :
    ∃ value, indexed values index = .ok value ∧ values[index.toNat]? = some value := by
  have hpos : index.toNat < values.length := by omega
  have hget := List.getElem?_eq_getElem hpos
  refine ⟨_, ?_, hget⟩
  simp only [indexed, if_neg (not_lt.mpr h0), hget]

/- The p-value of resamples, `2 * min(…) / n` clamped. -/
def clampedP (values : List Rat) (resamples : Int) : Rat :=
  min 1 (max (1 / resamples) (2 * ((min (values.countP fun value => value ≤ 0)
    (values.countP fun value => 0 ≤ value) : Nat) : Rat) / values.length))

theorem twoSidedP_ok {values : List Rat} {resamples : Int} (hne : values ≠ [])
    (hr : 1 ≤ resamples) : twoSidedP values resamples = .ok (clampedP values resamples) := by
  rw [twoSidedP, raiseIf_neg _ _ (by omega), ok_bind, raiseIf_neg _ _ hne, ok_bind]
  rfl

theorem clampedP_bounds (values : List Rat) {resamples : Int} (hr : 1 ≤ resamples) :
    1 / (resamples : Rat) ≤ clampedP values resamples ∧ clampedP values resamples ≤ 1 := by
  have hr' : (1 : Rat) ≤ resamples := by exact_mod_cast hr
  have hone : 1 / (resamples : Rat) ≤ 1 := by
    rw [div_le_one (by linarith)]
    exact hr'
  exact ⟨le_min hone (le_max_left _ _), min_le_left _ _⟩

/-- A p-value below a level counts fewer resamples on one side than the tail holds, and one that
counts no more than the tail is at most the level. -/
theorem clampedP_lt {values : List Rat} {resamples : Int}
    (hlength : (values.length : Int) = resamples) (hr : 1 ≤ resamples) {level : Rat} (h : 0 < level ∧ level < 1) :
    (clampedP values resamples < 1 - level →
      ((values.countP fun value => value ≤ 0 : Nat) : Rat) < tailOf level * resamples ∨
        ((values.countP fun value => 0 ≤ value : Nat) : Rat) < tailOf level * resamples) ∧
      (((values.countP fun value => value ≤ 0 : Nat) : Rat) ≤ tailOf level * resamples ∨
        ((values.countP fun value => 0 ≤ value : Nat) : Rat) ≤ tailOf level * resamples →
          clampedP values resamples ≤ max (1 / (resamples : Rat)) (1 - level)) := by
  have hr' : (0 : Rat) < resamples := by exact_mod_cast (by omega : 0 < resamples)
  have hcast : (values.length : Rat) = resamples := by exact_mod_cast hlength
  have htwice : 2 * (tailOf level * (resamples : Rat)) = (1 - level) * resamples := by
    unfold tailOf
    ring
  generalize hraw : ((min (values.countP fun value => value ≤ 0)
    (values.countP fun value => 0 ≤ value) : Nat) : Rat) = least
  have hleast : least = min ((values.countP fun value => value ≤ 0 : Nat) : Rat)
      ((values.countP fun value => 0 ≤ value : Nat) : Rat) := by
    rw [← hraw]
    exact Nat.cast_min _ _
  rw [clampedP, hraw, hcast]
  constructor
  · intro hlt
    rw [min_lt_iff, max_lt_iff] at hlt
    have hbelow := (hlt.resolve_left (by linarith [h.1])).2
    rw [div_lt_iff₀ hr', ← htwice] at hbelow
    have hsome : least < tailOf level * resamples := by linarith
    rwa [hleast, min_lt_iff] at hsome
  · intro hle
    have hsome : least ≤ tailOf level * resamples := by
      rw [hleast, min_le_iff]
      exact hle
    have hbelow : 2 * least / resamples ≤ 1 - level := by
      rw [div_le_iff₀ hr', ← htwice]
      linarith
    exact (min_le_right _ _).trans (max_le_max_left _ hbelow)

/-- The interval and the p-value of the same resamples. -/
theorem reading_ok {values : List Rat} {resamples : Int}
    (hlength : (values.length : Int) = resamples) (hr : 1 ≤ resamples) {level : Rat}
    (h : 0 < level ∧ level < 1) :
    ∃ low high, percentileBounds values level resamples = .ok (sortedValues values, low, high) ∧
      twoSidedP (sortedValues values) resamples =
        .ok (clampedP (sortedValues values) resamples) ∧
      low ∈ values ∧ high ∈ values ∧ low ≤ high ∧
      (clampedP (sortedValues values) resamples < 1 - level → 0 < low ∨ high < 0) ∧
      (0 < low ∨ high < 0 →
        clampedP (sortedValues values) resamples ≤ max (1 / (resamples : Rat)) (1 - level)) := by
  have hperm := sortedValues_perm values
  have hsorted := sortedValues_sorted values
  have hlen : ((sortedValues values).length : Int) = resamples := by rw [hperm.length_eq, hlength]
  obtain ⟨h0,hlh,hhr,hl1,hl2,hh1,hh2⟩ := index_bounds h hr
  obtain ⟨low,hlow,hgetl⟩ := @indexed_ok (sortedValues values) _ h0 (by omega)
  obtain ⟨high,hhigh,hgeth⟩ := @indexed_ok (sortedValues values) _ (h0.trans hlh) (by omega)
  have hne : sortedValues values ≠ [] := by
    intro hnil
    rw [hnil] at hlen
    simp at hlen
    omega
  have hbelow := lt_get_iff hsorted hgetl 0
  have habove := get_lt_iff hsorted hgeth 0
  obtain ⟨hlt,hle⟩ := clampedP_lt hlen hr h
  refine ⟨low, high, ?_, twoSidedP_ok hne hr, hperm.mem_iff.mp (List.mem_of_getElem? hgetl),
    hperm.mem_iff.mp (List.mem_of_getElem? hgeth), sorted_get hsorted hgetl hgeth (by omega), ?_, ?_⟩
  · rw [percentileBounds, hlow, ok_bind, hhigh, ok_bind]
    rfl
  · intro hp
    cases hlt hp with
    | inl hfew =>
      refine .inl (hbelow.mpr ?_)
      have hcount : (((sortedValues values).countP fun w => w ≤ 0 : Nat) : Rat) <
          lowIndex level resamples + 1 := hfew.trans hl2
      have : (((sortedValues values).countP fun w => w ≤ 0 : Nat) : Int) <
          lowIndex level resamples + 1 := by exact_mod_cast hcount
      omega
    | inr hfew =>
      refine .inr (habove.mpr ?_)
      have hcount : (highIndex level resamples : Rat) +
          (((sortedValues values).countP fun w => 0 ≤ w : Nat) : Rat) < resamples := by linarith
      have : highIndex level resamples +
          (((sortedValues values).countP fun w => 0 ≤ w : Nat) : Int) < resamples := by
        exact_mod_cast hcount
      omega
  · intro hexcludes
    apply hle
    cases hexcludes with
    | inl hpos =>
      have hcount := hbelow.mp hpos
      have : (((sortedValues values).countP fun w => w ≤ 0 : Nat) : Int) ≤
          lowIndex level resamples := by omega
      have hcast : (((sortedValues values).countP fun w => w ≤ 0 : Nat) : Rat) ≤
          lowIndex level resamples := by exact_mod_cast this
      exact .inl (hcast.trans hl1)
    | inr hneg =>
      have hcount := habove.mp hneg
      have hint : highIndex level resamples +
          (((sortedValues values).countP fun w => 0 ≤ w : Nat) : Int) ≤ resamples - 1 := by omega
      have hcast : (highIndex level resamples : Rat) +
          (((sortedValues values).countP fun w => 0 ≤ w : Nat) : Rat) ≤ resamples - 1 := by
        exact_mod_cast hint
      refine .inr ?_
      cases hh2 with
      | inl hcut => linarith
      | inr hlast =>
        have htail := (tail_bounds h hr).1
        have hnone : (((sortedValues values).countP fun w => 0 ≤ w : Nat) : Int) ≤ 0 := by omega
        have hcast' : (((sortedValues values).countP fun w => 0 ≤ w : Nat) : Rat) ≤ 0 := by
          exact_mod_cast hnone
        linarith

/-! ### Resampled deltas -/

/- The delta of each task. -/
def taskDeltas (aPerTask bPerTask : List Rat) : List Rat :=
  (bPerTask.zip aPerTask).map fun pair => pair.1 - pair.2

theorem taskDeltas_ne_nil {aPerTask bPerTask : List Rat} (hlength : aPerTask.length = bPerTask.length)
    (hne : aPerTask ≠ []) : taskDeltas aPerTask bPerTask ≠ [] := by
  intro hnil
  have hzero := congrArg List.length hnil
  rw [taskDeltas, List.length_map, List.length_zip, List.length_nil, ← hlength, min_self] at hzero
  exact hne (List.length_eq_zero_iff.mp hzero)

theorem mem_taskDeltas {aPerTask bPerTask : List Rat} (hlength : aPerTask.length = bPerTask.length)
    {i : Nat} (hi : i < aPerTask.length) :
    bPerTask.getD i 0 - aPerTask.getD i 0 ∈ taskDeltas aPerTask bPerTask := by
  have hb : i < bPerTask.length := hlength ▸ hi
  have hmem : (bPerTask[i], aPerTask[i]) ∈ bPerTask.zip aPerTask := by
    rw [List.mem_iff_getElem?]
    exact ⟨i, List.getElem?_zip_eq_some.mpr
      ⟨List.getElem?_eq_getElem hb, List.getElem?_eq_getElem hi⟩⟩
  rw [List.getD_eq_getElem?_getD, List.getD_eq_getElem?_getD, List.getElem?_eq_getElem hb,
    List.getElem?_eq_getElem hi]
  exact List.mem_map_of_mem hmem

/-- A resampled delta is a mean of task deltas. -/
theorem resampled_between {aPerTask bPerTask : List Rat}
    (hlength : aPerTask.length = bPerTask.length) {idx : List Nat}
    (hidx : idx.length = aPerTask.length) (hpos : 0 < aPerTask.length)
    (hrange : ∀ i ∈ idx, i < aPerTask.length) {lo hi : Rat}
    (hbounds : ∀ d ∈ taskDeltas aPerTask bPerTask, lo ≤ d ∧ d ≤ hi) :
    lo ≤ resampledMean bPerTask aPerTask.length idx - resampledMean aPerTask aPerTask.length idx ∧
      resampledMean bPerTask aPerTask.length idx - resampledMean aPerTask aPerTask.length idx ≤
        hi := by
  have hsums : ∀ l : List Nat, (∀ i ∈ l, i < aPerTask.length) →
      lo * l.length ≤ (l.map fun i => bPerTask.getD i 0).sum - (l.map fun i => aPerTask.getD i 0).sum ∧
        (l.map fun i => bPerTask.getD i 0).sum - (l.map fun i => aPerTask.getD i 0).sum ≤
          hi * l.length := by
    intro l hl
    induction l with
    | nil => simp
    | cons i rest ih =>
      obtain ⟨hi0,hrest⟩ := List.forall_mem_cons.mp hl
      obtain ⟨h1,h2⟩ := ih hrest
      obtain ⟨h3,h4⟩ := hbounds _ (mem_taskDeltas hlength hi0)
      simp only [List.map_cons, List.sum_cons, List.length_cons, Nat.cast_add, Nat.cast_one]
      constructor <;> linarith
  obtain ⟨h1,h2⟩ := hsums idx hrange
  have hn : (0 : Rat) < aPerTask.length := Nat.cast_pos.mpr hpos
  rw [hidx] at h1 h2
  unfold resampledMean
  rw [← sub_div, le_div_iff₀ hn, div_le_iff₀ hn]
  exact ⟨h1, h2⟩

theorem exists_extremes {values : List Rat} (hne : values ≠ []) :
    ∃ lo ∈ values, ∃ hi ∈ values, ∀ d ∈ values, lo ≤ d ∧ d ≤ hi := by
  induction values with
  | nil => exact absurd rfl hne
  | cons v rest ih =>
    by_cases hrest : rest = []
    · subst hrest
      refine ⟨v, List.mem_cons_self, v, List.mem_cons_self, ?_⟩
      intro d hd
      rw [List.mem_singleton.mp hd]
      exact ⟨le_rfl, le_rfl⟩
    · obtain ⟨lo,hlo,hi,hhi,hall⟩ := ih hrest
      have hmin : min v lo ∈ v :: rest := by
        rcases min_choice v lo with h | h <;> rw [h]
        · exact List.mem_cons_self
        · exact List.mem_cons_of_mem _ hlo
      have hmax : max v hi ∈ v :: rest := by
        rcases max_choice v hi with h | h <;> rw [h]
        · exact List.mem_cons_self
        · exact List.mem_cons_of_mem _ hhi
      refine ⟨_, hmin, _, hmax, List.forall_mem_cons.mpr ⟨⟨min_le_left _ _, le_max_left _ _⟩, ?_⟩⟩
      intro d hd
      exact ⟨(min_le_right _ _).trans (hall d hd).1, (hall d hd).2.trans (le_max_right _ _)⟩

section Reading
variable [RandomSource]

theorem resampleIndices_ok {n : Nat} (hn : 0 < n) {resamples : Int} (hr : 1 ≤ resamples)
    (seed : Int) : ∃ draws, resampleIndices n resamples seed = .ok draws ∧
      (draws.length : Int) = resamples ∧
      ∀ idx ∈ draws, idx.length = n ∧ ∀ i ∈ idx, i < n := by
  have hok : resampleIndices n resamples seed = .ok ((List.range resamples.toNat).map fun draw =>
      (List.range n).map fun i => RandomSource.randrange seed (draw * n + i) n) := by
    rw [resampleIndices, raiseIf_neg _ _ (by omega), ok_bind, raiseIf_neg _ _ (by omega), ok_bind]
    rfl
  refine ⟨_, hok, ?_, ?_⟩
  · rw [List.length_map, List.length_range]
    omega
  · intro idx hidx
    obtain ⟨draw,_,rfl⟩ := List.mem_map.mp hidx
    refine ⟨by rw [List.length_map, List.length_range], ?_⟩
    intro i hi
    obtain ⟨k,_,rfl⟩ := List.mem_map.mp hi
    exact RandomSource.below _ _ _ hn

omit [RandomSource] in
theorem mean_ok {values : List Rat} (hne : values ≠ []) :
    mean values = .ok (values.sum / values.length) := by
  rw [mean, raiseIf_neg _ _ hne]
  rfl

/-- The interval of a paired bootstrap and its p-value are one reading of the resamples. -/
theorem bootstrapPairedDeltaCi_reading {aPerTask bPerTask : List Rat}
    (hlength : aPerTask.length = bPerTask.length) (hn : 2 ≤ aPerTask.length) {level : Rat}
    (hlevel : 0 < level ∧ level < 1) {resamples : Int} (hr : 1 ≤ resamples) (seed : Int) :
    (0 ≤ lowIndex level resamples ∧ lowIndex level resamples ≤ highIndex level resamples ∧
        highIndex level resamples < resamples) ∧
      ∃ ci, bootstrapPairedDeltaCi aPerTask bPerTask level resamples seed = .ok ci ∧
        ci.low ≤ ci.high ∧
        (∃ lo ∈ taskDeltas aPerTask bPerTask, ∃ hi ∈ taskDeltas aPerTask bPerTask,
          (∀ d ∈ taskDeltas aPerTask bPerTask, lo ≤ d ∧ d ≤ hi) ∧
            lo ≤ ci.low ∧ ci.low ≤ hi ∧ lo ≤ ci.high ∧ ci.high ≤ hi) ∧
        1 / (resamples : Rat) ≤ ci.pValue ∧ ci.pValue ≤ 1 ∧
        (ci.pValue < 1 - level → ci.excludesZero = true) ∧
        (ci.excludesZero = true → ci.pValue ≤ max (1 / (resamples : Rat)) (1 - level)) := by
  obtain ⟨h0,hlh,hhr,_⟩ := index_bounds hlevel hr
  refine ⟨⟨h0, hlh, hhr⟩, ?_⟩
  have hane : aPerTask ≠ [] := by
    rintro rfl
    simp at hn
  have hbne : bPerTask ≠ [] := by
    rintro rfl
    simp [hane] at hlength
  obtain ⟨draws,hdraws,hcount,hidx⟩ := resampleIndices_ok (n := aPerTask.length) (by omega) hr seed
  generalize hdeltas : (draws.map fun idx => resampledMean bPerTask aPerTask.length idx -
    resampledMean aPerTask aPerTask.length idx) = deltas
  have hdlength : (deltas.length : Int) = resamples := by
    rw [← hdeltas, List.length_map]
    exact hcount
  obtain ⟨low,high,hbounds,hp,hlow,hhigh,hle,hlt,hmax⟩ := reading_ok hdlength hr hlevel
  obtain ⟨lo,hlo,hi,hhi,hall⟩ := exists_extremes (taskDeltas_ne_nil hlength hane)
  have hinside : ∀ d ∈ deltas, lo ≤ d ∧ d ≤ hi := by
    intro d hd
    rw [← hdeltas] at hd
    obtain ⟨idx,hmem,rfl⟩ := List.mem_map.mp hd
    exact resampled_between hlength (hidx idx hmem).1 (by omega) (hidx idx hmem).2 hall
  obtain ⟨hp1,hp2⟩ := clampedP_bounds (sortedValues deltas) hr
  have hvalid : validateInterval level resamples = .ok () := by
    rw [validateInterval, raiseIf_neg _ _ (not_not.mpr hlevel), ok_bind, raiseIf_neg _ _ (by omega)]
  refine ⟨⟨bPerTask.sum / bPerTask.length - aPerTask.sum / aPerTask.length, low, high, level,
    resamples, clampedP (sortedValues deltas) resamples, false⟩, ?_, hle, ⟨lo, hlo, hi, hhi, hall, (hinside low hlow).1, (hinside low hlow).2,
      (hinside high hhigh).1, (hinside high hhigh).2⟩, hp1, hp2, ?_, ?_⟩
  · rw [bootstrapPairedDeltaCi, hvalid, ok_bind, raiseIf_neg _ _ (not_not.mpr hlength), ok_bind,
      raiseIf_neg _ _ hane, ok_bind, mean_ok hbne, ok_bind, mean_ok hane, ok_bind,
      if_neg (by omega), hdraws, ok_bind, hdeltas]
    simp only [hbounds, ok_bind, hp]
    rfl
  · intro h
    exact decide_eq_true (hlt h)
  · intro h
    exact hmax (of_decide_eq_true h)

end Reading

section Example

/- Every draw is the first task. -/
@[reducible] def firstTask : RandomSource := ⟨fun _ _ _ => 0, fun _ _ _ h => h⟩

attribute [local instance] firstTask

theorem bootstrapPairedDeltaCi_reading_two :
    ∃ ci, bootstrapPairedDeltaCi [0, 1] [1, 1] (95 / 100) 4 7 = .ok ci ∧ ci.low ≤ ci.high := by
  have hlength : ([0, 1] : List Rat).length = ([1, 1] : List Rat).length := rfl
  have hlevel : (0 : Rat) < 95 / 100 ∧ (95 / 100 : Rat) < 1 := by norm_num
  have hr : (1 : Int) ≤ 4 := by norm_num
  obtain ⟨_,ci,hok,hle,_⟩ := bootstrapPairedDeltaCi_reading hlength (Nat.le_refl 2) hlevel hr 7
  exact ⟨ci, hok, hle⟩

end Example

end Whetstone.Eval.Analysis
