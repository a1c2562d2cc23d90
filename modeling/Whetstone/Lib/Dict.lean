import Mathlib.Data.List.Nodup
import Mathlib.Data.List.Basic
import Mathlib.Data.List.Induction
import Mathlib.Data.List.Perm.Subperm

/-! Insertion-ordered dictionaries. A key occurs once; writing an existing key keeps
its position, writing a new key appends it, as Python dictionaries and tables with a
primary key do. -/
namespace Whetstone.Lib

structure Dict (κ ν : Type*) where
  pairs : List (κ × ν)
  nodup : (pairs.map Prod.fst).Nodup
deriving DecidableEq

namespace Dict

variable {κ ν : Type*} [DecidableEq κ]

def empty : Dict κ ν := ⟨[], List.nodup_nil⟩

def getPairs (k : κ) : List (κ × ν) → Option ν
  | [] => none
  | (k', v) :: rest => if k' = k then some v else getPairs k rest

def get? (d : Dict κ ν) (k : κ) : Option ν := getPairs k d.pairs

def values (d : Dict κ ν) : List ν := d.pairs.map Prod.snd

def keys (d : Dict κ ν) : List κ := d.pairs.map Prod.fst

def setPairs (k : κ) (v : ν) : List (κ × ν) → List (κ × ν)
  | [] => [(k, v)]
  | (k', v') :: rest => if k' = k then (k, v) :: rest else (k', v') :: setPairs k v rest

theorem keys_setPairs (k : κ) (v : ν) (l : List (κ × ν)) :
    (setPairs k v l).map Prod.fst =
      if k ∈ l.map Prod.fst then l.map Prod.fst else l.map Prod.fst ++ [k] := by
  induction l with
  | nil => rfl
  | cons p rest ih =>
    obtain ⟨k',v'⟩ := p
    by_cases h : k' = k
    · simp [setPairs, h]
    · have h' : ¬ k = k' := fun e => h e.symm
      by_cases hm : k ∈ rest.map Prod.fst
      · rw [if_pos hm] at ih
        simp [setPairs, h, ih, List.mem_cons_of_mem k' hm]
      · rw [if_neg hm] at ih
        have hn : k ∉ k' :: rest.map Prod.fst := by
          simp only [List.mem_cons, not_or]
          exact ⟨h', hm⟩
        simp [setPairs, h, ih, hn]

def set (d : Dict κ ν) (k : κ) (v : ν) : Dict κ ν where
  pairs := setPairs k v d.pairs
  nodup := by
    rw [keys_setPairs]
    split
    · exact d.nodup
    · rename_i h
      refine List.nodup_append.mpr ⟨d.nodup, List.nodup_singleton k, ?_⟩
      intro a ha b hb hab
      rw [List.mem_singleton] at hb
      exact h (hb ▸ hab ▸ ha)

def erase (d : Dict κ ν) (k : κ) : Dict κ ν where
  pairs := d.pairs.filter fun p => p.1 ≠ k
  nodup := d.nodup.sublist (List.filter_sublist.map Prod.fst)

@[simp] theorem get?_empty (k : κ) : (empty : Dict κ ν).get? k = none := rfl

theorem getPairs_setPairs (k k' : κ) (v : ν) (l : List (κ × ν)) :
    getPairs k' (setPairs k v l) = if k' = k then some v else getPairs k' l := by
  induction l with
  | nil =>
    by_cases h : k' = k
    · simp [setPairs, getPairs, h]
    · simp [setPairs, getPairs, h, Ne.symm h]
  | cons p rest ih =>
    obtain ⟨a,b⟩ := p
    by_cases ha : a = k
    · subst ha
      by_cases h : k' = a
      · simp [setPairs, getPairs, h]
      · simp [setPairs, getPairs, h, Ne.symm h]
    · by_cases h : a = k'
      · subst h
        simp [setPairs, getPairs, ha]
      · simp [setPairs, getPairs, ha, h, ih]

theorem get?_set (d : Dict κ ν) (k k' : κ) (v : ν) :
    (d.set k v).get? k' = if k' = k then some v else d.get? k' :=
  getPairs_setPairs k k' v d.pairs

@[simp] theorem get?_set_self (d : Dict κ ν) (k : κ) (v : ν) :
    (d.set k v).get? k = some v := by
  simp [get?_set]

theorem get?_set_ne (d : Dict κ ν) (k k' : κ) (v : ν) (h : k' ≠ k) :
    (d.set k v).get? k' = d.get? k' := by
  simp [get?_set, h]

theorem setPairs_setPairs (k : κ) (v v' : ν) (l : List (κ × ν)) :
    setPairs k v (setPairs k v' l) = setPairs k v l := by
  induction l with
  | nil => simp [setPairs]
  | cons p rest ih =>
    obtain ⟨k',w⟩ := p
    by_cases h : k' = k
    · simp [setPairs, h]
    · simp [setPairs, h, ih]

@[simp] theorem set_set (d : Dict κ ν) (k : κ) (v v' : ν) :
    (d.set k v').set k v = d.set k v := by
  unfold set
  congr 1
  exact setPairs_setPairs k v v' d.pairs

theorem get?_erase (d : Dict κ ν) (k k' : κ) :
    (d.erase k).get? k' = if k' = k then none else d.get? k' := by
  change getPairs k' (d.pairs.filter fun p => p.1 ≠ k) = if k' = k then none else getPairs k' d.pairs
  generalize d.pairs = l
  induction l with
  | nil => simp [getPairs]
  | cons p l ih =>
    by_cases hp : p.1 = k
    · by_cases hk : k' = k
      · simpa [hp, hk] using ih
      · have hne : k ≠ k' := fun h => hk h.symm
        simpa [hp, hk, getPairs, hne] using ih
    · by_cases hk : k' = k
      · subst hk
        simpa [hp, getPairs] using ih
      · by_cases he : p.1 = k'
        · simp [he, hk, getPairs]
        · simpa [hp, hk, getPairs, he] using ih

theorem erase_set (d : Dict κ ν) (k : κ) (v : ν) : (d.set k v).erase k = d.erase k := by
  have hpairs : ∀ l : List (κ × ν), (setPairs k v l).filter (fun p => decide (p.1 ≠ k)) =
      l.filter fun p => decide (p.1 ≠ k) := by
    intro l
    induction l with
    | nil => simp [setPairs]
    | cons p rest ih =>
      by_cases h : p.1 = k
      · simp [setPairs, h]
      · simpa [setPairs, h] using ih
  unfold erase set
  congr 1
  exact hpairs d.pairs

theorem getPairs_eq_none_iff (l : List (κ × ν)) (k : κ) :
    getPairs k l = none ↔ k ∉ l.map Prod.fst := by
  induction l with
  | nil => simp [getPairs]
  | cons p rest ih =>
    obtain ⟨a,b⟩ := p
    by_cases h : a = k
    · simp [getPairs, h]
    · rw [getPairs, if_neg h, ih, List.map_cons, List.mem_cons, not_or]
      exact ⟨fun hr => ⟨Ne.symm h, hr⟩, fun hr => hr.2⟩

theorem get?_eq_none_iff (d : Dict κ ν) (k : κ) :
    d.get? k = none ↔ k ∉ d.pairs.map Prod.fst :=
  getPairs_eq_none_iff d.pairs k

theorem erase_absent (d : Dict κ ν) (k : κ) (h : d.get? k = none) : d.erase k = d := by
  have hkept : d.pairs.filter (fun p => decide (p.1 ≠ k)) = d.pairs := by
    rw [List.filter_eq_self]
    intro p hp
    rw [decide_eq_true_eq]
    rintro rfl
    exact (get?_eq_none_iff d p.1).mp h (List.mem_map.mpr ⟨p, hp, rfl⟩)
  unfold erase
  congr 1

theorem getPairs_eq_some_iff (l : List (κ × ν)) (hl : (l.map Prod.fst).Nodup) (k : κ) (v : ν) :
    getPairs k l = some v ↔ (k, v) ∈ l := by
  induction l with
  | nil => simp [getPairs]
  | cons p rest ih =>
    obtain ⟨a,b⟩ := p
    rw [List.map_cons, List.nodup_cons] at hl
    by_cases h : a = k
    · subst h
      have hk : (a, v) ∉ rest := fun hm => hl.1 (List.mem_map.mpr ⟨(a, v), hm, rfl⟩)
      simp [getPairs, hk, eq_comm]
    · simp [getPairs, h, Ne.symm h, ih hl.2]

theorem get?_eq_some_iff (d : Dict κ ν) (k : κ) (v : ν) :
    d.get? k = some v ↔ (k, v) ∈ d.pairs :=
  getPairs_eq_some_iff d.pairs d.nodup k v

/-- A dictionary is finite: a measure of its keys is bounded. -/
theorem exists_bound (d : Dict κ ν) (measure : κ → Nat) :
    ∃ bound, ∀ k v, d.get? k = some v → measure k < bound := by
  have hlist : ∀ l : List (κ × ν), ∃ bound, ∀ p ∈ l, measure p.1 < bound := by
    intro l
    induction l with
    | nil => exact ⟨0, by simp⟩
    | cons p rest ih =>
      obtain ⟨bound,hbound⟩ := ih
      refine ⟨bound + measure p.1 + 1, fun q hq => ?_⟩
      rcases List.mem_cons.mp hq with rfl | hq
      · omega
      · have := hbound q hq
        omega
  obtain ⟨bound,hbound⟩ := hlist d.pairs
  exact ⟨bound, fun k v h => hbound (k, v) ((get?_eq_some_iff d k v).mp h)⟩

theorem setPairs_absent (k : κ) (v : ν) (l : List (κ × ν)) (h : k ∉ l.map Prod.fst) :
    setPairs k v l = l ++ [(k, v)] := by
  induction l with
  | nil => rfl
  | cons p rest ih =>
    obtain ⟨a,b⟩ := p
    simp only [List.map_cons, List.mem_cons, not_or] at h
    simp [setPairs, Ne.symm h.1, ih h.2]

/-- Writing a fresh key appends exactly one pair. -/
theorem pairs_set_absent (d : Dict κ ν) (k : κ) (v : ν) (h : d.get? k = none) :
    (d.set k v).pairs = d.pairs ++ [(k, v)] :=
  setPairs_absent k v d.pairs ((get?_eq_none_iff d k).mp h)

theorem setPairs_present (k : κ) (v old : ν) (l : List (κ × ν)) (h : getPairs k l = some old) :
    ∃ before after, l = before ++ (k, old) :: after ∧
      setPairs k v l = before ++ (k, v) :: after := by
  induction l with
  | nil => simp [getPairs] at h
  | cons p rest ih =>
    obtain ⟨a,b⟩ := p
    by_cases ha : a = k
    · subst ha
      have hb : b = old := by simpa [getPairs] using h
      subst hb
      exact ⟨[], rest, rfl, by simp [setPairs]⟩
    · have hr : getPairs k rest = some old := by simpa [getPairs, ha] using h
      obtain ⟨before,after,h1,h2⟩ := ih hr
      refine ⟨(a, b) :: before, after, by simp [h1], ?_⟩
      simp [setPairs, ha, h2]

/-- Writing a held key replaces its value in place. -/
theorem pairs_set_present (d : Dict κ ν) (k : κ) (v old : ν) (h : d.get? k = some old) :
    ∃ before after, d.pairs = before ++ (k, old) :: after ∧
      (d.set k v).pairs = before ++ (k, v) :: after :=
  setPairs_present k v old d.pairs h

theorem mem_values_iff (d : Dict κ ν) (v : ν) : v ∈ d.values ↔ ∃ k, d.get? k = some v := by
  constructor
  · intro h
    obtain ⟨⟨k,v'⟩,hm,hv⟩ := List.mem_map.mp h
    exact ⟨k, (get?_eq_some_iff d k v).mpr (hv ▸ hm)⟩
  · rintro ⟨k,h⟩
    exact List.mem_map.mpr ⟨(k, v), (get?_eq_some_iff d k v).mp h, rfl⟩

/- Without one of its keys a dictionary has its other values. -/
theorem values_perm_erase (d : Dict κ ν) (k : κ) (v : ν) (h : d.get? k = some v) :
    d.values.Perm (v :: (d.erase k).values) := by
  obtain ⟨before,after,hsplit⟩ := List.append_of_mem ((get?_eq_some_iff d k v).mp h)
  have hnodup := d.nodup
  rw [hsplit, List.map_append, List.map_cons, List.nodup_middle, List.nodup_cons] at hnodup
  have hother : ∀ p ∈ before ++ after, p.1 ≠ k := by
    intro p hp hk
    refine hnodup.1 ?_
    rw [← List.map_append]
    exact List.mem_map.mpr ⟨p, hp, hk⟩
  have herase : (d.erase k).pairs = before ++ after := by
    change d.pairs.filter (fun p => decide (p.1 ≠ k)) = _
    rw [hsplit, List.filter_append, List.filter_cons_of_neg (by simp), ← List.filter_append,
      List.filter_eq_self]
    exact fun p hp => by simpa using hother p hp
  rw [values, values, herase, hsplit, List.map_append, List.map_cons, List.map_append]
  exact List.perm_middle

theorem values_set_perm (d : Dict κ ν) (k : κ) (v : ν) :
    (d.set k v).values.Perm (v :: (d.erase k).values) := by
  have h := values_perm_erase (d.set k v) k v (get?_set_self d k v)
  rwa [erase_set] at h

theorem values_set_absent (d : Dict κ ν) (k : κ) (v : ν) (h : d.get? k = none) :
    (d.set k v).values = d.values ++ [v] := by
  simp [values, pairs_set_absent d k v h]

theorem values_set_present (d : Dict κ ν) (k : κ) (v old : ν) (h : d.get? k = some old) :
    ∃ before after, d.values = before ++ old :: after ∧
      (d.set k v).values = before ++ v :: after := by
  obtain ⟨before,after,h1,h2⟩ := pairs_set_present d k v old h
  exact ⟨before.map Prod.snd, after.map Prod.snd, by simp [values, h1], by simp [values, h2]⟩

section OfPairs

/- A later pair overwrites an earlier one, as in `dict(pairs)`. -/
def ofPairs (l : List (κ × ν)) : Dict κ ν := l.foldl (fun d p => d.set p.1 p.2) empty

theorem get?_ofPairs_append (l : List (κ × ν)) (k k' : κ) (v : ν) :
    (ofPairs (l ++ [(k, v)])).get? k' = if k' = k then some v else (ofPairs l).get? k' := by
  rw [ofPairs, List.foldl_append]
  exact get?_set _ k k' v

theorem mem_of_get?_ofPairs (l : List (κ × ν)) (k : κ) (v : ν)
    (h : (ofPairs l).get? k = some v) : (k, v) ∈ l := by
  induction l using List.reverseRecOn with
  | nil => cases h
  | append_singleton l p ih =>
    obtain ⟨k',v'⟩ := p
    rw [get?_ofPairs_append] at h
    by_cases hk : k = k'
    · rw [if_pos hk, Option.some.injEq] at h
      subst hk h
      simp
    · rw [if_neg hk] at h
      exact List.mem_append_left _ (ih h)

theorem get?_ofPairs_of_mem (l : List (κ × ν)) (hl : (l.map Prod.fst).Nodup) (k : κ) (v : ν)
    (h : (k, v) ∈ l) : (ofPairs l).get? k = some v := by
  induction l using List.reverseRecOn with
  | nil => cases h
  | append_singleton l p ih =>
    obtain ⟨k',v'⟩ := p
    rw [List.map_append, List.nodup_append] at hl
    obtain ⟨hnodup,_,hdisj⟩ := hl
    rw [get?_ofPairs_append]
    rw [List.mem_append, List.mem_singleton] at h
    rcases h with h | h
    · have hmem : k ∈ l.map Prod.fst := List.mem_map_of_mem (f := Prod.fst) h
      have hne : k ≠ k' := hdisj k hmem k' (by simp)
      rw [if_neg hne]
      exact ih hnodup h
    · cases h
      rw [if_pos rfl]

theorem get?_ofPairs_eq_none_iff (l : List (κ × ν)) (k : κ) :
    (ofPairs l).get? k = none ↔ k ∉ l.map Prod.fst := by
  induction l using List.reverseRecOn with
  | nil => simp [ofPairs]
  | append_singleton l p ih =>
    obtain ⟨k',v'⟩ := p
    rw [get?_ofPairs_append]
    by_cases hk : k = k'
    · simp [hk]
    · rw [if_neg hk, ih]
      simp [hk]

theorem pairs_ofPairs (l : List (κ × ν)) (hl : (l.map Prod.fst).Nodup) :
    (ofPairs l).pairs = l := by
  induction l using List.reverseRecOn with
  | nil => rfl
  | append_singleton l p ih =>
    rw [List.map_append, List.nodup_append] at hl
    obtain ⟨hnodup,_,hdisj⟩ := hl
    have hnew : p.1 ∉ l.map Prod.fst := fun h => hdisj p.1 h p.1 (by simp) rfl
    have habsent := (get?_ofPairs_eq_none_iff l p.1).mpr hnew
    have hset : ofPairs (l ++ [p]) = (ofPairs l).set p.1 p.2 := by
      rw [ofPairs, List.foldl_append]
      rfl
    rw [hset, pairs_set_absent _ _ _ habsent, ih hnodup]

@[simp] theorem ofPairs_pairs (d : Dict κ ν) : ofPairs d.pairs = d := by
  have hpairs := pairs_ofPairs d.pairs d.nodup
  cases hd : ofPairs d.pairs with
  | mk pairs nodup =>
    cases d with
    | mk pairs' nodup' =>
      rw [hd] at hpairs
      cases hpairs
      rfl

end OfPairs

section MapValues

variable {μ : Type*} (f : ν → μ)

def mapValues (d : Dict κ ν) : Dict κ μ where
  pairs := d.pairs.map fun p => (p.1, f p.2)
  nodup := by
    rw [List.map_map]
    exact d.nodup

theorem getPairs_map (k : κ) (l : List (κ × ν)) :
    getPairs k (l.map fun p => (p.1, f p.2)) = (getPairs k l).map f := by
  induction l with
  | nil => rfl
  | cons p rest ih =>
    by_cases h : p.1 = k <;> simp [getPairs, h, ih]

theorem get?_mapValues (d : Dict κ ν) (k : κ) :
    (d.mapValues f).get? k = (d.get? k).map f :=
  getPairs_map f k d.pairs

theorem setPairs_map (k : κ) (v : ν) (l : List (κ × ν)) :
    setPairs k (f v) (l.map fun p => (p.1, f p.2)) =
      (setPairs k v l).map fun p => (p.1, f p.2) := by
  induction l with
  | nil => rfl
  | cons p rest ih =>
    by_cases h : p.1 = k <;> simp [setPairs, h, ih]

theorem set_mapValues (d : Dict κ ν) (k : κ) (v : ν) :
    (d.mapValues f).set k (f v) = (d.set k v).mapValues f := by
  simp only [set, mapValues, Dict.mk.injEq]
  exact setPairs_map f k v d.pairs

end MapValues

section SameItems

variable [DecidableEq ν]

/- `d == e` on mappings, which does not look at the order. -/
def sameItems (d e : Dict κ ν) : Bool :=
  d.pairs.length = e.pairs.length ∧ ∀ p ∈ d.pairs, e.get? p.1 = some p.2

@[simp] theorem sameItems_refl (d : Dict κ ν) : d.sameItems d = true := by
  simp only [sameItems, decide_eq_true_eq, true_and]
  intro p hp
  exact (get?_eq_some_iff d p.1 p.2).mpr hp

theorem get?_of_sameItems (d e : Dict κ ν) (h : d.sameItems e = true) (k : κ) :
    d.get? k = e.get? k := by
  simp only [sameItems, decide_eq_true_eq] at h
  obtain ⟨hlength,hitems⟩ := h
  have hsub : d.pairs ⊆ e.pairs := fun p hp => (get?_eq_some_iff e p.1 p.2).mp (hitems p hp)
  have hnodup : d.pairs.Nodup := List.Nodup.of_map Prod.fst d.nodup
  have hperm : d.pairs.Perm e.pairs :=
    (List.subperm_of_subset hnodup hsub).perm_of_length_le (Nat.le_of_eq hlength.symm)
  apply Option.ext
  intro v
  rw [get?_eq_some_iff, get?_eq_some_iff]
  exact hperm.mem_iff

end SameItems
end Dict
end Whetstone.Lib
