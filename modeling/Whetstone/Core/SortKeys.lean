import Whetstone.Core.Json
import Mathlib.Data.List.Sort
import Mathlib.Data.String.Basic

/-! The order in which `json.dumps` writes the fields of objects under `sort_keys`. -/
namespace Whetstone.Core

def sortPairs {ν : Type} (fields : List (String × ν)) : List (String × ν) :=
  fields.insertionSort fun a b => a.1 ≤ b.1

namespace Json

mutual
def sortKeys : Json → Json
  | .null => .null
  | .bool value => .bool value
  | .int value => .int value
  | .float value => .float value
  | .str value => .str value
  | .arr items => .arr (sortKeysItems items)
  | .obj fields => .obj (sortPairs (sortKeysFields fields))
def sortKeysItems : List Json → List Json
  | [] => []
  | item :: rest => sortKeys item :: sortKeysItems rest
def sortKeysFields : List (String × Json) → List (String × Json)
  | [] => []
  | (key, value) :: rest => (key, sortKeys value) :: sortKeysFields rest
end

end Json

section Pairs

variable {ν : Type}

theorem sortPairs_perm (fields : List (String × ν)) : (sortPairs fields).Perm fields :=
  List.perm_insertionSort _ fields

theorem sortPairs_sortPairs (fields : List (String × ν)) :
    sortPairs (sortPairs fields) = sortPairs fields := by
  have htotal : Std.Total (fun a b : String × ν => a.1 ≤ b.1) := ⟨fun a b => le_total a.1 b.1⟩
  have htrans : IsTrans (String × ν) (fun a b => a.1 ≤ b.1) := ⟨fun _ _ _ => le_trans⟩
  exact (List.pairwise_insertionSort _ fields).insertionSort_eq

/- Lookup does not see the order of fields that have distinct names. -/
theorem lookup_perm {fields other : List (String × ν)} (h : fields.Perm other)
    (hnames : (fields.map Prod.fst).Nodup) (key : String) :
    fields.lookup key = other.lookup key := by
  induction h with
  | nil => rfl
  | cons field _ ih =>
    rw [List.map_cons, List.nodup_cons] at hnames
    rw [List.lookup_cons, List.lookup_cons, ih hnames.2]
  | swap a b rest =>
    simp only [List.map_cons, List.nodup_cons, List.mem_cons, not_or] at hnames
    obtain ⟨nameA,valueA⟩ := a
    obtain ⟨nameB,valueB⟩ := b
    simp only [List.lookup_cons]
    by_cases ha : key = nameA
    · have hb : (key == nameB) = false :=
        beq_false_of_ne fun hb => hnames.1.1 (hb.symm.trans ha)
      rw [hb]
    · rw [beq_false_of_ne ha]
  | trans hfirst _ ih ih' =>
    rw [ih hnames, ih' ((hfirst.map Prod.fst).nodup_iff.mp hnames)]

end Pairs

namespace Json

theorem sortKeysFields_eq (fields : List (String × Json)) :
    sortKeysFields fields = fields.map fun field => (field.1, field.2.sortKeys) := by
  induction fields with
  | nil => rfl
  | cons field rest ih =>
    obtain ⟨key,value⟩ := field
    rw [sortKeysFields, ih, List.map_cons]

theorem sortKeysFields_sortPairs (fields : List (String × Json)) :
    sortKeysFields (sortPairs fields) = sortPairs (sortKeysFields fields) := by
  rw [sortKeysFields_eq, sortKeysFields_eq]
  exact List.map_insertionSort _ _ _ _ fun a _ b _ => Iff.rfl

theorem names_sortKeysFields (fields : List (String × Json)) :
    (sortKeysFields fields).map Prod.fst = fields.map Prod.fst := by
  rw [sortKeysFields_eq, List.map_map]
  rfl

theorem lookup_sortKeysFields (key : String) (fields : List (String × Json)) :
    (sortKeysFields fields).lookup key = (fields.lookup key).map sortKeys := by
  induction fields with
  | nil => rfl
  | cons field rest ih =>
    obtain ⟨name,value⟩ := field
    rw [sortKeysFields, List.lookup_cons, List.lookup_cons, ih]
    cases key == name <;> rfl

mutual
theorem sortKeys_sortKeys : ∀ value : Json, value.sortKeys.sortKeys = value.sortKeys
  | .null | .bool _ | .int _ | .float _ | .str _ => rfl
  | .arr items => by
    rw [sortKeys, sortKeys, sortKeysItems_sortKeysItems items]
  | .obj fields => by
    rw [sortKeys, sortKeys, sortKeysFields_sortPairs, sortKeysFields_sortKeysFields fields,
      sortPairs_sortPairs]
theorem sortKeysItems_sortKeysItems : ∀ items : List Json,
    sortKeysItems (sortKeysItems items) = sortKeysItems items
  | [] => rfl
  | item :: rest => by
    rw [sortKeysItems, sortKeysItems, sortKeys_sortKeys item, sortKeysItems_sortKeysItems rest]
theorem sortKeysFields_sortKeysFields : ∀ fields : List (String × Json),
    sortKeysFields (sortKeysFields fields) = sortKeysFields fields
  | [] => rfl
  | (key, value) :: rest => by
    rw [sortKeysFields, sortKeysFields, sortKeys_sortKeys value,
      sortKeysFields_sortKeysFields rest]
end

/- The fields of a sorted object, by their names. -/
theorem lookup_sorted (key : String) {fields : List (String × Json)}
    (hnames : (fields.map Prod.fst).Nodup) :
    (sortPairs (sortKeysFields fields)).lookup key = (fields.lookup key).map sortKeys := by
  rw [← lookup_sortKeysFields, lookup_perm (sortPairs_perm _)]
  rw [((sortPairs_perm _).map Prod.fst).nodup_iff, names_sortKeysFields]
  exact hnames

end Json
end Whetstone.Core
