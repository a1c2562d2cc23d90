import Whetstone.Lib.Dict
import Mathlib.Data.List.Sort
import Mathlib.Logic.Relation

/-! Ledgers whose entries are numbered within an account. An account row holds the
most debits it allows and the debits it has taken; a debit is an entry that carries
the account's next ordinal. The step relation names every change of such a ledger,
and density of the ordinals is an invariant of its runs. -/
namespace Whetstone.Lib

structure DebitLedger (κ σ ε : Type*) where
  entries : Dict κ ε
  rows : Dict σ (Int × Nat)

namespace DebitLedger

variable {κ σ ε : Type*} [DecidableEq κ] [DecidableEq σ]
variable (scope : ε → σ) (ordinal : ε → Option Nat)

def empty : DebitLedger κ σ ε := ⟨Dict.empty, Dict.empty⟩

def consumed (L : DebitLedger κ σ ε) (s : σ) : Nat :=
  match L.rows.get? s with
  | none => 0
  | some (_, n) => n

def isDebit (s : σ) (e : ε) : Bool := (ordinal e).isSome && decide (scope e = s)

def debits (L : DebitLedger κ σ ε) (s : σ) : List ε :=
  L.entries.values.filter (isDebit scope ordinal s)

inductive Step : DebitLedger κ σ ε → DebitLedger κ σ ε → Prop
  | debit (L : DebitLedger κ σ ε) (k : κ) (e : ε) (limit : Int)
      (fresh : L.entries.get? k = none)
      (row : L.rows.get? (scope e) = none ∨
        L.rows.get? (scope e) = some (limit, L.consumed (scope e)))
      (room : (L.consumed (scope e) : Int) < limit)
      (next : ordinal e = some (L.consumed (scope e) + 1)) :
      Step L ⟨L.entries.set k e, L.rows.set (scope e) (limit, L.consumed (scope e) + 1)⟩
  | decline (L : DebitLedger κ σ ε) (k : κ) (e : ε)
      (fresh : L.entries.get? k = none) (free : ordinal e = none) :
      Step L ⟨L.entries.set k e, L.rows⟩
  | openRow (L : DebitLedger κ σ ε) (s : σ) (limit : Int)
      (fresh : L.rows.get? s = none) (nonneg : 0 ≤ limit) :
      Step L ⟨L.entries, L.rows.set s (limit, 0)⟩
  | settle (L : DebitLedger κ σ ε) (k : κ) (e e' : ε)
      (held : L.entries.get? k = some e)
      (scope_eq : scope e' = scope e) (ordinal_eq : ordinal e' = ordinal e) :
      Step L ⟨L.entries.set k e', L.rows⟩

abbrev Steps : DebitLedger κ σ ε → DebitLedger κ σ ε → Prop :=
  Relation.ReflTransGen (Step scope ordinal)

/-- Every account stays within its limit, and its debits carry each ordinal from one to
the number taken exactly once. -/
structure Dense (L : DebitLedger κ σ ε) : Prop where
  bounded : ∀ s limit n, L.rows.get? s = some (limit, n) → (n : Int) ≤ limit
  numbered : ∀ s, ((debits scope ordinal L s).map ordinal).Perm
    ((List.range' 1 (L.consumed s)).map some)

omit [DecidableEq κ] in
@[simp] theorem consumed_entries (L : DebitLedger κ σ ε) (entries : Dict κ ε) (s : σ) :
    (⟨entries, L.rows⟩ : DebitLedger κ σ ε).consumed s = L.consumed s := rfl

omit [DecidableEq κ] in
theorem consumed_set (L : DebitLedger κ σ ε) (entries : Dict κ ε) (s t : σ)
    (limit : Int) (n : Nat) :
    (⟨entries, L.rows.set s (limit, n)⟩ : DebitLedger κ σ ε).consumed t =
      if t = s then n else L.consumed t := by
  by_cases h : t = s <;> simp [consumed, Dict.get?_set, h]

theorem debits_set_absent (L : DebitLedger κ σ ε) (rows : Dict σ (Int × Nat)) (s : σ)
    (k : κ) (e : ε) (h : L.entries.get? k = none) :
    debits scope ordinal ⟨L.entries.set k e, rows⟩ s =
      debits scope ordinal L s ++ [e].filter (isDebit scope ordinal s) := by
  simp only [debits, Dict.values_set_absent L.entries k e h, List.filter_append]

theorem ordinals_set_present (L : DebitLedger κ σ ε) (rows : Dict σ (Int × Nat)) (s : σ)
    (k : κ) (e e' : ε) (h : L.entries.get? k = some e)
    (hs : scope e' = scope e) (ho : ordinal e' = ordinal e) :
    (debits scope ordinal ⟨L.entries.set k e', rows⟩ s).map ordinal =
      (debits scope ordinal L s).map ordinal := by
  obtain ⟨before,after,h1,h2⟩ := Dict.values_set_present L.entries k e' e h
  have hd : isDebit scope ordinal s e' = isDebit scope ordinal s e := by
    simp only [isDebit, hs, ho]
  simp only [debits, h1, h2, List.filter_append, List.filter_cons, hd]
  split <;> simp [ho]

omit [DecidableEq κ] in
theorem dense_empty : Dense scope ordinal (empty : DebitLedger κ σ ε) := by
  constructor
  · intro s limit n h
    simp [empty] at h
  · intro s
    simp [empty, debits, consumed, Dict.values, Dict.empty, Dict.get?, Dict.getPairs]

variable {scope ordinal}

theorem Dense.debit {L : DebitLedger κ σ ε} (hL : Dense scope ordinal L) (k : κ) (e : ε)
    (limit : Int) (fresh : L.entries.get? k = none)
    (room : (L.consumed (scope e) : Int) < limit)
    (next : ordinal e = some (L.consumed (scope e) + 1)) :
    Dense scope ordinal
      ⟨L.entries.set k e, L.rows.set (scope e) (limit, L.consumed (scope e) + 1)⟩ := by
  constructor
  · intro s limit' n h
    by_cases hs : s = scope e
    · simp only [Dict.get?_set, hs, if_true, Option.some.injEq, Prod.mk.injEq] at h
      omega
    · rw [Dict.get?_set_ne _ _ _ _ hs] at h
      exact hL.bounded s limit' n h
  · intro s
    rw [debits_set_absent scope ordinal L _ s k e fresh, consumed_set]
    by_cases hs : s = scope e
    · subst hs
      simp only [if_true, List.map_append, List.range'_concat, List.map_cons, List.map_nil]
      refine List.Perm.append (hL.numbered (scope e)) ?_
      simp [isDebit, next]
      omega
    · have he : isDebit scope ordinal s e = false := by simp [isDebit, Ne.symm hs]
      simpa [he, hs] using hL.numbered s

/-- One ledger step keeps density. -/
theorem Dense.step {L L' : DebitLedger κ σ ε} (hL : Dense scope ordinal L)
    (h : Step scope ordinal L L') : Dense scope ordinal L' := by
  cases h with
  | debit k e limit fresh _ room next => exact hL.debit k e limit fresh room next
  | decline k e fresh free =>
    refine ⟨hL.bounded, fun s => ?_⟩
    rw [debits_set_absent scope ordinal L _ s k e fresh]
    simpa [isDebit, free] using hL.numbered s
  | openRow s limit fresh nonneg =>
    have hc : L.consumed s = 0 := by simp [consumed, fresh]
    constructor
    · intro t limit' n h
      by_cases ht : t = s
      · simp only [Dict.get?_set, ht, if_true, Option.some.injEq, Prod.mk.injEq] at h
        omega
      · rw [Dict.get?_set_ne _ _ _ _ ht] at h
        exact hL.bounded t limit' n h
    · intro t
      rw [consumed_set]
      by_cases ht : t = s
      · subst ht
        simpa [hc, debits] using hL.numbered t
      · simpa [ht, debits] using hL.numbered t
  | settle k e e' held scope_eq ordinal_eq =>
    refine ⟨hL.bounded, fun s => ?_⟩
    rw [ordinals_set_present scope ordinal L _ s k e e' held scope_eq ordinal_eq]
    exact hL.numbered s

theorem Dense.steps {L L' : DebitLedger κ σ ε} (hL : Dense scope ordinal L)
    (h : Steps scope ordinal L L') : Dense scope ordinal L' := by
  induction h with
  | refl => exact hL
  | tail _ hstep ih => exact ih.step hstep

/-- An account never gives a debit back. -/
theorem consumed_mono {L L' : DebitLedger κ σ ε} (h : Steps scope ordinal L L') (s : σ) :
    L.consumed s ≤ L'.consumed s := by
  induction h with
  | refl => exact Nat.le_refl _
  | @tail M N _ hstep ih =>
    refine ih.trans ?_
    cases hstep with
    | debit k e limit fresh row room next =>
      rw [consumed_set]
      split
      · rename_i he
        rw [he]
        exact Nat.le_succ _
      · exact Nat.le_refl _
    | decline k e fresh free => exact Nat.le_refl _
    | openRow t limit fresh nonneg =>
      rw [consumed_set]
      split
      · rename_i he
        simp [consumed, he, fresh]
      · exact Nat.le_refl _
    | settle k e e' held scope_eq ordinal_eq => exact Nat.le_refl _

/-- Sorting by ordinal lists a dense account in debit order. -/
theorem map_ordinal_mergeSort (l : List ε) (n : Nat)
    (h : (l.map ordinal).Perm ((List.range' 1 n).map some)) :
    (l.mergeSort fun a b => decide ((ordinal a).getD 0 ≤ (ordinal b).getD 0)).map ordinal =
      (List.range' 1 n).map some := by
  set le : ε → ε → Bool := fun a b => decide ((ordinal a).getD 0 ≤ (ordinal b).getD 0) with hle
  have hsorted : (l.mergeSort le).Pairwise fun a b => le a b = true := by
    refine List.pairwise_mergeSort ?_ ?_ l
    · intro a b c hab hbc
      simp only [hle, decide_eq_true_eq] at hab hbc ⊢
      omega
    · intro a b
      simp only [hle, Bool.or_eq_true, decide_eq_true_eq]
      omega
  have hperm : ((l.mergeSort le).map ordinal).Perm ((List.range' 1 n).map some) :=
    ((List.mergeSort_perm l le).map ordinal).trans h
  refine @List.Perm.eq_of_pairwise _ (fun a b => a.getD 0 ≤ b.getD 0) _ _ ?_ ?_ ?_ hperm
  · intro a b ha hb hab hba
    obtain ⟨x,_,rfl⟩ := List.mem_map.mp (hperm.subset ha)
    obtain ⟨y,_,rfl⟩ := List.mem_map.mp hb
    simp only [Option.getD_some] at hab hba
    rw [le_antisymm hab hba]
  · refine List.pairwise_map.mpr (hsorted.imp ?_)
    intro a b hab
    simpa [hle] using hab
  · refine List.pairwise_map.mpr ((List.pairwise_lt_range' 1).imp ?_)
    intro a b hab
    exact le_of_lt hab

end DebitLedger
end Whetstone.Lib
