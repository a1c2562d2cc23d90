import Whetstone.Lib.Dict
import Whetstone.Lib.Raise

/-! Memos of accepted values: a queue of the values in the order they were accepted, of which the
oldest go when there are too many, and buckets that index the queue by a key of the values. An
item is evicted by the identity of its object, not by its value. -/
namespace Whetstone.Lib

/- A value, and the identity of the object that holds it. -/
structure Item (σ : Type) where
  object : Nat
  value : σ

structure BoundedMemo (κ σ : Type) where
  entries : List (κ × Item σ)
  buckets : Dict κ (List (Item σ))

/- A bucket without the first item that is the object. -/
def dropObject {σ : Type} (object : Nat) : List (Item σ) → List (Item σ)
  | [] => []
  | item :: rest => if item.object = object then rest else item :: dropObject object rest

namespace BoundedMemo

variable {κ σ : Type} [DecidableEq κ]

def empty : BoundedMemo κ σ := ⟨[], Dict.empty⟩

/- The items that a queue holds under a key. -/
def indexed (entries : List (κ × Item σ)) (key : κ) : List (Item σ) :=
  (entries.filter fun entry => entry.1 = key).map Prod.snd

def dropFrom (buckets : Dict κ (List (Item σ))) (key : κ) (bucket : List (Item σ)) (object : Nat) :
    Dict κ (List (Item σ)) :=
  match dropObject object bucket with
  | [] => buckets.erase key
  | item :: rest => buckets.set key (item :: rest)

/- An entry whose key has no bucket is a missing key. -/
def evict (capacity : Nat) : List (κ × Item σ) → Dict κ (List (Item σ)) →
    Except String (BoundedMemo κ σ)
  | [], buckets => .ok ⟨[], buckets⟩
  | (key, item) :: rest, buckets =>
    if rest.length + 1 ≤ capacity then .ok ⟨(key, item) :: rest, buckets⟩
    else match buckets.get? key with
      | none => .error "KeyError"
      | some bucket => evict capacity rest (dropFrom buckets key bucket item.object)

def record (capacity : Nat) (key : κ) (item : Item σ) (memo : BoundedMemo κ σ) :
    Except String (BoundedMemo κ σ) :=
  evict capacity (memo.entries ++ [(key, item)])
    (memo.buckets.set key ((memo.buckets.get? key).getD [] ++ [item]))

def verified (same : σ → σ → Bool) (key : κ) (value : σ) (memo : BoundedMemo κ σ) : Bool :=
  match memo.buckets.get? key with
  | none => false
  | some bucket => bucket.any fun item => same item.value value

/-! ### The buckets index the queue -/

def Indexes (buckets : Dict κ (List (Item σ))) (entries : List (κ × Item σ)) : Prop :=
  ∀ key, buckets.get? key = if indexed entries key = [] then none else some (indexed entries key)

/-- The buckets hold the entries of the queue, in its order, and no key without an entry. -/
def Coherent (memo : BoundedMemo κ σ) : Prop := Indexes memo.buckets memo.entries

theorem coherent_empty : (empty : BoundedMemo κ σ).Coherent := fun _ => rfl

theorem indexed_append (entries later : List (κ × Item σ)) (key : κ) :
    indexed (entries ++ later) key = indexed entries key ++ indexed later key := by
  rw [indexed, List.filter_append, List.map_append]
  rfl

theorem indexed_cons_self (key : κ) (item : Item σ) (rest : List (κ × Item σ)) :
    indexed ((key, item) :: rest) key = item :: indexed rest key := by
  simp [indexed]

theorem indexed_cons_ne {key other : κ} (h : key ≠ other) (item : Item σ)
    (rest : List (κ × Item σ)) : indexed ((key, item) :: rest) other = indexed rest other := by
  simp [indexed, h]

section Indexes

variable {buckets : Dict κ (List (Item σ))} {entries rest : List (κ × Item σ)} {key : κ}
variable {item : Item σ}

theorem Indexes.getD (h : Indexes buckets entries) (key : κ) :
    (buckets.get? key).getD [] = indexed entries key := by
  rw [h key]
  split
  · rename_i hnil
    rw [hnil]
    rfl
  · rfl

theorem Indexes.append (h : Indexes buckets entries) (key : κ) (item : Item σ) :
    Indexes (buckets.set key ((buckets.get? key).getD [] ++ [item])) (entries ++ [(key, item)]) := by
  intro other
  rw [Dict.get?_set, h.getD]
  by_cases hsame : other = key
  · subst hsame
    rw [if_pos rfl, indexed_append, indexed_cons_self, if_neg (by simp)]
    rfl
  · have hother : indexed (entries ++ [(key, item)]) other = indexed entries other := by
      rw [indexed_append, indexed_cons_ne (Ne.symm hsame)]
      exact List.append_nil _
    rw [if_neg hsame, hother, h other]

/-- The oldest entry heads its bucket, so that its own object is dropped. -/
theorem Indexes.evicted (h : Indexes buckets ((key, item) :: rest)) :
    buckets.get? key = some (item :: indexed rest key) ∧
      Indexes (dropFrom buckets key (item :: indexed rest key) item.object) rest := by
  have hhere := h key
  rw [indexed_cons_self, if_neg (List.cons_ne_nil _ _)] at hhere
  refine ⟨hhere, fun other => ?_⟩
  have hothers : ∀ more, (buckets.set key more).get? other =
      if other = key then some more else buckets.get? other := Dict.get?_set buckets key other
  rw [dropFrom, dropObject, if_pos rfl]
  by_cases hsame : other = key
  · subst hsame
    cases hleft : indexed rest other with
    | nil => rw [Dict.get?_erase, if_pos rfl, if_pos rfl]
    | cons next more => rw [Dict.get?_set, if_pos rfl, if_neg (List.cons_ne_nil _ _)]
  · have hother := h other
    rw [indexed_cons_ne (Ne.symm hsame)] at hother
    cases hleft : indexed rest key with
    | nil =>
      rw [Dict.get?_erase, if_neg hsame]
      exact hother
    | cons next more =>
      rw [Dict.get?_set, if_neg hsame]
      exact hother

/-- An eviction raises nothing and leaves the newest entries. -/
theorem Indexes.evict (h : Indexes buckets entries) (capacity : Nat) :
    ∃ memo, BoundedMemo.evict capacity entries buckets = .ok memo ∧ memo.Coherent ∧
      memo.entries = entries.drop (entries.length - capacity) := by
  induction entries generalizing buckets with
  | nil => exact ⟨_, rfl, h, by rw [List.drop_nil]⟩
  | cons entry rest ih =>
    obtain ⟨key,item⟩ := entry
    by_cases hfits : rest.length + 1 ≤ capacity
    · refine ⟨⟨(key, item) :: rest, buckets⟩, ?_, h, ?_⟩
      · rw [BoundedMemo.evict, if_pos hfits]
      · rw [List.length_cons, Nat.sub_eq_zero_of_le hfits, List.drop_zero]
    · obtain ⟨hbucket,hrest⟩ := h.evicted
      obtain ⟨memo,hmemo,hcoherent,hentries⟩ := ih hrest
      refine ⟨memo, ?_, hcoherent, ?_⟩
      · rw [BoundedMemo.evict, if_neg hfits, hbucket]
        exact hmemo
      · have hdrop : ((key, item) :: rest).length - capacity = rest.length - capacity + 1 := by
          rw [List.length_cons]
          omega
        rw [hentries, hdrop, List.drop_succ_cons]

end Indexes

/-- Recording a value raises nothing, keeps the index and the bound. -/
theorem Coherent.record {memo : BoundedMemo κ σ} (h : memo.Coherent) (capacity : Nat) (key : κ)
    (item : Item σ) :
    ∃ later, memo.record capacity key item = .ok later ∧ later.Coherent ∧
      later.entries.length ≤ capacity ∧
      later.entries <:+ memo.entries ++ [(key, item)] := by
  obtain ⟨later,hlater,hcoherent,hentries⟩ :=
    (h.append key item).evict capacity
  refine ⟨later, hlater, hcoherent, ?_, ?_⟩
  · rw [hentries, List.length_drop]
    omega
  · rw [hentries]
    exact List.drop_suffix _ _

/-- A value is verified when an entry with its key holds the same value. -/
theorem Coherent.verified_iff {memo : BoundedMemo κ σ} (h : memo.Coherent)
    (same : σ → σ → Bool) (key : κ) (value : σ) :
    memo.verified same key value = true ↔
      ∃ entry ∈ memo.entries, entry.1 = key ∧ same entry.2.value value = true := by
  have hbucket : memo.verified same key value =
      (indexed memo.entries key).any fun item => same item.value value := by
    rw [verified, h key]
    by_cases hnil : indexed memo.entries key = []
    · rw [if_pos hnil, hnil]
      rfl
    · rw [if_neg hnil]
  rw [hbucket, indexed, List.any_map, List.any_filter]
  simp only [List.any_eq_true, Bool.and_eq_true, decide_eq_true_eq, Function.comp]

/-! ### Checks through a memo -/

section Checks

variable (capacity : Nat) (keyOf : σ → κ) (same : σ → σ → Bool) (verify : σ → Except String Unit)

/- The verdict on an item, and the memo after it. A missing key of the memo is no verdict. -/
def check (item : Item σ) (memo : BoundedMemo κ σ) :
    Except String (Except String Unit × BoundedMemo κ σ) :=
  if memo.verified same (keyOf item.value) item.value then .ok (.ok (), memo)
  else match verify item.value with
    | .error message => .ok (.error message, memo)
    | .ok () => (memo.record capacity (keyOf item.value) item).map fun later => (.ok (), later)

def checkAll : List (Item σ) → BoundedMemo κ σ →
    Except String (List (Except String Unit) × BoundedMemo κ σ)
  | [], memo => .ok ([], memo)
  | item :: rest, memo => do
    let first ← check capacity keyOf same verify item memo
    let others ← checkAll rest first.2
    return (first.1 :: others.1, others.2)

/-- A memo that holds accepted items of a sequence, under their keys. -/
structure Remembers (seen : List (Item σ)) (memo : BoundedMemo κ σ) : Prop where
  coherent : memo.Coherent
  bounded : memo.entries.length ≤ capacity
  accepted : ∀ entry ∈ memo.entries,
    entry.1 = keyOf entry.2.value ∧ entry.2 ∈ seen ∧ verify entry.2.value = .ok ()

/-- An earlier value that is taken for a later one is that value. -/
def SameContent (earlier later : Item σ) : Prop :=
  same earlier.value later.value = true → earlier.value = later.value

variable {capacity keyOf same verify} {seen : List (Item σ)} {memo : BoundedMemo κ σ}

theorem remembers_empty : Remembers capacity keyOf verify [] (empty : BoundedMemo κ σ) :=
  ⟨coherent_empty, Nat.zero_le _, fun _ h => absurd h List.not_mem_nil⟩

theorem Remembers.mono (h : Remembers capacity keyOf verify seen memo) (item : Item σ) :
    Remembers capacity keyOf verify (seen ++ [item]) memo :=
  ⟨h.coherent, h.bounded, fun entry hmem =>
    let ⟨hkey, hseen, hok⟩ := h.accepted entry hmem
    ⟨hkey, List.mem_append_left _ hseen, hok⟩⟩

/-- A check raises nothing and remembers what it accepts. Its verdict is that of the full
verification unless the memo takes an earlier value for another. -/
theorem Remembers.check (h : Remembers capacity keyOf verify seen memo) (same : σ → σ → Bool)
    (item : Item σ) :
    ∃ verdict later, BoundedMemo.check capacity keyOf same verify item memo = .ok (verdict, later) ∧
      Remembers capacity keyOf verify (seen ++ [item]) later ∧
      ((∀ earlier ∈ seen, SameContent same earlier item) → verdict = verify item.value) := by
  by_cases hhit : memo.verified same (keyOf item.value) item.value = true
  · obtain ⟨entry,hentry,_,hsame⟩ := (h.coherent.verified_iff same _ _).mp hhit
    obtain ⟨_,hseen,hok⟩ := h.accepted entry hentry
    refine ⟨.ok (), memo, ?_, h.mono item, fun hcontent => ?_⟩
    · rw [BoundedMemo.check, if_pos hhit]
    · rw [← hcontent entry.2 hseen hsame, hok]
  · cases hverify : verify item.value with
    | error message =>
      refine ⟨.error message, memo, ?_, h.mono item, fun _ => rfl⟩
      rw [BoundedMemo.check, if_neg hhit, hverify]
    | ok =>
      obtain ⟨later,hlater,hcoherent,hbounded,hsuffix⟩ :=
        h.coherent.record capacity (keyOf item.value) item
      refine ⟨.ok (), later, ?_, ⟨hcoherent, hbounded, fun entry hmem => ?_⟩, fun _ => rfl⟩
      · rw [BoundedMemo.check, if_neg hhit, hverify, hlater]
        rfl
      · cases List.mem_append.mp (hsuffix.subset hmem) with
        | inl hold => exact (h.mono item).accepted entry hold
        | inr hnew =>
          rw [List.mem_singleton] at hnew
          subst hnew
          exact ⟨rfl, List.mem_append_right _ List.mem_cons_self, hverify⟩

/-- A sequence of checks raises nothing. Its verdicts are those of the full verification when
no value of it is taken for a later one that differs. -/
theorem Remembers.checkAll (h : Remembers capacity keyOf verify seen memo)
    (same : σ → σ → Bool) (items : List (Item σ)) :
    ∃ verdicts later,
      BoundedMemo.checkAll capacity keyOf same verify items memo = .ok (verdicts, later) ∧
      Remembers capacity keyOf verify (seen ++ items) later ∧
      ((seen ++ items).Pairwise (SameContent same) →
        verdicts = items.map fun item => verify item.value) := by
  induction items generalizing seen memo with
  | nil => exact ⟨[], memo, rfl, by rwa [List.append_nil], fun _ => rfl⟩
  | cons item rest ih =>
    obtain ⟨verdict,next,hfirst,hnext,hverdict⟩ := h.check same item
    obtain ⟨verdicts,last,hrest,hlast,hverdicts⟩ := ih hnext
    have hlist : seen ++ [item] ++ rest = seen ++ item :: rest := by simp
    rw [hlist] at hlast hverdicts
    refine ⟨verdict :: verdicts, last, ?_, hlast, fun hpairs => ?_⟩
    · rw [BoundedMemo.checkAll, hfirst, ok_bind, hrest]
      rfl
    · have hbefore := (List.pairwise_append.mp hpairs).2.2
      rw [hverdict fun earlier hmem => hbefore earlier hmem item List.mem_cons_self,
        hverdicts hpairs, List.map_cons]

theorem verified_empty (key : κ) (value : σ) :
    (empty : BoundedMemo κ σ).verified same key value = false := rfl

/-- A value that is taken for an accepted one is accepted after it, whatever it is. -/
theorem checkAll_taken {first second : Item σ} (hcapacity : 1 ≤ capacity)
    (hkey : keyOf first.value = keyOf second.value)
    (hsame : same first.value second.value = true) (hfirst : verify first.value = .ok ()) :
    ∃ memo, BoundedMemo.checkAll capacity keyOf same verify [first, second] empty =
      .ok ([.ok (), .ok ()], memo) := by
  let recorded : BoundedMemo κ σ :=
    ⟨[(keyOf first.value, first)], Dict.empty.set (keyOf first.value) [first]⟩
  have hrecord : record capacity (keyOf first.value) first empty = .ok recorded := by
    change evict capacity [(keyOf first.value, first)] _ = _
    rw [evict, if_pos (by simpa using hcapacity)]
    rfl
  have hcheck : BoundedMemo.check capacity keyOf same verify first empty =
      .ok (.ok (), recorded) := by
    rw [BoundedMemo.check, verified_empty, if_neg Bool.false_ne_true, hfirst, hrecord]
    rfl
  have hhit : recorded.verified same (keyOf second.value) second.value = true := by
    rw [verified, ← hkey, Dict.get?_set_self]
    simp [hsame]
  refine ⟨recorded, ?_⟩
  rw [BoundedMemo.checkAll, hcheck, ok_bind, BoundedMemo.checkAll, BoundedMemo.check, if_pos hhit]
  rfl

/-- A value on its own is verified. -/
theorem checkAll_refused {item : Item σ} {message : String}
    (hverify : verify item.value = .error message) :
    BoundedMemo.checkAll capacity keyOf same verify [item] empty =
      .ok ([.error message], empty) := by
  rw [BoundedMemo.checkAll, BoundedMemo.check, verified_empty, if_neg Bool.false_ne_true, hverify]
  rfl

end Checks

end BoundedMemo
end Whetstone.Lib
