import Whetstone.Eval.DerivedSampling
import Whetstone.Lib.Frontier
import Mathlib.Order.Defs.LinearOrder
import Mathlib.Algebra.Order.Ring.Rat

/-! Objectives and the Pareto front. A value is an integer or a finite float; both compare
exactly, and only their order is read, so the values are those of any linear order. -/
namespace Whetstone.Experiment
open Whetstone.Core Whetstone.Lib

inductive Direction where
  | maximize
  | minimize
deriving DecidableEq, Inhabited

def Direction.value : Direction → String
  | .maximize => "maximize"
  | .minimize => "minimize"

def reservedObjectiveNames : List String := ["reward"]

/- `name.lower()` on ASCII: no other character has a letter of a reserved name as its lower case. -/
def lowerName (name : String) : String := String.ofList (name.toList.map Char.toLower)

def rejectRewardName (name : String) : Except String Unit :=
  raiseIf (lowerName name ∈ reservedObjectiveNames)
    ("'" ++ name ++ "' is a reserved Reward name and can never be an Objective; Reward is " ++
      "optimizer-facing, not an official selection criterion")

inductive ObjectiveDerivationSource where
  | score
  | aggregate
deriving DecidableEq, Inhabited

def validateDerivation (sourceName derivationId : String) : Except String Unit := do
  raiseIf (sourceName = "") "ObjectiveDerivation source_name must be set"
  raiseIf (derivationId = "") "ObjectiveDerivation derivation_id must be set"

structure ObjectiveDerivation where
  source : ObjectiveDerivationSource
  sourceName : String
  graphHash : Option String
  evalConfigHash : Option String
  derivationId : String
  valid : validateDerivation sourceName derivationId = .ok ()
deriving DecidableEq

def validateObjective (name : String) : Except String Unit := do
  raiseIf (name = "") "Objective name must be non-empty"
  rejectRewardName name

variable {V : Type} [LinearOrder V]

structure Objective (V : Type) where
  name : String
  value : V
  direction : Direction
  derivation : ObjectiveDerivation
  valid : validateObjective name = .ok ()
deriving DecidableEq

def validateObjectives (names : List String) : Except String Unit := do
  raiseIf (names = []) "an Objective Vector must have >=1 Objective"
  raiseIf (¬ names.Nodup) "Objective Vector names must be unique"

structure ObjectiveVector (V : Type) where
  objectives : List (Objective V)
  valid : validateObjectives (objectives.map Objective.name) = .ok ()
deriving DecidableEq

namespace ObjectiveVector

def names (vector : ObjectiveVector V) : List String := vector.objectives.map Objective.name

def directions (vector : ObjectiveVector V) : List Direction :=
  vector.objectives.map Objective.direction

def values (vector : ObjectiveVector V) : List V := vector.objectives.map Objective.value

end ObjectiveVector

inductive TieBehavior where
  | stableIndex
deriving DecidableEq, Inhabited

def reprDirections (directions : List Direction) : String :=
  match directions.map fun direction => "<Direction." ++
      (match direction with | .maximize => "MAXIMIZE" | .minimize => "MINIMIZE") ++ ": '" ++
      direction.value ++ "'>" with
  | [text] => "(" ++ text ++ ",)"
  | texts => "(" ++ ", ".intercalate texts ++ ")"

/- One turn of the loop on (`no_worse_everywhere`, `strictly_better_somewhere`). -/
def compareObjective (found : Bool × Bool) (pair : Objective V × Objective V) : Bool × Bool :=
  match pair.1.direction with
  | .maximize =>
    if pair.1.value < pair.2.value then (false, found.2)
    else if pair.2.value < pair.1.value then (found.1, true) else found
  | .minimize =>
    if pair.2.value < pair.1.value then (false, found.2)
    else if pair.1.value < pair.2.value then (found.1, true) else found

def dominance (a b : ObjectiveVector V) : Bool :=
  let found := (a.objectives.zip b.objectives).foldl compareObjective (true, false)
  found.1 && found.2

def dominates (a b : ObjectiveVector V) : Except String Bool := do
  raiseIf (a.names ≠ b.names)
    ("dominance requires identical objective names in the same order: " ++
      Eval.reprTuple a.names ++ " != " ++ Eval.reprTuple b.names)
  raiseIf (a.directions ≠ b.directions)
    ("dominance requires identical objective directions: " ++
      reprDirections a.directions ++ " != " ++ reprDirections b.directions)
  return dominance a b

structure ParetoMember (V : Type) where
  originalIndex : Nat
  candidateId : String
  vector : ObjectiveVector V
  valid : candidateId ≠ ""
deriving DecidableEq

def ParetoMember.create (originalIndex : Nat) (candidateId : String) (vector : ObjectiveVector V) :
    Except String (ParetoMember V) :=
  if h : candidateId ≠ "" then .ok ⟨originalIndex, candidateId, vector, h⟩
  else .error "candidate_id must be non-empty"

def checkMembers (names : List String) (directions : List Direction) (prior : Int) :
    List (ParetoMember V) → Except String Unit
  | [] => .ok ()
  | member :: rest => do
    raiseIf ((member.originalIndex : Int) ≤ prior)
      "Pareto Front members must be in strictly ascending original-index (stable) order"
    raiseIf (member.vector.names ≠ names)
      "Pareto member vector names must match the front's declared objective names"
    raiseIf (member.vector.directions ≠ directions)
      "Pareto member vector directions must match the front's declared objective directions"
    checkMembers names directions member.originalIndex rest

def validateFront (names : List String) (directions : List Direction)
    (members : List (ParetoMember V)) : Except String Unit := do
  raiseIf (names.length ≠ directions.length)
    "objective_names and objective_directions must align"
  checkMembers names directions (-1) members

structure ParetoFront (V : Type) where
  objectiveNames : List String
  objectiveDirections : List Direction
  tieBehavior : TieBehavior
  members : List (ParetoMember V)
  valid : validateFront objectiveNames objectiveDirections members = .ok ()

def ParetoFront.create (names : List String) (directions : List Direction) (tie : TieBehavior)
    (members : List (ParetoMember V)) : Except String (ParetoFront V) :=
  match h : validateFront names directions members with
  | .ok () => .ok ⟨names, directions, tie, members, h⟩
  | .error message => .error message

def checkShared (names : List String) (directions : List Direction)
    (candidate : String × ObjectiveVector V) : Except String Unit := do
  raiseIf (candidate.2.names ≠ names)
    ("all candidate vectors must share the same ordered objective names: " ++
      Eval.reprTuple candidate.2.names ++ " != " ++ Eval.reprTuple names)
  raiseIf (candidate.2.directions ≠ directions)
    ("all candidate vectors must share the same objective directions: " ++
      reprDirections candidate.2.directions ++ " != " ++ reprDirections directions)

def collectMembers (candidates : List (String × ObjectiveVector V)) :
    List ((String × ObjectiveVector V) × Nat) → Except String (List (ParetoMember V))
  | [] => .ok []
  | (candidate, index) :: rest => do
    let dominated ← (candidates.zipIdx.filter fun other => other.2 ≠ index).anyM
      fun other => dominates other.1.2 candidate.2
    if dominated then collectMembers candidates rest
    else do
      let member ← ParetoMember.create index candidate.1 candidate.2
      let members ← collectMembers candidates rest
      return member :: members

def paretoFront (candidates : List (String × ObjectiveVector V)) (tieBehavior : TieBehavior) :
    Except String (ParetoFront V) :=
  match candidates with
  | [] => .error "pareto_front requires at least one candidate"
  | first :: _ => do
    candidates.forM (checkShared first.2.names first.2.directions)
    let members ← collectMembers candidates candidates.zipIdx
    ParetoFront.create first.2.names first.2.directions tieBehavior members

/-! ### Dominance as a strict order -/

def betterIn (pair : Objective V × Objective V) : Bool :=
  match pair.1.direction with
  | .maximize => decide (pair.2.value < pair.1.value)
  | .minimize => decide (pair.1.value < pair.2.value)

def worseIn (pair : Objective V × Objective V) : Bool :=
  match pair.1.direction with
  | .maximize => decide (pair.1.value < pair.2.value)
  | .minimize => decide (pair.2.value < pair.1.value)

theorem compareObjective_eq (found : Bool × Bool) (pair : Objective V × Objective V) :
    compareObjective found pair = (found.1 && !worseIn pair, found.2 || betterIn pair) := by
  unfold compareObjective worseIn betterIn
  cases pair.1.direction with
  | maximize =>
    rcases lt_trichotomy pair.1.value pair.2.value with h | h | h
    · simp [h, h.not_gt]
    · simp [h]
    · simp [h, h.not_gt]
  | minimize =>
    rcases lt_trichotomy pair.1.value pair.2.value with h | h | h
    · simp [h, h.not_gt]
    · simp [h]
    · simp [h, h.not_gt]

theorem foldl_compareObjective (pairs : List (Objective V × Objective V)) (found : Bool × Bool) :
    pairs.foldl compareObjective found =
      (found.1 && pairs.all fun pair => !worseIn pair, found.2 || pairs.any betterIn) := by
  induction pairs generalizing found with
  | nil => simp
  | cons pair rest ih =>
    rw [List.foldl_cons, ih, compareObjective_eq, List.all_cons, List.any_cons, Bool.and_assoc,
      Bool.or_assoc]

/-- Dominance position by position: nowhere worse and somewhere better. -/
theorem dominance_iff (a b : ObjectiveVector V) : dominance a b = true ↔
    (∀ (i : Nat) x y, a.objectives[i]? = some x → b.objectives[i]? = some y →
        worseIn (x, y) = false) ∧
      ∃ (i : Nat) (x y : Objective V), a.objectives[i]? = some x ∧ b.objectives[i]? = some y ∧
        betterIn (x, y) = true := by
  have hmem : ∀ x y, (x, y) ∈ a.objectives.zip b.objectives ↔
      ∃ i : Nat, a.objectives[i]? = some x ∧ b.objectives[i]? = some y := by
    intro x y
    rw [List.mem_iff_getElem?]
    exact exists_congr fun i => List.getElem?_zip_eq_some
  simp only [dominance, foldl_compareObjective, Bool.true_and, Bool.false_or, Bool.and_eq_true,
    List.all_eq_true, List.any_eq_true, Bool.not_eq_true', Prod.forall, Prod.exists, hmem]
  constructor
  · intro h
    obtain ⟨hall,x,y,⟨i,hx,hy⟩,hbetter⟩ := h
    exact ⟨fun i x y hx hy => hall x y ⟨i, hx, hy⟩, i, x, y, hx, hy, hbetter⟩
  · intro h
    obtain ⟨hall,i,x,y,hx,hy,hbetter⟩ := h
    refine ⟨?_, x, y, ⟨i, hx, hy⟩, hbetter⟩
    intro x y hex
    obtain ⟨i,hx,hy⟩ := hex
    exact hall i x y hx hy

omit [LinearOrder V] in
theorem direction_eq {a b : ObjectiveVector V} (h : a.directions = b.directions) {i : Nat}
    {x y : Objective V} (hx : a.objectives[i]? = some x) (hy : b.objectives[i]? = some y) :
    x.direction = y.direction := by
  have hi : a.directions[i]? = b.directions[i]? := by rw [h]
  simp only [ObjectiveVector.directions, List.getElem?_map, hx, hy, Option.map_some] at hi
  exact Option.some.inj hi

omit [LinearOrder V] in
theorem exists_between {a b : ObjectiveVector V} (h : a.directions = b.directions) {i : Nat}
    {x : Objective V} (hx : a.objectives[i]? = some x) : ∃ y, b.objectives[i]? = some y := by
  have hlength := congrArg List.length h
  rw [ObjectiveVector.directions, ObjectiveVector.directions, List.length_map,
    List.length_map] at hlength
  have hi : i < b.objectives.length := hlength ▸ (List.getElem?_eq_some_iff.mp hx).1
  exact ⟨_, List.getElem?_eq_getElem hi⟩

theorem worseIn_trans {x y z : Objective V} (hxy : x.direction = y.direction)
    (h1 : worseIn (x, y) = false) (h2 : worseIn (y, z) = false) : worseIn (x, z) = false := by
  unfold worseIn at h1 h2 ⊢
  rw [← hxy] at h2
  cases hd : x.direction with
  | maximize =>
    simp only [hd, decide_eq_false_iff_not, not_lt] at h1 h2 ⊢
    exact h2.trans h1
  | minimize =>
    simp only [hd, decide_eq_false_iff_not, not_lt] at h1 h2 ⊢
    exact h1.trans h2

theorem betterIn_trans {x y z : Objective V} (hxy : x.direction = y.direction)
    (h1 : betterIn (x, y) = true) (h2 : worseIn (y, z) = false) : betterIn (x, z) = true := by
  unfold betterIn at h1 ⊢
  unfold worseIn at h2
  rw [← hxy] at h2
  cases hd : x.direction with
  | maximize =>
    simp only [hd, decide_eq_false_iff_not, not_lt, decide_eq_true_eq] at h1 h2 ⊢
    exact lt_of_le_of_lt h2 h1
  | minimize =>
    simp only [hd, decide_eq_false_iff_not, not_lt, decide_eq_true_eq] at h1 h2 ⊢
    exact lt_of_lt_of_le h1 h2

theorem dominance_irrefl (a : ObjectiveVector V) : dominance a a = false := by
  rw [Bool.eq_false_iff]
  intro h
  obtain ⟨_,i,x,y,hx,hy,hbetter⟩ := (dominance_iff a a).mp h
  have hsame : x = y := Option.some.inj (hx.symm.trans hy)
  subst hsame
  cases hd : x.direction <;> simp [betterIn, hd] at hbetter

theorem dominance_trans {a b c : ObjectiveVector V} (hab : a.directions = b.directions)
    (h1 : dominance a b = true) (h2 : dominance b c = true) (hbc : b.directions = c.directions) :
    dominance a c = true := by
  rw [dominance_iff] at h1 h2 ⊢
  obtain ⟨hnw1,i,x,y,hx,hy,hbetter⟩ := h1
  constructor
  · intro j x z hx hz
    obtain ⟨y,hy⟩ := exists_between hab hx
    exact worseIn_trans (direction_eq hab hx hy) (hnw1 j x y hx hy) (h2.1 j y z hy hz)
  · obtain ⟨z,hz⟩ := exists_between hbc hy
    exact ⟨i, x, z, hx, hz, betterIn_trans (direction_eq hab hx hy) hbetter (h2.1 i y z hy hz)⟩

omit [LinearOrder V] in
theorem exists_equal {a b : ObjectiveVector V} (h : a.values = b.values) {i : Nat}
    {y : Objective V} (hy : b.objectives[i]? = some y) :
    ∃ x, a.objectives[i]? = some x ∧ x.value = y.value := by
  have hi : a.values[i]? = b.values[i]? := by rw [h]
  rw [ObjectiveVector.values, ObjectiveVector.values, List.getElem?_map, List.getElem?_map, hy,
    Option.map_some] at hi
  obtain ⟨x,hx,hvalue⟩ := Option.map_eq_some_iff.mp hi
  exact ⟨x, hx, hvalue⟩

/- Dominance reads only the values of the dominated vector. -/
theorem dominance_of_values {a b : ObjectiveVector V} (h : a.values = b.values)
    {c : ObjectiveVector V} (hca : dominance c a = true) : dominance c b = true := by
  rw [dominance_iff] at hca ⊢
  obtain ⟨hnw,i,z,x,hz,hx,hbetter⟩ := hca
  constructor
  · intro j z y hz hy
    obtain ⟨x,hx,hvalue⟩ := exists_equal h hy
    have hxz := hnw j z x hz hx
    unfold worseIn at hxz ⊢
    rwa [hvalue] at hxz
  · obtain ⟨y,hy,hvalue⟩ := exists_equal h.symm hx
    refine ⟨i, z, y, hz, hy, ?_⟩
    unfold betterIn at hbetter ⊢
    rwa [← hvalue] at hbetter

theorem dominance_values {a b : ObjectiveVector V} (h : a.values = b.values)
    (c : ObjectiveVector V) : dominance c a = dominance c b := by
  rw [Bool.eq_iff_iff]
  exact ⟨dominance_of_values h, dominance_of_values h.symm⟩

/-! ### The front of a list of candidates -/

/- Candidates that share the names and directions of their objectives. -/
def SharedShape (names : List String) (directions : List Direction)
    (candidates : List (String × ObjectiveVector V)) : Prop :=
  ∀ c ∈ candidates, c.2.names = names ∧ c.2.directions = directions

def candidateAbove (a b : String × ObjectiveVector V) : Bool := dominance a.2 b.2

section Front
variable {names : List String} {directions : List Direction}
variable {candidates : List (String × ObjectiveVector V)}

theorem dominates_shared (h : SharedShape names directions candidates)
    {a b : String × ObjectiveVector V} (ha : a ∈ candidates) (hb : b ∈ candidates) :
    dominates a.2 b.2 = .ok (candidateAbove a b) := by
  obtain ⟨hna,hda⟩ := h a ha
  obtain ⟨hnb,hdb⟩ := h b hb
  rw [dominates, raiseIf_neg _ _ (not_not.mpr (hna.trans hnb.symm)), ok_bind,
    raiseIf_neg _ _ (not_not.mpr (hda.trans hdb.symm))]
  rfl

theorem SharedShape.strict (h : SharedShape names directions candidates) :
    StrictOn candidateAbove candidates where
  irrefl a _ := dominance_irrefl a.2
  trans a ha b hb c hc hab hbc :=
    dominance_trans ((h a ha).2.trans (h b hb).2.symm) hab hbc ((h b hb).2.trans (h c hc).2.symm)

omit [LinearOrder V] in
theorem checkShared_ok (h : SharedShape names directions candidates) :
    candidates.forM (checkShared names directions) = .ok () := by
  rw [forM_eq_ok]
  intro c hc
  rw [checkShared, raiseIf_bind_eq_ok, raiseIf_eq_ok]
  exact ⟨not_not.mpr (h c hc).1, not_not.mpr (h c hc).2⟩

/- A member as the candidate it stands for, with its position. -/
def ParetoMember.shown (member : ParetoMember V) : (String × ObjectiveVector V) × Nat :=
  ((member.candidateId, member.vector), member.originalIndex)

omit [LinearOrder V] in
theorem create_shown {index : Nat} {candidate : String × ObjectiveVector V}
    {member : ParetoMember V} :
    ParetoMember.create index candidate.1 candidate.2 = .ok member ↔
      member.shown = (candidate, index) := by
  constructor
  · intro h
    unfold ParetoMember.create at h
    split at h
    · cases h
      rfl
    · cases h
  · intro h
    have hindex : member.originalIndex = index := congrArg Prod.snd h
    have hcandidate : (member.candidateId, member.vector) = candidate := congrArg Prod.fst h
    subst hindex hcandidate
    exact dif_pos member.valid

/-- The members are the candidates that the loop keeps, each with its position. -/
theorem collectMembers_eq_ok (h : SharedShape names directions candidates)
    (l : List ((String × ObjectiveVector V) × Nat)) (hl : ∀ p ∈ l, p.1 ∈ candidates)
    (members : List (ParetoMember V)) :
    collectMembers candidates l = .ok members ↔ members.map ParetoMember.shown =
      l.filter fun p => !(candidates.zipIdx.filter fun q => q.2 ≠ p.2).any
        fun q => candidateAbove q.1 p.1 := by
  induction l generalizing members with
  | nil =>
    rw [collectMembers, Except.ok.injEq, List.filter_nil, List.map_eq_nil_iff]
    exact eq_comm
  | cons p rest ih =>
    obtain ⟨candidate,index⟩ := p
    have hrest := ih fun q hq => hl q (List.mem_cons_of_mem _ hq)
    have hany : (candidates.zipIdx.filter fun other => other.2 ≠ index).anyM
        (fun other => dominates other.1.2 candidate.2) =
          .ok ((candidates.zipIdx.filter fun other => other.2 ≠ index).any
            fun other => candidateAbove other.1 candidate) := by
      apply anyM_ok
      intro other hother
      exact dominates_shared h (List.fst_mem_of_mem_zipIdx (List.mem_filter.mp hother).1)
        (hl _ List.mem_cons_self)
    rw [collectMembers, hany, ok_bind, List.filter_cons]
    cases (candidates.zipIdx.filter fun other => other.2 ≠ index).any
      fun other => candidateAbove other.1 candidate with
    | true => simpa using hrest members
    | false =>
      simp only [Bool.false_eq_true, if_false, Bool.not_false, if_true, bind_eq_ok]
      constructor
      · intro hmembers
        obtain ⟨member,hcreate,kept,hkept,hcons⟩ := hmembers
        cases hcons
        rw [List.map_cons, create_shown.mp hcreate, (hrest kept).mp hkept]
      · intro hshown
        cases members with
        | nil => cases hshown
        | cons member kept =>
          rw [List.map_cons, List.cons.injEq] at hshown
          exact ⟨member, create_shown.mpr hshown.1, kept, (hrest kept).mpr hshown.2, rfl⟩

omit [LinearOrder V] in
theorem exists_shown (l : List ((String × ObjectiveVector V) × Nat)) :
    (∃ members : List (ParetoMember V), members.map ParetoMember.shown = l) ↔
      ∀ p ∈ l, p.1.1 ≠ "" := by
  constructor
  · intro h p hp
    obtain ⟨members,rfl⟩ := h
    obtain ⟨member,_,rfl⟩ := List.mem_map.mp hp
    exact member.valid
  · intro h
    induction l with
    | nil => exact ⟨[], rfl⟩
    | cons p rest ih =>
      obtain ⟨members,hmembers⟩ := ih fun q hq => h q (List.mem_cons_of_mem _ hq)
      refine ⟨⟨p.2, p.1.1, p.1.2, h p List.mem_cons_self⟩ :: members, ?_⟩
      rw [List.map_cons, hmembers]
      rfl

omit [LinearOrder V] in
theorem checkMembers_ok (members : List (ParetoMember V)) (prior : Int)
    (hprior : ∀ member ∈ members, prior < member.originalIndex)
    (hordered : (members.map ParetoMember.originalIndex).Pairwise (· < ·))
    (hshape : ∀ member ∈ members, member.vector.names = names ∧
      member.vector.directions = directions) :
    checkMembers names directions prior members = .ok () := by
  induction members generalizing prior with
  | nil => rfl
  | cons member rest ih =>
    rw [List.map_cons, List.pairwise_cons] at hordered
    obtain ⟨hnames,hdirections⟩ := hshape member List.mem_cons_self
    have hlater := hprior member List.mem_cons_self
    rw [checkMembers, raiseIf_neg _ _ (not_le.mpr hlater), ok_bind,
      raiseIf_neg _ _ (not_not.mpr hnames), ok_bind, raiseIf_neg _ _ (not_not.mpr hdirections),
      ok_bind]
    apply ih
    · intro next hnext
      exact Int.ofNat_lt.mpr (hordered.1 _ (List.mem_map_of_mem hnext))
    · exact hordered.2
    · exact fun next hnext => hshape next (List.mem_cons_of_mem _ hnext)

theorem members_ordered {members : List (ParetoMember V)}
    (h : members.map ParetoMember.shown = frontier candidateAbove candidates) :
    (members.map ParetoMember.originalIndex).Pairwise (· < ·) := by
  have hindex : members.map ParetoMember.originalIndex =
      (frontier candidateAbove candidates).map Prod.snd := by
    rw [← h, List.map_map]
    rfl
  have hsub := (List.filter_sublist (l := candidates.zipIdx) (p := fun p =>
    !(candidates.zipIdx.filter fun q => q.2 ≠ p.2).any fun q => candidateAbove q.1 p.1)).map Prod.snd
  rw [List.zipIdx_map_snd] at hsub
  rw [hindex]
  exact List.Pairwise.sublist hsub List.pairwise_lt_range'

omit [LinearOrder V] in
theorem ParetoFront.create_eq_ok {tie : TieBehavior} {members : List (ParetoMember V)}
    {front : ParetoFront V} (h : ParetoFront.create names directions tie members = .ok front) :
    front.objectiveNames = names ∧ front.objectiveDirections = directions ∧
      front.tieBehavior = tie ∧ front.members = members := by
  unfold ParetoFront.create at h
  split at h
  · cases h
    exact ⟨rfl, rfl, rfl, rfl⟩
  · cases h

omit [LinearOrder V] in
theorem ParetoFront.create_ok (tie : TieBehavior) {members : List (ParetoMember V)}
    (hvalid : validateFront names directions members = .ok ()) :
    ParetoFront.create names directions tie members =
      .ok ⟨names, directions, tie, members, hvalid⟩ := by
  unfold ParetoFront.create
  split
  · rfl
  · rename_i message h
    rw [hvalid] at h
    cases h

/- What the loop collects is a front. -/
theorem members_valid (hne : candidates ≠ []) (h : SharedShape names directions candidates)
    {members : List (ParetoMember V)}
    (hshown : members.map ParetoMember.shown = frontier candidateAbove candidates) :
    validateFront names directions members = .ok () := by
  obtain ⟨first,hfirst⟩ := List.exists_mem_of_ne_nil candidates hne
  obtain ⟨hnames,hdirections⟩ := h first hfirst
  have halign : names.length = directions.length := by
    rw [← hnames, ← hdirections, ObjectiveVector.names, ObjectiveVector.directions,
      List.length_map, List.length_map]
  rw [validateFront, raiseIf_neg _ _ (not_not.mpr halign), ok_bind]
  apply checkMembers_ok
  · intro member _
    omega
  · exact members_ordered hshown
  · intro member hmember
    have hmem : member.shown ∈ frontier candidateAbove candidates :=
      hshown ▸ List.mem_map_of_mem hmember
    exact h _ (List.fst_mem_of_mem_zipIdx (List.mem_filter.mp hmem).1)

/-- What `paretoFront` returns: the frontier of the candidates under dominance. -/
theorem paretoFront_eq_ok (hne : candidates ≠ []) (h : SharedShape names directions candidates)
    (tie : TieBehavior) (front : ParetoFront V) :
    paretoFront candidates tie = .ok front ↔ front.objectiveNames = names ∧
      front.objectiveDirections = directions ∧ front.tieBehavior = tie ∧
      front.members.map ParetoMember.shown = frontier candidateAbove candidates := by
  have hpositions : ∀ p ∈ candidates.zipIdx, p.1 ∈ candidates :=
    fun p hp => List.fst_mem_of_mem_zipIdx hp
  have hfront : paretoFront candidates tie = (do
      let members ← collectMembers candidates candidates.zipIdx
      ParetoFront.create names directions tie members) := by
    cases candidates with
    | nil => exact absurd rfl hne
    | cons first rest =>
      obtain ⟨rfl,rfl⟩ := h first List.mem_cons_self
      rw [paretoFront, checkShared_ok h, ok_bind]
  rw [hfront, bind_eq_ok]
  constructor
  · intro hok
    obtain ⟨members,hcollect,hcreate⟩ := hok
    obtain ⟨h1,h2,h3,h4⟩ := ParetoFront.create_eq_ok hcreate
    exact ⟨h1, h2, h3, h4 ▸ (collectMembers_eq_ok h _ hpositions members).mp hcollect⟩
  · intro hfields
    obtain ⟨h1,h2,h3,hshown⟩ := hfields
    refine ⟨front.members, (collectMembers_eq_ok h _ hpositions _).mpr hshown, ?_⟩
    rw [ParetoFront.create_ok tie (members_valid hne h hshown)]
    cases front
    cases h1
    cases h2
    cases h3
    rfl

/- No candidate at another position dominates the one at position `i`. -/
def Undominated (candidates : List (String × ObjectiveVector V)) (i : Nat) : Prop :=
  ∀ c, candidates[i]? = some c → ∀ j d, j ≠ i → candidates[j]? = some d →
    dominates d.2 c.2 = .ok false

theorem undominated_iff (h : SharedShape names directions candidates) {i : Nat}
    {c : String × ObjectiveVector V} (hc : candidates[i]? = some c) :
    Undominated candidates i ↔ undominatedIn candidateAbove candidates c = true := by
  have hmem := List.mem_of_getElem? hc
  rw [undominatedIn_iff]
  constructor
  · intro hnone d hd
    obtain ⟨j,hj⟩ := List.mem_iff_getElem?.mp hd
    by_cases hji : j = i
    · subst hji
      rw [hc, Option.some.injEq] at hj
      exact hj ▸ dominance_irrefl c.2
    · have hdominates := hnone c hc j d hji hj
      rw [dominates_shared h hd hmem, Except.ok.injEq] at hdominates
      exact hdominates
  · intro hnone c' hc' j d _ hd
    rw [hc, Option.some.injEq] at hc'
    subst hc'
    have hdmem := List.mem_of_getElem? hd
    rw [dominates_shared h hdmem hmem, hnone d hdmem]

/-- What a front says of the candidates it was made of. -/
structure IsFrontOf (candidates : List (String × ObjectiveVector V)) (front : ParetoFront V) :
    Prop where
  nonempty : front.members ≠ []
  ordered : (front.members.map ParetoMember.originalIndex).Pairwise (· < ·)
  candidate : ∀ m ∈ front.members, candidates[m.originalIndex]? = some (m.candidateId, m.vector)
  exclusive : ∀ m ∈ front.members, ∀ m' ∈ front.members, dominates m.vector m'.vector = .ok false
  undominated : ∀ i < candidates.length,
    ((∃ m ∈ front.members, m.originalIndex = i) ↔ Undominated candidates i)
  ties : ∀ i j c d, candidates[i]? = some c → candidates[j]? = some d → c.2.values = d.2.values →
    ((∃ m ∈ front.members, m.originalIndex = i) ↔ ∃ m ∈ front.members, m.originalIndex = j)
  covered : ∀ i c, candidates[i]? = some c → (¬ ∃ m ∈ front.members, m.originalIndex = i) →
    ∃ m ∈ front.members, dominates m.vector c.2 = .ok true

/- The members of a front, read off their positions. -/
theorem member_shown (h : SharedShape names directions candidates) {front : ParetoFront V}
    (hshown : front.members.map ParetoMember.shown = frontier candidateAbove candidates)
    {m : ParetoMember V} (hm : m ∈ front.members) :
    candidates[m.originalIndex]? = some (m.candidateId, m.vector) ∧
      undominatedIn candidateAbove candidates (m.candidateId, m.vector) = true := by
  have hmem : m.shown ∈ frontier candidateAbove candidates := hshown ▸ List.mem_map_of_mem hm
  rw [h.strict.frontier_eq] at hmem
  obtain ⟨hpos,hfree⟩ := List.mem_filter.mp hmem
  exact ⟨List.mk_mem_zipIdx_iff_getElem?.mp hpos, hfree⟩

theorem mem_front_iff (h : SharedShape names directions candidates) {front : ParetoFront V}
    (hshown : front.members.map ParetoMember.shown = frontier candidateAbove candidates) {i : Nat}
    {c : String × ObjectiveVector V} (hc : candidates[i]? = some c) :
    (∃ m ∈ front.members, m.originalIndex = i) ↔
      undominatedIn candidateAbove candidates c = true := by
  constructor
  · intro hex
    obtain ⟨m,hm,rfl⟩ := hex
    obtain ⟨hget,hfree⟩ := member_shown h hshown hm
    rw [hc, Option.some.injEq] at hget
    exact hget ▸ hfree
  · intro hfree
    have hmem : (c, i) ∈ front.members.map ParetoMember.shown := by
      rw [hshown, h.strict.frontier_eq]
      exact List.mem_filter.mpr ⟨List.mk_mem_zipIdx_iff_getElem?.mpr hc, hfree⟩
    obtain ⟨m,hm,hsame⟩ := List.mem_map.mp hmem
    exact ⟨m, hm, congrArg Prod.snd hsame⟩

theorem undominatedIn_values {a b : String × ObjectiveVector V} (hvalues : a.2.values = b.2.values) :
    undominatedIn candidateAbove candidates a = undominatedIn candidateAbove candidates b := by
  have hsame : (fun c => candidateAbove c a) = fun c : String × ObjectiveVector V =>
      candidateAbove c b := funext fun c => dominance_values hvalues c.2
  rw [undominatedIn, undominatedIn, hsame]

theorem isFrontOf (hne : candidates ≠ []) (h : SharedShape names directions candidates)
    {front : ParetoFront V}
    (hshown : front.members.map ParetoMember.shown = frontier candidateAbove candidates) :
    IsFrontOf candidates front where
  nonempty := by
    obtain ⟨c,hc,hfree⟩ := h.strict.exists_undominated hne
    obtain ⟨i,hi⟩ := List.mem_iff_getElem?.mp hc
    obtain ⟨m,hm,_⟩ := (mem_front_iff h hshown hi).mpr hfree
    exact List.ne_nil_of_mem hm
  ordered := members_ordered hshown
  candidate m hm := (member_shown h hshown hm).1
  exclusive m hm m' hm' := by
    obtain ⟨hget,_⟩ := member_shown h hshown hm
    obtain ⟨hget',hfree'⟩ := member_shown h hshown hm'
    have hmem := List.mem_of_getElem? hget
    have hnone := (undominatedIn_iff _).mp hfree' _ hmem
    exact (dominates_shared h hmem (List.mem_of_getElem? hget')).trans (congrArg Except.ok hnone)
  undominated i hi := by
    have hget : candidates[i]? = some candidates[i] := List.getElem?_eq_getElem hi
    rw [mem_front_iff h hshown hget, undominated_iff h hget]
  ties i j c d hc hd hvalues := by
    rw [mem_front_iff h hshown hc, mem_front_iff h hshown hd, undominatedIn_values hvalues]
  covered i c hc hout := by
    rw [mem_front_iff h hshown hc] at hout
    have hmem := List.mem_of_getElem? hc
    cases h.strict.covered c hmem with
    | inl hfree => exact absurd hfree hout
    | inr hcover =>
      obtain ⟨d,hd,hfree,habove⟩ := hcover
      obtain ⟨j,hj⟩ := List.mem_iff_getElem?.mp hd
      obtain ⟨m,hm,hindex⟩ := (mem_front_iff h hshown hj).mpr hfree
      obtain ⟨hget,_⟩ := member_shown h hshown hm
      rw [hindex, hj, Option.some.injEq] at hget
      refine ⟨m, hm, ?_⟩
      have hdominates := dominates_shared h hd hmem
      rw [habove] at hdominates
      rw [hget] at hdominates
      exact hdominates

/- The candidates that no other dominates have an id. -/
def UndominatedNamed (candidates : List (String × ObjectiveVector V)) : Prop :=
  ∀ i c, candidates[i]? = some c → Undominated candidates i → c.1 ≠ ""

theorem undominatedNamed_iff (h : SharedShape names directions candidates) :
    UndominatedNamed candidates ↔
      ∀ c ∈ candidates, undominatedIn candidateAbove candidates c = true → c.1 ≠ "" := by
  constructor
  · intro hnamed c hc hfree
    obtain ⟨i,hi⟩ := List.mem_iff_getElem?.mp hc
    exact hnamed i c hi ((undominated_iff h hi).mpr hfree)
  · intro hnamed i c hi hfree
    exact hnamed c (List.mem_of_getElem? hi) ((undominated_iff h hi).mp hfree)

theorem paretoFront_exists (hne : candidates ≠ []) (h : SharedShape names directions candidates)
    (tie : TieBehavior) :
    (∃ front, paretoFront candidates tie = .ok front) ↔ UndominatedNamed candidates := by
  have hfilter : (∀ p ∈ frontier candidateAbove candidates, p.1.1 ≠ "") ↔
      UndominatedNamed candidates := by
    rw [undominatedNamed_iff h]
    have hforall : (∀ p ∈ frontier candidateAbove candidates, p.1.1 ≠ "") ↔
        ∀ c ∈ (frontier candidateAbove candidates).map Prod.fst, c.1 ≠ "" := by
      rw [List.forall_mem_map]
    rw [hforall, h.strict.map_frontier]
    exact ⟨fun hall c hc hfree => hall c (List.mem_filter.mpr ⟨hc, hfree⟩),
      fun hall c hc => hall c (List.mem_filter.mp hc).1 (List.mem_filter.mp hc).2⟩
  rw [← hfilter, ← exists_shown]
  constructor
  · intro hfront
    obtain ⟨front,hok⟩ := hfront
    exact ⟨front.members, ((paretoFront_eq_ok hne h tie front).mp hok).2.2.2⟩
  · intro hmembers
    obtain ⟨members,hshown⟩ := hmembers
    exact ⟨⟨names, directions, tie, members, members_valid hne h hshown⟩,
      (paretoFront_eq_ok hne h tie _).mpr ⟨rfl, rfl, rfl, hshown⟩⟩

/-- The front exists exactly when the candidates that no other dominates have ids. It is then the
undominated candidates, and those of a permuted list are the same candidates permuted. -/
theorem paretoFront_frontier (hne : candidates ≠ []) (h : SharedShape names directions candidates)
    (tie : TieBehavior) :
    ((∃ front, paretoFront candidates tie = .ok front) ↔ UndominatedNamed candidates) ∧
      ∀ front, paretoFront candidates tie = .ok front →
        front.objectiveNames = names ∧ front.objectiveDirections = directions ∧
          front.tieBehavior = tie ∧ IsFrontOf candidates front ∧
          ∀ candidates', candidates'.Perm candidates →
            ∃ front', paretoFront candidates' tie = .ok front' ∧ IsFrontOf candidates' front' ∧
              (front'.members.map fun m => (m.candidateId, m.vector)).Perm
                (front.members.map fun m => (m.candidateId, m.vector)) := by
  refine ⟨paretoFront_exists hne h tie, ?_⟩
  intro front hok
  obtain ⟨hnames,hdirections,htie,hshown⟩ := (paretoFront_eq_ok hne h tie front).mp hok
  refine ⟨hnames, hdirections, htie, isFrontOf hne h hshown, ?_⟩
  intro candidates' hperm
  have hne' : candidates' ≠ [] := fun hnil => hne (List.nil_perm.mp (hnil ▸ hperm))
  have h' : SharedShape names directions candidates' := fun c hc => h c (hperm.mem_iff.mp hc)
  have hnamed' : UndominatedNamed candidates' := by
    have hnamed := (undominatedNamed_iff h).mp ((paretoFront_exists hne h tie).mp ⟨front, hok⟩)
    rw [undominatedNamed_iff h', undominatedIn_perm hperm]
    exact fun c hc => hnamed c (hperm.mem_iff.mp hc)
  obtain ⟨front',hok'⟩ := (paretoFront_exists hne' h' tie).mpr hnamed'
  have hshown' := ((paretoFront_eq_ok hne' h' tie front').mp hok').2.2.2
  refine ⟨front', hok', isFrontOf hne' h' hshown', ?_⟩
  have hmembers : ∀ {l : List (String × ObjectiveVector V)} (hl : SharedShape names directions l)
      (f : ParetoFront V), f.members.map ParetoMember.shown = frontier candidateAbove l →
      (f.members.map fun m => (m.candidateId, m.vector)) =
        l.filter (undominatedIn candidateAbove l) := by
    intro l hl f hf
    rw [← hl.strict.map_frontier, ← hf, List.map_map]
    rfl
  rw [hmembers h front hshown, hmembers h' front' hshown', undominatedIn_perm hperm]
  exact hperm.filter _

end Front

section Example

def sampleDerivation : ObjectiveDerivation := ⟨.aggregate, "pass", none, none, "identity", rfl⟩

theorem accuracy_valid : validateObjective "accuracy" = .ok () := by decide

theorem cost_valid : validateObjective "cost" = .ok () := by decide

def sampleVector (accuracy cost : Rat) : ObjectiveVector Rat :=
  ⟨[⟨"accuracy", accuracy, .maximize, sampleDerivation, accuracy_valid⟩,
    ⟨"cost", cost, .minimize, sampleDerivation, cost_valid⟩], rfl⟩

/- The second candidate is as accurate as the first and costs more; the third repeats the first. -/
def sampleCandidates : List (String × ObjectiveVector Rat) :=
  [("first", sampleVector 1 2), ("dear", sampleVector 1 3), ("again", sampleVector 1 2)]

theorem sampleCandidates_shared :
    SharedShape ["accuracy", "cost"] [.maximize, .minimize] sampleCandidates := by
  simp [SharedShape, sampleCandidates, sampleVector, ObjectiveVector.names,
    ObjectiveVector.directions]

theorem paretoFront_frontier_sample :
    ∃ front, paretoFront sampleCandidates .stableIndex = .ok front ∧
      IsFrontOf sampleCandidates front := by
  have hspec := paretoFront_frontier (by simp [sampleCandidates]) sampleCandidates_shared
    .stableIndex
  obtain ⟨front,hok⟩ := hspec.1.mpr (by
    intro i c hc _
    have hmem := List.mem_of_getElem? hc
    simp only [sampleCandidates, List.mem_cons, List.not_mem_nil, or_false] at hmem
    rcases hmem with rfl | rfl | rfl <;> simp)
  exact ⟨front, hok, (hspec.2 front hok).2.2.2.1⟩

/-- A candidate without an id that nothing dominates has no front. -/
theorem unnamed_candidate_raises :
    paretoFront [("", sampleVector 1 2)] .stableIndex =
      .error "candidate_id must be non-empty" := rfl

end Example

end Whetstone.Experiment
