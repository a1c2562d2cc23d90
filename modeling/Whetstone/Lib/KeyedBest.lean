import Whetstone.Lib.Dict
import Whetstone.Lib.FirstSeen
import Whetstone.Lib.Ranking
import Mathlib.Order.Defs.LinearOrder

/-! The best element of each key, ranked. Keys stand in the order in which they first occur, an
element gives way only to a strictly better one of its key, and the ranking is stable. -/
namespace Whetstone.Lib

variable {α κ R : Type} [DecidableEq κ] [LinearOrder R]
variable (key : α → κ) (score : α → R)

def keepBest (found : Dict κ α) (a : α) : Dict κ α :=
  match found.get? (key a) with
  | none => found.set (key a) a
  | some prior => if score prior < score a then found.set (key a) a else found

def bestByKey (l : List α) : Dict κ α := l.foldl (keepBest key score) Dict.empty

/-- The first element of its key that no other of the key exceeds. -/
structure FirstBest (l : List α) (a : α) : Prop where
  split : ∃ before after, l = before ++ a :: after ∧
    (∀ b ∈ before, key b = key a → score b < score a) ∧
      ∀ b ∈ after, key b = key a → score b ≤ score a

variable {key score}

theorem bestByKey_append (l : List α) (a : α) :
    bestByKey key score (l ++ [a]) = keepBest key score (bestByKey key score l) a := by
  rw [bestByKey, List.foldl_append]
  rfl

omit [DecidableEq κ] in
theorem FirstBest.mem {l : List α} {a : α} (h : FirstBest key score l a) : a ∈ l := by
  obtain ⟨before,after,rfl,_⟩ := h.split
  exact List.mem_append_right _ List.mem_cons_self

omit [DecidableEq κ] in
theorem FirstBest.le {l : List α} {a : α} (h : FirstBest key score l a) :
    ∀ b ∈ l, key b = key a → score b ≤ score a := by
  obtain ⟨before,after,rfl,hbefore,hafter⟩ := h.split
  intro b hb hkey
  rcases List.mem_append.mp hb with hb | hb
  · exact (hbefore b hb hkey).le
  · rcases List.mem_cons.mp hb with rfl | hb
    · exact le_refl _
    · exact hafter b hb hkey

omit [DecidableEq κ] in
theorem FirstBest.append_le {l : List α} {a b : α} (h : FirstBest key score l a)
    (hb : key b = key a → score b ≤ score a) : FirstBest key score (l ++ [b]) a := by
  obtain ⟨before,after,rfl,hbefore,hafter⟩ := h.split
  refine ⟨before, after ++ [b], by simp, hbefore, fun c hc => ?_⟩
  rcases List.mem_append.mp hc with hc | hc
  · exact hafter c hc
  · rw [List.mem_singleton.mp hc]
    exact hb

omit [DecidableEq κ] in
theorem firstBest_append {l : List α} {a : α} (h : ∀ b ∈ l, key b = key a → score b < score a) :
    FirstBest key score (l ++ [a]) a :=
  ⟨l, [], rfl, h, fun _ hb => absurd hb List.not_mem_nil⟩

/-- What a key holds is its first best, and a key that does not occur holds nothing. -/
theorem get?_bestByKey (key : α → κ) (score : α → R) (l : List α)
    (k : κ) :
    match (bestByKey key score l).get? k with
    | none => ∀ a ∈ l, key a ≠ k
    | some a => key a = k ∧ FirstBest key score l a := by
  induction l using List.reverseRecOn with
  | nil => exact fun _ h => absurd h List.not_mem_nil
  | append_singleton l a ih =>
    rw [bestByKey_append, keepBest]
    by_cases hk : k = key a
    · subst hk
      cases hfound : (bestByKey key score l).get? (key a) with
      | none =>
        rw [hfound] at ih
        simp only [Dict.get?_set_self]
        exact ⟨trivial, firstBest_append fun b hb hkey => absurd hkey (ih b hb)⟩
      | some prior =>
        rw [hfound] at ih
        obtain ⟨hkey,hbest⟩ := ih
        by_cases hlt : score prior < score a
        · simp only [if_pos hlt, Dict.get?_set_self]
          refine ⟨trivial, firstBest_append fun b hb hb' => ?_⟩
          exact (hbest.le b hb (hb'.trans hkey.symm)).trans_lt hlt
        · simp only [if_neg hlt, hfound]
          exact ⟨hkey, hbest.append_le fun _ => not_lt.mp hlt⟩
    · have hsame : (match (bestByKey key score l).get? (key a) with
          | none => (bestByKey key score l).set (key a) a
          | some prior => if score prior < score a then (bestByKey key score l).set (key a) a
            else bestByKey key score l).get? k = (bestByKey key score l).get? k := by
        cases (bestByKey key score l).get? (key a) with
        | none => exact Dict.get?_set_ne _ _ _ _ hk
        | some prior =>
          by_cases hlt : score prior < score a
          · simp only [if_pos hlt]
            exact Dict.get?_set_ne _ _ _ _ hk
          · simp only [if_neg hlt]
      rw [hsame]
      cases hfound : (bestByKey key score l).get? k with
      | none =>
        rw [hfound] at ih
        intro b hb
        rcases List.mem_append.mp hb with hb | hb
        · exact ih b hb
        · rw [List.mem_singleton.mp hb]
          exact Ne.symm hk
      | some b =>
        rw [hfound] at ih
        exact ⟨ih.1, ih.2.append_le fun h => absurd (ih.1.symm.trans h.symm) hk⟩

theorem keys_set (d : Dict κ α) (k : κ) (a : α) :
    (d.set k a).keys = if k ∈ d.keys then d.keys else d.keys ++ [k] :=
  Dict.keys_setPairs k a d.pairs

theorem keys_bestByKey (key : α → κ) (score : α → R) (l : List α) :
    (bestByKey key score l).keys = firstSeen (l.map key) := by
  induction l using List.reverseRecOn with
  | nil => rfl
  | append_singleton l a ih =>
    have hseen := firstSeen_append (l.map key) (key a)
    rw [bestByKey_append, keepBest, List.map_append, List.map_singleton, hseen, ← ih]
    cases hfound : (bestByKey key score l).get? (key a) with
    | none => exact keys_set _ _ _
    | some prior =>
      have hmem : key a ∈ (bestByKey key score l).keys := by
        by_contra hnot
        rw [(Dict.get?_eq_none_iff _ _).mpr hnot] at hfound
        cases hfound
      by_cases hlt : score prior < score a
      · simp only [if_pos hlt]
        exact keys_set _ _ _
      · simp only [if_neg hlt, if_pos hmem]

theorem values_bestByKey (key : α → κ) (score : α → R) (l : List α) :
    (bestByKey key score l).values.map key = firstSeen (l.map key) := by
  rw [← keys_bestByKey key score, Dict.keys, Dict.values, List.map_map]
  refine List.map_congr_left fun p hp => ?_
  have hget := (Dict.get?_eq_some_iff (bestByKey key score l) p.1 p.2).mpr hp
  have hspec := get?_bestByKey key score l p.1
  rw [hget] at hspec
  exact hspec.1

/-! ### The ranking -/

def rankByKey (key : α → κ) (score : α → R) (l : List α) : List α :=
  (bestByKey key score l).values.mergeSort fun a b => decide (score b ≤ score a)

/-- What a ranking says: each key once, by its first best, in descending order; of two that are
equal, the key that occurred first stands first. -/
structure Ranks (key : α → κ) (score : α → R) (l ranked : List α) : Prop where
  distinct : (ranked.map key).Nodup
  complete : ∀ k, k ∈ ranked.map key ↔ k ∈ l.map key
  best : ∀ a ∈ ranked, FirstBest key score l a
  descending : ranked.Pairwise fun a b => score b ≤ score a
  stable : ∀ a b, [a, b].Sublist ranked → score a ≤ score b →
    [key a, key b].Sublist (firstSeen (l.map key))

theorem mem_values_bestByKey {l : List α} {a : α} (h : a ∈ (bestByKey key score l).values) :
    FirstBest key score l a := by
  obtain ⟨k,hk⟩ := (Dict.mem_values_iff _ _).mp h
  have hspec := get?_bestByKey key score l k
  rw [hk] at hspec
  exact hspec.2

theorem rankedOn_score (score : α → R) (l : List α) :
    RankedOn (fun a b => decide (score b ≤ score a)) l where
  trans a _ b _ c _ hab hbc := by
    simp only [decide_eq_true_eq] at hab hbc ⊢
    exact hbc.trans hab
  total a _ b _ := by
    simp only [decide_eq_true_eq]
    exact le_total _ _

/- Of two members of a list without repetitions one stands before the other. -/
theorem pair_sublist_or {l : List α} {a b : α} (ha : a ∈ l) (hb : b ∈ l) (hne : a ≠ b) :
    [a, b].Sublist l ∨ [b, a].Sublist l := by
  induction l with
  | nil => cases ha
  | cons c rest ih =>
    rcases List.mem_cons.mp ha with hac | hamem
    · subst hac
      exact .inl ((List.singleton_sublist.mpr (List.mem_of_ne_of_mem hne.symm hb)).cons_cons a)
    · rcases List.mem_cons.mp hb with hbc | hbmem
      · subst hbc
        exact .inr ((List.singleton_sublist.mpr hamem).cons_cons b)
      · exact (ih hamem hbmem).imp (fun h => h.cons c) fun h => h.cons c

theorem not_pair_sublist {l : List α} {a b : α} (hl : l.Nodup) (h : [a, b].Sublist l) :
    ¬ [b, a].Sublist l := by
  induction l with
  | nil => cases h
  | cons c rest ih =>
    obtain ⟨hc,hrest⟩ := List.nodup_cons.mp hl
    intro hback
    rcases List.cons_sublist_cons'.mp h with hab | ⟨hac,hb⟩
    · rcases List.cons_sublist_cons'.mp hback with hba | ⟨hbc,_⟩
      · exact ih hrest hab hba
      · exact hc (hbc ▸ hab.subset (by simp))
    · rcases List.cons_sublist_cons'.mp hback with hba | ⟨hbc,ha⟩
      · exact hc (hac ▸ hba.subset (by simp))
      · exact hc (hac ▸ ha.subset (by simp))

theorem rankByKey_ranks (l : List α) : Ranks key score l (rankByKey key score l) := by
  have hperm : (rankByKey key score l).Perm (bestByKey key score l).values :=
    List.mergeSort_perm _ _
  have hkeys := values_bestByKey key score l
  have hdistinct : ((rankByKey key score l).map key).Nodup := by
    rw [(hperm.map key).nodup_iff, hkeys]
    exact firstSeen_nodup _
  refine ⟨hdistinct, fun k => ?_, fun a ha => mem_values_bestByKey (hperm.mem_iff.mp ha), ?_, ?_⟩
  · rw [(hperm.map key).mem_iff, hkeys, mem_firstSeen]
  · have hsorted := (rankedOn_score score (bestByKey key score l).values).pairwise
    exact hsorted.imp fun hab => of_decide_eq_true hab
  · intro a b hab hle
    have hnodup : (rankByKey key score l).Nodup := List.Nodup.of_map key hdistinct
    have hne : a ≠ b := by
      rintro rfl
      exact (List.nodup_cons.mp (hab.nodup hnodup)).1 List.mem_cons_self
    have ha := hperm.mem_iff.mp (hab.subset (by simp : a ∈ [a, b]))
    have hb := hperm.mem_iff.mp (hab.subset (by simp : b ∈ [a, b]))
    rcases pair_sublist_or ha hb hne with h | h
    · have hmap := h.map key
      rwa [hkeys] at hmap
    · -- the sort is stable, so `b` would stay before `a`
      have hsort := (rankedOn_score score (bestByKey key score l).values).pair_sublist
        (decide_eq_true hle) h
      exact absurd hsort (not_pair_sublist hnodup hab)

omit [DecidableEq κ] in
theorem FirstBest.unique {l : List α} {a b : α} (ha : FirstBest key score l a)
    (hb : FirstBest key score l b) (hkey : key a = key b) : a = b := by
  obtain ⟨before,after,hl,hbefore,hafter⟩ := ha.split
  obtain ⟨before',after',hl',hbefore',hafter'⟩ := hb.split
  rcases List.append_eq_append_iff.mp (hl.symm.trans hl') with ⟨c,hc,hrest⟩ | ⟨c,hc,hrest⟩
  · cases c with
    | nil =>
      rw [List.nil_append, List.cons.injEq] at hrest
      exact hrest.1
    | cons x c =>
      rw [List.cons_append, List.cons.injEq] at hrest
      have hlt := hbefore' a (by rw [hc, hrest.1]; simp) hkey
      exact absurd (ha.le b hb.mem hkey.symm) (not_le.mpr hlt)
  · cases c with
    | nil =>
      rw [List.nil_append, List.cons.injEq] at hrest
      exact hrest.1.symm
    | cons x c =>
      rw [List.cons_append, List.cons.injEq] at hrest
      have hlt := hbefore b (by rw [hc, hrest.1]; simp) hkey.symm
      exact absurd (hb.le a ha.mem hkey) (not_le.mpr hlt)

theorem Ranks.subset {l ranked ranked' : List α} (h : Ranks key score l ranked)
    (h' : Ranks key score l ranked') {a : α} (ha : a ∈ ranked) : a ∈ ranked' := by
  have hkey := (h'.complete _).mpr ((h.complete _).mp (List.mem_map_of_mem ha))
  obtain ⟨b,hb,hba⟩ := List.mem_map.mp hkey
  rwa [(h.best a ha).unique (h'.best b hb) hba.symm]

theorem Ranks.pairwise {l ranked : List α} (h : Ranks key score l ranked) :
    ranked.Pairwise fun a b => score b ≤ score a ∧
      (score a ≤ score b → [key a, key b].Sublist (firstSeen (l.map key))) := by
  rw [List.pairwise_iff_forall_sublist]
  intro a b hab
  exact ⟨List.pairwise_iff_forall_sublist.mp h.descending hab, h.stable a b hab⟩

/-- A list is ranked in one way only. -/
theorem Ranks.unique {l ranked ranked' : List α} (h : Ranks key score l ranked)
    (h' : Ranks key score l ranked') : ranked = ranked' := by
  have hperm : ranked.Perm ranked' :=
    (List.perm_ext_iff_of_nodup (h.distinct.of_map key) (h'.distinct.of_map key)).mpr
      fun a => ⟨h.subset h', h'.subset h⟩
  refine hperm.eq_of_pairwise ?_ h.pairwise h'.pairwise
  intro a b _ _ hab hba
  exact absurd (hba.2 hab.1) (not_pair_sublist (firstSeen_nodup _) (hab.2 hba.1))

theorem ranks_iff {l ranked : List α} : Ranks key score l ranked ↔
    ranked = rankByKey key score l :=
  ⟨fun h => h.unique (rankByKey_ranks l), fun h => h ▸ rankByKey_ranks l⟩

end Whetstone.Lib
