import Whetstone.Coordination.EvalClaims

/-! Valid claim streams: what the bindings of one intent's claim keys amount to, and the
order that every reader of the stream checks. -/
namespace Whetstone.Coordination
open Whetstone.Lib

variable {Intent Payload : Type}

abbrev Bindings (Intent Payload : Type) := Dict StoreKey (StoreObject Intent Payload)
abbrev Claim (Intent Payload : Type) := EvalIntentClaim Intent Payload

/-- The claim keys are bound to exactly these events, from ordinal zero and without a gap. -/
def Stream (b : Bindings Intent Payload) (events : List (Claim Intent Payload)) : Prop :=
  ∀ n, b.get? (.claim n) = (events[n]?).map .claim

def Renews (c d : Claim Intent Payload) : Prop :=
  d.ownerId = c.ownerId ∧ d.generation = c.generation ∧
    d.heartbeatOrdinal = c.heartbeatOrdinal + 1

def TakesOver (c d : Claim Intent Payload) : Prop :=
  d.ownerId ≠ c.ownerId ∧ d.generation = c.generation + 1 ∧ d.heartbeatOrdinal = 0

def Follows (c d : Claim Intent Payload) : Prop :=
  c.resultAttestationRef = none ∧ (Renews c d ∨ TakesOver c d)

structure ValidStream (intent : Intent) (events : List (Claim Intent Payload)) : Prop where
  identity : ∀ (n : Nat) (c : Claim Intent Payload), events[n]? = some c → c.intentRef = intent ∧ c.eventOrdinal = n
  origin : ∀ c : Claim Intent Payload, events[0]? = some c → c.generation = 0 ∧ c.heartbeatOrdinal = 0
  next : ∀ (n : Nat) (c d : Claim Intent Payload), events[n]? = some c → events[n + 1]? = some d → Follows c d

theorem validStream_nil (intent : Intent) :
    ValidStream intent ([] : List (Claim Intent Payload)) := by
  constructor
  · intro n c h
    simp at h
  · intro c h
    simp at h
  · intro n c d h
    simp at h

theorem Stream.get_iff {b : Bindings Intent Payload} {events : List (Claim Intent Payload)}
    (h : Stream b events) (n : Nat) (c : Claim Intent Payload) :
    b.get? (.claim n) = some (.claim c) ↔ events[n]? = some c := by
  rw [h n]
  cases events[n]? with
  | none => simp
  | some d => simp

theorem Stream.none_iff {b : Bindings Intent Payload} {events : List (Claim Intent Payload)}
    (h : Stream b events) (n : Nat) :
    b.get? (.claim n) = none ↔ events.length ≤ n := by
  rw [h n, Option.map_eq_none_iff, List.getElem?_eq_none_iff]

theorem Stream.unique {b : Bindings Intent Payload} {es es' : List (Claim Intent Payload)}
    (h : Stream b es) (h' : Stream b es') : es = es' := by
  apply List.ext_getElem?
  intro n
  have hn := (h n).symm.trans (h' n)
  cases he : es[n]? <;> cases he' : es'[n]? <;> simp_all

theorem Stream.last_of_bound {b : Bindings Intent Payload} {es : List (Claim Intent Payload)}
    (h : Stream b es) (n : Nat) (c : Claim Intent Payload)
    (hc : b.get? (.claim n) = some (.claim c)) (hnext : b.get? (.claim (n + 1)) = none) :
    es.getLast? = some c ∧ es.length = n + 1 := by
  have hn := (h.get_iff n c).mp hc
  have hle := (h.none_iff (n + 1)).mp hnext
  have hlt : n < es.length := (List.getElem?_eq_some_iff.mp hn).1
  have hlen : es.length = n + 1 := by omega
  refine ⟨?_, hlen⟩
  rw [List.getLast?_eq_getElem?, hlen]
  exact hn

theorem Stream.set_claim {b : Bindings Intent Payload} {es : List (Claim Intent Payload)}
    (h : Stream b es) (d : Claim Intent Payload) :
    Stream (b.set (.claim es.length) (.claim d)) (es ++ [d]) := by
  intro n
  rw [Dict.get?_set]
  by_cases hn : n = es.length
  · subst hn
    simp
  · have hne : (StoreKey.claim n) ≠ .claim es.length := by
      intro he
      injection he with he
      exact hn he
    rw [if_neg hne, h n]
    by_cases hlt : n < es.length
    · rw [List.getElem?_append_left hlt]
    · have h1 : es[n]? = none := List.getElem?_eq_none_iff.mpr (by omega)
      have h2 : (es ++ [d])[n]? = none :=
        List.getElem?_eq_none_iff.mpr (by rw [List.length_append, List.length_singleton]; omega)
      rw [h1, h2]

theorem Stream.set_resolution {b : Bindings Intent Payload} {es : List (Claim Intent Payload)}
    (h : Stream b es) (ref : StoreObject Intent Payload) :
    Stream (b.set .resolution ref) es := by
  intro n
  rw [Dict.get?_set_ne _ _ _ _ (by simp)]
  exact h n

theorem stream_empty : Stream (Dict.empty : Bindings Intent Payload) [] := by
  intro n
  rfl

/-- Appending an event that its predecessor admits keeps the stream valid. -/
theorem ValidStream.append {intent : Intent} {es : List (Claim Intent Payload)}
    (h : ValidStream intent es) (d : Claim Intent Payload)
    (hid : d.intentRef = intent) (hord : d.eventOrdinal = es.length)
    (horigin : es = [] → d.generation = 0 ∧ d.heartbeatOrdinal = 0)
    (hnext : ∀ c, es.getLast? = some c → Follows c d) : ValidStream intent (es ++ [d]) := by
  constructor
  · intro n c hc
    by_cases hn : n < es.length
    · rw [List.getElem?_append_left hn] at hc
      exact h.identity n c hc
    · rw [List.getElem?_append_right (by omega)] at hc
      have hz : n - es.length = 0 := by
        by_contra hne
        rw [List.getElem?_eq_none_iff.mpr (by simp; omega)] at hc
        cases hc
      rw [hz] at hc
      simp only [List.getElem?_cons_zero, Option.some.injEq] at hc
      subst hc
      exact ⟨hid, by omega⟩
  · intro c hc
    cases es with
    | nil =>
      simp only [List.nil_append, List.getElem?_cons_zero, Option.some.injEq] at hc
      subst hc
      exact horigin rfl
    | cons e rest =>
      simp only [List.cons_append, List.getElem?_cons_zero] at hc
      exact h.origin c (by simpa using hc)
  · intro n c e hc he
    have hlt : n + 1 < (es ++ [d]).length := (List.getElem?_eq_some_iff.mp he).1
    rw [List.length_append, List.length_singleton] at hlt
    rw [List.getElem?_append_left (by omega)] at hc
    by_cases hn : n + 1 < es.length
    · rw [List.getElem?_append_left hn] at he
      exact h.next n c e hc he
    · have hlen : es.length = n + 1 := by omega
      rw [← hlen, List.getElem?_concat_length] at he
      simp only [Option.some.injEq] at he
      subst he
      refine hnext c ?_
      rw [List.getLast?_eq_getElem?, hlen]
      exact hc

/-- An attested event is the last one. -/
theorem ValidStream.attested_last {intent : Intent} {es : List (Claim Intent Payload)}
    (h : ValidStream intent es) (n : Nat) (c : Claim Intent Payload) (hc : es[n]? = some c)
    (ha : c.resultAttestationRef ≠ none) : es.length = n + 1 := by
  have hlt : n < es.length := (List.getElem?_eq_some_iff.mp hc).1
  by_contra hne
  have hn : n + 1 < es.length := by omega
  exact ha (h.next n c es[n + 1] hc (List.getElem?_eq_getElem hn)).1

theorem ValidStream.generation_step {intent : Intent} {es : List (Claim Intent Payload)}
    (h : ValidStream intent es) (n : Nat) (c d : Claim Intent Payload) (hc : es[n]? = some c)
    (hd : es[n + 1]? = some d) :
    c.generation ≤ d.generation ∧ (c.generation = d.generation → c.ownerId = d.ownerId) := by
  obtain ⟨_,⟨ho,hg,_⟩ | ⟨_,hg,_⟩⟩ := h.next n c d hc hd
  · exact ⟨by omega, fun _ => ho.symm⟩
  · exact ⟨by omega, fun he => absurd he (by omega)⟩

/-- Generations never decrease along a valid stream, and one generation has one owner. -/
theorem ValidStream.generation_mono {intent : Intent} {es : List (Claim Intent Payload)}
    (h : ValidStream intent es) (i k : Nat) (c d : Claim Intent Payload) (hc : es[i]? = some c)
    (hd : es[i + k]? = some d) :
    c.generation ≤ d.generation ∧ (c.generation = d.generation → c.ownerId = d.ownerId) := by
  induction k generalizing d with
  | zero =>
    rw [Nat.add_zero, hc, Option.some.injEq] at hd
    subst hd
    exact ⟨le_refl _, fun _ => rfl⟩
  | succ k ih =>
    have hlt : i + (k + 1) < es.length := (List.getElem?_eq_some_iff.mp hd).1
    have hk : i + k < es.length := by omega
    have hmid : es[i + k]? = some es[i + k] := List.getElem?_eq_getElem hk
    obtain ⟨h1,h2⟩ := ih es[i + k] hmid
    obtain ⟨h3,h4⟩ := h.generation_step (i + k) es[i + k] d hmid hd
    refine ⟨le_trans h1 h3, fun he => ?_⟩
    have heq : c.generation = es[i + k].generation := by omega
    exact (h2 heq).trans (h4 (by omega))

/-- In a valid stream, all that stands between two events of one generation is that
generation's owner. -/
theorem ValidStream.owner_between {intent : Intent} {es : List (Claim Intent Payload)}
    (h : ValidStream intent es) (i j k : Nat) (hij : i ≤ j) (hjk : j ≤ k)
    (c d e : Claim Intent Payload) (hc : es[i]? = some c) (hd : es[j]? = some d)
    (he : es[k]? = some e) (hg : c.generation = e.generation) : d.ownerId = e.ownerId := by
  obtain ⟨a,rfl⟩ := Nat.exists_eq_add_of_le hij
  obtain ⟨b,rfl⟩ := Nat.exists_eq_add_of_le hjk
  have h1 := h.generation_mono i a c d hc hd
  have h2 := h.generation_mono (i + a) b d e hd he
  exact h2.2 (by omega)

section Reader

variable [DecidableEq Intent] [DecidableEq Payload]

omit [DecidableEq Payload] in
theorem checkClaim_none (intent : Intent) (n : Nat) (c : Claim Intent Payload) :
    checkClaim intent none n c = .ok () ↔
      c.intentRef = intent ∧ c.eventOrdinal = n ∧ c.generation = 0 ∧ c.heartbeatOrdinal = 0 := by
  simp only [checkClaim, raiseIf_bind_eq_ok, raiseIf_eq_ok, not_or, not_not, and_assoc]

omit [DecidableEq Payload] in
theorem checkClaim_some (intent : Intent) (n : Nat) (c d : Claim Intent Payload) :
    checkClaim intent (some c) n d = .ok () ↔
      d.intentRef = intent ∧ d.eventOrdinal = n ∧ Follows c d := by
  simp only [checkClaim, raiseIf_bind_eq_ok, not_or, not_not, Follows, Renews, TakesOver]
  by_cases ho : d.ownerId = c.ownerId
  · simp only [ho, if_true, raiseIf_eq_ok, not_or, not_not, true_and, ne_eq, not_true_eq_false,
      false_and, or_false, and_assoc]
  · simp only [ho, if_false, raiseIf_eq_ok, not_or, not_not, false_and, ne_eq, not_false_eq_true,
      true_and, false_or, and_assoc]

/- The store as a reader alone on it sees it. -/
def soloExec (l : Label) (o : StoreOp Intent Payload) (s : ClaimStore Intent Payload) :
    Option (o.Reply × ClaimStore Intent Payload) := execute l o .unit s

theorem loadClaim_alone (l : Label) (s : ClaimStore Intent Payload) (c : Claim Intent Payload)
    (h : .claim c ∈ s.objects) :
    (loadClaim (.claim c)).alone (soloExec l) s = some (.ok c, s) := by
  simp [loadClaim, Prog.perform, Prog.bind, Prog.alone, soloExec, execute, h]

/-- A reader alone on a valid stream reads it to its end without raising. -/
theorem latestClaimFrom_alone (intent : Intent) (l : Label) (s : ClaimStore Intent Payload)
    (es : List (Claim Intent Payload)) (hs : Stream s.bindings es) (hv : ValidStream intent es)
    (hobj : ∀ c ∈ es, .claim c ∈ s.objects) (fuel n : Nat) (hfuel : es.length < fuel + n)
    (hn : n ≤ es.length) :
    (latestClaimFrom intent fuel n (es.take n).getLast?).alone (soloExec l) s =
      some (.ok es.getLast?, s) := by
  induction fuel generalizing n with
  | zero => omega
  | succ fuel ih =>
    by_cases hlt : n < es.length
    · have hget : es[n]? = some es[n] := List.getElem?_eq_getElem hlt
      have hbound : s.bindings.get? (.claim n) = some (.claim es[n]) := (hs.get_iff n _).mpr hget
      have hmem : .claim es[n] ∈ s.objects := hobj _ (List.getElem_mem hlt)
      have hcheck : checkClaim intent (es.take n).getLast? n es[n] = .ok () := by
        obtain ⟨hid,hord⟩ := hv.identity n es[n] hget
        cases n with
        | zero =>
          rw [List.take_zero, List.getLast?_nil, checkClaim_none]
          exact ⟨hid, hord, hv.origin _ hget⟩
        | succ m =>
          have hm : es[m]? = some es[m] := List.getElem?_eq_getElem (by omega)
          have hlast : (es.take (m + 1)).getLast? = some es[m] := by
            rw [List.getLast?_eq_getElem?, List.length_take, Nat.min_eq_left (by omega)]
            simp [hm]
          rw [hlast, checkClaim_some]
          exact ⟨hid, hord, hv.next m _ _ hm hget⟩
      have htake : (es.take (n + 1)).getLast? = some es[n] := by
        rw [List.getLast?_eq_getElem?, List.length_take, Nat.min_eq_left (by omega)]
        simp [hget]
      have hrest := ih (n + 1) (by omega) (by omega)
      rw [htake] at hrest
      have hload := loadClaim_alone l s es[n] hmem
      simp only [latestClaimFrom, Prog.bind_eq, Prog.perform, Prog.bind, Prog.alone, soloExec,
        execute, hbound]
      rw [Prog.alone_bind _ _ _ _ _ _ hload]
      simp only [hcheck, Prog.ofExcept, Prog.bind]
      exact hrest
    · have hbound : s.bindings.get? (.claim n) = none := (hs.none_iff n).mpr (by omega)
      have htake : es.take n = es := List.take_of_length_le (by omega)
      simp only [latestClaimFrom, Prog.bind_eq, Prog.perform, Prog.bind, Prog.alone, soloExec,
        execute, hbound, htake, Prog.pure_eq]

end Reader
end Whetstone.Coordination
