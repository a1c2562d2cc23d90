import Whetstone.Coordination.ClaimStream

/-! The contract that resolvers and heartbeats keep on the shared store.

It is stated once, with a switch `strict`: without it no run is excluded and the stream and
the returned resolutions are covered; with it every run is asked to bind a rejection only
while the latest claim event is the binder's own, and the attestation then agrees with the
bound resolution. -/
namespace Whetstone.Coordination
open Whetstone.Lib

variable {Intent Payload : Type}

def Label.resolverId : Label → Option String
  | .resolver service _ => some service.ownerId
  | .heartbeat _ _ _ => none

/-- What a thread may count on while others run. Objects and bindings only grow; and nobody
else binds the resolution in a resolver's name or attests an event as its owner. -/
structure Rely (me : Option String) (s t : ClaimStore Intent Payload) : Prop where
  objects : ∀ x ∈ s.objects, x ∈ t.objects
  bindings : ∀ k v, s.bindings.get? k = some v → t.bindings.get? k = some v
  fence_kept : ∀ f, s.fence = some f → t.fence = some f
  fence_new : s.fence = none → ∀ owner before, t.fence = some (owner, before) →
    some owner ≠ me ∧ ∀ k v, s.bindings.get? k = some v → before.get? k = some v
  attested : ∀ n c, t.bindings.get? (.claim n) = some (.claim c) →
    c.resultAttestationRef ≠ none → some c.ownerId = me →
    s.bindings.get? (.claim n) = some (.claim c)

theorem Rely.refl (me : Option String) (s : ClaimStore Intent Payload) : Rely me s s where
  objects := fun _ h => h
  bindings := fun _ _ h => h
  fence_kept := fun _ h => h
  fence_new := fun h owner before h' => by
    rw [h] at h'
    cases h'
  attested := fun _ _ h _ _ => h

theorem Rely.trans {me : Option String} {s t u : ClaimStore Intent Payload} (h : Rely me s t)
    (h' : Rely me t u) : Rely me s u where
  objects := fun x hx => h'.objects x (h.objects x hx)
  bindings := fun k v hv => h'.bindings k v (h.bindings k v hv)
  fence_kept := fun f hf => h'.fence_kept f (h.fence_kept f hf)
  fence_new := by
    intro hs owner before hu
    cases ht : t.fence with
    | none =>
      obtain ⟨h1,h2⟩ := h'.fence_new ht owner before hu
      exact ⟨h1, fun k v hv => h2 k v (h.bindings k v hv)⟩
    | some f =>
      have hf := h'.fence_kept f ht
      rw [hu, Option.some.injEq] at hf
      subst hf
      exact h.fence_new hs owner before ht
  attested := fun n c hc ha ho => h.attested n c (h'.attested n c hc ha ho) ha ho

/-- The bound resolution and the attested one cannot differ: an executed resolution is the one
attested, and a rejection was bound while no event was attested and the binder was the owner
of the latest event. -/
structure Agrees (s : ClaimStore Intent Payload) : Prop where
  executed : ∀ r, s.bindings.get? .resolution = some (.resolution r) → r.outcome ≠ .rejected →
    ∃ n c a, s.bindings.get? (.claim n) = some (.claim c) ∧ c.resultAttestationRef = some a ∧
      a.resolution = r
  rejected : ∀ r, s.bindings.get? .resolution = some (.resolution r) → r.outcome = .rejected →
    (∀ n c, s.bindings.get? (.claim n) = some (.claim c) → c.resultAttestationRef = none) ∧
    ∃ owner before es c, s.fence = some (owner, before) ∧ Stream before es ∧
      es.getLast? = some c ∧ c.ownerId = owner ∧
      ∀ k v, before.get? k = some v → s.bindings.get? k = some v

structure StoreInv (intent : Intent) (strict : Prop) (s : ClaimStore Intent Payload) : Prop where
  stream : ∃ es, Stream s.bindings es ∧ ValidStream intent es ∧ ∀ c ∈ es, .claim c ∈ s.objects
  fence_iff : s.fence = none ↔ s.bindings.get? .resolution = none
  kind : ∀ v, s.bindings.get? .resolution = some v → ∃ r, v = .resolution r
  reported : ∀ r ∈ s.reported, s.bindings.get? .resolution = some (.resolution r)
  agrees : strict → Agrees s

/- Some event of this owner is bound with nothing bound after it. -/
def latestIsOwn (b : Bindings Intent Payload) (owner : String) : Bool :=
  b.pairs.any fun p =>
    match p with
    | (.claim n, .claim c) => (b.get? (.claim (n + 1))).isNone && decide (c.ownerId = owner)
    | _ => false

def fencedStep (l : Label) (o : StoreOp Intent Payload) (s : ClaimStore Intent Payload) : Bool :=
  match o with
  | .bind .resolution (.resolution r) =>
    decide (r.outcome ≠ .rejected) || (s.bindings.get? .resolution).isSome ||
      latestIsOwn s.bindings l.ownerId
  | _ => true

/-- A rejection is bound only while the latest claim event still names the binder. -/
def Fenced (l : Label) (o : StoreOp Intent Payload) (s : ClaimStore Intent Payload) : Prop :=
  fencedStep l o s = true

instance (l : Label) (o : StoreOp Intent Payload) (s : ClaimStore Intent Payload) :
    Decidable (Fenced l o s) :=
  inferInstanceAs (Decidable (fencedStep l o s = true))

def claimContract (intent : Intent) (strict : Prop) :
    Contract Label (ClaimStore Intent Payload) (StoreOp Intent Payload) where
  inv := StoreInv intent strict
  allowed := fun l o s => strict → Fenced l o s
  rely := fun l => Rely l.resolverId
  compat := fun l l' => ∀ owner, l.resolverId = some owner → l'.resolverId ≠ some owner
  pre := fun _ _ => True
  rely_refl := fun l => Rely.refl l.resolverId
  rely_trans := fun _ _ _ _ => Rely.trans

section Facts

variable {intent : Intent} {strict : Prop} {l : Label}

theorem StoreInv.put {t : ClaimStore Intent Payload} (h : StoreInv intent strict t)
    (object : StoreObject Intent Payload) :
    StoreInv intent strict { t with objects := object :: t.objects } where
  stream := by
    obtain ⟨es,h1,h2,h3⟩ := h.stream
    exact ⟨es, h1, h2, fun c hc => List.mem_cons_of_mem object (h3 c hc)⟩
  fence_iff := h.fence_iff
  kind := h.kind
  reported := h.reported
  agrees := fun hs => ⟨(h.agrees hs).executed, (h.agrees hs).rejected⟩

/-- What a complete scan of the stream leaves known: the events read are still the first ones,
and every event attested by this resolver is among them. -/
structure Observed (intent : Intent) (me : Option String) (latest : Option (Claim Intent Payload))
    (u : ClaimStore Intent Payload) (es : List (Claim Intent Payload)) : Prop where
  valid : ValidStream intent es
  last : es.getLast? = latest
  bound : ∀ (n : Nat) (c : Claim Intent Payload), es[n]? = some c →
    u.bindings.get? (.claim n) = some (.claim c)
  own : ∀ (n : Nat) (c : Claim Intent Payload), u.bindings.get? (.claim n) = some (.claim c) →
    c.resultAttestationRef ≠ none → some c.ownerId = me → es[n]? = some c

theorem Observed.rely {me : Option String} {latest : Option (Claim Intent Payload)}
    {t u : ClaimStore Intent Payload} {es : List (Claim Intent Payload)}
    (h : Observed intent me latest t es) (htu : Rely me t u) : Observed intent me latest u es where
  valid := h.valid
  last := h.last
  bound := fun n c hc => htu.bindings _ _ (h.bound n c hc)
  own := fun n c hc ha ho => h.own n c (htu.attested n c hc ha ho) ha ho

theorem StoreInv.observed {t : ClaimStore Intent Payload} (h : StoreInv intent strict t)
    (me : Option String) (latest : Option (Claim Intent Payload)) (n : Nat)
    (hn : t.bindings.get? (.claim n) = none)
    (hlatest : (latest = none ∧ n = 0) ∨ ∃ c k, latest = some c ∧ n = k + 1 ∧
      t.bindings.get? (.claim k) = some (.claim c)) : ∃ es, Observed intent me latest t es := by
  obtain ⟨es,hs,hv,_⟩ := h.stream
  refine ⟨es, hv, ?_, fun m c hc => (hs.get_iff m c).mpr hc,
    fun m c hc _ _ => (hs.get_iff m c).mp hc⟩
  rcases hlatest with ⟨rfl,rfl⟩ | ⟨c,k,rfl,rfl,hc⟩
  · have hlen := (hs.none_iff 0).mp hn
    have hnil : es = [] := List.length_eq_zero_iff.mp (by omega)
    rw [hnil]
    rfl
  · exact (hs.last_of_bound k c hc hn).1

theorem Observed.latest_bound {me : Option String} {c : Claim Intent Payload}
    {u : ClaimStore Intent Payload} {es : List (Claim Intent Payload)}
    (h : Observed intent me (some c) u es) :
    u.bindings.get? (.claim c.eventOrdinal) = some (.claim c) := by
  have hlast := h.last
  rw [List.getLast?_eq_getElem?] at hlast
  have hord := (h.valid.identity _ c hlast).2
  rw [hord]
  exact h.bound _ c hlast

/-! ### What a resolver knows while it evaluates -/

def Owns (owner : String) (generation : Nat) (u : ClaimStore Intent Payload) : Prop :=
  ∃ i c, u.bindings.get? (.claim i) = some (.claim c) ∧ c.ownerId = owner ∧
    c.generation = generation

def AttestedAs (r : IntentResolution Intent Payload) (u : ClaimStore Intent Payload) : Prop :=
  ∃ n c a, u.bindings.get? (.claim n) = some (.claim c) ∧ c.resultAttestationRef = some a ∧
    a.resolution = r

def NoOwnAttestation (owner : String) (u : ClaimStore Intent Payload) : Prop :=
  ∀ n c, u.bindings.get? (.claim n) = some (.claim c) → c.resultAttestationRef ≠ none →
    c.ownerId ≠ owner

/-- A resolver that found no result after it acquired a generation: whoever has bound the
resolution since is another resolver, and did so with that generation already in the stream. -/
structure Attempt (owner : String) (generation : Nat) (u : ClaimStore Intent Payload) : Prop where
  acquired : ∃ i c, u.bindings.get? (.claim i) = some (.claim c) ∧ c.ownerId = owner ∧
    c.generation = generation ∧ ∀ other before, u.fence = some (other, before) →
      other ≠ owner ∧ before.get? (.claim i) = some (.claim c)
  own : NoOwnAttestation owner u

theorem Owns.rely {owner : String} {generation : Nat} {me : Option String}
    {t u : ClaimStore Intent Payload} (h : Owns owner generation t) (htu : Rely me t u) :
    Owns owner generation u := by
  obtain ⟨i,c,hc,ho,hg⟩ := h
  exact ⟨i, c, htu.bindings _ _ hc, ho, hg⟩

theorem AttestedAs.rely {r : IntentResolution Intent Payload} {me : Option String}
    {t u : ClaimStore Intent Payload} (h : AttestedAs r t) (htu : Rely me t u) :
    AttestedAs r u := by
  obtain ⟨n,c,a,hc,ha,hr⟩ := h
  exact ⟨n, c, a, htu.bindings _ _ hc, ha, hr⟩

theorem NoOwnAttestation.rely {owner : String} {t u : ClaimStore Intent Payload}
    (h : NoOwnAttestation owner t) (htu : Rely (some owner) t u) : NoOwnAttestation owner u := by
  intro n c hc ha ho
  exact h n c (htu.attested n c hc ha (congrArg some ho)) ha ho

theorem Attempt.rely {owner : String} {generation : Nat} {t u : ClaimStore Intent Payload}
    (h : Attempt owner generation t) (htu : Rely (some owner) t u) :
    Attempt owner generation u := by
  obtain ⟨i,c,hc,ho,hg,hf⟩ := h.acquired
  refine ⟨⟨i, c, htu.bindings _ _ hc, ho, hg, ?_⟩, h.own.rely htu⟩
  intro other before hu
  cases ht : t.fence with
  | none =>
    obtain ⟨hne,hbefore⟩ := htu.fence_new ht other before hu
    exact ⟨fun he => hne (congrArg some he), hbefore _ _ hc⟩
  | some f =>
    have hkept := htu.fence_kept f ht
    rw [hu, Option.some.injEq] at hkept
    subst hkept
    exact hf other before ht

theorem latestIsOwn_last {b : Bindings Intent Payload} {owner : String}
    (h : latestIsOwn b owner = true) (es : List (Claim Intent Payload)) (hs : Stream b es) :
    ∃ c, es.getLast? = some c ∧ c.ownerId = owner := by
  obtain ⟨⟨k,v⟩,hmem,hp⟩ := List.any_eq_true.mp h
  have hget := (Dict.get?_eq_some_iff b k v).mpr hmem
  cases k with
  | resolution => cases hp
  | claim n =>
    cases v with
    | claim c =>
      simp only [Bool.and_eq_true, Option.isNone_iff_eq_none, decide_eq_true_eq] at hp
      exact ⟨c, (hs.last_of_bound n c hget hp.1).1, hp.2⟩
    | attestation a => cases hp
    | resolution r => cases hp

/-! ### Appending an event -/

/-- Under an attempt, an event that would carry the attestation is appended only while the
resolution is unbound. -/
theorem attested_append_unbound {t : ClaimStore Intent Payload} (ht : StoreInv intent strict t)
    (hstrict : strict) {owner : String} {generation : Nat} (hat : Attempt owner generation t)
    (c : Claim Intent Payload) (n : Nat) (hc : t.bindings.get? (.claim n) = some (.claim c))
    (hlast : t.bindings.get? (.claim (n + 1)) = none) (hopen : c.resultAttestationRef = none)
    (howner : c.ownerId = owner) (hgen : c.generation = generation) :
    t.bindings.get? .resolution = none := by
  obtain ⟨es,hs,hv,_⟩ := ht.stream
  obtain ⟨hgl,hlen⟩ := hs.last_of_bound n c hc hlast
  have hcn := (hs.get_iff n c).mp hc
  cases hb : t.bindings.get? .resolution with
  | none => rfl
  | some v =>
    obtain ⟨r,rfl⟩ := ht.kind v hb
    exfalso
    by_cases hr : r.outcome = .rejected
    · obtain ⟨_,other,before,es',c',hfence,hs',hl',ho',hsub⟩ :=
        (ht.agrees hstrict).rejected r hb hr
      obtain ⟨i,d,hd,hdo,hdg,hf⟩ := hat.acquired
      obtain ⟨hne,hbefore⟩ := hf other before hfence
      have hi := (hs'.get_iff i d).mp hbefore
      rw [List.getLast?_eq_getElem?] at hl'
      have hj := hsub _ _ ((hs'.get_iff _ c').mpr hl')
      have hjn := (hs.get_iff _ c').mp hj
      have hilt : i < es'.length := (List.getElem?_eq_some_iff.mp hi).1
      have hjlt : es'.length - 1 < es.length := (List.getElem?_eq_some_iff.mp hjn).1
      have hown := hv.owner_between i (es'.length - 1) n (by omega) (by omega) d c' c
        ((hs.get_iff i d).mp hd) hjn hcn (by rw [hdg, hgen])
      exact hne (ho'.symm.trans (hown.trans howner))
    · obtain ⟨m,e,a,he,ha,_⟩ := (ht.agrees hstrict).executed r hb hr
      have hem := (hs.get_iff m e).mp he
      have hml := hv.attested_last m e hem (by rw [ha]; simp)
      have hmn : m = n := by omega
      subst hmn
      rw [hcn, Option.some.injEq] at hem
      subst hem
      rw [hopen] at ha
      cases ha

theorem Agrees.append_open {t : ClaimStore Intent Payload} (h : Agrees t)
    (d : Claim Intent Payload) (n : Nat) (hn : t.bindings.get? (.claim n) = none)
    (hopen : d.resultAttestationRef = none) :
    Agrees { t with bindings := t.bindings.set (.claim n) (.claim d) } := by
  have hgrow : ∀ k v, t.bindings.get? k = some v →
      (t.bindings.set (.claim n) (.claim d)).get? k = some v := by
    intro k v hv
    rw [Dict.get?_set_ne, hv]
    intro hk
    rw [hk, hn] at hv
    cases hv
  constructor
  · intro r hr hne
    rw [Dict.get?_set_ne _ _ _ _ (by simp)] at hr
    obtain ⟨m,c,a,hc,ha,hres⟩ := h.executed r hr hne
    exact ⟨m, c, a, hgrow _ _ hc, ha, hres⟩
  · intro r hr hrej
    rw [Dict.get?_set_ne _ _ _ _ (by simp)] at hr
    obtain ⟨hnone,other,before,es,c,h1,h2,h3,h4,h5⟩ := h.rejected r hr hrej
    refine ⟨?_, other, before, es, c, h1, h2, h3, h4, fun k v hv => hgrow k v (h5 k v hv)⟩
    intro m e he
    rw [Dict.get?_set] at he
    by_cases hm : (StoreKey.claim m) = .claim n
    · simp only [hm, if_true, Option.some.injEq, StoreObject.claim.injEq] at he
      rw [← he]
      exact hopen
    · rw [if_neg hm] at he
      exact hnone m e he

theorem Agrees.of_unbound {t : ClaimStore Intent Payload}
    (h : t.bindings.get? .resolution = none) : Agrees t := by
  constructor
  · intro r hr
    rw [h] at hr
    cases hr
  · intro r hr
    rw [h] at hr
    cases hr

/-- An event the predecessor admits keeps the invariant. -/
theorem StoreInv.append {t : ClaimStore Intent Payload} (ht : StoreInv intent strict t)
    (d : Claim Intent Payload) (hobj : .claim d ∈ t.objects) (hid : d.intentRef = intent)
    (hfree : t.bindings.get? (.claim d.eventOrdinal) = none)
    (hprior : (d.eventOrdinal = 0 ∧ d.generation = 0 ∧ d.heartbeatOrdinal = 0) ∨
      ∃ c, t.bindings.get? (.claim c.eventOrdinal) = some (.claim c) ∧
        d.eventOrdinal = c.eventOrdinal + 1 ∧ Follows c d)
    (hagree : strict → Agrees
      { t with bindings := t.bindings.set (.claim d.eventOrdinal) (.claim d) }) :
    StoreInv intent strict
      { t with bindings := t.bindings.set (.claim d.eventOrdinal) (.claim d) } := by
  obtain ⟨es,hs,hv,hes⟩ := ht.stream
  have hkey : (t.bindings.set (.claim d.eventOrdinal) (.claim d)).get? .resolution =
      t.bindings.get? .resolution := Dict.get?_set_ne _ _ _ _ (by simp)
  have hlen : d.eventOrdinal = es.length ∧ (es = [] → d.generation = 0 ∧ d.heartbeatOrdinal = 0) ∧
      ∀ c, es.getLast? = some c → Follows c d := by
    rcases hprior with ⟨h0,hg,hh⟩ | ⟨c,hc,hord,hfol⟩
    · rw [h0] at hfree
      have hle := (hs.none_iff 0).mp hfree
      have hnil : es = [] := List.length_eq_zero_iff.mp (by omega)
      subst hnil
      exact ⟨h0, fun _ => ⟨hg, hh⟩, fun c hc => by simp at hc⟩
    · rw [hord] at hfree
      obtain ⟨hgl,hl⟩ := hs.last_of_bound c.eventOrdinal c hc hfree
      refine ⟨by omega, fun hnil => ?_, fun e he => ?_⟩
      · rw [hnil] at hgl
        simp at hgl
      · rw [hgl, Option.some.injEq] at he
        exact he ▸ hfol
  obtain ⟨hord,horigin,hnext⟩ := hlen
  refine ⟨⟨es ++ [d], ?_, hv.append d hid hord horigin hnext, ?_⟩, ?_, ?_, ?_, hagree⟩
  · have hset := hs.set_claim d
    rwa [← hord] at hset
  · intro c hc
    rw [List.mem_append, List.mem_singleton] at hc
    rcases hc with hc | rfl
    · exact hes c hc
    · exact hobj
  · change t.fence = none ↔ _
    rw [hkey]
    exact ht.fence_iff
  · intro v hv
    exact ht.kind v (hkey.symm.trans hv)
  · intro r hr
    exact hkey.trans (ht.reported r hr)

/- A claim event may be bound: it extends its predecessor, and one that attests a result is
   bound by the resolver that owns it, in an attempt at the predecessor's generation. -/
structure MayAppend (l : Label) (d : Claim Intent Payload) (s : ClaimStore Intent Payload) :
    Prop where
  stored : .claim d ∈ s.objects
  prior : (d.eventOrdinal = 0 ∧ d.generation = 0 ∧ d.heartbeatOrdinal = 0) ∨
    ∃ c, s.bindings.get? (.claim c.eventOrdinal) = some (.claim c) ∧
      d.eventOrdinal = c.eventOrdinal + 1 ∧ Follows c d
  attests : d.resultAttestationRef ≠ none → l.resolverId = some d.ownerId ∧
    Attempt d.ownerId d.generation s ∧
    ∃ c, s.bindings.get? (.claim c.eventOrdinal) = some (.claim c) ∧
      d.eventOrdinal = c.eventOrdinal + 1 ∧ Renews c d ∧ c.resultAttestationRef = none

theorem StoreInv.appendMay {t : ClaimStore Intent Payload} (ht : StoreInv intent strict t)
    (d : Claim Intent Payload) (hid : d.intentRef = intent) (hmay : MayAppend l d t)
    (hfree : t.bindings.get? (.claim d.eventOrdinal) = none) :
    StoreInv intent strict
      { t with bindings := t.bindings.set (.claim d.eventOrdinal) (.claim d) } := by
  refine ht.append d hmay.stored hid hfree hmay.prior fun hstrict => ?_
  cases ha : d.resultAttestationRef with
  | none => exact (ht.agrees hstrict).append_open d d.eventOrdinal hfree ha
  | some a =>
    obtain ⟨_,hat,c,hc,hord,⟨ho,hg,_⟩,hopen⟩ := hmay.attests (by rw [ha]; simp)
    have hun := attested_append_unbound ht hstrict hat c c.eventOrdinal hc
      (by rw [← hord]; exact hfree) hopen ho.symm hg.symm
    apply Agrees.of_unbound
    exact (Dict.get?_set_ne _ _ _ _ (by simp)).trans hun

end Facts

end Whetstone.Coordination
