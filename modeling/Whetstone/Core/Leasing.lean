import Whetstone.Core.Identity
import Whetstone.Lib.Dict

/-! The effect leases. The lease authority is a library; it is taken as a state machine with
the laws the source relies on. A terminal that the authority publishes for a request stays,
every later acquisition of the request replays it, and a publication that returns has
published what it returns. The library's own terminals carry a failure in its own text
shape, so that what crosses the boundary is converted both ways. -/
namespace Whetstone.Core
open Whetstone.Lib

/-- `_to_lease_failure` and `_from_lease_failure`. No property is assumed; restoring a failure
may raise. -/
class LeaseText where
  LeaseFailure : Type
  toLease : TerminalFailure → LeaseFailure
  fromLease : LeaseFailure → Except String TerminalFailure

variable [LeaseText]

structure Lease where
  request : EffectRequest
  ownerId : String
  attemptId : String
  fence : Nat
deriving DecidableEq

/- A terminal as the library keeps it. -/
structure Terminal where
  request : EffectRequest
  outcome : TerminalOutcome
  ownerId : String
  attemptId : String
  fence : Nat
  resultRef : Option TypedRef
  failure : Option LeaseText.LeaseFailure

def EffectTerminal.toLease (terminal : EffectTerminal) : Terminal where
  request := terminal.request
  outcome := terminal.outcome
  ownerId := terminal.ownerId
  attemptId := terminal.attemptId
  fence := terminal.fence
  resultRef := terminal.resultRef
  failure := terminal.failure.map LeaseText.toLease

def EffectTerminal.fromLease (terminal : Terminal) : Except String EffectTerminal := do
  let failure ← terminal.failure.mapM LeaseText.fromLease
  return ⟨terminal.request, terminal.outcome, terminal.ownerId, terminal.attemptId,
    terminal.fence, terminal.resultRef, failure⟩

/- `Acquired` holds what one acquisition returns. -/
inductive Acquired (T : Type) where
  | lease (lease : Lease)
  | terminal (terminal : T)
  | busy
  | requestConflict

/-- `Choice` is what decides an operation beside the state: the clock, and whether a store
operation fails. -/
structure LeaseAuthority where
  State : Type
  Choice : Type
  initial : State
  published : State → EffectRequest → Option Terminal
  acquire : EffectRequest → (ownerId attemptId : String) → Choice → State →
    Acquired Terminal × State
  publish : Lease → TerminalOutcome → Option TypedRef → Option LeaseText.LeaseFailure → Choice →
    State → Except String Terminal × State
  verifyTerminal : Terminal → State → Except String Terminal
  acquire_keeps : ∀ request owner attempt choice s request' terminal,
    published s request' = some terminal →
      published (acquire request owner attempt choice s).2 request' = some terminal
  acquire_replays : ∀ request owner attempt choice s terminal,
    published s request = some terminal →
      (acquire request owner attempt choice s).1 = .terminal terminal
  acquire_terminal : ∀ request owner attempt choice s terminal,
    (acquire request owner attempt choice s).1 = .terminal terminal →
      published (acquire request owner attempt choice s).2 request = some terminal
  publish_keeps : ∀ lease outcome ref failure choice s request' terminal,
    published s request' = some terminal →
      published (publish lease outcome ref failure choice s).2 request' = some terminal
  publish_publishes : ∀ lease outcome ref failure choice s terminal,
    (publish lease outcome ref failure choice s).1 = .ok terminal →
      published (publish lease outcome ref failure choice s).2 lease.request = some terminal
  verify_published : ∀ terminal s found, verifyTerminal terminal s = .ok found →
    published s terminal.request = some found

namespace LeaseAuthority

variable (authority : LeaseAuthority)

/- `EffectAcquireResult._from_lease` -/
def effectAcquired : Acquired Terminal → Except String (Acquired EffectTerminal)
  | .lease lease => .ok (.lease lease)
  | .terminal terminal => do return .terminal (← EffectTerminal.fromLease terminal)
  | .busy => .ok .busy
  | .requestConflict => .ok .requestConflict

def effectAcquire (request : EffectRequest) (ownerId attemptId : String)
    (choice : authority.Choice) (s : authority.State) :
    Except String (Acquired EffectTerminal) × authority.State :=
  let (acquired, s') := authority.acquire request ownerId attemptId choice s
  (effectAcquired acquired, s')

/- `maintenance.succeed` and `maintenance.fail` -/
def effectPublish (lease : Lease) (outcome : TerminalOutcome) (resultRef : TypedRef)
    (failure : Option TerminalFailure) (choice : authority.Choice) (s : authority.State) :
    Except String EffectTerminal × authority.State :=
  let (published, s') := authority.publish lease outcome (some resultRef)
    (failure.map LeaseText.toLease) choice s
  (published >>= EffectTerminal.fromLease, s')

def effectVerify (terminal : EffectTerminal) (s : authority.State) :
    Except String EffectTerminal :=
  authority.verifyTerminal terminal.toLease s >>= EffectTerminal.fromLease

end LeaseAuthority

/-! ### Fenced leases

An authority that meets the laws. The choice is the time of the operation: a lease holds
for a while, a later one supersedes it under a higher fence, and only the lease in force
publishes. -/

inductive LeaseRow where
  | leased (lease : Lease) (expires : Nat)
  | ended (terminal : Terminal)

abbrev FencedLeases := Dict EffectRequest LeaseRow

namespace FencedLeases

def leaseTime : Nat := 60

def published (s : FencedLeases) (request : EffectRequest) : Option Terminal :=
  match s.get? request with
  | some (.ended terminal) => some terminal
  | _ => none

def grant (request : EffectRequest) (ownerId attemptId : String) (fence now : Nat)
    (s : FencedLeases) : Acquired Terminal × FencedLeases :=
  let lease : Lease := ⟨request, ownerId, attemptId, fence⟩
  (.lease lease, s.set request (.leased lease (now + leaseTime)))

def acquire (request : EffectRequest) (ownerId attemptId : String) (now : Nat)
    (s : FencedLeases) : Acquired Terminal × FencedLeases :=
  match s.get? request with
  | some (.ended terminal) => (.terminal terminal, s)
  | some (.leased lease expires) =>
    if now < expires then (.busy, s) else grant request ownerId attemptId (lease.fence + 1) now s
  | none => grant request ownerId attemptId 1 now s

def publish (lease : Lease) (outcome : TerminalOutcome) (resultRef : Option TypedRef)
    (failure : Option LeaseText.LeaseFailure) (now : Nat) (s : FencedLeases) :
    Except String Terminal × FencedLeases :=
  match s.get? lease.request with
  | some (.leased held expires) =>
    if held = lease ∧ now < expires then
      let terminal : Terminal := ⟨lease.request, outcome, lease.ownerId, lease.attemptId,
        lease.fence, resultRef, failure⟩
      (.ok terminal, s.set lease.request (.ended terminal))
    else (.error "the lease is superseded", s)
  | _ => (.error "the request holds no lease", s)

def verifyTerminal (terminal : Terminal) (s : FencedLeases) : Except String Terminal :=
  match s.published terminal.request with
  | some found =>
    if found.ownerId = terminal.ownerId ∧ found.attemptId = terminal.attemptId ∧
        found.fence = terminal.fence then .ok found
    else .error "another terminal is published"
  | none => .error "no terminal is published"

theorem published_eq_some {s : FencedLeases} {request : EffectRequest} {terminal : Terminal} :
    s.published request = some terminal ↔ s.get? request = some (.ended terminal) := by
  unfold published
  cases s.get? request with
  | none => simp
  | some row => cases row <;> simp

/-- A row that is not ended may change; an ended one of another request stays. -/
theorem published_set {s : FencedLeases} {request request' : EffectRequest} {row : LeaseRow}
    {terminal : Terminal} (hopen : s.published request = none)
    (h : s.published request' = some terminal) :
    published (s.set request row) request' = some terminal := by
  have hne : request' ≠ request := by
    rintro rfl
    rw [hopen] at h
    cases h
  rw [published_eq_some] at h ⊢
  simpa [Dict.get?_set, hne] using h

theorem acquire_cases (request : EffectRequest) (owner attempt : String) (now : Nat)
    (s : FencedLeases) :
    (∃ terminal, s.published request = some terminal ∧
        acquire request owner attempt now s = (.terminal terminal, s)) ∨
      s.published request = none ∧ (acquire request owner attempt now s = (.busy, s) ∨
        ∃ fence, acquire request owner attempt now s = grant request owner attempt fence now s) := by
  unfold acquire published
  cases s.get? request with
  | none => exact .inr ⟨rfl, .inr ⟨1, rfl⟩⟩
  | some row =>
    cases row with
    | ended terminal => exact .inl ⟨terminal, rfl, rfl⟩
    | leased lease expires =>
      refine .inr ⟨rfl, ?_⟩
      by_cases hnow : now < expires
      · exact .inl (if_pos hnow)
      · exact .inr ⟨lease.fence + 1, if_neg hnow⟩

theorem publish_cases (lease : Lease) (outcome : TerminalOutcome) (ref : Option TypedRef)
    (failure : Option LeaseText.LeaseFailure) (now : Nat) (s : FencedLeases) :
    (∃ message, publish lease outcome ref failure now s = (.error message, s)) ∨
      s.published lease.request = none ∧ ∃ terminal,
        publish lease outcome ref failure now s =
          (.ok terminal, s.set lease.request (.ended terminal)) := by
  unfold publish published
  cases s.get? lease.request with
  | none => exact .inl ⟨_, rfl⟩
  | some row =>
    cases row with
    | ended terminal => exact .inl ⟨_, rfl⟩
    | leased held expires =>
      simp only
      split
      · exact .inr ⟨trivial, _, rfl⟩
      · exact .inl ⟨_, rfl⟩

end FencedLeases

open FencedLeases in
def fencedLeases : LeaseAuthority where
  State := FencedLeases
  Choice := Nat
  initial := Dict.empty
  published := published
  acquire := acquire
  publish := publish
  verifyTerminal := verifyTerminal
  acquire_keeps := by
    intro request owner attempt now s request' terminal h
    rcases acquire_cases request owner attempt now s with ⟨_,_,he⟩ | ⟨hnone,he | ⟨fence,he⟩⟩
    · rw [he]
      exact h
    · rw [he]
      exact h
    · rw [he]
      exact published_set hnone h
  acquire_replays := by
    intro request owner attempt now s terminal h
    rcases acquire_cases request owner attempt now s with ⟨found,hfound,he⟩ | ⟨hnone,_⟩
    · rw [h, Option.some.injEq] at hfound
      rw [he, hfound]
    · rw [h] at hnone
      cases hnone
  acquire_terminal := by
    intro request owner attempt now s terminal h
    rcases acquire_cases request owner attempt now s with ⟨found,hfound,he⟩ | ⟨_,he | ⟨fence,he⟩⟩
    · rw [he] at h ⊢
      cases h
      exact hfound
    · rw [he] at h
      cases h
    · rw [he] at h
      cases h
  publish_keeps := by
    intro lease outcome ref failure now s request' terminal h
    rcases publish_cases lease outcome ref failure now s with ⟨_,he⟩ | ⟨hnone,_,he⟩
    · rw [he]
      exact h
    · rw [he]
      exact published_set hnone h
  publish_publishes := by
    intro lease outcome ref failure now s terminal h
    rcases publish_cases lease outcome ref failure now s with ⟨_,he⟩ | ⟨_,found,he⟩
    · rw [he] at h
      cases h
    · rw [he] at h ⊢
      cases h
      exact published_eq_some.mpr (Dict.get?_set_self _ _ _)
  verify_published := by
    intro terminal s found h
    unfold verifyTerminal at h
    split at h
    · split at h
      · cases h
        assumption
      · cases h
    · cases h

/-! ### Effects by key

What the authority promises of one effect, which its semantic key names: it has at most one
terminal, only a publication writes one, and it writes what it is given; no lease is granted
on an effect that has a terminal. An acquisition may end an effect on its own only as one that
requires recovery. -/

structure EffectLaws (authority : LeaseAuthority) : Prop where
  published_keyed : ∀ s request request' terminal terminal',
    authority.published s request = some terminal →
    authority.published s request' = some terminal' →
    request.semanticKey = request'.semanticKey → request = request'
  initial_open : ∀ request, authority.published authority.initial request = none
  acquire_fresh : ∀ request owner attempt choice s lease,
    (authority.acquire request owner attempt choice s).1 = .lease lease →
    lease.request = request ∧ ∀ request', request'.semanticKey = request.semanticKey →
      authority.published s request' = none
  acquire_writes : ∀ request owner attempt choice s request' terminal,
    authority.published (authority.acquire request owner attempt choice s).2 request' =
      some terminal →
    authority.published s request' = some terminal ∨ terminal.outcome = .recoveryRequired
  publish_returns : ∀ lease outcome ref failure choice s terminal,
    (authority.publish lease outcome ref failure choice s).1 = .ok terminal →
    terminal.outcome = outcome ∧ terminal.resultRef = ref ∧ terminal.failure = failure
  publish_writes : ∀ lease outcome ref failure choice s request' terminal,
    authority.published (authority.publish lease outcome ref failure choice s).2 request' =
      some terminal →
    authority.published s request' = some terminal ∨
      request' = lease.request ∧ terminal.outcome = outcome ∧ terminal.resultRef = ref ∧
        terminal.failure = failure

/- Leases in one row for each key. -/
abbrev KeyedLeases := Dict String LeaseRow

namespace KeyedLeases

def published (s : KeyedLeases) (request : EffectRequest) : Option Terminal :=
  match s.get? request.semanticKey with
  | some (.ended terminal) => if terminal.request = request then some terminal else none
  | _ => none

def grant (request : EffectRequest) (ownerId attemptId : String) (fence now : Nat)
    (s : KeyedLeases) : Acquired Terminal × KeyedLeases :=
  let lease : Lease := ⟨request, ownerId, attemptId, fence⟩
  (.lease lease, s.set request.semanticKey (.leased lease (now + FencedLeases.leaseTime)))

def acquire (request : EffectRequest) (ownerId attemptId : String) (now : Nat)
    (s : KeyedLeases) : Acquired Terminal × KeyedLeases :=
  match s.get? request.semanticKey with
  | some (.ended terminal) =>
    if terminal.request = request then (.terminal terminal, s) else (.requestConflict, s)
  | some (.leased lease expires) =>
    if lease.request ≠ request then (.requestConflict, s)
    else if now < expires then (.busy, s)
    else grant request ownerId attemptId (lease.fence + 1) now s
  | none => grant request ownerId attemptId 1 now s

def publish (lease : Lease) (outcome : TerminalOutcome) (resultRef : Option TypedRef)
    (failure : Option LeaseText.LeaseFailure) (now : Nat) (s : KeyedLeases) :
    Except String Terminal × KeyedLeases :=
  match s.get? lease.request.semanticKey with
  | some (.leased held expires) =>
    if held = lease ∧ now < expires then
      let terminal : Terminal := ⟨lease.request, outcome, lease.ownerId, lease.attemptId,
        lease.fence, resultRef, failure⟩
      (.ok terminal, s.set lease.request.semanticKey (.ended terminal))
    else (.error "the lease is superseded", s)
  | _ => (.error "the effect holds no lease", s)

def verifyTerminal (terminal : Terminal) (s : KeyedLeases) : Except String Terminal :=
  match s.published terminal.request with
  | some found =>
    if found.ownerId = terminal.ownerId ∧ found.attemptId = terminal.attemptId ∧
        found.fence = terminal.fence then .ok found
    else .error "another terminal is published"
  | none => .error "no terminal is published"

theorem published_eq_some {s : KeyedLeases} {request : EffectRequest} {terminal : Terminal} :
    s.published request = some terminal ↔
      s.get? request.semanticKey = some (.ended terminal) ∧ terminal.request = request := by
  unfold published
  cases s.get? request.semanticKey with
  | none => simp
  | some row =>
    cases row with
    | leased lease expires => simp
    | ended found =>
      by_cases h : found.request = request
      · simp only [h, if_true, Option.some.injEq, LeaseRow.ended.injEq]
        constructor
        · rintro rfl
          exact ⟨rfl, h⟩
        · exact fun h' => h'.1
      · simp only [h, if_false, reduceCtorEq, Option.some.injEq, LeaseRow.ended.injEq, false_iff]
        rintro ⟨rfl,h'⟩
        exact h h'

/- What an operation on an effect without a terminal does: it leaves the rows alone, or it
   writes the effect's own row. -/
theorem acquire_cases (request : EffectRequest) (owner attempt : String) (now : Nat)
    (s : KeyedLeases) :
    (∃ terminal, s.get? request.semanticKey = some (.ended terminal) ∧
        acquire request owner attempt now s =
          (if terminal.request = request then .terminal terminal else .requestConflict, s)) ∨
      (∀ terminal, s.get? request.semanticKey ≠ some (.ended terminal)) ∧
        (acquire request owner attempt now s = (.requestConflict, s) ∨
          acquire request owner attempt now s = (.busy, s) ∨
          ∃ fence, acquire request owner attempt now s = grant request owner attempt fence now s) := by
  unfold acquire
  cases s.get? request.semanticKey with
  | none => exact .inr ⟨fun _ => by simp, .inr (.inr ⟨1, rfl⟩)⟩
  | some row =>
    cases row with
    | ended terminal =>
      refine .inl ⟨terminal, rfl, ?_⟩
      simp only
      split <;> rfl
    | leased lease expires =>
      refine .inr ⟨fun _ => by simp, ?_⟩
      simp only
      split
      · exact .inl rfl
      · split
        · exact .inr (.inl rfl)
        · exact .inr (.inr ⟨lease.fence + 1, rfl⟩)

theorem publish_cases (lease : Lease) (outcome : TerminalOutcome) (ref : Option TypedRef)
    (failure : Option LeaseText.LeaseFailure) (now : Nat) (s : KeyedLeases) :
    (∃ message, publish lease outcome ref failure now s = (.error message, s)) ∨
      (∀ terminal, s.get? lease.request.semanticKey ≠ some (.ended terminal)) ∧
        publish lease outcome ref failure now s =
          (.ok ⟨lease.request, outcome, lease.ownerId, lease.attemptId, lease.fence, ref, failure⟩,
            s.set lease.request.semanticKey (.ended
              ⟨lease.request, outcome, lease.ownerId, lease.attemptId, lease.fence, ref, failure⟩)) := by
  unfold publish
  cases s.get? lease.request.semanticKey with
  | none => exact .inl ⟨_, rfl⟩
  | some row =>
    cases row with
    | ended terminal => exact .inl ⟨_, rfl⟩
    | leased held expires =>
      simp only
      split
      · exact .inr ⟨fun _ => by simp, rfl⟩
      · exact .inl ⟨_, rfl⟩

/-- Writing the row of an effect without a terminal keeps the terminals of the others. -/
theorem published_set {s : KeyedLeases} {key : String} {row : LeaseRow}
    (hopen : ∀ terminal, s.get? key ≠ some (.ended terminal)) {request' : EffectRequest}
    {terminal : Terminal} (h : s.published request' = some terminal) :
    published (s.set key row) request' = some terminal := by
  rw [published_eq_some] at h ⊢
  have hne : request'.semanticKey ≠ key := by
    rintro rfl
    exact hopen terminal h.1
  rw [Dict.get?_set_ne _ _ _ _ hne]
  exact h

theorem published_of_set {s : KeyedLeases} {key : String} {row : LeaseRow}
    {request' : EffectRequest} {terminal : Terminal}
    (h : published (s.set key row) request' = some terminal) :
    s.published request' = some terminal ∨
      request'.semanticKey = key ∧ row = .ended terminal ∧ terminal.request = request' := by
  rw [published_eq_some] at h ⊢
  by_cases hkey : request'.semanticKey = key
  · rw [hkey, Dict.get?_set_self, Option.some.injEq] at h
    exact .inr ⟨hkey, h.1, h.2⟩
  · rw [Dict.get?_set_ne _ _ _ _ hkey] at h
    exact .inl h

end KeyedLeases

open KeyedLeases in
def keyedLeases : LeaseAuthority where
  State := KeyedLeases
  Choice := Nat
  initial := Dict.empty
  published := published
  acquire := acquire
  publish := publish
  verifyTerminal := verifyTerminal
  acquire_keeps := by
    intro request owner attempt now s request' terminal h
    rcases acquire_cases request owner attempt now s with
      ⟨_,_,he⟩ | ⟨hopen,he | he | ⟨fence,he⟩⟩
    · rw [he]
      exact h
    · rw [he]
      exact h
    · rw [he]
      exact h
    · rw [he]
      exact published_set hopen h
  acquire_replays := by
    intro request owner attempt now s terminal h
    obtain ⟨hrow,hrequest⟩ := published_eq_some.mp h
    rcases acquire_cases request owner attempt now s with ⟨found,hfound,he⟩ | ⟨hopen,_⟩
    · rw [hrow, Option.some.injEq, LeaseRow.ended.injEq] at hfound
      rw [he, ← hfound, if_pos hrequest]
    · exact absurd hrow (hopen terminal)
  acquire_terminal := by
    intro request owner attempt now s terminal h
    rcases acquire_cases request owner attempt now s with
      ⟨found,hfound,he⟩ | ⟨_,he | he | ⟨fence,he⟩⟩
    · rw [he] at h ⊢
      by_cases hrequest : found.request = request
      · simp only [if_pos hrequest] at h
        cases h
        exact published_eq_some.mpr ⟨hfound, hrequest⟩
      · simp only [if_neg hrequest] at h
        cases h
    · rw [he] at h
      cases h
    · rw [he] at h
      cases h
    · rw [he] at h
      cases h
  publish_keeps := by
    intro lease outcome ref failure now s request' terminal h
    rcases publish_cases lease outcome ref failure now s with ⟨_,he⟩ | ⟨hopen,he⟩
    · rw [he]
      exact h
    · rw [he]
      exact published_set hopen h
  publish_publishes := by
    intro lease outcome ref failure now s terminal h
    rcases publish_cases lease outcome ref failure now s with ⟨_,he⟩ | ⟨_,he⟩
    · rw [he] at h
      cases h
    · rw [he] at h ⊢
      cases h
      exact published_eq_some.mpr ⟨Dict.get?_set_self _ _ _, rfl⟩
  verify_published := by
    intro terminal s found h
    unfold verifyTerminal at h
    split at h
    · split at h
      · cases h
        assumption
      · cases h
    · cases h

open KeyedLeases in
theorem keyedLeases_laws : EffectLaws keyedLeases where
  published_keyed := by
    intro s request request' terminal terminal' h h' hkey
    obtain ⟨hrow,hrequest⟩ := published_eq_some.mp h
    obtain ⟨hrow',hrequest'⟩ := published_eq_some.mp h'
    rw [← hkey, hrow, Option.some.injEq, LeaseRow.ended.injEq] at hrow'
    rw [← hrequest, hrow', hrequest']
  initial_open := fun _ => rfl
  acquire_fresh := by
    intro request owner attempt now s lease h
    change (acquire request owner attempt now s).1 = .lease lease at h
    rcases acquire_cases request owner attempt now s with
      ⟨found,_,he⟩ | ⟨hopen,he | he | ⟨fence,he⟩⟩
    · rw [he] at h
      by_cases hrequest : found.request = request
      · simp [hrequest] at h
      · simp [hrequest] at h
    · rw [he] at h
      cases h
    · rw [he] at h
      cases h
    · rw [he] at h
      cases h
      refine ⟨rfl, fun request' hkey => ?_⟩
      cases hpublished : s.published request' with
      | none => exact hpublished
      | some terminal =>
        have hrow := (published_eq_some.mp hpublished).1
        rw [hkey] at hrow
        exact absurd hrow (hopen terminal)
  acquire_writes := by
    intro request owner attempt now s request' terminal h
    change published (acquire request owner attempt now s).2 request' = some terminal at h
    rcases acquire_cases request owner attempt now s with
      ⟨_,_,he⟩ | ⟨_,he | he | ⟨fence,he⟩⟩
    · rw [he] at h
      exact .inl h
    · rw [he] at h
      exact .inl h
    · rw [he] at h
      exact .inl h
    · rw [he] at h
      rcases published_of_set h with hkept | ⟨_,hrow,_⟩
      · exact .inl hkept
      · cases hrow
  publish_returns := by
    intro lease outcome ref failure now s terminal h
    change (publish lease outcome ref failure now s).1 = .ok terminal at h
    rcases publish_cases lease outcome ref failure now s with ⟨_,he⟩ | ⟨_,he⟩
    · rw [he] at h
      cases h
    · rw [he] at h
      cases h
      exact ⟨rfl, rfl, rfl⟩
  publish_writes := by
    intro lease outcome ref failure now s request' terminal h
    change published (publish lease outcome ref failure now s).2 request' = some terminal at h
    rcases publish_cases lease outcome ref failure now s with ⟨_,he⟩ | ⟨_,he⟩
    · rw [he] at h
      exact .inl h
    · rw [he] at h
      rcases published_of_set h with hkept | ⟨_,hrow,hrequest⟩
      · exact .inl hkept
      · cases hrow
        exact .inr ⟨hrequest.symm, rfl, rfl, rfl⟩

end Whetstone.Core
