import Whetstone.Lib.Prog
import Whetstone.Lib.Dict
import Whetstone.Lib.Raise
import Mathlib.Algebra.Order.Ring.Rat

/-! Evaluation claims: the lease stream, the result attestation and the resolution binding of
one intent, as programs over single store operations.

A store reference is the object it addresses, so `put` returns nothing and `get` fails only
where the object was never put. The parts of a resolver that neither append to the claim
stream nor bind the resolution (evaluation, graph checks, waiting) are answered by the
environment. Loops take fuel; running out of it stops the call. -/
namespace Whetstone.Coordination
open Whetstone.Lib

inductive IntentOutcome where
  | rejected
  | failed
  | completed
deriving DecidableEq, Inhabited

/- `payload` stands for the detail, evidence, configuration, reward and failure fields. -/
structure IntentResolution (Intent Payload : Type) where
  optimEvalRequest : Intent
  outcome : IntentOutcome
  payload : Payload
deriving DecidableEq

structure EvalResultAttestation (Intent Payload : Type) where
  graphHash : String
  resolution : IntentResolution Intent Payload
  executed : resolution.outcome ≠ .rejected
deriving DecidableEq

structure EvalIntentClaim (Intent Payload : Type) where
  intentRef : Intent
  ownerId : String
  eventOrdinal : Nat
  generation : Nat
  heartbeatOrdinal : Nat
  expiresAt : Rat
  resultAttestationRef : Option (EvalResultAttestation Intent Payload)
deriving DecidableEq

inductive StoreKey where
  | resolution
  | claim (eventOrdinal : Nat)
deriving DecidableEq

inductive StoreObject (Intent Payload : Type) where
  | claim (claim : EvalIntentClaim Intent Payload)
  | attestation (attestation : EvalResultAttestation Intent Payload)
  | resolution (resolution : IntentResolution Intent Payload)
deriving DecidableEq

inductive BindStatus where
  | bound
  | idempotent
  | conflict
deriving DecidableEq

inductive EvalError where
  | value (message : String)
  | leaseLost (message : String)
  | runtime (message : String)
  | deferred
  | outOfFuel

structure EvalEngineService where
  ownerId : String
  claimLeaseSeconds : Rat
  graphHash : String

inductive EvalDispatchMode where
  | inline
  | platform
deriving DecidableEq

/- One call of a resolver: an inline or platform dispatch, or the fan-in over row outcomes. -/
inductive Call where
  | resolve (mode : EvalDispatchMode) (fuel : Nat)
  | fromRowOutcomes (fuel : Nat)

inductive EvalReply (Payload : Type) where
  | rejected (payload : Payload)
  | failed (payload : Payload)
  | completed (payload : Payload)
  | raised (message : String)

inductive GraphCheck (Intent Payload : Type) where
  | persistTargets
  | targetObjects
  | executionContract
  | completedGraph (resolution : IntentResolution Intent Payload)
  | failedGraph (resolution : IntentResolution Intent Payload)
  | persistPlatformIntent

inductive Label where
  | resolver (service : EvalEngineService) (calls : List Call)
  | heartbeat (service : EvalEngineService) (generation fuel : Nat)

def Label.ownerId : Label → String
  | .resolver service _ => service.ownerId
  | .heartbeat service _ _ => service.ownerId

inductive StoreOp (Intent Payload : Type) where
  | resolve (key : StoreKey)
  | put (object : StoreObject Intent Payload)
  | get (ref : StoreObject Intent Payload)
  | bind (key : StoreKey) (ref : StoreObject Intent Payload)
  | clock
  | check (check : GraphCheck Intent Payload)
  | evaluate
  | assemble
  | scanRowOutcomes
  | renewalWait
  | heartbeatErrors
  | startHeartbeat (service : EvalEngineService) (generation fuel : Nat)
  | report (resolution : IntentResolution Intent Payload)

abbrev StoreOp.Reply {Intent Payload : Type} : StoreOp Intent Payload → Type
  | .resolve _ => Option (StoreObject Intent Payload)
  | .put _ => Unit
  | .get _ => Option (StoreObject Intent Payload)
  | .bind _ _ => BindStatus
  | .clock => Rat
  | .check _ => Option String
  | .evaluate => EvalReply Payload
  | .assemble => EvalReply Payload
  | .scanRowOutcomes => Option (EvalReply Payload)
  | .renewalWait => Bool
  | .heartbeatErrors => Bool
  | .startHeartbeat _ _ _ => Unit
  | .report _ => Unit

abbrev ClaimProg (Intent Payload : Type) :=
  Prog (StoreOp Intent Payload) StoreOp.Reply EvalError

section Programs

variable {Intent Payload : Type} [DecidableEq Intent] [DecidableEq Payload] (intent : Intent)

abbrev perform (o : StoreOp Intent Payload) : ClaimProg Intent Payload o.Reply := Prog.perform o

def raise {α : Type} (error : EvalError) : ClaimProg Intent Payload α := .raise error

def require (check : GraphCheck Intent Payload) : ClaimProg Intent Payload Unit := do
  match ← perform (.check check) with
  | none => return
  | some message => raise (.value message)

def loadClaim (ref : StoreObject Intent Payload) :
    ClaimProg Intent Payload (EvalIntentClaim Intent Payload) := do
  match ← perform (.get ref) with
  | some (.claim claim) => return claim
  | _ => raise (.value "EvalIntentClaim validation failed")

/- The order the stream reader requires of a claim found at an ordinal. -/
def checkClaim (latest : Option (EvalIntentClaim Intent Payload)) (eventOrdinal : Nat)
    (claim : EvalIntentClaim Intent Payload) : Except EvalError Unit := do
  raiseIf (claim.intentRef ≠ intent ∨ claim.eventOrdinal ≠ eventOrdinal)
    (.value "durable evaluation claim has invalid lease identity")
  match latest with
  | none =>
    raiseIf (claim.generation ≠ 0 ∨ claim.heartbeatOrdinal ≠ 0)
      (.value "durable evaluation claim stream has invalid origin")
  | some latest =>
    raiseIf (latest.resultAttestationRef ≠ none)
      (.value "durable evaluation claim stream continues after its terminal attestation")
    if claim.ownerId = latest.ownerId then
      raiseIf (claim.generation ≠ latest.generation ∨
          claim.heartbeatOrdinal ≠ latest.heartbeatOrdinal + 1)
        (.value "durable evaluation claim has invalid renewal order")
    else
      raiseIf (claim.generation ≠ latest.generation + 1 ∨ claim.heartbeatOrdinal ≠ 0)
        (.value "durable evaluation claim has invalid takeover order")

def latestClaimFrom : Nat → Nat → Option (EvalIntentClaim Intent Payload) →
    ClaimProg Intent Payload (Option (EvalIntentClaim Intent Payload))
  | 0, _, _ => raise .outOfFuel
  | fuel + 1, eventOrdinal, latest => do
    match ← perform (.resolve (.claim eventOrdinal)) with
    | none => return latest
    | some bound =>
      let claim ← loadClaim bound
      Prog.ofExcept (checkClaim intent latest eventOrdinal claim)
      latestClaimFrom fuel (eventOrdinal + 1) (some claim)

def latestClaim (fuel : Nat) :
    ClaimProg Intent Payload (Option (EvalIntentClaim Intent Payload)) :=
  latestClaimFrom intent fuel 0 none

variable (service : EvalEngineService)

/- The ordinal of the next event, with the order and lease checks made before it is built. -/
def nextOrdinal (prior : Option (EvalIntentClaim Intent Payload))
    (generation heartbeatOrdinal : Nat) : ClaimProg Intent Payload Nat :=
  match prior with
  | none =>
    if generation ≠ 0 ∨ heartbeatOrdinal ≠ 0 then
      raise (.value "initial evaluation claim must start at zero")
    else return 0
  | some prior =>
    if generation = prior.generation then
      if prior.ownerId ≠ service.ownerId ∨ heartbeatOrdinal ≠ prior.heartbeatOrdinal + 1 then
        raise (.leaseLost "evaluation lease cannot be renewed by another owner")
      else if prior.resultAttestationRef ≠ none then
        raise (.leaseLost "terminal evaluation claim cannot be extended")
      else return prior.eventOrdinal + 1
    else if generation ≠ prior.generation + 1 ∨ heartbeatOrdinal ≠ 0 then
      raise (.value "evaluation takeover must start a generation")
    else do
      let now ← perform .clock
      if prior.expiresAt > now then
        raise (.leaseLost "evaluation lease cannot be taken over before expiry")
      else return prior.eventOrdinal + 1

/- Reads back the event bound at an ordinal, whoever bound it. -/
def readEvent (eventOrdinal : Nat) :
    ClaimProg Intent Payload (EvalIntentClaim Intent Payload) := do
  match ← perform (.resolve (.claim eventOrdinal)) with
  | none => raise (.runtime "AssertionError")
  | some bound =>
    let persisted ← loadClaim bound
    if persisted.intentRef ≠ intent ∨ persisted.eventOrdinal ≠ eventOrdinal then
      raise (.value "durable evaluation claim has invalid event identity")
    else return persisted

def claimEvent (eventOrdinal generation heartbeatOrdinal : Nat) (now : Rat)
    (resultAttestationRef : Option (EvalResultAttestation Intent Payload)) :
    EvalIntentClaim Intent Payload where
  intentRef := intent
  ownerId := service.ownerId
  eventOrdinal := eventOrdinal
  generation := generation
  heartbeatOrdinal := heartbeatOrdinal
  expiresAt := now + service.claimLeaseSeconds
  resultAttestationRef := resultAttestationRef

def appendClaimEvent (prior : Option (EvalIntentClaim Intent Payload))
    (generation heartbeatOrdinal : Nat)
    (resultAttestationRef : Option (EvalResultAttestation Intent Payload)) :
    ClaimProg Intent Payload (EvalIntentClaim Intent Payload) := do
  let eventOrdinal ← nextOrdinal service prior generation heartbeatOrdinal
  let now ← perform .clock
  let claim := claimEvent intent service eventOrdinal generation heartbeatOrdinal now
    resultAttestationRef
  perform (.put (.claim claim))
  -- a conflicting bind is not an error here: the winner is read back
  let _status ← perform (.bind (.claim eventOrdinal) (.claim claim))
  readEvent intent eventOrdinal

def loadResultAttestation (ref : EvalResultAttestation Intent Payload) :
    ClaimProg Intent Payload (EvalResultAttestation Intent Payload) := do
  match ← perform (.get (.attestation ref)) with
  | some (.attestation attestation) =>
    if attestation.resolution.optimEvalRequest ≠ intent then
      raise (.value "Evaluation Result Attestation belongs to another Optim Eval Request")
    else if attestation.graphHash ≠ service.graphHash then
      raise (.value "Evaluation Result Attestation uses another generation graph")
    else return attestation
  | _ => raise (.value "durable record content must be a JSON object")

def attestedResolution (fuel : Nat) :
    ClaimProg Intent Payload (Option (IntentResolution Intent Payload)) := do
  match ← latestClaim intent fuel with
  | none => return none
  | some latest =>
    match latest.resultAttestationRef with
    | none => return none
    | some ref =>
      let attestation ← loadResultAttestation intent service ref
      return some attestation.resolution

/- `_validate_result_graph`; the object graph behind a resolution is checked by the environment. -/
def validateResultGraph (fuel : Nat) (resolution : IntentResolution Intent Payload)
    (requireAttestation : Bool) : ClaimProg Intent Payload Unit := do
  if resolution.optimEvalRequest ≠ intent then
    raise (.value "durable Intent Resolution belongs to another Optim Eval Request")
  else
    require .targetObjects
    match resolution.outcome with
    | .rejected => return
    | .completed =>
      require .executionContract
      validateAttested requireAttestation
      require (.completedGraph resolution)
    | .failed =>
      require .executionContract
      validateAttested requireAttestation
      require (.failedGraph resolution)
where
  validateAttested (requireAttestation : Bool) : ClaimProg Intent Payload Unit := do
    if requireAttestation then
      let attested ← attestedResolution intent service fuel
      if attested ≠ some resolution then
        raise (.value ("Intent Resolution does not equal the exact terminal " ++
          "Evaluation Result Attestation"))
      else return
    else return

/- `_load`: the reference must address a resolution, whose graph is validated again. -/
def loadResolution (fuel : Nat) (ref : StoreObject Intent Payload) :
    ClaimProg Intent Payload (IntentResolution Intent Payload) := do
  match ref with
  | .resolution _ =>
    match ← perform (.get ref) with
    | some (.resolution resolution) =>
      validateResultGraph intent service fuel resolution true
      return resolution
    | _ => raise (.value "IntentResolution validation failed")
  | _ => raise (.value "Intent Resolution ref has the wrong schema")

def bindResolution (fuel : Nat) (resolution : IntentResolution Intent Payload) :
    ClaimProg Intent Payload (IntentResolution Intent Payload) := do
  validateResultGraph intent service fuel resolution true
  perform (.put (.resolution resolution))
  match ← perform (.bind .resolution (.resolution resolution)) with
  | .conflict =>
    match ← perform (.resolve .resolution) with
    | none => raise (.runtime "AssertionError")
    | some winner => loadResolution intent service fuel winner
  | _ => return resolution

def ownsLatest (latest : Option (EvalIntentClaim Intent Payload)) (generation : Nat) : Bool :=
  match latest with
  | none => false
  | some latest => latest.ownerId = service.ownerId ∧ latest.generation = generation

def publishLoop (attestation : EvalResultAttestation Intent Payload) (generation scanFuel : Nat) :
    Nat → ClaimProg Intent Payload Unit
  | 0 => raise .outOfFuel
  | fuel + 1 => do
    match ← latestClaim intent scanFuel with
    | none => raise (.leaseLost "evaluation lease is not owned by this resolver")
    | some latest =>
      if ownsLatest service (some latest) generation = false then
        raise (.leaseLost "evaluation lease is not owned by this resolver")
      else
        match latest.resultAttestationRef with
        | some ref =>
          let existing ← loadResultAttestation intent service ref
          if existing ≠ attestation then
            raise (.leaseLost "terminal evaluation claim names another result")
          else return
        | none =>
          let winner ← appendClaimEvent intent service (some latest) generation
            (latest.heartbeatOrdinal + 1) (some attestation)
          if ownsLatest service (some winner) generation = false then
            raise (.leaseLost "evaluation result lost claim arbitration")
          else if winner.resultAttestationRef = some attestation then return
          else if winner.resultAttestationRef ≠ none then
            raise (.leaseLost "terminal evaluation claim names another result")
          else publishLoop attestation generation scanFuel fuel

def publishResultAttestation (fuel : Nat) (resolution : IntentResolution Intent Payload)
    (generation : Nat) : ClaimProg Intent Payload Unit := do
  validateResultGraph intent service fuel resolution false
  if h : resolution.outcome ≠ .rejected then
    let attestation : EvalResultAttestation Intent Payload :=
      ⟨service.graphHash, resolution, h⟩
    perform (.put (.attestation attestation))
    publishLoop intent service attestation generation fuel fuel
  else
    raise (.value
      "an Evaluation Result Attestation requires a terminal executed outcome")

def renewClaim (fuel generation : Nat) : ClaimProg Intent Payload Unit := do
  match ← latestClaim intent fuel with
  | none => raise (.leaseLost "evaluation lease is not owned by this resolver")
  | some latest =>
    if ownsLatest service (some latest) generation = false then
      raise (.leaseLost "evaluation lease is not owned by this resolver")
    else if latest.resultAttestationRef ≠ none then return
    else
      let winner ← appendClaimEvent intent service (some latest) generation
        (latest.heartbeatOrdinal + 1) none
      if ownsLatest service (some winner) generation = false then
        raise (.leaseLost "evaluation lease renewal lost claim arbitration")
      else return

def assertGenerationCurrent (fuel generation : Nat) : ClaimProg Intent Payload Unit := do
  let latest ← latestClaim intent fuel
  if ownsLatest service latest generation = false then
    raise (.leaseLost "evaluation lease is not owned by this resolver")
  else return

/- `_claim` returns the owned generation, or nothing where a result already exists. -/
def claimLoop (scanFuel : Nat) : Nat → ClaimProg Intent Payload (Option Nat)
  | 0 => raise .outOfFuel
  | fuel + 1 => do
    match ← perform (.resolve .resolution) with
    | some _ => return none
    | none =>
      let winner ← currentOrFirst
      if winner.resultAttestationRef ≠ none then return none
      else if winner.ownerId = service.ownerId then return some winner.generation
      else
        let now ← perform .clock
        if winner.expiresAt - now ≤ 0 then
          let takeover ← appendClaimEvent intent service (some winner) (winner.generation + 1) 0 none
          if takeover.ownerId = service.ownerId then return some takeover.generation
          else claimLoop scanFuel fuel
        else claimLoop scanFuel fuel
where
  currentOrFirst : ClaimProg Intent Payload (EvalIntentClaim Intent Payload) := do
    match ← latestClaim intent scanFuel with
    | some winner => return winner
    | none => appendClaimEvent intent service none 0 0 none

def bindIfOwned (fuel : Nat) (resolution : IntentResolution Intent Payload) (generation : Nat) :
    ClaimProg Intent Payload (IntentResolution Intent Payload) := do
  match resolution.outcome with
  | .completed | .failed => publishResultAttestation intent service fuel resolution generation
  | .rejected => assertGenerationCurrent intent service fuel generation
  bindResolution intent service fuel resolution

def bindReply (fuel generation : Nat) (reply : EvalReply Payload) :
    ClaimProg Intent Payload (IntentResolution Intent Payload) :=
  match reply with
  | .rejected payload => bindIfOwned intent service fuel ⟨intent, .rejected, payload⟩ generation
  | .failed payload => bindIfOwned intent service fuel ⟨intent, .failed, payload⟩ generation
  | .completed payload => bindIfOwned intent service fuel ⟨intent, .completed, payload⟩ generation
  | .raised message => raise (.runtime message)

def evaluateAndBind (mode : EvalDispatchMode) (fuel generation : Nat) :
    ClaimProg Intent Payload (IntentResolution Intent Payload) := do
  require .persistTargets
  match ← perform (.resolve .resolution) with
  | some existing => loadResolution intent service fuel existing
  | none =>
    match mode with
    | .platform =>
      require .persistPlatformIntent
      raise .deferred
    | .inline =>
      assertGenerationCurrent intent service fuel generation
      bindReply intent service fuel generation (← perform .evaluate)

def assembleAndBindOutcomes (fuel generation : Nat) :
    ClaimProg Intent Payload (IntentResolution Intent Payload) := do
  require .persistTargets
  assertGenerationCurrent intent service fuel generation
  match ← perform .scanRowOutcomes with
  | some reply => bindReply intent service fuel generation reply
  | none =>
    require .persistTargets
    assertGenerationCurrent intent service fuel generation
    bindReply intent service fuel generation (← perform .assemble)

def heartbeat (generation scanFuel : Nat) : Nat → ClaimProg Intent Payload Unit
  | 0 => raise .outOfFuel
  | fuel + 1 => do
    if ← perform .renewalWait then return
    else
      renewClaim intent service scanFuel generation
      heartbeat generation scanFuel fuel

def evaluateWithHeartbeat (fuel generation : Nat)
    (body : ClaimProg Intent Payload (IntentResolution Intent Payload)) :
    ClaimProg Intent Payload (IntentResolution Intent Payload) := do
  renewClaim intent service fuel generation
  perform (.startHeartbeat service generation fuel)
  assertGenerationCurrent intent service fuel generation
  let resolution ← body
  if ← perform .heartbeatErrors then
    match ← perform (.resolve .resolution) with
    | none => raise (.runtime "evaluation lease heartbeat failed")
    | some _ => return resolution
  else return resolution

/- The common frame of `_resolve_claimed` and `_resolve_claimed_with_row_outcomes`. -/
def resolveClaimed (fuel : Nat)
    (body : Nat → ClaimProg Intent Payload (IntentResolution Intent Payload)) :
    ClaimProg Intent Payload (IntentResolution Intent Payload) := do
  match ← perform (.resolve .resolution) with
  | some existing => loadResolution intent service fuel existing
  | none =>
    match ← attestedResolution intent service fuel with
    | some attested => bindResolution intent service fuel attested
    | none =>
      let owned ← claimLoop intent service fuel fuel
      match ← perform (.resolve .resolution) with
      | some existing => loadResolution intent service fuel existing
      | none =>
        match ← attestedResolution intent service fuel with
        | some attested => bindResolution intent service fuel attested
        | none =>
          match owned with
          | none => raise (.runtime "evaluation claim resolved without a result")
          | some generation =>
            evaluateWithHeartbeat intent service fuel generation (body generation)

def resolveCall (call : Call) : ClaimProg Intent Payload (IntentResolution Intent Payload) :=
  match call with
  | .resolve mode fuel =>
    resolveClaimed intent service fuel (evaluateAndBind intent service mode fuel)
  | .fromRowOutcomes fuel =>
    resolveClaimed intent service fuel (assembleAndBindOutcomes intent service fuel)

/- Calls of one service run one after the other, under its resolve lock; a call that raises
   reports nothing. -/
def resolver : List Call → ClaimProg Intent Payload Unit
  | [] => return
  | call :: rest => do
    Prog.handle (do perform (.report (← resolveCall intent service call)))
      (fun _ => pure ())
    resolver rest

end Programs

/-! ### The store -/

/- `fence` is a history variable: who first bound the resolution, and the bindings before it. -/
structure ClaimStore (Intent Payload : Type) where
  objects : List (StoreObject Intent Payload)
  bindings : Dict StoreKey (StoreObject Intent Payload)
  reported : List (IntentResolution Intent Payload)
  fence : Option (String × Dict StoreKey (StoreObject Intent Payload))

inductive Answer (Payload : Type) where
  | unit
  | time (now : Rat)
  | verdict (message : Option String)
  | reply (reply : EvalReply Payload)
  | rows (reply : Option (EvalReply Payload))
  | flag (value : Bool)

section Store

variable {Intent Payload : Type} [DecidableEq Intent] [DecidableEq Payload]

def ClaimStore.empty : ClaimStore Intent Payload := ⟨[], Dict.empty, [], none⟩

def ClaimStore.bind (ownerId : String) (key : StoreKey) (ref : StoreObject Intent Payload)
    (s : ClaimStore Intent Payload) : BindStatus × ClaimStore Intent Payload :=
  match s.bindings.get? key with
  | some bound => (if bound = ref then .idempotent else .conflict, s)
  | none =>
    (.bound, { s with
      bindings := s.bindings.set key ref
      fence := if key = .resolution then some (ownerId, s.bindings) else s.fence })

def execute (l : Label) (o : StoreOp Intent Payload) (answer : Answer Payload)
    (s : ClaimStore Intent Payload) : Option (o.Reply × ClaimStore Intent Payload) :=
  match o, answer with
  | .resolve key, _ => some (s.bindings.get? key, s)
  | .put object, _ => some ((), { s with objects := object :: s.objects })
  | .get ref, _ => some (if ref ∈ s.objects then some ref else none, s)
  | .bind key ref, _ => some (s.bind l.ownerId key ref)
  | .clock, .time now => some (now, s)
  | .check _, .verdict message => some (message, s)
  | .evaluate, .reply reply => some (reply, s)
  | .assemble, .reply reply => some (reply, s)
  | .scanRowOutcomes, .rows reply => some (reply, s)
  | .renewalWait, .flag value => some (value, s)
  | .heartbeatErrors, .flag value => some (value, s)
  | .startHeartbeat _ _ _, _ => some ((), s)
  | .report resolution, _ => some ((), { s with reported := s.reported ++ [resolution] })
  | _, _ => none

def spawned : StoreOp Intent Payload → List Label
  | .startHeartbeat service generation fuel => [.heartbeat service generation fuel]
  | _ => []

def claimMachine (intent : Intent) :
    Machine Label (ClaimStore Intent Payload) (Answer Payload) (StoreOp Intent Payload)
      StoreOp.Reply EvalError where
  exec := execute
  spawns := spawned
  code
    | .resolver service calls => resolver intent service calls
    | .heartbeat service generation fuel => heartbeat intent service generation fuel fuel

/- Resolvers start on an empty store, each with the calls it will make. -/
def startPool (intent : Intent) (resolvers : List (EvalEngineService × List Call)) :
    Pool Label (ClaimStore Intent Payload) (StoreOp Intent Payload) StoreOp.Reply EvalError :=
  ⟨.empty, resolvers.map fun r => (claimMachine intent).start (.resolver r.1 r.2)⟩

end Store
end Whetstone.Coordination
