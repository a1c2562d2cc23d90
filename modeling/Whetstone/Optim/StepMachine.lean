import Whetstone.Optim.Harness

/-! The machine in which any number of harnesses run steps of one run over one object store,
one lease authority and the issued-call ledgers. A thread that is never scheduled again has
crashed between two operations. -/
namespace Whetstone.Optim.Step
open Whetstone.Core Whetstone.Lib Whetstone.Experiment Whetstone.Eval Whetstone.Tools

variable [PyIdentifiers] [CandidateIdentity] [ToolIdentity] [LeaseText]

/- One call of `run_step`, by its number among the calls of the run. -/
structure Invocation (F : Type) [FiniteFloats F] where
  number : Nat
  harness : OptimHarness F
  request : OptimStepRequest F

variable {F : Type} [FiniteFloats F] [DecidableEq F] [RewardIdentity F] [ResultIdentity F]
variable [RequestIdentity F] [StepResultIdentity F] [HarnessIdentity F]

/- `settled` says whether the adapter effect of the request had a terminal at the entry. -/
inductive StepEvent (F : Type) [FiniteFloats F] [DecidableEq F] [RewardIdentity F]
    [ResultIdentity F] [RequestIdentity F] where
  | entered (invocation : Invocation F) (settled : Bool)
  | invoked (invocation : Invocation F)
  | returned (invocation : Invocation F) (result : OptimStepResult F) (ref : TypedRef)

structure StepState (F : Type) [FiniteFloats F] [DecidableEq F] [RewardIdentity F]
    [ResultIdentity F] [RequestIdentity F] [StepResultIdentity F]
    (authority : LeaseAuthority) where
  objects : Objects F
  bindings : Dict BindingKey TypedRef
  leases : authority.State
  ledgers : Dict TypedRef (List (Option (ToolEvidence F)))
  history : List (StepEvent F)

/- What the environment chooses for one operation. An adapter leaves the slots of its step's
   ledger behind, and it and the service may store records of their own. -/
inductive StepAnswer (F : Type) [FiniteFloats F] [DecidableEq F] [RewardIdentity F]
    [ResultIdentity F] (authority : LeaseAuthority) where
  | silent
  | lease (attemptId : String) (choice : authority.Choice)
  | handle (reply : Except String (ToolConfig × ToolCapacityBinding))
  | adapter (reply : Except String (AdapterOutput F)) (slots : List (Option (ToolEvidence F)))
      (stored : List (TypedRef × ForeignRecord F))
  | service (reply : Except String (IntentResolution F))
      (stored : List (TypedRef × ForeignRecord F))
  | graph (reply : Except String Unit)

variable {authority : LeaseAuthority}

namespace StepState

def record (event : StepEvent F) (s : StepState F authority) : StepState F authority :=
  { s with history := s.history ++ [event] }

/- A reference that holds a record keeps it. -/
def put (record : Record F) (s : StepState F authority) : Bool × StepState F authority :=
  match s.objects.get? record.ref with
  | none => (true, { s with objects := s.objects.set record.ref record })
  | some held => (held = record, s)

/- First writer wins; binding the bound reference again is idempotent. -/
def bind (key : BindingKey) (ref : TypedRef) (s : StepState F authority) :
    BindStatus × StepState F authority :=
  match s.bindings.get? key with
  | none => (.created, { s with bindings := s.bindings.set key ref })
  | some bound => (if bound = ref then .idempotent else .conflict bound, s)

def slots (s : StepState F authority) (request : OptimStepRequest F) :
    List (Option (ToolEvidence F)) :=
  (s.ledgers.get? request.recordRef).getD []

def storeForeign (stored : List (TypedRef × ForeignRecord F)) (s : StepState F authority) :
    StepState F authority :=
  stored.foldl (fun s item => (s.put (.foreign item.1 item.2)).2) s

def withLeases {α : Type} (s : StepState F authority) (decided : α × authority.State) :
    α × StepState F authority :=
  (decided.1, { s with leases := decided.2 })

end StepState

/- Slots are only added, and a terminal in a slot stays. -/
def extendsSlots {α : Type} [DecidableEq α] : List (Option α) → List (Option α) → Bool
  | [], _ => true
  | some held :: rest, some found :: later => held = found ∧ extendsSlots rest later
  | none :: rest, _ :: later => extendsSlots rest later
  | _ :: _, _ => false

/- The call of a slot was made through a guarded handle of the step. -/
def throughHandle (request : OptimStepRequest F) (evidence : ToolEvidence F) : Bool :=
  evidence.result.call.toolConfig ∈ request.toolConfigs ∧
    evidence.result.call.capacityBinding =
      toolCapacityBinding request evidence.result.call.toolConfig

/- The slots an invocation may leave: those it found and calls through its handles, of which
   only a tool-using step has any. -/
def leavesSlots (request : OptimStepRequest F) (held found : List (Option (ToolEvidence F))) :
    Bool :=
  if request.mode = .toolUsing then
    extendsSlots held found ∧ ∀ slot ∈ found, slot.all (throughHandle request) = true
  else found = held

def allPolicies : List ReplayPolicy := [.idempotent, .noRedrive, .durableWorkflow]

/- The adapter effect of the request has a terminal, under any replay policy. -/
def adapterSettled (s : StepState F authority) (request : OptimStepRequest F) : Bool :=
  allPolicies.any fun policy =>
    (authority.published s.leases (adapterEffectRequest request policy)).isSome

def execOp (invocation : Invocation F) (o : StepOp F) (answer : StepAnswer F authority)
    (s : StepState F authority) : Option (o.Reply × StepState F authority) :=
  match o, answer with
  | .enter, _ =>
    some ((), s.record (.entered invocation (adapterSettled s invocation.request)))
  | .leave result ref, _ => some ((), s.record (.returned invocation result ref))
  | .resolve key, _ => some (s.bindings.get? key, s)
  | .get ref, _ => some (s.objects.get? ref, s)
  | .objects, _ => some (s.objects, s)
  | .put record, _ => some (s.put record)
  | .bind key ref, _ => some (s.bind key ref)
  | .acquire effect ownerId, .lease attemptId choice =>
    some (s.withLeases (authority.effectAcquire effect ownerId attemptId choice s.leases))
  | .publish _ lease outcome resultRef failure, .lease _ choice =>
    some (s.withLeases (authority.effectPublish lease outcome resultRef failure choice s.leases))
  | .runtimeHandle _ _, .handle reply => some (reply, s)
  | .invoke request, .adapter reply slots stored =>
    if leavesSlots request (s.slots request) slots then
      some (reply, { s.storeForeign stored with
        ledgers := s.ledgers.set request.recordRef slots
        history := s.history ++ [.invoked invocation] })
    else none
  | .ledger request, _ => some (s.slots request, s)
  | .resolveIntent _, .service reply stored => some (reply, s.storeForeign stored)
  | .validateGraph _, .graph reply => some (reply, s)
  | _, _ => none

variable (F authority) in
def stepMachine : Machine (Invocation F) (StepState F authority) (StepAnswer F authority)
    (StepOp F) StepOp.Reply StepError where
  exec := execOp
  spawns := fun _ => []
  code := fun invocation => do
    perform .enter
    let (result, ref) ← runStep invocation.harness invocation.request
    perform (.leave result ref)

/- The stores after the run was bound, over the records that others have stored before. -/
def boundState (authority : LeaseAuthority) (run : OptimRun F) (stored : Objects F) :
    StepState F authority where
  objects := stored
  bindings := Dict.empty.set (.run run.runId) run.recordRef
  leases := authority.initial
  ledgers := Dict.empty
  history := []

/- One invocation for each harness and request, numbered in order. -/
def stepPool (authority : LeaseAuthority) (run : OptimRun F) (stored : Objects F)
    (calls : List (OptimHarness F × OptimStepRequest F)) :
    Pool (Invocation F) (StepState F authority) (StepOp F) StepOp.Reply StepError where
  state := boundState authority run stored
  threads := calls.mapIdx fun number call =>
    (stepMachine F authority).start ⟨number, call.1, call.2⟩

/- What `bind_run` leaves: every record under its own reference, and the run among them. -/
structure HoldsRun (run : OptimRun F) (stored : Objects F) : Prop where
  addressed : ∀ ref record, stored.get? ref = some record → record.ref = ref
  run : stored.get? run.recordRef = some (.run run)

end Whetstone.Optim.Step
