import Whetstone.Optim.Gepa.StepEngine

/-! The durable effect cache. A broker records the request of an effect in its slot, answers it
from the recorded result when there is one, and otherwise asks the authority and records what
it returns. An operation is one access of the store, one call of an authority or one write of
the process's own lists; the process may stop before or behind each. -/
namespace Whetstone.Optim.Gepa
open Whetstone.Core Whetstone.Lib Whetstone.Experiment Whetstone.Optim.Step

def evaluationRequestSchema : String := "whetstone.gepa.evaluation_effect_request"
def evaluationResultSchema : String := "whetstone.gepa.evaluation_effect_result"
def proposalRequestSchema : String := "whetstone.gepa.proposal_effect_request"
def proposalResultSchema : String := "whetstone.gepa.proposal_effect_result"
def optimEvalRequestSchema : String := "whetstone.optim_eval_request"

/- What an attempt of a step raises: a search's own error, or one of the recorder, the store, an
   authority or the evaluation service. -/
inductive GepaError where
  | search (error : SearchError)
  | value (message : String)
  | effectConflict (message : String)
  | assertion (message : String)
  | store (message : String)
  | authority (message : String)
  | deferred (intent : OptimEvalRequest)
deriving DecidableEq

section Store

variable {F : Type} [FiniteFloats F] [DecidableEq F] [RewardIdentity F] [GepaIdentity F]

inductive EffectRecord (F : Type) [FiniteFloats F] [RewardIdentity F] where
  | request (e : GepaEffect F)
  | evaluation (result : GepaEvaluationEffectResult F)
  | proposal (result : GepaProposalEffectResult F)
  | intent (intent : OptimEvalRequest)
deriving DecidableEq

def EffectRecord.ref : EffectRecord F → TypedRef
  | .request (.evaluate r) => ⟨evaluationRequestSchema, GepaIdentity.requestContent (.evaluate r)⟩
  | .request (.propose r) =>
    ⟨proposalRequestSchema, GepaIdentity.requestContent (.propose r : GepaEffect F)⟩
  | .evaluation result => ⟨evaluationResultSchema, GepaIdentity.evaluationContent result⟩
  | .proposal result => ⟨proposalResultSchema, GepaIdentity.proposalContent result⟩
  | .intent i => ⟨optimEvalRequestSchema, GepaIdentity.intentHash F i⟩

inductive EffectKey where
  | slot (hash : String)
  | result (hash : String)
  | alias (runId effectHash : String)
  | platformIntent (intentHash : String)
deriving DecidableEq

/- The store, the resolutions the evaluation service has bound, and the lists the process
   keeps for the step it drives: resolutions with whether they were replayed, and spend. -/
structure GepaState (F : Type) [FiniteFloats F] [RewardIdentity F] where
  objects : Dict TypedRef (EffectRecord F)
  bindings : Dict EffectKey TypedRef
  intents : Dict String (IntentResolution F)
  collected : List (IntentResolution F × Bool)
  spent : List (ProposerCallUsage F)

def GepaState.put (s : GepaState F) (record : EffectRecord F) : Bool × GepaState F :=
  match s.objects.get? record.ref with
  | some old => (decide (old = record), s)
  | none => (true, { s with objects := s.objects.set record.ref record })

/- A binding that exists stays. -/
def GepaState.bind (s : GepaState F) (key : EffectKey) (ref : TypedRef) : GepaState F :=
  match s.bindings.get? key with
  | some _ => s
  | none => { s with bindings := s.bindings.set key ref }

inductive EvalDispatchMode where
  | inline
  | platform
deriving DecidableEq, Inhabited

inductive ServiceReply (F : Type) [FiniteFloats F] [RewardIdentity F] where
  | resolved (resolution : IntentResolution F)
  | deferred
  | raised (message : String)

inductive GepaOp (F : Type) [FiniteFloats F] [RewardIdentity F] where
  | put (record : EffectRecord F)
  | bind (key : EffectKey) (ref : TypedRef)
  | resolve (key : EffectKey)
  | get (ref : TypedRef)
  | evaluate (request : GepaEvaluationEffectRequest F)
  | propose (request : GepaProposalEffectRequest)
  | resolveIntent (mode : EvalDispatchMode) (intent : OptimEvalRequest)
  | project (request : GepaEvaluationEffectRequest F) (resolution : IntentResolution F)
  | collect (resolution : IntentResolution F) (replayed : Bool)
  | spend (usage : ProposerCallUsage F)

abbrev GepaOp.Reply : GepaOp F → Type
  | .put _ => Bool
  | .bind _ _ => Unit
  | .resolve _ => Option TypedRef
  | .get _ => Option (EffectRecord F)
  | .evaluate _ => Except String (GepaEvaluationEffectResult F)
  | .propose _ => Except String (GepaProposalEffectResult F)
  | .resolveIntent _ _ => ServiceReply F
  | .project _ _ => Except String (List (GepaEvaluationRow F))
  | .collect _ _ => Unit
  | .spend _ => Unit

abbrev GepaProg (F : Type) [FiniteFloats F] [RewardIdentity F] (α : Type) : Type :=
  Prog (GepaOp F) GepaOp.Reply GepaError α

/-! ### Spend -/

/- `REJECTED_RESPONSE_KEY` of a failure body that is an object. -/
def evidencesProviderResponse : Option Json → Bool
  | some (.obj fields) => (fields.lookup "rejected_response").any fun body => body ≠ .null
  | _ => false

/- A count that is an integer, and no boolean; one below zero counts as zero. -/
def usageTokens (usage : List (String × Json)) (key : String) : Option Int :=
  match usage.lookup key with
  | some (.int value) => some (max 0 value)
  | _ => none

def billed (result : GepaProposalEffectResult F) : Bool :=
  ¬ (result.failed = true ∧ result.rejectedByParser = false ∧
    evidencesProviderResponse (result.responseEvidence.lookup "provider_error") = false ∧
    usageTokens result.usage "prompt_tokens" = none ∧
    usageTokens result.usage "completion_tokens" = none ∧ result.cost = none)

def proposalCallUsage (result : GepaProposalEffectResult F) :
    Except String (Option (ProposerCallUsage F)) :=
  let promptTokens := usageTokens result.usage "prompt_tokens"
  let completionTokens := usageTokens result.usage "completion_tokens"
  let usd := result.cost.map FiniteFloat.value
  if billed result then
    match h : validateUsage promptTokens completionTokens usd with
    | .ok () => .ok (some ⟨result.requestHash, promptTokens, completionTokens, usd, h⟩)
    | .error message => .error message
  else .ok none

/- A provider reports no price below zero. -/
def Priced (result : GepaProposalEffectResult F) : Prop :=
  ∀ cost, result.cost = some cost → FloatOps.lt cost.value (FloatOps.zero : F) = false

instance (result : GepaProposalEffectResult F) : Decidable (Priced result) :=
  match h : result.cost with
  | none => isTrue fun cost hcost => by simp [h] at hcost
  | some cost => decidable_of_iff (FloatOps.lt cost.value (FloatOps.zero : F) = false)
      ⟨fun hcost other hother => by rw [h] at hother; cases hother; exact hcost,
        fun hall => hall cost h⟩

/-! ### Operations -/

/- What the environment decides: that the process stops, before an operation or behind it, or
   what an authority returns or raises. -/
inductive GepaAnswer (F : Type) [FiniteFloats F] [RewardIdentity F] where
  | goesOn
  | stopsBefore
  | stopsBehind
  | evaluated (outcome : Except String (GepaEvaluationEffectResult F))
  | proposed (outcome : Except String (GepaProposalEffectResult F))
  | resolved (outcome : Except String (IntentResolution F))
  | projected (outcome : Except String (List (GepaEvaluationRow F)))

/- An evaluation authority answers the request it was asked. -/
def answeredEvaluation (request : GepaEvaluationEffectRequest F) :
    GepaAnswer F → Except String (GepaEvaluationEffectResult F)
  | .evaluated (.ok result) =>
    if result.requestHash = GepaIdentity.evaluationHash request then .ok result
    else .error "the evaluation authority raised"
  | .evaluated (.error message) => .error message
  | _ => .error "the evaluation authority raised"

def answeredProposal (request : GepaProposalEffectRequest) :
    GepaAnswer F → Except String (GepaProposalEffectResult F)
  | .proposed (.ok result) =>
    if result.requestHash = GepaIdentity.proposalHash (F := F) request ∧ Priced result then
      .ok result
    else .error "the proposal authority raised"
  | .proposed (.error message) => .error message
  | _ => .error "the proposal authority raised"

def GepaState.resolveIntent (s : GepaState F) (mode : EvalDispatchMode) (intent : OptimEvalRequest)
    (answer : GepaAnswer F) : ServiceReply F × GepaState F :=
  match s.intents.get? (GepaIdentity.intentHash F intent) with
  | some resolution =>
    if resolution.optimEvalRequest = intent then (.resolved resolution, s)
    else (.raised "the bound resolution answers another intent", s)
  | none =>
    match mode, answer with
    | .platform, _ =>
      let record : EffectRecord F := .intent intent
      let key := EffectKey.platformIntent (GepaIdentity.intentHash F intent)
      if (s.put record).1 ∧ ((s.bindings.get? key).getD record.ref = record.ref) then
        (.deferred, (s.put record).2.bind key record.ref)
      else (.raised "the store refused the intent", s)
    | .inline, .resolved (.ok resolution) =>
      if resolution.optimEvalRequest = intent then
        (.resolved resolution,
          { s with intents := s.intents.set (GepaIdentity.intentHash F intent) resolution })
      else (.raised "the evaluation service raised", s)
    | .inline, .resolved (.error message) => (.raised message, s)
    | .inline, _ => (.raised "the evaluation service raised", s)

def performOp : (o : GepaOp F) → GepaAnswer F → GepaState F → GepaOp.Reply o × GepaState F
  | .put record, _, s => s.put record
  | .bind key ref, _, s => ((), s.bind key ref)
  | .resolve key, _, s => (s.bindings.get? key, s)
  | .get ref, _, s => (s.objects.get? ref, s)
  | .evaluate request, answer, s => (answeredEvaluation request answer, s)
  | .propose request, answer, s => (answeredProposal request answer, s)
  | .resolveIntent mode intent, answer, s => s.resolveIntent mode intent answer
  | .project _ _, .projected outcome, s => (outcome, s)
  | .project _ _, _, s => (.error "the evidence conflicts with the request", s)
  | .collect resolution replayed, _, s =>
    ((), { s with collected := s.collected ++ [(resolution, replayed)] })
  | .spend usage, _, s => ((), { s with spent := s.spent ++ [usage] })

def execOp (o : GepaOp F) (answer : GepaAnswer F) (s : GepaState F) :
    Option (GepaOp.Reply o) × GepaState F :=
  match answer with
  | .stopsBefore => (none, s)
  | .stopsBehind => (none, (performOp o answer s).2)
  | answer => (some (performOp o answer s).1, (performOp o answer s).2)

/-! ### The recorder -/

def performed (o : GepaOp F) : GepaProg F (GepaOp.Reply o) := Prog.perform o

def storePut (record : EffectRecord F) : GepaProg F Unit := do
  let stored ← performed (.put record)
  if stored then return ()
  else .raise (.store "the store holds another object under the reference")

def slotKey (e : GepaEffect F) : EffectKey := .slot (GepaIdentity.slotHash F e.slot)

def resultKey (e : GepaEffect F) : EffectKey := .result e.identityHash

def recordRequest (e : GepaEffect F) : GepaProg F Unit := do
  let record : EffectRecord F := .request e
  storePut record
  performed (.bind (slotKey e) record.ref)
  let bound ← performed (.resolve (slotKey e))
  if bound = some record.ref then return ()
  else .raise (.effectConflict
    ("GEPA replay changed the semantic effect at invocation ordinal " ++
      toString e.slot.invocationOrdinal))

def pickResult : (e : GepaEffect F) → EffectRecord F → Option e.Result
  | .evaluate _, .evaluation result => some result
  | .propose _, .proposal result => some result
  | _, _ => none

def resultSchema : GepaEffect F → String
  | .evaluate _ => evaluationResultSchema
  | .propose _ => proposalResultSchema

def kindName : GepaEffect F → String
  | .evaluate _ => "evaluation"
  | .propose _ => "proposal"

def resultRecord : (e : GepaEffect F) → e.Result → EffectRecord F
  | .evaluate _, result => .evaluation result
  | .propose _, result => .proposal result

def resultHash : (e : GepaEffect F) → e.Result → String
  | .evaluate _, result => result.requestHash
  | .propose _, result => result.requestHash

/- The two loaders of the source, which differ in the kind of the effect alone. -/
def loadResult (e : GepaEffect F) : GepaProg F (Option e.Result) := do
  let bound ← performed (.resolve (resultKey e))
  match bound with
  | none => return none
  | some ref =>
    if ref.schemaName ≠ resultSchema e then
      .raise (.effectConflict
        ("GEPA " ++ kindName e ++ " result binding names another effect kind"))
    else
      let stored ← performed (.get ref)
      match stored.bind (pickResult e) with
      | none => .raise (.store "the stored record is missing or does not validate")
      | some result =>
        if resultHash e result ≠ e.identityHash then
          .raise (.effectConflict
            ("GEPA " ++ kindName e ++ " result belongs to another request"))
        else return some result

instance (e : GepaEffect F) : DecidableEq e.Result :=
  match e with
  | .evaluate _ => inferInstanceAs (DecidableEq (GepaEvaluationEffectResult F))
  | .propose _ => inferInstanceAs (DecidableEq (GepaProposalEffectResult F))

def recordResult (e : GepaEffect F) (result : e.Result) : GepaProg F e.Result := do
  if resultHash e result ≠ e.identityHash then
    .raise (.value ("GEPA " ++ kindName e ++ " authority returned another request's result"))
  else
    let record := resultRecord e result
    storePut record
    performed (.bind (resultKey e) record.ref)
    let loaded ← loadResult e
    match loaded with
    | none => .raise (.assertion ("recorded GEPA " ++ kindName e ++ " result is missing"))
    | some found =>
      if found = result then return found
      else .raise (.effectConflict
        ("GEPA " ++ kindName e ++ " result binding conflicts with completed evidence"))

/-! ### The broker -/

/- The evaluation authority of a broker: how it collects a replayed effect and evaluates. -/
structure EvaluationAuthority (F : Type) [FiniteFloats F] [RewardIdentity F] where
  collectReplayed : GepaEvaluationEffectResult F → GepaProg F Unit
  evaluate : GepaEvaluationEffectRequest F → GepaProg F (GepaEvaluationEffectResult F)

def authorized {α : Type} : Except String α → GepaProg F α
  | .ok a => .done a
  | .error message => .raise (.authority message)

def brokerEvaluate (authority : EvaluationAuthority F) (request : GepaEvaluationEffectRequest F) :
    GepaProg F (GepaEvaluationEffectResult F) := do
  recordRequest (.evaluate request)
  let cached ← loadResult (.evaluate request)
  match cached with
  | some result => do
    authority.collectReplayed result
    return result
  | none => do
    let result ← authority.evaluate request
    recordResult (.evaluate request) result

/- The result, and whether the cache answered. -/
def brokerPropose (request : GepaProposalEffectRequest) :
    GepaProg F (GepaProposalEffectResult F × Bool) := do
  recordRequest (.propose request)
  let cached ← loadResult (.propose request : GepaEffect F)
  match cached with
  | some result => return (result, true)
  | none => do
    let reply ← performed (.propose request)
    let result ← authorized reply
    let recorded ← recordResult (.propose request : GepaEffect F) result
    return (recorded, false)

/- A proposal as the adapter asks for it: a fresh one that evidences a billed call is spend. -/
def proposeRecorded (request : GepaProposalEffectRequest) :
    GepaProg F (GepaProposalEffectResult F) := do
  let (result, replayed) ← brokerPropose request
  if replayed then return result
  else
    match proposalCallUsage result with
    | .error message => .raise (.value message)
    | .ok none => return result
    | .ok (some usage) => do
      performed (.spend usage)
      return result

def serveEffect (authority : EvaluationAuthority F) : (e : GepaEffect F) → GepaProg F e.Result
  | .evaluate request => brokerEvaluate authority request
  | .propose request => proposeRecorded request

/- A program over effects, its effects served by the broker. -/
def brokered {α : Type} (authority : EvaluationAuthority F)
    (p : Prog (GepaEffect F) GepaEffect.Result SearchError α) : GepaProg F α :=
  p.interpret .search (serveEffect authority)

/- An authority that is called as one operation, and collects nothing. -/
def directAuthority : EvaluationAuthority F where
  collectReplayed _ := .done ()
  evaluate request := do
    let reply ← performed (.evaluate request)
    authorized reply

end Store
end Whetstone.Optim.Gepa
