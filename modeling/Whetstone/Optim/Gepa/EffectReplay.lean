import Whetstone.Optim.Gepa.Recorder

/-! A search run in steps. Each step drives the search from its seed to one metric call more
than the last checkpoint, on the effects the store has recorded; an attempt may stop anywhere,
and its checkpoint may be lost. The steps come to what one run of the whole search comes to on
the same results, and no recorded effect is asked for again. -/
namespace Whetstone.Optim.Gepa
open Whetstone.Core Whetstone.Lib Whetstone.Experiment Whetstone.Optim.Step

variable {F : Type} [FiniteFloats F] [DecidableEq F] [RewardIdentity F] [GepaIdentity F]

/-! ### The broker -/

/- What the store or an authority raises. -/
def GepaError.Fault : GepaError → Prop
  | .store _ => True
  | .authority _ => True
  | _ => False

omit [DecidableEq F] [RewardIdentity F] [GepaIdentity F] in
theorem validateCount_max (name : String) (value : Int) :
    validateCount name (some (max 0 value)) = .ok () := by
  have h : ¬ max 0 value < 0 := by omega
  simp [validateCount, raiseIf, h]

omit [DecidableEq F] [RewardIdentity F] [GepaIdentity F] in
theorem validateCount_usageTokens (name key : String) (usage : List (String × Json)) :
    validateCount name (usageTokens usage key) = .ok () := by
  unfold usageTokens
  split
  · exact validateCount_max _ _
  · rfl

omit [DecidableEq F] [RewardIdentity F] [GepaIdentity F] in
/-- A priced result is spend or none. -/
theorem proposalCallUsage_ok {result : GepaProposalEffectResult F} (h : Priced result) :
    ∃ usage, proposalCallUsage result = .ok usage := by
  have hvalid : validateUsage (usageTokens result.usage "prompt_tokens")
      (usageTokens result.usage "completion_tokens") (result.cost.map FiniteFloat.value) = .ok () := by
    unfold validateUsage
    rw [validateCount_usageTokens, validateCount_usageTokens]
    cases hcost : result.cost with
    | none => rfl
    | some cost =>
      have hlt := h cost hcost
      simp [validatePrice, raiseIf, hlt, cost.finite]
  unfold proposalCallUsage
  dsimp only
  split
  · split
    · exact ⟨_, rfl⟩
    · rename_i message hmessage
      rw [hvalid] at hmessage
      cases hmessage
  · exact ⟨_, rfl⟩

section Broker

variable {β : Type} {context : GepaEffectContext} {Q : Nat → β → Prop} {lo n : Nat}
variable {full : Prog (GepaEffect F) GepaEffect.Result SearchError β} {Extra : GepaState F → Prop}
variable {s : GepaState F}

/-- An effect takes its slot, and what follows is told its recorded result. -/
theorem holds_lookedUp {α : Type} (hextra : ∀ s t, Steady s t → Extra s → Extra t)
    (hseparates : Separates F context) (hincreasing : Increasing context Q lo full)
    {e : GepaEffect F} (hs : (recording context full Extra).durable s)
    (he : full.requested (recordedResult s) n = some e)
    {P : Except GepaError α → GepaState F → Prop} {k : Option e.Result → GepaProg F α}
    (hk : ∀ t, Quiet s t → (recording context full Extra).durable t →
      recordedResult t = recordedResult s →
      (settled (k (recordedResult s e))).Holds execOp (recording context full Extra) P t)
    (hstore : ∀ t message, Quiet s t → P (.error (.store message)) t) :
    (settled ((recordRequest e).bind fun _ => (loadResult e).bind k)).Holds execOp
      (recording context full Extra) P s := by
  have hquiet : ∀ s t, Quiet s t → Extra s → Extra t := fun s t h => hextra s t h.toSteady
  refine Prog.holds_reify_bind (holds_recordRequest hquiet hseparates hincreasing hs he)
    (fun _ t ht hq => ?_) ?_
  · refine Prog.holds_reify_bind (holds_loadResult hseparates e ht)
      (fun cached u hu hloaded => ?_) fun error u _ hloaded => by cases hloaded.2
    obtain ⟨rfl,hcached⟩ := hloaded
    obtain ⟨hst,hsame⟩ := hq
    rw [hsame] at hcached
    cases Except.ok.inj hcached
    exact hk u hst hu hsame
  · rintro error t _ ⟨hst,message,rfl⟩
    exact hstore t message hst

/-- The reply of an authority: the result of the request, or a fault. -/
theorem holds_answeredEvaluation (request : GepaEvaluationEffectRequest F)
    (hs : (recording context full Extra).durable s)
    (hnone : recordedResult s (.evaluate request) = none) :
    (settled ((performed (.evaluate request)).bind authorized)).Holds execOp
      (recording context full Extra) (fun x t => t = s ∧ match x with
        | .ok r => r.requestHash = GepaIdentity.evaluationHash request
        | .error error => error.Fault) s := by
  refine holds_op not_false (.evaluate request) _ hs hnone fun answer => ⟨hs, ?_⟩
  simp only [performOp]
  cases hreply : answeredEvaluation request answer with
  | error message => exact ⟨hs, rfl, trivial⟩
  | ok r =>
    refine ⟨hs, rfl, ?_⟩
    unfold answeredEvaluation at hreply
    split at hreply
    · split at hreply
      · cases hreply
        assumption
      · cases hreply
    · cases hreply
    · cases hreply

theorem holds_answeredProposal (request : GepaProposalEffectRequest)
    (hs : (recording context full Extra).durable s)
    (hnone : recordedResult s (.propose request) = none) :
    (settled ((performed (.propose request)).bind authorized)).Holds execOp
      (recording context full Extra) (fun x t => t = s ∧ match x with
        | .ok r => r.requestHash = GepaIdentity.proposalHash (F := F) request ∧ Priced r
        | .error error => error.Fault) s := by
  refine holds_op not_false (.propose request) _ hs hnone fun answer => ⟨hs, ?_⟩
  simp only [performOp]
  cases hreply : answeredProposal request answer with
  | error message => exact ⟨hs, rfl, trivial⟩
  | ok r =>
    refine ⟨hs, rfl, ?_⟩
    unfold answeredProposal at hreply
    split at hreply
    · split at hreply
      · cases hreply
        assumption
      · cases hreply
    · cases hreply
    · cases hreply

/-- A reflection is answered from the record, or asked for, recorded and counted as spend. -/
theorem holds_proposeRecorded (hextra : ∀ s t, Steady s t → Extra s → Extra t)
    (hseparates : Separates F context) (hincreasing : Increasing context Q lo full)
    {request : GepaProposalEffectRequest} (hs : (recording context full Extra).durable s)
    (he : full.requested (recordedResult s) n = some (.propose request)) :
    (settled (proposeRecorded request)).Holds execOp (recording context full Extra)
      (fun x t => Steady s t ∧ match x with
        | .ok r => recordedResult t (.propose request) = some r ∧
            ((recordedResult s (.propose request) = some r ∧ t.spent = s.spent) ∨
              (recordedResult s (.propose request) = none ∧ ∃ usage,
                proposalCallUsage r = .ok usage ∧ t.spent = s.spent ++ usage.toList))
        | .error error => error.Fault) s := by
  have hquiet : ∀ s t, Quiet s t → Extra s → Extra t := fun s t h => hextra s t h.toSteady
  -- the broker's part: the result, and whether it was on record
  have hbroker : (settled (brokerPropose request)).Holds execOp (recording context full Extra)
      (fun x t => Quiet s t ∧ match x with
        | .ok (r, replayed) => recordedResult t (.propose request) = some r ∧
            if replayed then recordedResult s (.propose request) = some r
            else recordedResult s (.propose request) = none ∧ Priced r
        | .error error => error.Fault) s := by
    refine holds_lookedUp hextra hseparates hincreasing hs he (fun t hst ht hsame => ?_)
      fun t message hst => ⟨hst, trivial⟩
    cases hrecorded : recordedResult s (.propose request) with
    | some r => exact ⟨ht, hst, by rw [hsame, hrecorded], rfl⟩
    | none =>
      have hnone : recordedResult t (.propose request) = none := by rw [hsame, hrecorded]
      change (settled ((performed (.propose request)).bind fun reply => (authorized reply).bind
        fun result => (recordResult (.propose request : GepaEffect F) result).bind
          fun recorded => .done (recorded, false))).Holds _ _ _ t
      rw [settled, ← Prog.bind_assoc]
      refine Prog.holds_reify_bind (holds_answeredProposal request ht hnone)
        (fun r u hu hq => ?_) fun error u _ hq => ?_
      · obtain ⟨rfl,hhash,hpriced⟩ := hq
        refine Prog.holds_reify_bind (holds_recordResult hquiet hseparates (e := .propose request) hu
          hhash hnone) (fun r' v hv hq => ?_) fun error v _ hq => ?_
        · obtain ⟨huv,rfl,hr⟩ := hq
          exact ⟨hv, hst.trans huv, hr, rfl, hpriced⟩
        · obtain ⟨huv,message,rfl⟩ := hq
          exact ⟨hst.trans huv, trivial⟩
      · obtain ⟨rfl,hfault⟩ := hq
        exact ⟨hst, hfault⟩
  refine Prog.holds_reify_bind hbroker (fun out t ht hq => ?_) fun error t _ hq =>
    ⟨hq.1.toSteady, hq.2⟩
  obtain ⟨r,replayed⟩ := out
  obtain ⟨hst,hrecorded,hbefore⟩ := hq
  cases replayed with
  | true => exact ⟨ht, hst.toSteady, hrecorded, .inl ⟨hbefore, hst.spent⟩⟩
  | false =>
    obtain ⟨hnone,hpriced⟩ := hbefore
    obtain ⟨usage,husage⟩ := proposalCallUsage_ok hpriced
    simp only [Bool.false_eq_true, if_false, husage]
    cases usage with
    | none => exact ⟨ht, hst.toSteady, hrecorded, .inr ⟨hnone, none, husage, by simp [hst.spent]⟩⟩
    | some usage =>
      have hspend : Steady t { t with spent := t.spent ++ [usage] } :=
        ⟨⟨fun _ _ h => h, fun _ _ h => h⟩, rfl, rfl, fun _ _ => rfl, fun _ => rfl⟩
      have hdurable : (recording context full Extra).durable
          { t with spent := t.spent ++ [usage] } :=
        ⟨ht.1.frame hspend.toGrows (fun _ => rfl) fun _ => rfl, hextra _ _ hspend ht.2⟩
      refine holds_op not_false (.spend usage : GepaOp F) _ ht trivial fun _ => ⟨hdurable, ?_⟩
      refine ⟨hdurable, hst.toSteady.trans hspend, hspend.extends _ _ hrecorded,
        .inr ⟨hnone, some usage, husage, ?_⟩⟩
      simp [performOp, hst.spent]

/-- An evaluation whose authority is one operation is answered from the record, or asked for and
recorded. -/
theorem holds_brokerEvaluate (hextra : ∀ s t, Steady s t → Extra s → Extra t)
    (hseparates : Separates F context) (hincreasing : Increasing context Q lo full)
    {request : GepaEvaluationEffectRequest F} (hs : (recording context full Extra).durable s)
    (he : full.requested (recordedResult s) n = some (.evaluate request)) :
    (settled (brokerEvaluate directAuthority request)).Holds execOp (recording context full Extra)
      (fun x t => Steady s t ∧ match x with
        | .ok r => recordedResult t (.evaluate request) = some r
        | .error error => error.Fault) s := by
  refine holds_lookedUp hextra hseparates hincreasing hs he (fun t hst ht hsame => ?_)
    fun t message hst => ⟨hst.toSteady, trivial⟩
  cases hrecorded : recordedResult s (.evaluate request) with
  | some r => exact ⟨ht, hst.toSteady, by rw [hsame, hrecorded]⟩
  | none =>
    rw [← hsame] at hrecorded
    refine Prog.holds_reify_bind (holds_answeredEvaluation request ht hrecorded)
      (fun r u hu hq => ?_) fun error u _ hq => ?_
    · obtain ⟨rfl,hhash⟩ := hq
      refine Prog.holds_mono (holds_recordResult (fun s t h => hextra s t h.toSteady) hseparates
        (e := .evaluate request) hu hhash hrecorded) fun x v _ hq => ?_
      obtain ⟨huv,hx⟩ := hq
      refine ⟨(hst.trans huv).toSteady, ?_⟩
      cases x with
      | ok r' =>
        obtain ⟨rfl,hr⟩ := hx
        exact hr
      | error error =>
        obtain ⟨message,rfl⟩ := hx
        trivial
    · obtain ⟨rfl,hfault⟩ := hq
      exact ⟨hst.toSteady, hfault⟩

end Broker
end Whetstone.Optim.Gepa
