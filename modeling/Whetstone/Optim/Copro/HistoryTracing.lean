import Whetstone.Optim.Copro.RoundOutputs

/-! The history of a prepared run of COPRO: a measured occurrence becomes an attempt on it, and
the attempts of a round fold to the state that the history of the run has. -/
namespace Whetstone.Optim.Copro
open Whetstone.Core Whetstone.Lib Whetstone.Experiment Whetstone.Eval Whetstone.Tools
open Whetstone.Optim.Step

attribute [local instance] exactFiniteFloats

theorem forall₂_mem_right {α β : Type} {R : α → β → Prop} {as : List α} {bs : List β}
    (h : List.Forall₂ R as bs) {b : β} (hmem : b ∈ bs) : ∃ a ∈ as, R a b := by
  induction h with
  | nil => cases hmem
  | cons hfirst _ ih =>
    rcases List.mem_cons.mp hmem with rfl | hmem
    · exact ⟨_, List.mem_cons_self, hfirst⟩
    · obtain ⟨a,ha,hab⟩ := ih hmem
      exact ⟨a, List.mem_cons_of_mem _ ha, hab⟩

section Tracing

variable [PyIdentifiers] [CandidateIdentity] [ToolIdentity] [RewardIdentity Rat]
variable [CoproIdentity]

/-! ### The prepared run -/

def buildContract (returned : Nat) (terminal floor : Option Nat) (distinct : Bool) :
    Except String OutputContract :=
  match h : validateShortfallFloor returned floor with
  | .ok () => .ok ⟨returned, terminal, floor, distinct, h⟩
  | .error message => .error message

def buildRun (run : RunFields Rat) : Except String (OptimRun Rat) :=
  match h : run.validate with
  | .ok () => .ok ⟨run, h⟩
  | .error message => .error message

/- `bound` is the control of the registered adapter. -/
def prepareCoproRun (bound control : CoproControl) (policy : RewardPolicy Rat)
    (renderContract : TemplateRenderContract) (runId mutationField : String)
    (initial : Candidate) (terminalTopK : Nat) : Except String (OptimRun Rat) := do
  raiseIf (CoproIdentity.controlReference bound ≠ CoproIdentity.controlReference control)
    "prepare_copro_run control must match the registered COPRO adapter"
  raiseIf (RewardIdentity.rewardPolicyHash policy ≠ control.expectedRewardPolicyHash)
    ("prepare_copro_run experiment reward policy must match the control " ++
      "expected_reward_policy_hash")
  let terminal ← buildContract terminalTopK none none false
  buildRun
    { runId := runId, optimizerConfig := CoproIdentity.controlReference control
      adapterKey := coproAdapterKey, mode := .proposalOnly
      terminalOutputContract := terminal, templateRenderContract := renderContract
      initialCandidateRef := some initial, mutationField := mutationField
      rewardPolicy := some policy, toolConfigs := [] }

/- A run that is prepared for its control, on an initial candidate that COPRO can start from. -/
structure Prepared (control : CoproControl) (run : OptimRun Rat) (initial : Candidate) : Prop where
  runId : run.runId ≠ ""
  optimizerConfig : run.optimizerConfig = CoproIdentity.controlReference control
  adapterKey : run.adapterKey = coproAdapterKey
  mode : run.mode = .proposalOnly
  distinct : run.terminalOutputContract.requireDistinctBases = false
  seed : run.initialCandidateRef = some initial
  policy : ∃ policy, run.rewardPolicy = some policy ∧
    RewardIdentity.rewardPolicyHash policy = control.expectedRewardPolicyHash
  template : validateCandidateTemplate initial run = .ok ()
  instruction : ∃ text, initial.payload.lookup run.mutationField = some (.str text) ∧
    strip text ≠ ""

omit [CandidateIdentity] in
theorem prepareCoproRun_prepared {bound control : CoproControl} {policy : RewardPolicy Rat}
    {renderContract : TemplateRenderContract} {runId mutationField text : String}
    {initial : Candidate} {terminalTopK : Nat} {run : OptimRun Rat}
    (h : prepareCoproRun bound control policy renderContract runId mutationField initial
      terminalTopK = .ok run) (hid : runId ≠ "")
    (htext : initial.payload.lookup mutationField = some (.str text)) (hblank : strip text ≠ "")
    (htemplate : validateCandidateTemplate initial run = .ok ()) :
    Prepared control run initial := by
  rw [prepareCoproRun, raiseIf_bind_eq_ok, raiseIf_bind_eq_ok, bind_eq_ok] at h
  obtain ⟨_,hpolicy,terminal,hterminal,hrun⟩ := h
  have hdistinct : terminal.requireDistinctBases = false := by
    unfold buildContract at hterminal
    split at hterminal
    · cases hterminal
      rfl
    · cases hterminal
  unfold buildRun at hrun
  split at hrun
  · cases hrun
    exact ⟨hid, rfl, rfl, rfl, hdistinct, rfl, ⟨policy, rfl, not_not.mp hpolicy⟩, htemplate,
      ⟨text, htext, hblank⟩⟩
  · cases hrun

/-! ### The history -/

/- An attempt as the run makes it. -/
structure Traced (control : CoproControl) (run : OptimRun Rat) (initial : Candidate)
    (attempt : CoproAttempt) : Prop where
  checked : checkHistory control run.runId attempt = .ok ()
  field : attempt.mutationField = run.mutationField
  tried : Tried run initial attempt
  intentId : attempt.intentId = RoundReport.requestId run.runId attempt.roundIndex
    attempt.occurrenceOrdinal attempt.candidate

variable {control : CoproControl} {run : OptimRun Rat} {initial : Candidate}

theorem Prepared.text (hp : Prepared control run initial) {candidate : Candidate}
    (h : candidate = initial ∨ Mutates run initial candidate) : ∃ text,
      candidate.payload.lookup run.mutationField = some (.str text) ∧ text ≠ "" ∧
        candidate.payload.filter (·.1 ≠ run.mutationField) =
          initial.payload.filter (·.1 ≠ run.mutationField) := by
  rcases h with rfl | h
  · obtain ⟨text,htext,hblank⟩ := hp.instruction
    refine ⟨text, htext, ?_, rfl⟩
    rintro rfl
    exact hblank rfl
  · obtain ⟨text,htext,hne,_,hpayload⟩ := h.text
    exact ⟨text, htext, hne, hpayload⟩

/- A measured resolution of the intent. -/
structure Measured (control : CoproControl) (run : OptimRun Rat) (intent : OptimEvalRequest)
    (resolution : IntentResolution Rat) : Prop where
  intent : resolution.optimEvalRequest = intent
  outcome : resolution.outcome = .completed
  evalConfig : resolution.resolvedEvalConfig = control.evalConfigRef
  policy : ∀ reward, resolution.rewardRef = some reward →
    run.rewardPolicy = some reward.rewardPolicy

omit [PyIdentifiers] [CandidateIdentity] [ToolIdentity] [CoproIdentity] in
/- What the constructor of a completed internal resolution has checked. -/
theorem completed_resolution {resolution : IntentResolution Rat} {hash : String}
    (houtcome : resolution.outcome = .completed)
    (hinternal : resolution.optimEvalRequest.expectedRewardPolicyHash = some hash) :
    resolution.detail.classification = .measured ∧
      (∃ ref, resolution.evalResultRef = some ref ∧ ref.schemaName = Step.evalEvidenceSchema) ∧
      ∃ reward, resolution.rewardRef = some reward ∧ reward.rewardPolicyHash = hash ∧
        reward.evidenceRefs = resolution.rewardEvidenceRefs := by
  have hvalid := resolution.valid
  simp only [ResolutionFields.validate, raiseIf_bind_eq_ok, houtcome, hinternal] at hvalid
  obtain ⟨hresult,_,hschema,hmeasured,_,_,_,_,hreward,_,hchecked⟩ := hvalid
  have hclass : resolution.detail.classification = .measured := by simpa using hmeasured
  cases hevidence : resolution.evalResultRef with
  | none => exact absurd ⟨by simp, hevidence⟩ hresult
  | some ref =>
    cases hfound : resolution.rewardRef with
    | none => simp [hfound] at hreward
    | some reward =>
      have hagrees := (optionForM_eq_ok _ _).mp hchecked reward hfound
      simp only [ResolutionFields.validateReward, raiseIf_bind_eq_ok, raiseIf_eq_ok, not_not,
        hinternal, Option.some.injEq] at hagrees
      refine ⟨hclass, ⟨ref, rfl, ?_⟩, reward, rfl, hagrees.2, hagrees.1⟩
      simpa [hevidence, expectedResultSchema] using hschema

omit [PyIdentifiers] [CandidateIdentity] [ToolIdentity] [CoproIdentity] in
theorem build_ok {fields : AttemptFields} (h : fields.validate = .ok ()) :
    fields.build = .ok ⟨fields, h⟩ := by
  unfold AttemptFields.build
  split
  · rfl
  · rename_i hinvalid
    rw [h] at hinvalid
    cases hinvalid

variable {request : OptimStepRequest Rat}

/- The attempt on an occurrence whose resolution has a reward. -/
def attemptFields (control : CoproControl) (request : OptimStepRequest Rat) (mode : ProposalMode)
    (occurrence : Nat × Candidate) (ref : TypedRef) (reward : Reward Rat) : AttemptFields where
  occurrenceOrdinal := occurrence.1
  roundIndex := request.stepIndex
  runId := request.runId
  stepIndex := request.stepIndex
  intentId := (RoundReport.intent request control mode occurrence).evalRequest.requestId
  candidate := occurrence.2
  evalConfigRef := control.evalConfigRef
  evalRole := control.evalRole
  providerExecutionPolicyRef := control.providerExecutionPolicyRef
  reward := reward.value.value
  expectedRewardPolicyHash := reward.rewardPolicyHash
  evalResultRef := ref
  rewardEvidenceRefs := reward.evidenceRefs
  rewardRef := reward
  mutationField := request.run.mutationField

theorem Prepared.attemptFields_valid (hp : Prepared control run initial)
    (hrun : request.run = run) (mode : ProposalMode) {occurrence : Nat × Candidate}
    {ref : TypedRef} {reward : Reward Rat}
    (htried : occurrence.2 = initial ∨ Mutates run initial occurrence.2)
    (hschema : ref.schemaName = Step.evalEvidenceSchema)
    (hhash : reward.rewardPolicyHash = control.expectedRewardPolicyHash) :
    (attemptFields control request mode occurrence ref reward).validate = .ok () := by
  obtain ⟨text,htext,hne,_⟩ := hp.text htried
  have hcontrol := control.valid
  simp only [ControlFields.validate, check_bind_eq_ok] at hcontrol
  obtain ⟨_,_,hfull,_,_,hrole,_⟩ := hcontrol
  rw [raiseIf_eq_ok, not_not] at hrole
  have hids : ¬ (request.runId = "" ∨
      (RoundReport.intent request control mode occurrence).evalRequest.requestId = "") := by
    rw [OptimStepRequest.runId, hrun]
    rintro (hid | hid)
    · exact hp.runId hid
    · have hlist := congrArg String.toList hid
      simp [RoundReport.intent, RoundReport.requestId] at hlist
  simp only [AttemptFields.validate, attemptFields, raiseIf_eq_ok, not_not, check_bind_eq_ok,
    hhash, hfull, hschema, hrole, hrun]
  simp [hids, instructionOf, htext, hne]

/- The attempt that an occurrence of the run becomes. -/
structure AttemptOn (control : CoproControl) (run : OptimRun Rat) (initial : Candidate)
    (roundIndex : Nat) (occurrence : Nat × Candidate) (attempt : CoproAttempt) : Prop where
  ordinal : attempt.occurrenceOrdinal = occurrence.1
  roundIndex : attempt.roundIndex = roundIndex
  candidate : attempt.candidate = occurrence.2
  traced : Traced control run initial attempt

/-- A measured resolution of an occurrence folds to an attempt on it. -/
theorem Prepared.fromResolution (hp : Prepared control run initial) (hrun : request.run = run)
    {mode : ProposalMode} {occurrence : Nat × Candidate} {resolution : IntentResolution Rat}
    (hmeasured : Measured control run (RoundReport.intent request control mode occurrence)
      resolution)
    (htried : occurrence.2 = initial ∨ Mutates run initial occurrence.2) : ∃ attempt,
      CoproAttempt.fromResolution control run.runId run.mutationField occurrence.1
        request.stepIndex resolution = .ok attempt ∧
        AttemptOn control run initial request.stepIndex occurrence attempt := by
  obtain ⟨hintent,houtcome,hconfig,_⟩ := hmeasured
  have hinternal : resolution.optimEvalRequest.expectedRewardPolicyHash =
      some control.expectedRewardPolicyHash := by
    rw [hintent]
    rfl
  obtain ⟨hclass,⟨ref,href,hschema⟩,reward,hreward,hhash,hcitations⟩ :=
    completed_resolution houtcome hinternal
  have hvalid := hp.attemptFields_valid hrun mode htried hschema hhash
  have hcontrol := control.valid
  simp only [ControlFields.validate, check_bind_eq_ok, raiseIf_eq_ok, not_not] at hcontrol
  have hrole := hcontrol.2.2.2.2.2.1
  subst hrun
  refine ⟨⟨_, hvalid⟩, ?_, rfl, rfl, rfl, ?_, rfl, htried, rfl⟩
  · unfold CoproAttempt.fromResolution
    rw [hintent, hreward, href, hconfig, raiseIf_neg _ _ (not_not.mpr houtcome), ok_bind,
      raiseIf_neg _ _ (not_not.mpr hclass), ok_bind, raised, ok_bind, raised, ok_bind]
    rw [raiseIf_bind_eq_ok, raiseIf_bind_eq_ok, raiseIf_bind_eq_ok, raiseIf_bind_eq_ok,
      raiseIf_bind_eq_ok, raiseIf_bind_eq_ok, raiseIf_bind_eq_ok, ← hcitations]
    exact ⟨Option.some_ne_none _, not_not.mpr rfl, not_not.mpr rfl, not_not.mpr rfl,
      not_not.mpr hrole, not_not.mpr rfl, not_not.mpr hhash, build_ok hvalid⟩
  · rw [checkHistory, raiseIf_bind_eq_ok, raiseIf_bind_eq_ok, raiseIf_bind_eq_ok,
      raiseIf_bind_eq_ok, raiseIf_eq_ok]
    exact ⟨not_not.mpr rfl, not_not.mpr rfl, not_not.mpr rfl, not_not.mpr rfl, not_not.mpr hhash⟩

/-! ### A round of the history -/

/-- The measured resolutions of a round fold to the attempts on its occurrences. -/
theorem Prepared.attempts (hp : Prepared control run initial) (hrun : request.run = run)
    {mode : ProposalMode} {occurrences : List (Nat × Candidate)}
    {resolutions : List (IntentResolution Rat)} {start : Nat}
    (hordinals : occurrences.map Prod.fst = List.range' start occurrences.length)
    (htried : ∀ occurrence ∈ occurrences, occurrence.2 = initial ∨
      Mutates run initial occurrence.2)
    (hmeasured : List.Forall₂ (fun occurrence => Measured control run
      (RoundReport.intent request control mode occurrence)) occurrences resolutions) :
    ∃ attempts, (resolutions.zipIdx start).mapM (fun entry =>
        CoproAttempt.fromResolution control run.runId run.mutationField entry.2 request.stepIndex
          entry.1) = .ok attempts ∧
      List.Forall₂ (AttemptOn control run initial request.stepIndex) occurrences attempts := by
  induction hmeasured generalizing start with
  | nil => exact ⟨[], rfl, .nil⟩
  | @cons occurrence resolution rest others hfirst _ ih =>
    rw [List.map_cons, List.length_cons, List.range'_succ, List.cons.injEq] at hordinals
    obtain ⟨rfl,hordinals⟩ := hordinals
    obtain ⟨attempt,hattempt,hon⟩ := hp.fromResolution hrun hfirst
      (htried occurrence List.mem_cons_self)
    obtain ⟨attempts,hattempts,hrest⟩ := ih hordinals fun other hmem =>
      htried other (List.mem_cons_of_mem _ hmem)
    refine ⟨attempt :: attempts, ?_, .cons hon hrest⟩
    rw [List.zipIdx_cons, List.mapM_cons, hattempt, ok_bind, hattempts, ok_bind]
    rfl

variable {config : CoproConfig} {state : CoproState} {rounds : List (List CoproAttempt)}

theorem Prepared.alike (hp : Prepared control run initial) {first attempt : CoproAttempt}
    (hinitial : state.initialCandidate = initial) (hfield : state.mutationField = run.mutationField)
    (hround : attempt.roundIndex = state.completedRounds)
    (hfirst : Traced control run initial first) (hattempt : Traced control run initial attempt) :
    Alike state first attempt := by
  have ha := hattempt.checked
  have hb := hfirst.checked
  simp only [checkHistory, raiseIf_bind_eq_ok, raiseIf_eq_ok, not_not] at ha hb
  obtain ⟨_,_,_,hpayload⟩ := hp.text hattempt.tried
  exact ⟨hround, ha.1.trans hb.1.symm, ha.2.1.trans hb.2.1.symm, ha.2.2.1.trans hb.2.2.1.symm,
    ha.2.2.2.1.trans hb.2.2.2.1.symm, ha.2.2.2.2.trans hb.2.2.2.2.symm, by
      rw [hfield, hinitial, hpayload]⟩

omit [CoproIdentity] in
theorem attemptsOn_ordinals {roundIndex : Nat} {occurrences : List (Nat × Candidate)}
    {attempts : List CoproAttempt}
    (h : List.Forall₂ (AttemptOn control run initial roundIndex) occurrences attempts) :
    ordinals attempts = occurrences.map Prod.fst ∧ intentIds attempts = occurrences.map
      fun occurrence => RoundReport.requestId run.runId roundIndex occurrence.1 occurrence.2 := by
  induction h with
  | nil => exact ⟨rfl, rfl⟩
  | cons hfirst _ ih =>
    obtain ⟨hordinals,hids⟩ := ih
    simp only [ordinals, intentIds, List.map_cons, hfirst.ordinal, hfirst.traced.intentId,
      hfirst.roundIndex, hfirst.candidate, List.cons.injEq, true_and] at hordinals hids ⊢
    exact ⟨hordinals, hids⟩

/-- The attempts of a round fold to the state that its history has. -/
theorem Prepared.foldable (hp : Prepared control run initial)
    (hf : Folded config initial run.mutationField rounds state)
    (hremaining : rounds.length < config.depth)
    (htraced : ∀ attempt ∈ state.attempts, Traced control run initial attempt)
    {occurrences : List (Nat × Candidate)} {attempts : List CoproAttempt}
    (hordinals : occurrences.map Prod.fst = List.range' state.attempts.length occurrences.length)
    (hsome : occurrences ≠ []) (hshort : occurrences.length ≤ config.breadth)
    (hon : List.Forall₂ (AttemptOn control run initial rounds.length) occurrences attempts) :
    Foldable config state attempts ∧ ∀ attempt ∈ attempts, Traced control run initial attempt := by
  have hmember (attempt : CoproAttempt) (hmem : attempt ∈ attempts) :
      attempt.roundIndex = rounds.length ∧ Traced control run initial attempt := by
    obtain ⟨occurrence,_,h⟩ := forall₂_mem_right hon hmem
    exact ⟨h.roundIndex, h.traced⟩
  obtain ⟨hsame,hids⟩ := attemptsOn_ordinals hon
  have hlength := hon.length_eq
  refine ⟨⟨?_, ?_, ?_, ?_, ?_, ?_, ?_⟩, fun attempt hmem => (hmember attempt hmem).2⟩
  · rw [hf.completed]
    exact hremaining
  · rw [← hlength]
    exact hshort
  · rintro rfl
    exact hsome (List.length_eq_zero_iff.mp hlength)
  · rw [hsame, hordinals, hlength]
  · intro first hfirst attempt hmem
    have hfirstTraced : Traced control run initial first := by
      rcases List.mem_append.mp (List.mem_of_mem_head? hfirst) with hold | hnew
      · exact htraced first hold
      · exact (hmember first hnew).2
    refine hp.alike hf.initialCandidate hf.mutationField ?_ hfirstTraced (hmember attempt hmem).2
    rw [hf.completed]
    exact (hmember attempt hmem).1
  · have hnodup : (occurrences.map Prod.fst).Nodup := by
      rw [hordinals]
      exact List.nodup_range'
    rw [hids]
    rw [List.Nodup, List.pairwise_map] at hnodup ⊢
    exact hnodup.imp fun hne heq => hne (requestId_inj heq).2
  · intro id hnew hold
    rw [hids] at hnew
    obtain ⟨occurrence,_,rfl⟩ := List.mem_map.mp hnew
    obtain ⟨earlier,hearlier,hid⟩ := List.mem_map.mp hold
    rw [(htraced earlier hearlier).intentId] at hid
    have hround := hf.indices earlier hearlier
    rw [(requestId_inj hid).1] at hround
    exact lt_irrefl _ hround

end Tracing
end Whetstone.Optim.Copro
