import Whetstone.Lib.BoundedMemo
import Whetstone.Optim.Miprov2.StateVerification

/-! The memo of verified MIPROv2 states. A state that compares equal to one that was verified is
not verified again, so that a construction depends on the ones before it where states compare equal
that differ. -/
namespace Whetstone.Optim.Miprov2
open Whetstone.Core Whetstone.Lib Whetstone.Experiment Whetstone.Eval

/- `_CAPACITY` -/
def memoCapacity : Nat := 512

structure MemoKey where
  runId : String
  phase : Miprov2Phase
  bootstrapPlanIndex : Int
  evidenceCount : Nat
  effectCount : Nat
  demoCandidateCount : Nat
  inputDataIdentityHash : String
deriving DecidableEq

abbrev VerifiedStateMemo (F L : Type) [FiniteFloats F] [FloatJson F] [IdentityHasher]
    [PyIdentifiers] [RandomDraws] : Type :=
  BoundedMemo MemoKey (Miprov2State F L)

section Memo

variable {F L : Type} [FiniteFloats F] [FloatJson F] [IdentityHasher] [PyIdentifiers]
variable [RandomDraws] [CandidateIdentity] [EvalConfigIdentity] [TraceChoice]
variable [LaterChecks F L] [PyEq L]

/- `_bucket_key` -/
def bucketKey (state : Miprov2State F L) : MemoKey :=
  ⟨state.runId, state.phase, state.bootstrapPlanIndex, state.bootstrapEvidence.length,
    state.completedEffects.length, state.demoCandidates.length, state.inputDataIdentityHash⟩

/- `_validate_state`: the verdict on the fields of a new object, and the memo after it. -/
def validateState (object : Item (Miprov2State F L)) (memo : VerifiedStateMemo F L) :
    Except String (Except String Unit × VerifiedStateMemo F L) :=
  BoundedMemo.check memoCapacity bucketKey pyEq verifyCanonicalState object memo

/- The constructions of a process, from the empty memo on. -/
def constructStates (objects : List (Item (Miprov2State F L))) :
    Except String (List (Except String Unit) × VerifiedStateMemo F L) :=
  BoundedMemo.checkAll memoCapacity bucketKey pyEq verifyCanonicalState objects BoundedMemo.empty

/-- No construction makes the memo raise, the memo holds at most its capacity, and its buckets
index its queue. Every verdict is that of the full verification when states that compare equal
have the same fields. -/
theorem constructions_verified (objects : List (Item (Miprov2State F L))) :
    ∃ verdicts memo, constructStates objects = .ok (verdicts, memo) ∧
      memo.entries.length ≤ 512 ∧ memo.Coherent ∧
      (objects.Pairwise (BoundedMemo.SameContent pyEq) →
        verdicts = objects.map fun object => verifyCanonicalState object.value) := by
  have hempty : BoundedMemo.Remembers memoCapacity bucketKey verifyCanonicalState []
      (BoundedMemo.empty : VerifiedStateMemo F L) := BoundedMemo.remembers_empty
  obtain ⟨verdicts,memo,hrun,hmemo,hverdicts⟩ := hempty.checkAll pyEq objects
  exact ⟨verdicts, memo, hrun, hmemo.bounded, hmemo.coherent, hverdicts⟩

end Memo

/-! ### A score that is a flag, and the number that equals it -/

section Example

@[reducible] def firstDraws : RandomDraws where
  toRandomSample := firstIndices
  shuffle := fun _ size => (List.range size, ())
  randint := fun _ low _ => (low, ())
  shuffle_perm := fun _ _ => List.Perm.refl _
  sample_nodup := fun _ _ _ _ => List.nodup_range
  sample_lt := fun _ _ _ hfits _ hmem => Nat.lt_of_lt_of_le (List.mem_range.mp hmem) hfits

@[reducible] def firstTraceStep : TraceChoice := ⟨fun _ => 0, fun _ h => by omega⟩

@[reducible] def digestPrograms : CandidateIdentity := ⟨fun _ => digestOf 'd', fun _ => digestOf 'd'⟩

/- Tells payloads whose score is a flag and plans that bootstrap from the others. -/
@[reducible] def scoreHasher : IdentityHasher where
  computeIdentityHash := fun _ _ payload => match payload with
    | .obj fields =>
      if fields.lookup "score" = some (.bool true) then digestOf 'a'
      else if fields.lookup "kind" = some (.str "bootstrap") then digestOf 'c' else digestOf 'b'
    | _ => digestOf 'b'

attribute [local instance] exactFiniteFloats namedFields digestPrograms hashedConfigs exactNumbers
  firstDraws firstTraceStep scoreHasher

/- No later phase has begun. -/
@[reducible] def nothingLater : LaterChecks Rat Unit where
  requireRun := fun _ => .ok ()
  requirePending := fun _ => .ok ()
  replayLater := fun _ _ => .ok ()
  requireReplay := fun _ _ => .ok ()
  laterEffects := fun _ => []
  requireLater := fun _ _ => .ok ()

@[reducible] def unitEq : PyEq Unit := ⟨fun _ _ => true⟩

attribute [local instance] nothingLater unitEq

def bootstrapControl : Miprov2Control Rat :=
  ⟨{ sampleControl "user_prompt_template" 3 with maxBootstrappedDemos := 1, demoMode := .fewshot },
    by decide +kernel⟩

def sampleBindings : Miprov2DurableBindings :=
  ⟨⟨digestOf 'b', digestOf 'b', digestOf 'b', digestOf 'a', digestOf 'c', digestOf 'b',
    digestOf 'b', digestOf 'd', digestOf 'd'⟩, by decide +kernel⟩

def studentTeacher : TeacherPreparationPlan := ⟨.student, "deepcopy", false, none, rfl⟩

def planFields (ordinal : Nat) (seed : Int) (kind : FewshotSeedKind)
    (teacher : Option TeacherPreparationPlan) : PlanFields Rat where
  candidateOrdinal := ordinal
  candidateSeed := seed
  bindings := sampleBindings
  kind := kind
  componentIds := ["generate"]
  trainsetTaskHashes := [digestOf '1']
  maxBootstrappedDemos := 1
  maxLabeledDemos := 0
  maxRounds := 1
  maxErrors := 1
  metricThreshold := none
  teacher := teacher
  labelsOnlySelection := none
  traceSelectionProjectionVersion := traceSelectionProjectionVersion

def resetPlan : FewshotCandidatePlan Rat := ⟨planFields 0 (-3) .reset none, by decide +kernel⟩

def bootstrapPlan : FewshotCandidatePlan Rat :=
  ⟨planFields 1 (-2) .bootstrap (some studentTeacher), by decide +kernel⟩

def sampleAttempt : BootstrapAttemptPlan Rat where
  bindings := sampleBindings
  planIdentityHash := digestOf 'c'
  taskIndex := 0
  taskHash := digestOf '1'
  roundIndex := 0
  excludeEqualTaskFromAllTeacherComponents := true
  restoreTeacherDemosAfterEffect := true
  copyTaskModel := false
  generationId := none
  temperature := none
  valid := by decide +kernel

def sampleHashes : SourceHashes := ⟨digestOf 'e', digestOf 'e', digestOf 'e', digestOf 'e'⟩

def answeredStep : ObservedTraceStep :=
  ⟨⟨0, some "generate", [("question", .str "1 + 1")], [("answer", .str "2")]⟩, by decide +kernel⟩

def resultFields (score : MetricValue Rat) : ResultFields Rat where
  toSourceHashes := sampleHashes
  attemptIdentityHash := digestOf 'b'
  metricPresent := true
  score := some score
  traceSteps := [answeredStep]
  error := none

def flagResult : BootstrapGenerationResult Rat := ⟨resultFields (.flag true), by decide +kernel⟩

def numberResult : BootstrapGenerationResult Rat :=
  ⟨resultFields (.number (exactFinite 1)), by decide +kernel⟩

def flagAcceptance : BootstrapAcceptance Rat where
  toSourceHashes := sampleHashes
  sourceTaskHash := digestOf '1'
  metricPresent := true
  score := some (.flag true)
  metricThreshold := none
  accepted := true
  valid := by decide +kernel

def flagEvidence : BootstrapFoldEvidence Rat :=
  ⟨⟨sampleAttempt, flagResult, some flagAcceptance⟩, by decide +kernel⟩

def numberEvidence : BootstrapFoldEvidence Rat :=
  ⟨⟨sampleAttempt, numberResult, some flagAcceptance⟩, by decide +kernel⟩

def flagDemo : ComponentDemo Rat where
  toSourceHashes := sampleHashes
  componentId := "generate"
  sourceKind := .bootstrapped
  inputs := [("question", .str "1 + 1")]
  outputs := [("answer", .str "2")]
  augmented := true
  sourceTaskHash := digestOf '1'
  sourceTraceIndex := some 0
  score := some (.flag true)
  acceptanceIdentityHash := digestOf 'a'
  valid := by decide +kernel

def sampleDemoSet (seed : Int) (demos : List (ComponentDemo Rat))
    (h : (⟨"generate", demos⟩ : SequenceFields Rat).validate = .ok ()) : ComponentDemoSet Rat :=
  ⟨⟨seed, [⟨⟨"generate", demos⟩, h⟩]⟩, rfl⟩

def labeledTask : LabeledTaskDemo :=
  ⟨⟨digestOf '1', [("generate", .obj [("question", .str "1 + 1")])],
    [("generate", .obj [("answer", .str "2")])]⟩, by decide +kernel⟩

/- A state after both candidates, whose evidence is the parameter. -/
def bootstrappedState (event : BootstrapFoldEvidence Rat) : Miprov2State Rat Unit where
  runId := "run"
  control := bootstrapControl
  bindings := sampleBindings
  labeledTrainset := [labeledTask]
  proposalComponents := [⟨"generate", "Solve the task.", ⟨.literalBodyV1, [], []⟩, "", ""⟩]
  proposalTrainset := [⟨digestOf '1', "1 + 1"⟩]
  componentFieldOrder := [("generate", .arr [.str "question", .str "answer"])]
  inputDataIdentityHash := digestOf 'b'
  phase := .proposal
  bootstrapPlans := [resetPlan, bootstrapPlan]
  bootstrapPlanIndex := 2
  bootstrapState := none
  demoCandidates := [sampleDemoSet (-3) [] rfl, sampleDemoSet (-2) [flagDemo] rfl]
  bootstrapEvidence := [event]
  pendingBootstrap := none
  completedEffects := [⟨.bootstrapGenerations, digestOf 'b', 1⟩]
  later := ()

theorem flagState_verified : verifyCanonicalState (bootstrappedState flagEvidence) = .ok () := by
  decide +kernel

theorem numberState_refused : verifyCanonicalState (bootstrappedState numberEvidence) =
    .error "demo candidates are not canonical bootstrap output" := by
  decide +kernel

theorem flagState_equals_numberState :
    pyEq (bootstrappedState flagEvidence) (bootstrappedState numberEvidence) = true := by
  decide +kernel

/-- A run that constructs one state twice. -/
theorem constructions_verified_sample : ∃ memo,
    constructStates [⟨0, bootstrappedState flagEvidence⟩, ⟨1, bootstrappedState flagEvidence⟩] =
      .ok ([.ok (), .ok ()], memo) ∧ memo.entries.length ≤ 512 := by
  obtain ⟨verdicts,memo,hrun,hbounded,_,hverdicts⟩ := constructions_verified
    [⟨0, bootstrappedState flagEvidence⟩, ⟨1, bootstrappedState flagEvidence⟩]
  have hsame : verdicts = [.ok (), .ok ()] := by
    rw [hverdicts (List.pairwise_pair.mpr fun _ => rfl)]
    simp only [List.map_cons, List.map_nil, flagState_verified]
  exact ⟨memo, hsame ▸ hrun, hbounded⟩

/-- A state whose evidence has the score 1.0 is refused on its own, and constructed after the one
with the score `True` that it compares equal to. -/
theorem number_constructed_after_flag :
    (∃ memo, constructStates [⟨1, bootstrappedState numberEvidence⟩] =
      .ok ([.error "demo candidates are not canonical bootstrap output"], memo)) ∧
    ∃ memo, constructStates
        [⟨0, bootstrappedState flagEvidence⟩, ⟨1, bootstrappedState numberEvidence⟩] =
      .ok ([.ok (), .ok ()], memo) :=
  ⟨⟨_, BoundedMemo.checkAll_refused numberState_refused⟩,
    BoundedMemo.checkAll_taken (by decide) rfl flagState_equals_numberState flagState_verified⟩

end Example

end Whetstone.Optim.Miprov2
