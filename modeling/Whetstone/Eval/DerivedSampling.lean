import Whetstone.Experiment.Sampling
import Whetstone.Provider.LlmCall

/-! The samplings an engine derives from its own: a subset of the tasks, or one trial of one
task. A derived plan carries a seed for every trial it keeps. -/
namespace Whetstone.Eval
open Whetstone.Core Whetstone.Lib Whetstone.Experiment Whetstone.Provider

def reprTuple (names : List String) : String :=
  match names.map fun name => "'" ++ name ++ "'" with
  | [name] => "(" ++ name ++ ",)"
  | quoted => "(" ++ ", ".intercalate quoted ++ ")"

def sourceById (source : EvalSplit) : Dict String SamplingTask :=
  Dict.ofPairs (source.tasks.map fun task => (task.taskId, task))

def taskHashById (source : EvalSplit) : Dict String String :=
  Dict.ofPairs ((source.tasks.map SamplingTask.taskId).zip source.taskSet.taskHashes)

/- `task_hash_by_id[task_id]`, asked only for a known task. -/
def hashOf (source : EvalSplit) (taskId : String) : String :=
  ((taskHashById source).get? taskId).getD ""

def selectedTasks (source : EvalSplit) (taskIds : List String) : List SamplingTask :=
  taskIds.filterMap (sourceById source).get?

/- `zip(…, strict=True)` of the tasks with their hashes. -/
def requireAligned (source : EvalSplit) : Except String Unit := do
  raiseIf (source.taskSet.taskHashes.length < source.tasks.length)
    "zip() argument 2 is shorter than argument 1"
  raiseIf (source.tasks.length < source.taskSet.taskHashes.length)
    "zip() argument 2 is longer than argument 1"

/- The namespace of a manifest whose last component is the split role. -/
def manifestNamespace (source : EvalSplit) : Except String String :=
  let (namespaceName, separator, role) := rpartition '.' source.taskSet.manifestId
  if separator = false ∨ role ≠ source.splitRole.value then
    .error "source sampling manifest does not match its split role"
  else .ok namespaceName

/- The seed a derived plan carries for a trial of its source. -/
def carriedSeed (source : EvalSplit) (taskHash : String) (seedIndex : Nat) : Int :=
  match (Dict.ofPairs source.seedPlan.rngSeeds).get? (keyed taskHash seedIndex) with
  | some rngSeed => rngSeed
  | none => deriveRngSeed [taskHash, toString seedIndex]

variable [IdentityHasher]

def deriveSampling (source : EvalSplit) (taskIds : List String) : Except String EvalSplit := do
  raiseIf (taskIds = []) "derived sampling requires at least one task"
  raiseIf (¬ taskIds.Nodup) "derived sampling task IDs must be unique"
  let unknown := taskIds.filter fun taskId => ((sourceById source).get? taskId).isNone
  raiseIf (unknown ≠ []) ("derived sampling contains unknown task IDs: " ++ reprTuple unknown)
  requireAligned source
  let namespaceName ← manifestNamespace source
  let provenanceRows := taskIds.flatMap fun taskId =>
    (List.range source.seedPlan.numSeeds).map fun seedIndex =>
      (⟨hashOf source taskId, seedIndex,
          some (carriedSeed source (hashOf source taskId) seedIndex)⟩ :
        TaskTrialProvenanceRow)
  let seedPlan ← seedPlanFromProvenance provenanceRows
    (namespaceName ++ "." ++ source.splitRole.value) source.seedPlan.version
  let derived ← deriveEvalSplit namespaceName source.taskSet.datasetRevision source.splitRole
    (selectedTasks source taskIds) (fun task => hashOf source task.taskId)
    source.procedureConfig source.aggregationConfig source.seedPlan.numSeeds
  return { derived with seedPlan := seedPlan }

def deriveTaskSeedSampling (source : EvalSplit) (taskId : String) (seedIndex : Nat) :
    Except String EvalSplit :=
  match (sourceById source).get? taskId with
  | none => .error ("derived sampling contains unknown task ID: '" ++ taskId ++ "'")
  | some task => do
    requireAligned source
    let taskHash := hashOf source taskId
    let namespaceName ← manifestNamespace source
    let planId := namespaceName ++ "." ++ source.splitRole.value
    let seedPlan ← seedPlanFromProvenance
      [⟨taskHash, 0, some (carriedSeed source taskHash seedIndex)⟩] planId source.seedPlan.version
    let taskSet ← TaskSet.create planId source.taskSet.version source.taskSet.datasetRevision
      [taskHash]
    assembleSplit namespaceName source.splitRole [task] taskSet seedPlan
      source.samplingConfig.definitionRef.version source.evalConfig.definitionRef.version
      source.procedureConfig source.aggregationConfig

/- Whether a sampling is one trial of a canonical split. -/
def isTaskSeedSampling (canonical sampling : EvalSplit) : Except String Bool :=
  match sampling.tasks with
  | [task] =>
    if sampling.seedPlan.numSeeds = 1 then
      (List.range canonical.seedPlan.numSeeds).anyM fun seedIndex => do
        let expected ← deriveTaskSeedSampling canonical task.taskId seedIndex
        return decide (expected = sampling)
    else .ok false
  | _ => .ok false

def validateSamplingContract (configs : EvalConfigs) (sampling : EvalSplit) :
    Except String Unit := do
  let canonical ← configs.splitFor sampling.splitRole
  if canonical.evalConfig = sampling.evalConfig then return
  else if ← isTaskSeedSampling canonical sampling then return
  else
    let expectedSubset ← deriveSampling canonical (sampling.tasks.map SamplingTask.taskId)
    raiseIf (expectedSubset ≠ sampling)
      "engine sampling must be an exact experiment split binding or exact derived subset"

/- What the constructor of an engine checks of its sampling. -/
structure EngineSampling where
  configs : EvalConfigs
  sampling : EvalSplit
  valid : validateSamplingContract configs sampling = .ok ()

def EngineSampling.create (configs : EvalConfigs) (sampling : EvalSplit) :
    Except String EngineSampling :=
  match h : validateSamplingContract configs sampling with
  | .ok () => .ok ⟨configs, sampling, h⟩
  | .error message => .error message

def EngineSampling.forTaskIds (engine : EngineSampling) (taskIds : List String) :
    Except String EngineSampling := do
  let derived ← deriveSampling engine.sampling taskIds
  EngineSampling.create engine.configs derived

def EngineSampling.forTaskSeed (engine : EngineSampling) (taskId : String) (seedIndex : Nat) :
    Except String EngineSampling := do
  let numSeeds := engine.sampling.seedPlan.numSeeds
  raiseIf (numSeeds ≤ seedIndex) ("seed_index " ++ toString seedIndex ++
    " is outside plan num_seeds " ++ toString numSeeds)
  let derived ← deriveTaskSeedSampling engine.sampling taskId seedIndex
  EngineSampling.create engine.configs derived

end Whetstone.Eval
