import Mathlib.Data.List.Basic

/-! Studies with the ask-and-tell interface over categorical parameters. What a sampler
chooses is a function of the seed and of the ordered history of the study; trials are numbered
in the order they enter it. -/
namespace Whetstone.Lib

/- A parameter's categories are `0, …, count - 1`. -/
inductive StudyEvent (Name V : Type) where
  | added (params : List (Name × Int)) (distributions : List (Name × Nat)) (value : V)
  | asked
  | suggested (name : Name) (count : Nat)
  | told (number : Nat) (value : V)

class Sampler (Name V : Type) where
  choose : (seed : Int) → List (StudyEvent Name V) → (name : Name) → (count : Nat) → Nat
  choose_lt : ∀ seed history name count, 0 < count → choose seed history name count < count

structure AskTell (Name V : Type) where
  seed : Int
  history : List (StudyEvent Name V)

namespace AskTell

variable {Name V : Type}

def create (seed : Int) : AskTell Name V := ⟨seed, []⟩

def record (study : AskTell Name V) (event : StudyEvent Name V) : AskTell Name V :=
  { study with history := study.history ++ [event] }

def isTrial : StudyEvent Name V → Bool
  | .added _ _ _ => true
  | .asked => true
  | _ => false

/-- The number the next trial gets. -/
def trials (study : AskTell Name V) : Nat := study.history.countP isTrial

/- Each operation that opens a trial returns the trial's number. -/
def addTrial (study : AskTell Name V) (params : List (Name × Int))
    (distributions : List (Name × Nat)) (value : V) : Nat × AskTell Name V :=
  (study.trials, study.record (.added params distributions value))

def ask (study : AskTell Name V) : Nat × AskTell Name V := (study.trials, study.record .asked)

def suggestCategorical [Sampler Name V] (study : AskTell Name V) (name : Name) (count : Nat) :
    Nat × AskTell Name V :=
  (Sampler.choose study.seed study.history name count, study.record (.suggested name count))

def tell (study : AskTell Name V) (number : Nat) (value : V) : AskTell Name V :=
  study.record (.told number value)

@[simp] theorem trials_create (seed : Int) : (create seed : AskTell Name V).trials = 0 := rfl

theorem trials_record (study : AskTell Name V) (event : StudyEvent Name V) :
    (study.record event).trials = study.trials + if isTrial event then 1 else 0 := by
  simp [trials, record, List.countP_append, List.countP_cons]

@[simp] theorem trials_addTrial (study : AskTell Name V) (params : List (Name × Int))
    (distributions : List (Name × Nat)) (value : V) :
    (study.addTrial params distributions value).2.trials = study.trials + 1 :=
  trials_record study _

@[simp] theorem trials_ask (study : AskTell Name V) : study.ask.2.trials = study.trials + 1 :=
  trials_record study _

@[simp] theorem trials_suggestCategorical [Sampler Name V] (study : AskTell Name V) (name : Name)
    (count : Nat) : (study.suggestCategorical name count).2.trials = study.trials :=
  trials_record study _

@[simp] theorem trials_tell (study : AskTell Name V) (number : Nat) (value : V) :
    (study.tell number value).trials = study.trials :=
  trials_record study _

end AskTell
end Whetstone.Lib
