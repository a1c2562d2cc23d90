import Whetstone.Lib.Text
import Whetstone.Optim.StepChecks
import Mathlib.Data.Set.BooleanAlgebra
import Mathlib.Order.CompletePartialOrder

/-! The store bindings of one optimization run. Their keys are concatenations of a family's
name, the id of the run, and a suffix. -/
namespace Whetstone.Runs
open Whetstone.Lib Whetstone.Optim.Step

def runLaunchBinding : String := "whetstone.optim_run_launch:"
def runBinding : String := "whetstone.optim_run:"
def stepResultBinding : String := "whetstone.optim_step_result:v2:"
def optimResultBinding : String := "whetstone.optim_result:v2:"
def payloadSuffix : String := ":payload"

inductive RunKey where
  | launch (runId : String)
  | launchPayload (runId : String)
  | harness (key : BindingKey)
deriving DecidableEq

/- `_run_binding_key`, `_result_binding_key`, `_terminal_binding_key` and the launch keys. -/
def RunKey.text : RunKey → String
  | .launch runId => runLaunchBinding ++ runId
  | .launchPayload runId => runLaunchBinding ++ (runId ++ payloadSuffix)
  | .harness (.run runId) => runBinding ++ runId
  | .harness (.stepResult runId stepIndex) => stepResultBinding ++ keyed runId stepIndex
  | .harness (.optimResult runId) => optimResultBinding ++ runId

def bindingRunId : BindingKey → String
  | .run runId => runId
  | .stepResult runId _ => runId
  | .optimResult runId => runId

def RunKey.runId : RunKey → String
  | .launch runId => runId
  | .launchPayload runId => runId
  | .harness key => bindingRunId key

/- The keys that launching, stepping and terminalizing the run reads or writes. -/
def bindingKeys (runId : String) : Set String :=
  { text | ∃ key : RunKey, key.runId = runId ∧ key.text = text }

/-! ### Decoding a key -/

/- Twenty characters tell the families apart. -/
def familyText (text : String) : List Char := text.toList.take 20

theorem familyText_append (name rest : String) (h : 20 ≤ name.toList.length) :
    familyText (name ++ rest) = familyText name := by
  rw [familyText, familyText, String.toList_append, List.take_append_of_le_length h]

theorem append_right_inj_text (name a b : String) : name ++ a = name ++ b ↔ a = b := by
  rw [← String.toList_inj, String.toList_append, String.toList_append,
    List.append_right_inj, String.toList_inj]

theorem append_left_inj_text (a b suffix : String) : a ++ suffix = b ++ suffix ↔ a = b := by
  rw [← String.toList_inj, String.toList_append, String.toList_append,
    List.append_left_inj, String.toList_inj]

inductive KeyFamily where
  | launch
  | run
  | stepResult
  | optimResult
deriving DecidableEq

def KeyFamily.name : KeyFamily → String
  | .launch => runLaunchBinding
  | .run => runBinding
  | .stepResult => stepResultBinding
  | .optimResult => optimResultBinding

def RunKey.family : RunKey → KeyFamily
  | .launch _ => .launch
  | .launchPayload _ => .launch
  | .harness (.run _) => .run
  | .harness (.stepResult _ _) => .stepResult
  | .harness (.optimResult _) => .optimResult

theorem KeyFamily.name_inj {a b : KeyFamily} (h : familyText a.name = familyText b.name) :
    a = b := by
  revert h
  cases a <;> cases b <;> decide

theorem RunKey.familyText_text (key : RunKey) :
    familyText key.text = familyText key.family.name := by
  rcases key with _ | _ | (_ | _ | _) <;> exact familyText_append _ _ (by decide)

/-- Two keys of one text are the same key, or a launch whose id is another run's id with the
suffix of the launch payload. -/
theorem RunKey.text_eq {key key' : RunKey} (h : key.text = key'.text) :
    key = key' ∨ ∃ runId, key = .launch (runId ++ payloadSuffix) ∧ key' = .launchPayload runId ∨
      key = .launchPayload runId ∧ key' = .launch (runId ++ payloadSuffix) := by
  have hfamily : key.family = key'.family := by
    apply KeyFamily.name_inj
    rw [← RunKey.familyText_text, ← RunKey.familyText_text, h]
  rcases key with r | r | (r | ⟨r,i⟩ | r) <;> rcases key' with s | s | (s | ⟨s,j⟩ | s) <;>
    first
    | (simp only [RunKey.family, reduceCtorEq] at hfamily; done)
    | rw [RunKey.text, RunKey.text, append_right_inj_text] at h
  · exact .inl (by rw [h])
  · exact .inr ⟨s, .inl ⟨by rw [h], rfl⟩⟩
  · exact .inr ⟨r, .inr ⟨rfl, by rw [h]⟩⟩
  · rw [append_left_inj_text] at h
    exact .inl (by rw [h])
  · exact .inl (by rw [h])
  · rw [keyed_inj] at h
    exact .inl (by rw [h.1, h.2])
  · exact .inl (by rw [h])

/- Neither id is the other with the suffix of the launch payload. -/
def Unambiguous (r s : String) : Prop := s ≠ r ++ payloadSuffix ∧ r ≠ s ++ payloadSuffix

instance (r s : String) : Decidable (Unambiguous r s) := inferInstanceAs (Decidable (_ ∧ _))

theorem Unambiguous.text_ne {r s : String} (h : Unambiguous r s) (hrs : r ≠ s) {key key' : RunKey}
    (hr : key.runId = r) (hs : key'.runId = s) : key.text ≠ key'.text := by
  intro htext
  rcases RunKey.text_eq htext with rfl | ⟨runId, ⟨rfl,rfl⟩ | ⟨rfl,rfl⟩⟩
  · exact hrs (hr.symm.trans hs)
  · exact h.2 (by rw [← hr, ← hs]; rfl)
  · exact h.1 (by rw [← hr, ← hs]; rfl)

/-- Distinct runs have disjoint keys exactly when their ids are unambiguous. -/
theorem bindingKeys_disjoint_iff (r s : String) (hrs : r ≠ s) :
    Disjoint (bindingKeys r) (bindingKeys s) ↔ Unambiguous r s := by
  constructor
  · intro hdisjoint
    refine ⟨?_, ?_⟩
    · rintro rfl
      exact Set.disjoint_left.mp hdisjoint ⟨.launchPayload r, rfl, rfl⟩
        ⟨.launch (r ++ payloadSuffix), rfl, rfl⟩
    · rintro rfl
      exact Set.disjoint_left.mp hdisjoint ⟨.launch (s ++ payloadSuffix), rfl, rfl⟩
        ⟨.launchPayload s, rfl, rfl⟩
  · intro h
    rw [Set.disjoint_left]
    rintro text ⟨key,hr,hkey⟩ ⟨key',hs,hkey'⟩
    exact h.text_ne hrs hr hs (hkey.trans hkey'.symm)

end Whetstone.Runs
