import Whetstone.Core.FailureText
import Whetstone.Lib.Raise

/-! What the lease boundary gives back: a failure whose details leave the reserved entry free
is restored exactly, and what an entry that a caller put there can do. -/
namespace Whetstone.Core.FailureText
open Whetstone.Lib Whetstone.Lib.UnicodeEscape

theorem mem_cleaned {value : CodeText} {c : CodePoint} :
    c ∈ cleaned value ↔ c ∈ value ∧ c ≠ 0 ∧ isSurrogate c = false := by
  simp only [cleaned, List.mem_filter, decide_eq_true_eq, Bool.not_eq_true', ne_eq, and_assoc]

theorem suffix_length : truncationSuffix.length = 3 := rfl

theorem suffix_plain : ∀ c ∈ truncationSuffix, c ≠ 0 ∧ isSurrogate c = false := by
  have hall : truncationSuffix.all (fun c => c ≠ 0 && !isSurrogate c) = true := by rfl
  intro c hc
  simpa using List.all_eq_true.mp hall c hc

theorem truncated_length (text : CodeText) : (truncated text).length ≤ leaseTextLimit := by
  unfold truncated
  split
  · rw [List.length_append, List.length_take, suffix_length, leaseTextLimit]
    omega
  · omega

theorem mem_truncated {text : CodeText} {c : CodePoint} (h : c ∈ truncated text) :
    c ∈ text ∨ c ∈ truncationSuffix := by
  unfold truncated at h
  split at h
  · rcases List.mem_append.mp h with h | h
    · exact .inl (List.mem_of_mem_take h)
    · exact .inr h
  · exact .inl h

/-- A text that was cut is not blank: it ends in the suffix. -/
theorem truncated_blank {text : CodeText} (h : isBlank (truncated text) = true) :
    text.length ≤ leaseTextLimit ∧ truncated text = text := by
  unfold truncated at h ⊢
  split at h
  · have hdot := List.all_eq_true.mp h (46 : CodePoint) (List.mem_append_right _ (by decide))
    exact absurd hdot (by decide)
  · rename_i hshort
    exact ⟨Nat.not_lt.mp hshort, if_neg hshort⟩

theorem unprintable_shape (field : Field) : LeaseShape (unprintable field) := by
  have hall : (unprintable field).all (fun c => c ≠ 0 && !isSurrogate c) = true := by
    cases field <;> rfl
  have hmem : ∀ c ∈ unprintable field, c ≠ 0 ∧ isSurrogate c = false := by
    intro c hc
    simpa using List.all_eq_true.mp hall c hc
  refine ⟨by cases field <;> rfl, by cases field <;> decide, ?_,
    fun c hc => (hmem c hc).2⟩
  intro h0
  exact (hmem 0 h0).1 rfl

/-- Whatever the text, its shape is one the lease library takes. -/
theorem leaseTextShape_shape (value : CodeText) (field : Field) :
    LeaseShape (leaseTextShape value field) := by
  unfold leaseTextShape
  by_cases hblank : isBlank (truncated (cleaned value)) = true
  · rw [if_pos hblank]
    exact unprintable_shape field
  · rw [if_neg hblank]
    have hmem : ∀ c ∈ truncated (cleaned value), c ≠ 0 ∧ isSurrogate c = false := by
      intro c hc
      rcases mem_truncated hc with hc | hc
      · exact (mem_cleaned.mp hc).2
      · exact suffix_plain c hc
    refine ⟨by simpa using hblank, truncated_length _, ?_, fun c hc => (hmem c hc).2⟩
    intro h0
    exact (hmem 0 h0).1 rfl

@[simp] theorem leaseText_text (value : CodeText) (field : Field) (details : Dict String Json) :
    (leaseText value field details).1 = leaseTextShape value field := by
  by_cases h : leaseTextShape value field = value <;> simp [leaseText, h]

theorem leaseText_erase (value : CodeText) (field : Field) (details : Dict String Json) :
    (leaseText value field details).2.erase leaseOriginalKey = details.erase leaseOriginalKey := by
  by_cases h : leaseTextShape value field = value
  · simp [leaseText, h]
  · simp [leaseText, h, Dict.erase_set]

theorem name_inj {field field' : Field} (h : field.name = field'.name) : field = field' := by
  cases field <;> cases field' <;> first | rfl | exact absurd h (by decide)

/-- What a coercion records, and that it leaves what the envelope says of the other field. -/
theorem leaseText_envelope (value : CodeText) (field field' : Field)
    (details : Dict String Json) :
    Dict.getPairs field'.name (envelope (leaseText value field details).2) =
      if field' = field ∧ leaseTextShape value field ≠ value then some (.str (escape value))
      else Dict.getPairs field'.name (envelope details) := by
  unfold leaseText
  by_cases h : leaseTextShape value field = value
  · simp [h]
  · simp only [ne_eq, h, not_false_eq_true, if_true, and_true, envelope, Dict.get?_set_self,
      Dict.getPairs_setPairs]
    by_cases hf : field' = field
    · simp [hf]
    · have hname : field'.name ≠ field.name := fun he => hf (name_inj he)
      simp [hf, hname]

theorem toLease_eq (failure : TerminalFailure) : toLease failure =
    ⟨leaseTextShape failure.code.value .code, leaseTextShape failure.message.value .message,
      (leaseText failure.message.value .message
        (leaseText failure.code.value .code failure.details).2).2⟩ := by
  simp [toLease]

theorem create_value (id : NonEmptyId) : NonEmptyId.create id.value = .ok id := by
  rw [NonEmptyId.create, dif_pos id.valid]

section Restoration

variable [CharacterNames]

/-- A field restores to its original when the envelope holds it exactly where it was lost. -/
theorem restore_recorded (fields : List (String × Json)) (field : Field) (value : CodeText)
    (h : Dict.getPairs field.name fields =
      if leaseTextShape value field ≠ value then some (.str (escape value)) else none) :
    restore fields field (leaseTextShape value field) = .ok value := by
  unfold restore
  by_cases hshape : leaseTextShape value field = value
  · rw [if_neg (not_not.mpr hshape)] at h
    rw [h, hshape]
  · rw [if_pos hshape] at h
    simp [h, unescape_escape]

/-- A failure whose details leave the reserved entry free comes back as it was. -/
theorem fromLease_toLease (failure : TerminalFailure)
    (hfree : failure.details.get? leaseOriginalKey = none) :
    fromLease (toLease failure) = .ok failure := by
  have hempty : ∀ field : Field, Dict.getPairs field.name (envelope failure.details) = none := by
    intro field
    rw [envelope, hfree]
    rfl
  have hcode : restore (envelope (toLease failure).details) .code (toLease failure).code =
      .ok failure.code.value := by
    rw [toLease_eq]
    refine restore_recorded _ _ _ ?_
    rw [leaseText_envelope, leaseText_envelope, hempty]
    simp
  have hmessage : restore (envelope (toLease failure).details) .message (toLease failure).message =
      .ok failure.message.value := by
    rw [toLease_eq]
    refine restore_recorded _ _ _ ?_
    rw [leaseText_envelope, leaseText_envelope, hempty]
    simp
  have herase : (toLease failure).details.erase leaseOriginalKey = failure.details := by
    rw [toLease_eq, leaseText_erase, leaseText_erase, Dict.erase_absent _ _ hfree]
  unfold fromLease
  simp only [hcode, hmessage, ok_bind, create_value, herase]
  rfl

/-- Failure text round-trips through the lease boundary, alone and inside a terminal. -/
theorem lease_round_trip (failure : TerminalFailure)
    (hfree : failure.details.get? leaseOriginalKey = none) :
    LeaseShape (toLease failure).code ∧ LeaseShape (toLease failure).message ∧
      fromLease (toLease failure) = .ok failure ∧
      ∀ terminal : EffectTerminal, terminal.failure = some failure →
        EffectTerminal.fromLease terminal.toLease = .ok terminal ∧
        ∀ restored, EffectTerminal.fromLease terminal.toLease = .ok restored →
          restored.toLease = terminal.toLease := by
  have hterminal : ∀ terminal : EffectTerminal, terminal.failure = some failure →
      EffectTerminal.fromLease terminal.toLease = .ok terminal := by
    intro terminal h
    cases terminal
    cases h
    simp only [EffectTerminal.fromLease, EffectTerminal.toLease, Option.map_some,
      Option.mapM_some, fromLease_toLease failure hfree]
    rfl
  refine ⟨?_, ?_, fromLease_toLease failure hfree, fun terminal h => ⟨hterminal terminal h, ?_⟩⟩
  · rw [toLease_eq]
    exact leaseTextShape_shape _ _
  · rw [toLease_eq]
    exact leaseTextShape_shape _ _
  · intro restored hrestored
    rw [hterminal terminal h, Except.ok.injEq] at hrestored
    rw [hrestored]

/-! ### A reserved entry that the caller wrote -/

/-- Another text that the conversion would have brought to `text`: one with NULs or surrogates
between its characters, one cut to it, or, for the placeholder, a blank one. -/
def Disguise (field : Field) (text original : CodeText) : Prop :=
  (cleaned original = text ∧ original ≠ text) ∨
  (leaseTextLimit < (cleaned original).length ∧
    (cleaned original).take (leaseTextLimit - truncationSuffix.length) ++ truncationSuffix =
      text) ∨
  ((cleaned original).length ≤ leaseTextLimit ∧ isBlank (cleaned original) = true ∧
    unprintable field = text)

omit [CharacterNames] in
theorem cleaned_of_shape {text : CodeText} (h : LeaseShape text) : cleaned text = text := by
  have hnul : text.filter (· ≠ 0) = text := by
    rw [List.filter_eq_self]
    intro c hc
    rw [decide_eq_true_eq]
    rintro rfl
    exact h.no_nul hc
  rw [cleaned, hnul, List.filter_eq_self]
  intro c hc
  rw [h.no_surrogate c hc]
  rfl

omit [CharacterNames] in
theorem truncated_of_short {text : CodeText} (h : text.length ≤ leaseTextLimit) :
    truncated text = text := if_neg (Nat.not_lt.mpr h)

omit [CharacterNames] in
theorem cleaned_length (value : CodeText) : (cleaned value).length ≤ value.length :=
  Nat.le_trans (List.length_filter_le _ _) (List.length_filter_le _ _)

omit [CharacterNames] in
/-- The texts brought to a clean one are that text and its disguises. -/
theorem disguise_iff (field : Field) {text : CodeText} (original : CodeText) (h : LeaseShape text) :
    leaseTextShape original field = text ∧ original ≠ text ↔ Disguise field text original := by
  unfold leaseTextShape Disguise
  by_cases hlong : leaseTextLimit < (cleaned original).length
  · have hcut : truncated (cleaned original) =
        (cleaned original).take (leaseTextLimit - truncationSuffix.length) ++ truncationSuffix :=
      if_pos hlong
    have hblank : ¬ isBlank (truncated (cleaned original)) = true := fun hb =>
      absurd (truncated_blank hb).1 (Nat.not_le.mpr hlong)
    have hne : original ≠ text := by
      rintro rfl
      have hshort := h.short
      rw [cleaned_of_shape h, leaseTextLimit] at hlong
      omega
    have hclean : cleaned original ≠ text := by
      intro he
      have hshort := h.short
      rw [he, leaseTextLimit] at hlong
      omega
    rw [if_neg hblank, hcut]
    constructor
    · rintro ⟨he,_⟩
      exact .inr (.inl ⟨hlong, he⟩)
    · rintro (⟨he,_⟩ | ⟨_,he⟩ | ⟨hle,_⟩)
      · exact absurd he hclean
      · exact ⟨he, hne⟩
      · exact absurd hle (Nat.not_le.mpr hlong)
  · have hshort := Nat.not_lt.mp hlong
    rw [truncated_of_short hshort]
    by_cases hblank : isBlank (cleaned original) = true
    · have hne : original ≠ text := by
        rintro rfl
        rw [cleaned_of_shape h, h.printable] at hblank
        cases hblank
      have hclean : cleaned original ≠ text := by
        intro he
        rw [he, h.printable] at hblank
        cases hblank
      rw [if_pos hblank]
      constructor
      · rintro ⟨he,_⟩
        exact .inr (.inr ⟨hshort, hblank, he⟩)
      · rintro (⟨he,_⟩ | ⟨hlt,_⟩ | ⟨_,_,he⟩)
        · exact absurd he hclean
        · exact absurd hlt hlong
        · exact ⟨he, hne⟩
    · rw [if_neg hblank]
      constructor
      · intro he
        exact .inl he
      · rintro (he | ⟨hlt,_⟩ | ⟨_,hb,_⟩)
        · exact he
        · exact absurd hlt hlong
        · exact absurd hb hblank

/-- The way back gives the text of the failure as it went in. -/
def Harmless (failure : TerminalFailure) : Prop :=
  ∃ restored, fromLease (toLease failure) = .ok restored ∧
    restored.code = failure.code ∧ restored.message = failure.message

/-- What an entry says of one field is no text, or an escape that decodes to a text which is
not a disguise of the field. -/
def Decodes (fields : List (String × Json)) (failure : TerminalFailure) (field : Field) : Prop :=
  ∀ encoded, Dict.getPairs field.name fields = some (.str encoded) →
    ∃ original, unescape encoded = .ok original ∧ ¬ Disguise field (failure.text field) original

omit [CharacterNames] in
theorem leaseText_clean {value : CodeText} {field : Field} (h : leaseTextShape value field = value)
    (details : Dict String Json) : leaseText value field details = (value, details) := by
  simp [leaseText, h]

theorem restore_clean {fields : List (String × Json)} {failure : TerminalFailure} (field : Field)
    (h : leaseTextShape (failure.text field) field = failure.text field) :
    restore fields field (failure.text field) = .ok (failure.text field) ↔
      Decodes fields failure field := by
  have hshape : LeaseShape (failure.text field) := h ▸ leaseTextShape_shape _ field
  unfold restore Decodes
  cases hfield : Dict.getPairs field.name fields with
  | none => simp
  | some value =>
    cases value with
    | str encoded =>
      cases hdecoded : unescape encoded with
      | error error => simp [hdecoded]
      | ok original =>
        have hiff := disguise_iff field original hshape
        by_cases hsame : leaseTextShape original field = failure.text field
        · simp [hdecoded, hsame, ← hiff]
        · simp [hdecoded, hsame, ← hiff]
    | _ => simp

/-- A reserved entry that a caller wrote leaves clean text alone exactly when each of its two
fields is no text or decodes to a text that is no disguise of the clean one. -/
theorem stuffed_envelope_harmless (failure : TerminalFailure) (entry : Json)
    (hcode : leaseTextShape failure.code.value .code = failure.code.value)
    (hmessage : leaseTextShape failure.message.value .message = failure.message.value)
    (hentry : failure.details.get? leaseOriginalKey = some entry) :
    Harmless failure ↔ ∀ fields, entry = .obj fields →
      ∀ field, Decodes fields failure field := by
  have hto : toLease failure = ⟨failure.code.value, failure.message.value, failure.details⟩ := by
    simp [toLease, leaseText_clean hcode, leaseText_clean hmessage]
  have hfields : (∀ fields, entry = .obj fields → ∀ field, Decodes fields failure field) ↔
      ∀ field, Decodes (envelope failure.details) failure field := by
    rw [envelope, hentry]
    cases entry with
    | obj fields => simp
    | _ => simp [Decodes, Dict.getPairs]
  rw [hfields, Harmless, hto, fromLease]
  constructor
  · rintro ⟨restored,hback,hrc,hrm⟩
    obtain ⟨code,hc,hback⟩ := (bind_eq_ok _ _ _).mp hback
    obtain ⟨message,hm,hback⟩ := (bind_eq_ok _ _ _).mp hback
    obtain ⟨codeId,hci,hback⟩ := (bind_eq_ok _ _ _).mp hback
    obtain ⟨messageId,hmi,hback⟩ := (bind_eq_ok _ _ _).mp hback
    cases hback
    have hvalue : ∀ {value : CodeText} {id : NonEmptyId}, NonEmptyId.create value = .ok id →
        id.value = value := by
      intro value id hid
      unfold NonEmptyId.create at hid
      split at hid
      · cases hid
        rfl
      · cases hid
    have hcv := hvalue hci
    have hmv := hvalue hmi
    intro field
    cases field with
    | code =>
      refine (restore_clean .code hcode).mp ?_
      change restore _ _ failure.code.value = .ok failure.code.value
      rw [hc, ← hcv, ← hrc]
    | message =>
      refine (restore_clean .message hmessage).mp ?_
      change restore _ _ failure.message.value = .ok failure.message.value
      rw [hm, ← hmv, ← hrm]
  · intro hdecodes
    have hc := (restore_clean .code hcode).mpr (hdecodes .code)
    have hm := (restore_clean .message hmessage).mpr (hdecodes .message)
    refine ⟨⟨failure.code, failure.message, failure.details.erase leaseOriginalKey⟩, ?_, rfl, rfl⟩
    simp only [TerminalFailure.text] at hc hm
    simp only [hc, hm, ok_bind, create_value]
    rfl

end Restoration

/-! ### Runs -/

section Example

@[reducible] def latinNames : CharacterNames where
  lookup := fun letters => if letters = ['S', 'P', 'A', 'C', 'E'] then some 32 else none

attribute [local instance] latinNames

/- A code of one NUL, and a message with half of a surrogate pair. -/
def dirtyFailure : TerminalFailure where
  code := ⟨[0], by decide⟩
  message := ⟨[98, 0xd800, 92], by decide⟩
  details := Dict.empty

theorem dirty_failure_restored : fromLease (toLease dirtyFailure) = .ok dirtyFailure :=
  (lease_round_trip dirtyFailure rfl).2.2.1

/- A clean failure whose details carry an entry for the message. -/
def stuffedFailure (encoded : String) : TerminalFailure where
  code := ⟨[120], by decide⟩
  message := ⟨[97, 98], by decide⟩
  details := Dict.empty.set leaseOriginalKey (.obj [("message", .str encoded)])

theorem stuffed_clean (encoded : String) :
    leaseTextShape (stuffedFailure encoded).code.value .code = (stuffedFailure encoded).code.value ∧
      leaseTextShape (stuffedFailure encoded).message.value .message =
        (stuffedFailure encoded).message.value := by
  constructor
  · change leaseTextShape [120] .code = [120]
    rfl
  · change leaseTextShape [97, 98] .message = [97, 98]
    rfl

theorem stuffed_text_stays : Harmless (stuffedFailure "ab\\n") := by
  refine (stuffed_envelope_harmless (stuffedFailure "ab\\n") (.obj [("message", .str "ab\\n")])
    (stuffed_clean _).1 (stuffed_clean _).2 rfl).mpr ?_
  rintro _ ⟨⟩ field encoded h
  cases field with
  | code => cases h
  | message =>
    cases h
    refine ⟨[97, 98, 10], by rfl, ?_⟩
    unfold Disguise
    decide

/-- An entry that decodes to the message with a NUL between its characters. -/
theorem stuffed_envelope_rewrites :
    ¬ ∀ (failure : TerminalFailure) (entry : Json),
      leaseTextShape failure.code.value .code = failure.code.value →
      leaseTextShape failure.message.value .message = failure.message.value →
      failure.details.get? leaseOriginalKey = some entry → Harmless failure := by
  intro h
  obtain ⟨restored,hback,_,hmessage⟩ := h (stuffedFailure "a\\x00b")
    (.obj [("message", .str "a\\x00b")]) (stuffed_clean _).1 (stuffed_clean _).2 rfl
  have hrun : (fromLease (toLease (stuffedFailure "a\\x00b"))).toOption.map
      (fun failure => failure.message.value) = some [97, 0, 98] := by rfl
  rw [hback] at hrun
  simp only [Except.toOption, Option.map_some, Option.some.injEq, hmessage] at hrun
  exact absurd hrun (by decide)

example : (fromLease (toLease (stuffedFailure "a\\x0"))).toOption.isNone = true := by
  rfl

end Example

end Whetstone.Core.FailureText
