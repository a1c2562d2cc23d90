import Whetstone.Experiment.Templates

/-! The prompt template that MIPROv2 composes of a component: its instruction between headings, the
metadata and the demonstrations, which are to stand in the rendered prompt as they are. -/
namespace Whetstone.Optim.Miprov2
open Whetstone.Core Whetstone.Lib Whetstone.Lib.PyFormat Whetstone.Experiment

/-- `json.dumps` with sorted keys and without blanks. No property is assumed. -/
class JsonDumps where
  dumps : Json → String

def escapeBraces (value : List Char) : List Char :=
  replaceText ['}'] ['}', '}'] (replaceText ['{'] ['{', '{'] value 0) 0

def formatLiteralText (contract : TemplateRenderContract) (context value : String) :
    Except String String :=
  match contract.kind, contract.availableFields with
  | .pythonFormatV1, _ => .ok (String.ofList (escapeBraces value.toList))
  | .literalReplaceV1, field :: _ => do
    raiseIf (tokenOf field.toList <:+: value.toList)
      ("literal_replace/v1 cannot losslessly compose MIPROv2 " ++ context ++
        " containing active token " ++ quoted (String.ofList (tokenOf field.toList)))
    return value
  | .literalReplaceV1, [] => .error "tuple index out of range"
  | .literalBodyV1, _ => .ok value

section Composition

variable [JsonDumps]

/- A component as a mapping from names to values. -/
abbrev Component : Type := List (String × Json)

def Component.get (component : Component) (key : String) : Json :=
  (component.lookup key).getD .null

def requiredText (message : String) : Json → Except String String
  | .str text => do
    raiseIf (text = "") message
    return text
  | _ => .error message

def metadata (component : Component) (componentId : String) (ordinal : Nat) : Json :=
  .obj [("component_id", .str componentId),
    ("demo_identity_hash", component.get "demo_identity_hash"),
    ("demo_index", component.get "demo_index"),
    ("instruction_identity_hash", component.get "instruction_identity_hash"),
    ("instruction_index", component.get "instruction_index"),
    ("ordinal", .int ordinal)]

def formatLiteralJson (contract : TemplateRenderContract) (context : String) (value : Json) :
    Except String String :=
  formatLiteralText contract context (JsonDumps.dumps value)

def formatDemonstrations (contract : TemplateRenderContract) : Json → Except String String
  | .null => .ok "[]"
  | demonstrations => formatLiteralJson contract "demonstrations" demonstrations

def composeUserPromptTemplate (components : List Component) (contract : TemplateRenderContract) :
    Except String String :=
  match components with
  | [component] => do
    let componentId ← requiredText "MIPROv2 component_id must be non-empty"
      (component.get "component_id")
    let instruction ← requiredText "MIPROv2 instruction must be non-empty"
      (component.get "instruction")
    let renderedComponentId ← formatLiteralText contract "component id" componentId
    let renderedMetadata ← formatLiteralJson contract "metadata" (metadata component componentId 0)
    let renderedDemonstrations ← formatDemonstrations contract (component.get "demo_set")
    return "\n".intercalate ["## Component 1: " ++ renderedComponentId, "### Metadata",
      renderedMetadata, "### Instruction", instruction, "### Demonstrations",
      renderedDemonstrations]
  | _ => .error "MIPROv2 rendering requires exactly one optimizable component"

/-! ### What a reader of the prompt is to see -/

def demonstrationsOf : Json → String
  | .null => "[]"
  | demonstrations => JsonDumps.dumps demonstrations

def demonstrationsText (component : Component) : String :=
  demonstrationsOf (component.get "demo_set")

/- The texts around the instruction that a component supplies. -/
def literalParts (component : Component) (componentId : String) : List String :=
  [componentId, JsonDumps.dumps (metadata component componentId 0), demonstrationsText component]

/- A rendered instruction among the literal parts. -/
def framed (component : Component) (componentId instruction : String) : String :=
  "\n".intercalate ["## Component 1: " ++ componentId, "### Metadata",
    JsonDumps.dumps (metadata component componentId 0), "### Instruction", instruction,
    "### Demonstrations", demonstrationsText component]

end Composition

/-! ### Wrapping a template -/

/- Texts around a template that add no placeholder to it and are rendered to these texts. -/
def Wraps (contract : TemplateRenderContract) (front rear shownFront shownRear : List Char) :
    Prop :=
  ∀ segments, contract.Reads segments → ∃ whole, contract.Reads whole ∧
    sourceOf whole = front ++ sourceOf segments ++ rear ∧ namesOf whole = namesOf segments ∧
    ∀ supplied : List Char → List Char, whole.flatMap (Segment.filled supplied) =
      shownFront ++ segments.flatMap (Segment.filled supplied) ++ shownRear

section Wrapping

open TemplateRenderContract

variable [PyIdentifiers] [PyObjects] [LawfulIdentifiers]
variable {contract : TemplateRenderContract} {front rear shownFront shownRear : List Char}

omit [LawfulIdentifiers] in
/-- Where an observed field has no text, the error is the same for every template. -/
theorem render_refused {text : String} {observed : List String}
    (haccepted : contract.validateTemplate (some (.str text)) = .ok observed)
    (hne : observed ≠ []) {values : String → Option PyValue} {error : FormatError}
    (herror : requireTexts observed values = .error error) :
    contract.render (some (.str text)) values = .error error := by
  have hobserved := validateTemplate_observed haccepted
  rw [placeholderFields, bind_eq_ok] at hobserved
  obtain ⟨kept,htext,hobserved⟩ := hobserved
  have hkind : contract.kind ≠ .literalBodyV1 := by
    intro hkind
    rw [hkind] at hobserved
    exact hne (Except.ok.inj hobserved).symm
  simp only [TemplateRenderContract.render, haccepted, htext, Except.mapError, ok_bind,
    if_neg hkind, herror, error_bind]

/- The text of a value, where it is one. -/
def textOf (values : String → Option PyValue) (field : String) : String :=
  String.ofList (replaceValue values field)

/-- A wrapped template is accepted with the same fields and rendered around the same rendering. -/
theorem Wraps.render (h : Wraps contract front rear shownFront shownRear)
    (hvalid : contract.validate = .ok ()) {instruction : String} {observed : List String}
    (haccepted : contract.validateTemplate (some (.str instruction)) = .ok observed) :
    contract.validateTemplate (some (.str (String.ofList (front ++ instruction.toList ++ rear)))) =
      .ok observed ∧
    ∀ values, contract.render (some (.str (String.ofList (front ++ instruction.toList ++ rear))))
        values =
      (contract.render (some (.str instruction)) values).map fun rendered =>
        String.ofList (shownFront ++ rendered.toList ++ shownRear) := by
  obtain ⟨segments,hreads,hsource,hnames,hidentifiers⟩ := segments_exist hvalid haccepted
  obtain ⟨whole,hwhole,hwholeSource,hwholeNames,hfilled⟩ := h segments hreads
  rw [← hsource] at hwholeSource
  have hinstruction : instruction.toList ≠ [] := by
    intro hempty
    exact accepted_ne_empty haccepted (by simpa using congrArg String.ofList hempty)
  have hfields := placeholderFields_source hvalid hwhole (by simp [hwholeSource, hinstruction])
    (fun hkind name hmem => hidentifiers hkind _ (by
      rw [hnames, ← hwholeNames]
      exact List.mem_map_of_mem hmem))
  rw [hwholeNames, ← hnames, hwholeSource] at hfields
  have hwholeAccepted := haccepted
  rw [← validateTemplate_congr (hfields.trans (validateTemplate_observed haccepted).symm)]
    at hwholeAccepted
  refine ⟨hwholeAccepted, fun values => ?_⟩
  by_cases htexts : ∀ field ∈ observed, ∃ text, values field = some (.text text)
  · have hvalues : ∀ field ∈ observed, values field = some (.text (textOf values field)) := by
      intro field hmem
      obtain ⟨text,hvalue⟩ := htexts field hmem
      rw [textOf, replaceValue, hvalue, String.ofList_toList]
    rw [render_segments hvalid haccepted hreads hsource hvalues,
      render_segments hvalid hwholeAccepted hwhole (by rw [String.toList_ofList, hwholeSource])
        hvalues, filledWith, hfilled, Except.map, String.toList_ofList]
  · have hne : observed ≠ [] := by
      rintro rfl
      exact htexts fun _ hmem => (by cases hmem)
    cases herror : requireTexts observed values with
    | ok _ => exact absurd ((requireTexts_ok observed values).mp herror) htexts
    | error error =>
      rw [render_refused haccepted hne herror, render_refused hwholeAccepted hne herror]
      rfl

end Wrapping

/-! ### Format templates -/

theorem replace_single (c : Char) (value text : List Char) :
    replaceText [c] value text 0 = text.flatMap fun own => if own = c then value else [own] := by
  induction text with
  | nil => rfl
  | cons own rest ih =>
    rw [replaceText, List.flatMap_cons, ← ih]
    by_cases hsame : own = c
    · simp [hsame]
    · simp [hsame, Ne.symm hsame]

/- A text with its braces doubled. -/
def escapedSegments (text : List Char) : List Segment :=
  text.map fun c => if c = '{' ∨ c = '}' then .escaped c else .literal c

theorem escapeBraces_eq (text : List Char) : escapeBraces text = sourceOf (escapedSegments text) := by
  rw [escapeBraces, replace_single, replace_single, List.flatMap_assoc, escapedSegments, sourceOf,
    List.flatMap_map]
  refine List.flatMap_congr fun c _ => ?_
  by_cases hopen : c = '{'
  · rw [hopen]
    rfl
  by_cases hclose : c = '}'
  · rw [hclose]
    rfl
  simp [hopen, hclose, Segment.source]

theorem escapeBraces_append (xs ys : List Char) :
    escapeBraces (xs ++ ys) = escapeBraces xs ++ escapeBraces ys := by
  rw [escapeBraces_eq, escapeBraces_eq, escapeBraces_eq, escapedSegments, List.map_append,
    sourceOf_append]
  rfl

theorem escape_cons {c : Char} (hc : c ≠ '{' ∧ c ≠ '}') (rest : List Char) :
    escapeBraces (c :: rest) = c :: escapeBraces rest := by
  rw [escapeBraces_eq, escapeBraces_eq, escapedSegments, List.map_cons,
    if_neg (not_or.mpr hc), sourceOf_cons]
  rfl

theorem escape_plain {text : List Char} (hopen : '{' ∉ text) (hclose : '}' ∉ text) :
    escapeBraces text = text := by
  induction text with
  | nil => rfl
  | cons c rest ih =>
    rw [List.mem_cons, not_or] at hopen hclose
    rw [escape_cons ⟨Ne.symm hopen.1, Ne.symm hclose.1⟩, ih hopen.2 hclose.2]

theorem escapedSegments_reads (text : List Char) :
    ∀ segment ∈ escapedSegments text, segment.Reads := by
  intro segment hmem
  obtain ⟨c,_,rfl⟩ := List.mem_map.mp hmem
  split
  · rename_i hbrace
    exact hbrace
  · rename_i hplain
    exact not_or.mp hplain

theorem escapedSegments_names (text : List Char) : namesOf (escapedSegments text) = [] := by
  refine List.filterMap_eq_nil_iff.mpr fun segment hmem => ?_
  obtain ⟨c,_,rfl⟩ := List.mem_map.mp hmem
  split <;> rfl

theorem escapedSegments_filled (supplied : List Char → List Char) (text : List Char) :
    (escapedSegments text).flatMap (Segment.filled supplied) = text := by
  induction text with
  | nil => rfl
  | cons c rest ih =>
    rw [escapedSegments, List.map_cons, List.flatMap_cons, ← escapedSegments, ih]
    split <;> rfl

theorem wraps_format {contract : TemplateRenderContract} (hkind : contract.kind = .pythonFormatV1) (shownFront shownRear : List Char) :
    Wraps contract (escapeBraces shownFront) (escapeBraces shownRear) shownFront shownRear := by
  intro segments hreads
  refine ⟨escapedSegments shownFront ++ segments ++ escapedSegments shownRear, ?_, ?_, ?_, ?_⟩
  · rw [TemplateRenderContract.Reads, hkind] at hreads ⊢
    intro segment hmem
    simp only [List.mem_append] at hmem
    rcases hmem with (hmem | hmem) | hmem
    · exact escapedSegments_reads _ _ hmem
    · exact hreads _ hmem
    · exact escapedSegments_reads _ _ hmem
  · rw [sourceOf_append, sourceOf_append, escapeBraces_eq, escapeBraces_eq]
  · rw [namesOf_append, namesOf_append, escapedSegments_names, escapedSegments_names]
    simp
  · intro supplied
    rw [List.flatMap_append, List.flatMap_append, escapedSegments_filled, escapedSegments_filled]

/-! ### Literal templates -/

theorem wraps_replace {contract : TemplateRenderContract} {name : String}
    (hkind : contract.kind = .literalReplaceV1) (hfields : contract.availableFields = [name])
    (hnewline : '\n' ∉ tokenOf name.toList) {front rear : List Char}
    (hfront : ¬ tokenOf name.toList <:+: front) (hrear : ¬ tokenOf name.toList <:+: rear) :
    Wraps contract (front ++ ['\n']) ('\n' :: rear) (front ++ ['\n']) ('\n' :: rear) := by
  intro segments hreads
  refine ⟨literals (front ++ ['\n']) ++ segments ++ literals ('\n' :: rear), ?_, ?_, ?_, ?_⟩
  · rw [TemplateRenderContract.Reads, hkind, hfields] at hreads ⊢
    obtain ⟨field,hmem,hreplaces⟩ := hreads
    obtain rfl := List.mem_singleton.mp hmem
    have hlast : Replaces field.toList (literals ('\n' :: rear)) := by
      refine replaces_literals fun hinfix => ?_
      rcases @infix_of_newline _ [] _ hnewline hinfix with hnone | hin
      · exact absurd (List.infix_nil.mp hnone) (by simp [tokenOf])
      · exact hrear hin
    refine ⟨field, hmem, ?_⟩
    rw [List.append_assoc]
    exact (hreplaces.append hnewline (sourceOf_literals _) hlast).behind hnewline hfront
  · rw [sourceOf_append, sourceOf_append, sourceOf_literals, sourceOf_literals]
  · rw [namesOf_append, namesOf_append, namesOf_literals, namesOf_literals]
    simp
  · intro supplied
    rw [List.flatMap_append, List.flatMap_append, filled_literals, filled_literals]

theorem wraps_body {contract : TemplateRenderContract} (hkind : contract.kind = .literalBodyV1)
    (front rear : List Char) : Wraps contract front rear front rear := by
  intro segments hreads
  rw [TemplateRenderContract.Reads, hkind] at hreads
  obtain ⟨text,rfl⟩ := hreads
  refine ⟨literals (front ++ text ++ rear), ?_, ?_, ?_, fun supplied => ?_⟩
  · rw [TemplateRenderContract.Reads, hkind]
    exact ⟨_, rfl⟩
  · rw [sourceOf_literals, sourceOf_literals]
  · rw [namesOf_literals, namesOf_literals]
  · rw [filled_literals, filled_literals]

/-! ### The composed template -/

section Composed

open TemplateRenderContract

def componentHeading : List Char := "## Component 1: ".toList
def metadataHeading : List Char := "### Metadata".toList
def instructionHeading : List Char := "### Instruction".toList
def demonstrationsHeading : List Char := "### Demonstrations".toList

/- The lines in front of an instruction, and those behind it. -/
def frontLines (componentId metadata : List Char) : List Char :=
  componentHeading ++ componentId ++ '\n' :: metadataHeading ++ '\n' :: metadata ++
    '\n' :: instructionHeading

def rearLines (demonstrations : List Char) : List Char :=
  demonstrationsHeading ++ '\n' :: demonstrations

theorem lines_toList (heading id first metadata second instruction third rest : String) :
    ("\n".intercalate [heading ++ id, first, metadata, second, instruction, third, rest]).toList =
      heading.toList ++ id.toList ++ '\n' :: first.toList ++ '\n' :: metadata.toList ++
        '\n' :: second.toList ++ ['\n'] ++ instruction.toList ++
        '\n' :: (third.toList ++ '\n' :: rest.toList) := by
  have hfeed : "\n".toList = ['\n'] := rfl
  simp only [String.intercalate_cons_cons, String.intercalate_singleton, String.toList_append, hfeed,
    List.append_assoc, List.cons_append, List.nil_append]

theorem lines_eq (componentId metadata instruction demonstrations : String) :
    "\n".intercalate ["## Component 1: " ++ componentId, "### Metadata", metadata,
      "### Instruction", instruction, "### Demonstrations", demonstrations] =
    String.ofList (frontLines componentId.toList metadata.toList ++ ['\n'] ++ instruction.toList ++
      '\n' :: rearLines demonstrations.toList) := by
  refine String.ofList_toList.symm.trans (congrArg String.ofList ?_)
  exact lines_toList "## Component 1: " componentId "### Metadata" metadata "### Instruction"
    instruction "### Demonstrations" demonstrations

theorem frontLines_escape (componentId metadata : List Char) :
    frontLines (escapeBraces componentId) (escapeBraces metadata) =
      escapeBraces (frontLines componentId metadata) := by
  have hfeed : '\n' ≠ '{' ∧ '\n' ≠ '}' := by decide
  have hcomponent := @escape_plain componentHeading (by decide) (by decide)
  have hmetadata := @escape_plain metadataHeading (by decide) (by decide)
  have hinstruction := @escape_plain instructionHeading (by decide) (by decide)
  rw [frontLines, frontLines]
  simp only [escapeBraces_append, escape_cons hfeed, hcomponent, hmetadata, hinstruction]

theorem rearLines_escape (demonstrations : List Char) :
    rearLines (escapeBraces demonstrations) = escapeBraces (rearLines demonstrations) := by
  have hfeed : '\n' ≠ '{' ∧ '\n' ≠ '}' := by decide
  have hheading := @escape_plain demonstrationsHeading (by decide) (by decide)
  rw [rearLines, rearLines, escapeBraces_append, escape_cons hfeed, hheading]

/-- A token in the lines around the instruction is one in a literal part. -/
theorem frontLines_token {field componentId metadata : List Char}
    (hnewline : '\n' ∉ tokenOf field)
    (h : tokenOf field <:+: frontLines componentId metadata) :
    tokenOf field <:+: componentId ∨ tokenOf field <:+: metadata := by
  have hcomponent : '{' ∉ componentHeading := by decide
  have hmetadata : '{' ∉ metadataHeading := by decide
  have hinstruction : '{' ∉ instructionHeading := by decide
  rw [frontLines, List.append_assoc, List.append_assoc, List.cons_append, List.append_assoc,
    List.cons_append] at h
  rcases infix_of_newline hnewline (infix_of_plain hcomponent h) with hid | h
  · exact .inl hid
  rcases infix_of_newline hnewline h with hheading | h
  · exact absurd (hheading.subset List.mem_cons_self) hmetadata
  rcases infix_of_newline hnewline h with hmetadata | hheading
  · exact .inr hmetadata
  · exact absurd (hheading.subset List.mem_cons_self) hinstruction

theorem rearLines_token {field demonstrations : List Char} (hnewline : '\n' ∉ tokenOf field)
    (h : tokenOf field <:+: rearLines demonstrations) : tokenOf field <:+: demonstrations := by
  have hheading : '{' ∉ demonstrationsHeading := by decide
  rcases infix_of_newline hnewline h with hin | hdemonstrations
  · exact absurd (hin.subset List.mem_cons_self) hheading
  · exact hdemonstrations

variable [JsonDumps]
variable {contract : TemplateRenderContract} {component : Component}
  {componentId instruction : String}

theorem framed_eq (component : Component) (componentId rendered : String) :
    framed component componentId rendered =
      String.ofList (frontLines componentId.toList
          (JsonDumps.dumps (metadata component componentId 0)).toList ++ ['\n'] ++
        rendered.toList ++ '\n' :: rearLines (demonstrationsText component).toList) :=
  lines_eq _ _ _ _

/-- What is left of the composition of a component whose id and instruction are texts. -/
theorem compose_eq (hid : component.get "component_id" = .str componentId) (hne : componentId ≠ "")
    (hinstruction : component.get "instruction" = .str instruction) (hnonempty : instruction ≠ "") :
    composeUserPromptTemplate [component] contract = (do
      let renderedComponentId ← formatLiteralText contract "component id" componentId
      let renderedMetadata ← formatLiteralJson contract "metadata" (metadata component componentId 0)
      let renderedDemonstrations ← formatDemonstrations contract (component.get "demo_set")
      return String.ofList (frontLines renderedComponentId.toList renderedMetadata.toList ++ ['\n'] ++
        instruction.toList ++ '\n' :: rearLines renderedDemonstrations.toList)) := by
  rw [composeUserPromptTemplate, hid, hinstruction]
  simp only [requiredText, raiseIf_neg _ _ hne, raiseIf_neg _ _ hnonempty, ok_bind, pure_bind,
    lines_eq]

theorem formatDemonstrations_eq (component : Component)
    (hformat : formatLiteralText contract "demonstrations" "[]" = .ok "[]") :
    formatDemonstrations contract (component.get "demo_set") =
      formatLiteralText contract "demonstrations" (demonstrationsText component) := by
  rw [demonstrationsText]
  cases component.get "demo_set" with
  | null => exact hformat.symm
  | _ => rfl

/-- Under a format contract the composition is the frame with its braces doubled. -/
theorem compose_format (hkind : contract.kind = .pythonFormatV1)
    (hid : component.get "component_id" = .str componentId) (hne : componentId ≠ "")
    (hinstruction : component.get "instruction" = .str instruction) (hnonempty : instruction ≠ "") :
    composeUserPromptTemplate [component] contract = .ok (String.ofList
      (escapeBraces (frontLines componentId.toList
          (JsonDumps.dumps (metadata component componentId 0)).toList ++ ['\n']) ++
        instruction.toList ++
        escapeBraces ('\n' :: rearLines (demonstrationsText component).toList))) := by
  have hformat : ∀ context value, formatLiteralText contract context value =
      .ok (String.ofList (escapeBraces value.toList)) := by
    intro context value
    rw [formatLiteralText, hkind]
  have hfeed : '\n' ≠ '{' ∧ '\n' ≠ '}' := by decide
  rw [compose_eq hid hne hinstruction hnonempty,
    formatDemonstrations_eq _ ((hformat _ _).trans rfl), formatLiteralJson, hformat, hformat, hformat]
  simp only [ok_bind, String.toList_ofList, frontLines_escape, rearLines_escape,
    escapeBraces_append, escape_cons hfeed]
  rfl

/-- Under a literal contract the composition is the frame itself, unless a literal part has the
token. -/
theorem compose_replace {name : String} (hkind : contract.kind = .literalReplaceV1)
    (hfields : contract.availableFields = [name])
    (hid : component.get "component_id" = .str componentId) (hne : componentId ≠ "")
    (hinstruction : component.get "instruction" = .str instruction) (hnonempty : instruction ≠ "") :
    ((∀ text ∈ literalParts component componentId, ¬ tokenOf name.toList <:+: text.toList) →
      composeUserPromptTemplate [component] contract =
        .ok (framed component componentId instruction)) ∧
    ((∃ text ∈ literalParts component componentId, tokenOf name.toList <:+: text.toList) →
      ∃ message, composeUserPromptTemplate [component] contract = .error message) := by
  have hfree : ∀ context value, ¬ tokenOf name.toList <:+: value.toList →
      formatLiteralText contract context value = .ok value := by
    intro context value hvalue
    rw [formatLiteralText, hkind, hfields]
    exact (raiseIf_bind_eq_ok _ _ _ _).mpr ⟨hvalue, rfl⟩
  have hraises : ∀ context value, tokenOf name.toList <:+: value.toList →
      ∃ message, formatLiteralText contract context value = .error message := by
    intro context value hvalue
    rw [formatLiteralText, hkind, hfields]
    dsimp only
    rw [raiseIf_pos _ _ hvalue]
    exact ⟨_, rfl⟩
  have hdemonstrations := @formatDemonstrations_eq _ contract component
    (hfree _ _ fun hin => absurd (hin.subset List.mem_cons_self) (by decide))
  rw [compose_eq hid hne hinstruction hnonempty, hdemonstrations, formatLiteralJson]
  rw [literalParts]
  constructor
  · intro h
    simp only [List.forall_mem_cons] at h
    obtain ⟨hcomponent,hmetadata,hdemos,_⟩ := h
    rw [hfree _ _ hcomponent, hfree _ _ hmetadata, hfree _ _ hdemos, framed_eq]
    rfl
  · rintro ⟨text,hmem,htoken⟩
    by_cases hcomponent : tokenOf name.toList <:+: componentId.toList
    · obtain ⟨message,herror⟩ := hraises "component id" _ hcomponent
      exact ⟨message, by rw [herror, error_bind]⟩
    by_cases hmetadata : tokenOf name.toList <:+:
        (JsonDumps.dumps (metadata component componentId 0)).toList
    · obtain ⟨message,herror⟩ := hraises "metadata" _ hmetadata
      exact ⟨message, by rw [hfree _ _ hcomponent, herror, ok_bind, error_bind]⟩
    have htext : text = demonstrationsText component := by
      simp only [List.mem_cons, List.not_mem_nil, or_false] at hmem
      rcases hmem with rfl | rfl | hdemos
      · exact absurd htoken hcomponent
      · exact absurd htoken hmetadata
      · exact hdemos
    obtain ⟨message,herror⟩ := hraises "demonstrations" _ (htext ▸ htoken)
    exact ⟨message, by rw [hfree _ _ hcomponent, hfree _ _ hmetadata, herror, ok_bind, ok_bind,
      error_bind]⟩

theorem compose_body (hkind : contract.kind = .literalBodyV1)
    (hid : component.get "component_id" = .str componentId) (hne : componentId ≠ "")
    (hinstruction : component.get "instruction" = .str instruction) (hnonempty : instruction ≠ "") :
    composeUserPromptTemplate [component] contract =
      .ok (framed component componentId instruction) := by
  have hformat : ∀ context value, formatLiteralText contract context value = .ok value := by
    intro context value
    rw [formatLiteralText, hkind]
  rw [compose_eq hid hne hinstruction hnonempty, formatDemonstrations_eq _ (hformat _ _),
    formatLiteralJson, hformat, hformat, hformat, framed_eq]
  rfl

variable [PyIdentifiers] [PyObjects] [LawfulIdentifiers]

/-- A composed template is its instruction in a wrapping that adds no placeholder. -/
theorem compose_wraps (hvalid : contract.validate = .ok ())
    (hid : component.get "component_id" = .str componentId) (hne : componentId ≠ "")
    (hinstruction : component.get "instruction" = .str instruction) (hnonempty : instruction ≠ "")
    {template : String} (h : composeUserPromptTemplate [component] contract = .ok template) :
    ∃ front rear, template = String.ofList (front ++ instruction.toList ++ rear) ∧
      Wraps contract front rear
        (frontLines componentId.toList
          (JsonDumps.dumps (metadata component componentId 0)).toList ++ ['\n'])
        ('\n' :: rearLines (demonstrationsText component).toList) := by
  cases hkind : contract.kind with
  | pythonFormatV1 =>
    rw [compose_format hkind hid hne hinstruction hnonempty] at h
    exact ⟨_, _, (Except.ok.inj h).symm, wraps_format hkind _ _⟩
  | literalReplaceV1 =>
    obtain ⟨name,hfields⟩ := validate_single hvalid hkind
    obtain ⟨hframed,hraises⟩ := compose_replace hkind hfields hid hne hinstruction hnonempty
    have hfree : ∀ text ∈ literalParts component componentId,
        ¬ tokenOf name.toList <:+: text.toList := by
      intro text hmem htoken
      obtain ⟨message,herror⟩ := hraises ⟨text, hmem, htoken⟩
      rw [herror] at h
      cases h
    have hnewline : '\n' ∉ tokenOf name.toList := by
      have hname := validate_identifier hvalid name (by rw [hfields]; exact List.mem_cons_self)
      simp [tokenOf, identifier_unbroken hname]
    rw [hframed hfree, framed_eq] at h
    refine ⟨_, _, (Except.ok.inj h).symm, wraps_replace hkind hfields hnewline ?_ ?_⟩
    · intro htoken
      rcases frontLines_token hnewline htoken with hcomponent | hmetadata
      · exact hfree _ (by simp [literalParts]) hcomponent
      · exact hfree _ (by simp [literalParts]) hmetadata
    · intro htoken
      exact hfree _ (by simp [literalParts]) (rearLines_token hnewline htoken)
  | literalBodyV1 =>
    rw [compose_body hkind hid hne hinstruction hnonempty, framed_eq] at h
    exact ⟨_, _, (Except.ok.inj h).symm, wraps_body hkind _ _⟩

end Composed

section Example

@[reducible] def emptyDumps : JsonDumps := ⟨fun _ => "\x7b\x7d"⟩

attribute [local instance] asciiIdentifiers textObjects emptyDumps

/- A component whose id looks like a placeholder. -/
def bracedComponent : Component :=
  [("component_id", .str "\x7bprompt\x7d"), ("instruction", .str promptTemplate)]

end Example

end Whetstone.Optim.Miprov2
