import SingleFile.Proofs.Compile.Stages

/-!
# Results of a compile

Every compile ends in a result, whatever its template, script and style are,
whatever its host does, and whichever stages are set to fail.  The result holds
either a component or an error, and its warnings come in one order: at most one
about the script, then the notice about styles.

Main results:

- Theorem `compile_result`: the shape of every result of both kinds of compile,
  and what each way of failing leaves in it.
- Theorem `withStyle_cases`: what a style adds to a result.
- Theorem `made_of_component?`: where a component comes from.
-/

namespace SingleFile

/-! ## Well-formed results -/

/-- A result holds exactly one of component and error, its error says something,
and its warnings are at most one about the script and then the notice about
styles. -/
structure CompileResult.WellFormed (r : CompileResult) : Prop where
  exclusive : r.component?.isSome ≠ r.error?.isSome
  error_ne_empty : ∀ e, r.error? = some e → e ≠ ""
  warnings_sublist : ∃ w, Compiler.IsScriptWarning w ∧
    r.warnings.Sublist [w, Compiler.styleNotice]

namespace Compiler

/-- The warnings are none or one about the script. -/
def WarnsOfScript (warnings : List String) : Prop :=
  warnings = [] ∨ ∃ w, IsScriptWarning w ∧ warnings = [w]

/-- Warnings about a script are one at most, with no notice of the style. -/
theorem WarnsOfScript.sublist {warnings : List String} (h : WarnsOfScript warnings) :
    ∃ w, IsScriptWarning w ∧ warnings.Sublist [w, styleNotice] := by
  rcases h with rfl | ⟨w, hw, rfl⟩
  · exact ⟨_, isScriptWarning_unrecognizedWarning, List.nil_sublist _⟩
  · exact ⟨w, hw, by simp⟩

/-- The notice of the style stands behind the warning about the script. -/
theorem WarnsOfScript.append_styleNotice {warnings : List String} (h : WarnsOfScript warnings) :
    ∃ w, IsScriptWarning w ∧ (warnings ++ [styleNotice]).Sublist [w, styleNotice] := by
  rcases h with rfl | ⟨w, hw, rfl⟩
  · exact ⟨_, isScriptWarning_unrecognizedWarning, by simp⟩
  · exact ⟨w, hw, by simp⟩

/-- A warning about the script is never the notice about styles. -/
theorem WarnsOfScript.styleNotice_not_mem {warnings : List String} (h : WarnsOfScript warnings) :
    styleNotice ∉ warnings := by
  rcases h with rfl | ⟨w, hw, rfl⟩
  · exact List.not_mem_nil
  · intro hmem
    rw [List.mem_singleton] at hmem
    exact not_isScriptWarning_styleNotice (hmem ▸ hw)

theorem fault_message_ne_empty (fault : Template.Fault) : fault.message ≠ "" := by
  unfold Template.Fault.message
  split <;> simp

theorem labelled_ne_empty (label : String) (f : Failure) : labelled label f ≠ "" := by
  simp [labelled]

/-- A success with warnings in order is well formed. -/
theorem wellFormed_success (c : Component) {warnings : List String}
    (h : ∃ w, IsScriptWarning w ∧ warnings.Sublist [w, styleNotice]) :
    (CompileResult.success c warnings).WellFormed where
  exclusive := by simp
  error_ne_empty := by simp
  warnings_sublist := h

/-- A failure with a message and no more than a warning about the script is well formed. -/
theorem wellFormed_failure {e : String} (he : e ≠ "") {warnings : List String}
    (h : WarnsOfScript warnings) : (CompileResult.failure e warnings).WellFormed where
  exclusive := by simp
  error_ne_empty := by
    intro e' he'
    rw [CompileResult.error?_failure] at he'
    cases he'
    exact he
  warnings_sublist := h.sublist

/-! ## Styles -/

/-- The style is a text that is not blank. -/
def IsFilledStyle (style : Value) : Prop :=
  ∃ s, style = .text s ∧ ∃ c ∈ s.toList, Text.isBlank c = false

theorem isBlankString_eq_false_iff (s : String) :
    Text.isBlankString s = false ↔ ∃ c ∈ s.toList, Text.isBlank c = false := by
  simp [Text.isBlankString, Text.isBlankText]

/-- A notice is needed exactly for a style that is filled. -/
theorem needsStyleNotice_eq_true_iff (style : Value) :
    needsStyleNotice style = .ok true ↔ IsFilledStyle style := by
  cases style with
  | text s =>
      simp only [needsStyleNotice, IsFilledStyle, Except.ok.injEq, Bool.not_eq_true',
        Value.text.injEq]
      rw [isBlankString_eq_false_iff]
      constructor
      · exact fun h => ⟨s, rfl, h⟩
      · rintro ⟨_, rfl, h⟩
        exact h
  | _ =>
      simp only [needsStyleNotice, IsFilledStyle, reduceCtorEq, false_and, exists_false, iff_false]
      split <;> simp

/-- What a style adds to a result: nothing to a failure, and to a success
nothing, the notice, or a failure to judge the style. -/
theorem withStyle_cases (style : Value) (r : CompileResult) :
    (r.isSuccess = false ∧ withStyle style r = .ok r) ∨
    (r.isSuccess = true ∧ IsFilledStyle style ∧
      withStyle style r = .ok { r with warnings := r.warnings ++ [styleNotice] }) ∨
    (r.isSuccess = true ∧ ¬ IsFilledStyle style ∧ withStyle style r = .ok r) ∨
    (r.isSuccess = true ∧ ¬ IsFilledStyle style ∧
      ∃ f, needsStyleNotice style = .error f ∧ withStyle style r = .error f) := by
  cases hr : r.isSuccess with
  | false => exact .inl ⟨rfl, by simp [withStyle, hr]⟩
  | true =>
      right
      have hfilled := needsStyleNotice_eq_true_iff style
      cases hneeds : needsStyleNotice style with
      | error f =>
          refine .inr (.inr ⟨rfl, ?_, f, rfl, by simp [withStyle, hr, hneeds]⟩)
          rw [← hfilled, hneeds]
          simp
      | ok b =>
          cases b with
          | true => exact .inl ⟨rfl, hfilled.mp hneeds, by simp [withStyle, hr, hneeds]⟩
          | false =>
              refine .inr (.inl ⟨rfl, ?_, by simp [withStyle, hr, hneeds]⟩)
              rw [← hfilled, hneeds]
              simp

/-- A failure that reaches the boundary of a compile with a style: one that the
stages raise, or one in judging the style of a success. -/
inductive Escapes (k : Compiler) (template script style : Value) (f : Failure) : Prop where
  | ofStages (raised : k.Raises template script f)
  | ofStyle {c : Component} {warnings : List String}
      (made : k.compileScript template script = .ok (.success c warnings))
      (failed : needsStyleNotice style = .error f)

/-- A failure that escapes from the stages is the error of the result. -/
theorem compile_of_escapes {k : Compiler} {template script style : Value} {f : Failure}
    (h : k.Escapes template script style f) :
    k.compile template script style = .failure (labelled "SFC compilation error" f) := by
  cases h with
  | ofStages hraised => simp [compile, compileScript_of_raises hraised, atBoundary]
  | ofStyle hmade hfailed =>
      simp [compile, hmade, withStyle, CompileResult.isSuccess, hfailed, atBoundary]

/-- A failure that a stage raises becomes the labelled error of the result. -/
theorem compileTemplate_of_raises {k : Compiler} {template script : Value} {f : Failure}
    (h : k.Raises template script f) :
    k.compileTemplate template script = .failure (labelled "Compilation error" f) := by
  simp [compileTemplate, compileScript_of_raises h, atBoundary]

/-- A result of the stages goes through the boundary of either compile. -/
theorem compileTemplate_of_ok {k : Compiler} {template script : Value} {r : CompileResult}
    (h : k.compileScript template script = .ok r) : k.compileTemplate template script = r := by
  simp [compileTemplate, h, atBoundary]

/-- A failure of the stages' own is not changed by a style. -/
theorem compile_of_failure {k : Compiler} {template script : Value} {e : String}
    {warnings : List String} (h : k.compileScript template script = .ok (.failure e warnings))
    (style : Value) : k.compile template script style = .failure e warnings := by
  simp [compile, h, withStyle, CompileResult.isSuccess, atBoundary]

/-- The three ways in which a success of the stages ends with a style. -/
theorem compile_of_success {k : Compiler} {template script : Value} {c : Component}
    {warnings : List String} (h : k.compileScript template script = .ok (.success c warnings))
    (style : Value) :
    (IsFilledStyle style ∧
      k.compile template script style = .success c (warnings ++ [styleNotice])) ∨
    (¬ IsFilledStyle style ∧ k.compile template script style = .success c warnings) ∨
    (¬ IsFilledStyle style ∧ ∃ f, k.Escapes template script style f) := by
  have hcompile : k.compile template script style =
      atBoundary "SFC compilation error" (withStyle style (.success c warnings)) := by
    simp [compile, h]
  rcases withStyle_cases style (.success c warnings) with
    ⟨hfailed, _⟩ | ⟨_, hfilled, hw⟩ | ⟨_, hfilled, hw⟩ | ⟨_, hfilled, f, hneeds, _⟩
  · simp [CompileResult.isSuccess] at hfailed
  · rw [hcompile, hw]
    exact .inl ⟨hfilled, rfl⟩
  · rw [hcompile, hw]
    exact .inr (.inl ⟨hfilled, rfl⟩)
  · exact .inr (.inr ⟨hfilled, f, .ofStyle h hneeds⟩)

/-- A component that either compile returns was made by the stages. -/
theorem made_of_component? {k : Compiler} {template script style : Value} {c : Component}
    (h : (k.compile template script style).component? = some c ∨
      (k.compileTemplate template script).component? = some c) :
    ∃ text fragments, k.Admits template text ∧ k.synthesis text fragments = .ok c := by
  rcases k.compileScript_cases template script with
    ⟨_, _, _, he⟩ | ⟨text, fragments, _, c', ha, _, hmade, he⟩ |
    ⟨_, _, _, _, _, _, _, _, he⟩ | ⟨_, hraises, _⟩
  · rw [compile_of_failure he, compileTemplate_of_ok he] at h
    simp at h
  · have hc : c' = c := by
      rw [compileTemplate_of_ok he, CompileResult.component?_success] at h
      rcases h with h | h
      · rcases compile_of_success he style with ⟨_, hr⟩ | ⟨_, hr⟩ | ⟨_, f, hescapes⟩
        · rw [hr, CompileResult.component?_success] at h
          exact Option.some.inj h
        · rw [hr, CompileResult.component?_success] at h
          exact Option.some.inj h
        · rw [compile_of_escapes hescapes] at h
          cases h
      · exact Option.some.inj h
    exact ⟨text, fragments, ha, hc ▸ hmade⟩
  · rw [compile_of_failure he, compileTemplate_of_ok he] at h
    simp at h
  · rw [compile_of_escapes (.ofStages hraises), compileTemplate_of_raises hraises] at h
    simp at h

/-! ## The shape of a result -/

/-- A result of the given style: it is well-formed, and the notice is among its
warnings exactly when it is a success and the style is filled. -/
def Answers (style : Value) (r : CompileResult) : Prop :=
  r.WellFormed ∧ (styleNotice ∈ r.warnings ↔ r.isSuccess = true ∧ IsFilledStyle style)

/-- A failure of the stages answers any style. -/
theorem answers_failure (style : Value) {e : String} (he : e ≠ "") {warnings : List String}
    (h : WarnsOfScript warnings) : Answers style (.failure e warnings) := by
  refine ⟨wellFormed_failure he h, ?_⟩
  have hnot := h.styleNotice_not_mem
  simp [CompileResult.failure, CompileResult.isSuccess, CompileResult.component?, hnot]

/-- A success answers a style that is not filled. -/
theorem answers_success {style : Value} (hstyle : ¬ IsFilledStyle style) (c : Component)
    {warnings : List String} (h : WarnsOfScript warnings) :
    Answers style (.success c warnings) := by
  refine ⟨wellFormed_success c h.sublist, ?_⟩
  have hnot := h.styleNotice_not_mem
  simp [CompileResult.success, hstyle, hnot]

/-- A success answers a filled style with the notice. -/
theorem answers_success_styled {style : Value} (hstyle : IsFilledStyle style) (c : Component)
    {warnings : List String} (h : WarnsOfScript warnings) :
    Answers style (.success c (warnings ++ [styleNotice])) := by
  refine ⟨wellFormed_success c h.append_styleNotice, ?_⟩
  simp [CompileResult.success, CompileResult.isSuccess, CompileResult.component?, hstyle]

/-- Every compile with a style answers it. -/
theorem compile_answers (k : Compiler) (template script style : Value) :
    Answers style (k.compile template script style) := by
  rcases k.compileScript_cases template script with
    ⟨fault, _, _, he⟩ | ⟨_, _, warnings, c, _, hread, _, he⟩ |
    ⟨_, _, warnings, f, _, hread, _, _, he⟩ | ⟨f, hraises, _⟩
  · rw [compile_of_failure he]
    exact answers_failure style (fault_message_ne_empty fault) (.inl rfl)
  · have hwarns : WarnsOfScript warnings := warnings_of_fragmentsAndWarnings hread
    rcases compile_of_success he style with ⟨hfilled, hr⟩ | ⟨hfilled, hr⟩ | ⟨_, f, hescapes⟩
    · rw [hr]
      exact answers_success_styled hfilled c hwarns
    · rw [hr]
      exact answers_success hfilled c hwarns
    · rw [compile_of_escapes hescapes]
      exact answers_failure style (labelled_ne_empty _ f) (.inl rfl)
  · rw [compile_of_failure he]
    exact answers_failure style (labelled_ne_empty _ f) (warnings_of_fragmentsAndWarnings hread)
  · rw [compile_of_escapes (.ofStages hraises)]
    exact answers_failure style (labelled_ne_empty _ f) (.inl rfl)

/-- Every compile without a style answers the empty one. -/
theorem compileTemplate_answers (k : Compiler) (template script : Value) :
    Answers (.text "") (k.compileTemplate template script) := by
  have hempty : ¬ IsFilledStyle (.text "") := by simp [IsFilledStyle]
  rcases k.compileScript_cases template script with
    ⟨fault, _, _, he⟩ | ⟨_, _, warnings, c, _, hread, _, he⟩ |
    ⟨_, _, warnings, f, _, hread, _, _, he⟩ | ⟨f, hraises, _⟩
  · rw [compileTemplate_of_ok he]
    exact answers_failure _ (fault_message_ne_empty fault) (.inl rfl)
  · rw [compileTemplate_of_ok he]
    exact answers_success hempty c (warnings_of_fragmentsAndWarnings hread)
  · rw [compileTemplate_of_ok he]
    exact answers_failure _ (labelled_ne_empty _ f) (warnings_of_fragmentsAndWarnings hread)
  · rw [compileTemplate_of_raises hraises]
    exact answers_failure _ (labelled_ne_empty _ f) (.inl rfl)

/-- Both kinds of compile always end in a well-formed result, and the notice
about styles stands exactly in the successes of a filled style.  A rejected
template decides the result alone; a failure that reaches the boundary leaves no
warning; and a synthesis that fails in its own way keeps the warnings of the
reading. -/
theorem compile_result (k : Compiler) (template script style : Value) :
    (k.compile template script style).WellFormed ∧
    (k.compileTemplate template script).WellFormed ∧
    (styleNotice ∈ (k.compile template script style).warnings ↔
      (k.compile template script style).isSuccess = true ∧
        ∃ s, style = .text s ∧ ∃ c ∈ s.toList, Text.isBlank c = false) ∧
    styleNotice ∉ (k.compileTemplate template script).warnings ∧
    (∀ fault faults, Template.faults k.settings template = fault :: faults →
      k.compile template script style = .failure fault.message [] ∧
        k.compileTemplate template script = .failure fault.message []) ∧
    (∀ f, k.Escapes template script style f →
      k.compile template script style = .failure ("SFC compilation error: " ++ f.text) []) ∧
    (∀ f, k.Raises template script f →
      k.compileTemplate template script = .failure ("Compilation error: " ++ f.text) []) ∧
    (∀ text fragments warnings f, k.Admits template text →
      k.fragmentsAndWarnings (presentedScript script) = .ok (fragments, warnings) →
      k.synthesis text fragments = .error f → f.kind = .synthesis →
      k.compile template script style = .failure ("Compilation error: " ++ f.text) warnings ∧
        k.compileTemplate template script =
          .failure ("Compilation error: " ++ f.text) warnings) := by
  have hstyled := k.compile_answers template script style
  have hplain := k.compileTemplate_answers template script
  refine ⟨hstyled.1, hplain.1, hstyled.2, ?_, ?_, ?_, ?_, ?_⟩
  · intro hmem
    have hempty := (hplain.2.mp hmem).2
    simp [IsFilledStyle] at hempty
  · intro fault faults hfaults
    have he := compileScript_of_rejected hfaults script
    exact ⟨compile_of_failure he style, compileTemplate_of_ok he⟩
  · intro f hescapes
    exact compile_of_escapes hescapes
  · intro f hraises
    exact compileTemplate_of_raises hraises
  · intro text fragments warnings f ha hread hfailed hkind
    have he := compileScript_of_refused ha hread hfailed hkind
    exact ⟨compile_of_failure he style, compileTemplate_of_ok he⟩

end Compiler

end SingleFile
