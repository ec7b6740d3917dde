import SingleFile.Proofs.Compile.Results

/-!
# Agreement of the two compiles

A compile with a style and a compile without one pass the same stages.  Behind
these they differ in two points only: a filled style adds its notice to a
success, and a failure that reaches the boundary is labelled for the kind of
compile.  The results are therefore paired, end by end of the stages.

Main results:

- Theorem `compile_paired`: the pair of results at every end of the stages.
- Theorem `compile_agrees`: in what the two results are the same.
-/

namespace SingleFile

namespace Compiler

/-- What a text warns about when it is the style of a success. -/
def styleWarnings (style : String) : List String :=
  if Text.isBlankString style then [] else [styleNotice]

theorem styleWarnings_of_filled {style : String}
    (h : ∃ c ∈ style.toList, Text.isBlank c = false) : styleWarnings style = [styleNotice] := by
  rw [← isBlankString_eq_false_iff] at h
  simp [styleWarnings, h]

theorem styleWarnings_of_not_filled {style : String}
    (h : ¬ ∃ c ∈ style.toList, Text.isBlank c = false) : styleWarnings style = [] := by
  rw [← isBlankString_eq_false_iff, Bool.not_eq_false] at h
  simp [styleWarnings, h]

/-- A text as the style of a success adds its warnings. -/
theorem withStyle_text_success (style : String) (c : Component) (warnings : List String) :
    withStyle (.text style) (.success c warnings) =
      .ok (.success c (warnings ++ styleWarnings style)) := by
  have hsuccess : (CompileResult.success c warnings).isSuccess = true := rfl
  cases h : Text.isBlankString style with
  | true => simp [withStyle, hsuccess, needsStyleNotice, styleWarnings, h]
  | false =>
      simp only [withStyle, hsuccess, needsStyleNotice, styleWarnings, h]
      rfl

/-- Styles that are both filled are not told apart. -/
theorem withStyle_text_congr {style style' : String}
    (h : ∃ c ∈ style.toList, Text.isBlank c = false)
    (h' : ∃ c ∈ style'.toList, Text.isBlank c = false) (r : CompileResult) :
    withStyle (.text style) r = withStyle (.text style') r := by
  rw [← isBlankString_eq_false_iff] at h h'
  simp [withStyle, needsStyleNotice, h, h']

/-- The results of a compile without and with a style, for each end of the
stages. -/
inductive Paired (k : Compiler) (template script : Value) (style : String) :
    CompileResult → CompileResult → Prop where
  /-- Both hold the component, and the second warns about the style as well. -/
  | success (settled : ∀ f, ¬ k.Raises template script f) (c : Component)
      (warnings : List String) :
      Paired k template script style (.success c warnings)
        (.success c (warnings ++ styleWarnings style))
  /-- An error of the stages' own is the error of both. -/
  | failure (settled : ∀ f, ¬ k.Raises template script f) (e : String) (warnings : List String) :
      Paired k template script style (.failure e warnings) (.failure e warnings)
  /-- A failure that leaves the stages is labelled by each boundary. -/
  | raised {f : Failure} (raises : k.Raises template script f) :
      Paired k template script style (.failure ("Compilation error: " ++ f.text))
        (.failure ("SFC compilation error: " ++ f.text))

/-- Stages that end well raise nothing. -/
theorem not_raises_of_ok {k : Compiler} {template script : Value} {r : CompileResult}
    (h : k.compileScript template script = .ok r) (f : Failure) :
    ¬ k.Raises template script f := by
  intro hf
  rw [compileScript_of_raises hf] at h
  cases h

/-- The two compiles of a template and a script are paired. -/
theorem compile_paired (k : Compiler) (template script : Value) (style : String) :
    k.Paired template script style (k.compileTemplate template script)
      (k.compile template script (.text style)) := by
  rcases k.compileScript_cases template script with
    ⟨fault, _, _, he⟩ | ⟨_, _, warnings, c, _, _, _, he⟩ |
    ⟨_, _, warnings, f, _, _, _, _, he⟩ | ⟨f, hraises, _⟩
  · rw [compileTemplate_of_ok he, compile_of_failure he]
    exact .failure (not_raises_of_ok he) _ _
  · have hcompile : k.compile template script (.text style) =
        .success c (warnings ++ styleWarnings style) := by
      simp [compile, he, withStyle_text_success, atBoundary]
    rw [compileTemplate_of_ok he, hcompile]
    exact .success (not_raises_of_ok he) c warnings
  · rw [compileTemplate_of_ok he, compile_of_failure he]
    exact .failure (not_raises_of_ok he) _ _
  · rw [compileTemplate_of_raises hraises, compile_of_escapes (.ofStages hraises)]
    exact .raised hraises

/-! ## Paired results -/

/-- No more than one failure leaves the stages. -/
theorem Raises.unique {k : Compiler} {template script : Value} {f g : Failure}
    (hf : k.Raises template script f) (hg : k.Raises template script g) : f = g := by
  have hends := compileScript_of_raises hf
  rw [compileScript_of_raises hg] at hends
  exact (Except.error.inj hends).symm

section

variable {k : Compiler} {template script : Value} {style : String} {r r' : CompileResult}

/-- Paired results succeed together. -/
theorem Paired.isSuccess_iff (h : k.Paired template script style r r') :
    r.isSuccess = true ↔ r'.isSuccess = true := by
  cases h with
  | success _ _ _ => exact Iff.rfl
  | failure _ _ _ => exact Iff.rfl
  | raised _ => exact Iff.rfl

/-- Successes hold the same component, and the second warns about the style as
well. -/
theorem Paired.of_component? (h : k.Paired template script style r r') {c : Component}
    (hc : r.component? = some c) :
    r'.component? = some c ∧ r'.warnings = r.warnings ++ styleWarnings style := by
  cases h with
  | success _ _ _ => exact ⟨hc, rfl⟩
  | failure _ _ _ => cases hc
  | raised _ => cases hc

/-- Paired results that fail have the same warnings. -/
theorem Paired.warnings_of_failed (h : k.Paired template script style r r')
    (hfailed : r.isSuccess = false) : r'.warnings = r.warnings := by
  cases h with
  | success _ _ _ => cases hfailed
  | failure _ _ _ => rfl
  | raised _ => rfl

/-- An error that no boundary made is the same in both results. -/
theorem Paired.error?_of_settled (h : k.Paired template script style r r')
    (hfailed : r.isSuccess = false) (hsettled : ∀ f, ¬ k.Raises template script f) :
    r'.error? = r.error? := by
  cases h with
  | success _ _ _ => cases hfailed
  | failure _ _ _ => rfl
  | raised raises => exact absurd raises (hsettled _)

/-- Where a failure leaves the stages, each boundary labels its text. -/
theorem Paired.of_raises (h : k.Paired template script style r r') {f : Failure}
    (hf : k.Raises template script f) :
    r.isSuccess = false ∧ r.error? = some ("Compilation error: " ++ f.text) ∧
      r'.error? = some ("SFC compilation error: " ++ f.text) := by
  cases h with
  | success settled _ _ => exact absurd hf (settled f)
  | failure settled _ _ => exact absurd hf (settled f)
  | raised raises =>
      rw [raises.unique hf]
      exact ⟨rfl, rfl, rfl⟩

end

/-- The two compiles succeed on the same templates and scripts, with the same
component; a filled style adds its notice to the warnings and nothing else.  They
fail with the same warnings and the same error, unless a failure reaches the
boundary: then each labels the same text.  So filled styles are not told apart. -/
theorem compile_agrees (k : Compiler) (template script : Value) (style : String) :
    let r := k.compileTemplate template script
    let r' := k.compile template script (.text style)
    (r.isSuccess = true ↔ r'.isSuccess = true) ∧
    (∀ c, r.component? = some c → r'.component? = some c ∧
      ((∃ x ∈ style.toList, Text.isBlank x = false) →
        r'.warnings = r.warnings ++ [styleNotice]) ∧
      ((¬ ∃ x ∈ style.toList, Text.isBlank x = false) → r'.warnings = r.warnings)) ∧
    (r.isSuccess = false → r'.warnings = r.warnings ∧
      ((∀ f, ¬ k.Raises template script f) → r'.error? = r.error?) ∧
      ∀ f, k.Raises template script f →
        r.error? = some ("Compilation error: " ++ f.text) ∧
          r'.error? = some ("SFC compilation error: " ++ f.text)) ∧
    (∀ f, k.Raises template script f → r.isSuccess = false) ∧
    (∀ style' : String, (∃ x ∈ style.toList, Text.isBlank x = false) →
      (∃ x ∈ style'.toList, Text.isBlank x = false) →
      k.compile template script (.text style') = r') := by
  intro r r'
  have hpaired : k.Paired template script style r r' :=
    k.compile_paired template script style
  refine ⟨hpaired.isSuccess_iff, ?_, ?_, fun f hf => (hpaired.of_raises hf).1, ?_⟩
  · intro c hc
    obtain ⟨hcomponent, hwarnings⟩ := hpaired.of_component? hc
    refine ⟨hcomponent, fun hfilled => ?_, fun hfilled => ?_⟩
    · rw [hwarnings, styleWarnings_of_filled hfilled]
    · rw [hwarnings, styleWarnings_of_not_filled hfilled, List.append_nil]
  · intro hfailed
    exact ⟨hpaired.warnings_of_failed hfailed, hpaired.error?_of_settled hfailed,
      fun f hf => (hpaired.of_raises hf).2⟩
  · intro style' hstyle hstyle'
    simp only [r', compile, withStyle_text_congr hstyle hstyle']

end Compiler

end SingleFile
