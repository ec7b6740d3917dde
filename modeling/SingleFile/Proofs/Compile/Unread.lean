import SingleFile.Proofs.Compile.Gates

/-!
# Scripts that nothing is read from

A script in which nothing is recognised, or whose extraction fails in its own
way, is compiled like the empty script.  All that it leaves in the result is one
warning, which stands in front of the others; when a failure reaches the
boundary, the warning is lost as well.

Main results:

- Theorem `readsNothing_iff`: which scripts these are.
- Theorem `compileScript_of_readsNothing`: before the boundary such a script
  adds a warning at most.
- Theorem `compile_of_readsNothing`: its result against that of the empty script,
  and when the warning is there.
-/

namespace SingleFile

/-! ## Warnings in front -/

/-- The result with further warnings in front of its own. -/
def CompileResult.warnedFirst (warnings : List String) (r : CompileResult) : CompileResult :=
  { r with warnings := warnings ++ r.warnings }

@[simp]
theorem CompileResult.isSuccess_warnedFirst (warnings : List String) (r : CompileResult) :
    (r.warnedFirst warnings).isSuccess = r.isSuccess :=
  rfl

/-! ## Synthesis without fragments -/

/-- Empty fragments give the host what no fragments give it. -/
theorem draft_of_isEmpty (settings : Settings) (template : String) {fragments : Script.Fragments}
    (h : fragments.isEmpty = true) :
    draft settings template fragments = draft settings template {} := by
  simp only [Script.Fragments.isEmpty, Bool.and_eq_true, Option.isNone_iff_eq_none,
    List.isEmpty_iff] at h
  obtain ⟨hinitializer, hentries⟩ := h
  unfold draft
  rw [hinitializer, hentries]
  rfl

namespace Compiler

/-- Fragments that hold nothing are synthesised as none. -/
theorem synthesis_of_isEmpty (k : Compiler) (template : String) {fragments : Script.Fragments}
    (h : fragments.isEmpty = true) :
    k.synthesis template fragments = k.synthesis template {} := by
  unfold synthesis synthesize
  rw [draft_of_isEmpty k.settings template h]

/-- The standard host makes a component of any template without fragments. -/
theorem synthesis_empty_of_standard {k : Compiler} (hhost : k.host = Host.standard)
    (hsynthesis : k.failures.synthesis = none) (template : String) :
    ∃ c, k.synthesis template {} = .ok c := by
  unfold synthesis synthesize
  rw [hsynthesis, hhost]
  exact ⟨_, rfl⟩

/-! ## Reading nothing -/

/-- Nothing is read from the script: what is extracted from it is empty, or its
extraction fails in its own way. -/
def ReadsNothing (k : Compiler) (script : Value) : Prop :=
  (∃ fragments, k.extraction (presentedScript script) = .ok fragments ∧
    fragments.isEmpty = true) ∨
  ∃ f, k.extraction (presentedScript script) = .error f ∧ f.kind = .extraction

/-- The script is a text that is not blank. -/
def IsFilledScript (script : Value) : Prop :=
  ∃ s, script = .text s ∧ ∃ c ∈ s.toList, Text.isBlank c = false

/-- A script is filled exactly when it is so as it is presented. -/
theorem isFilled_presentedScript_iff (script : Value) :
    isFilled (presentedScript script) = true ↔ IsFilledScript script := by
  cases script with
  | text s =>
      rw [presentedScript_text]
      simp only [isFilled, IsFilledScript, Bool.not_eq_true', isBlankString_eq_false_iff,
        Value.text.injEq, exists_eq_left']
  | _ =>
      simp only [IsFilledScript, reduceCtorEq, false_and, exists_false, iff_false]
      unfold presentedScript
      split
      · simp [isFilled]
      · decide

/-- With extraction as it is, nothing is read from a script exactly when it is no
text, or its recogniser fails, or nothing is recognised in it. -/
theorem readsNothing_iff {k : Compiler} (hextraction : k.failures.extraction = none)
    (script : Value) :
    k.ReadsNothing script ↔
      ∀ s, script = .text s → k.failures.recognizer = none →
        (Script.Fragments.ofScript s.toList).isEmpty = true := by
  have hextract : ∀ v, k.extraction v = Script.extract k.failures.recognizer v := by
    intro v
    simp [extraction, hextraction]
  have hempty : Script.extract k.failures.recognizer (.text "") = .ok {} :=
    Script.extract_blank _ (by decide)
  unfold ReadsNothing
  rw [hextract]
  cases script with
  | text s =>
      rw [presentedScript_text]
      simp only [Value.text.injEq, forall_eq']
      cases hrecognizer : k.failures.recognizer with
      | none =>
          rw [Script.extract_text]
          simp
      | some f =>
          simp only [reduceCtorEq, false_imp_iff, iff_true]
          cases hblank : Text.isBlankString s with
          | true => exact .inl ⟨{}, Script.extract_blank _ hblank, rfl⟩
          | false => exact .inr ⟨_, by simp [Script.extract, hblank]; rfl, rfl⟩
  | _ =>
      simp only [reduceCtorEq, false_imp_iff, implies_true, iff_true]
      unfold presentedScript
      split
      · exact .inr ⟨_, rfl, rfl⟩
      · exact .inl ⟨{}, hempty, rfl⟩

/-- The script is warned about: its extraction fails, or it is a text that is not
blank and the settings ask for a warning. -/
def WarnsOf (k : Compiler) (script : Value) : Prop :=
  (∃ f, k.extraction (presentedScript script) = .error f) ∨
    IsFilledScript script ∧ k.settings.warnOnUnrecognizedScript = true

/-- Where nothing is read, empty fragments are gone on with, and at most one
warning, exactly when the script is warned about. -/
theorem fragmentsAndWarnings_of_readsNothing {k : Compiler} {script : Value}
    (h : k.ReadsNothing script) :
    ∃ fragments warnings,
      k.fragmentsAndWarnings (presentedScript script) = .ok (fragments, warnings) ∧
        fragments.isEmpty = true ∧
        (warnings = [] ∧ ¬ k.WarnsOf script ∨ (∃ w, warnings = [w]) ∧ k.WarnsOf script) := by
  unfold fragmentsAndWarnings WarnsOf
  rcases h with ⟨fragments, hread, hempty⟩ | ⟨f, hfailed, hkind⟩
  · rw [hread, ← isFilled_presentedScript_iff]
    by_cases hwarns :
        isFilled (presentedScript script) = true ∧ k.settings.warnOnUnrecognizedScript = true
    · refine ⟨fragments, [unrecognizedWarning], ?_, hempty, .inr ⟨⟨_, rfl⟩, .inr hwarns⟩⟩
      simp [hempty, hwarns]
    · refine ⟨fragments, [], ?_, hempty, .inl ⟨rfl, ?_⟩⟩
      · simp [hempty, hwarns]
      · rintro (⟨f, hf⟩ | hfilled)
        · cases hf
        · exact hwarns hfilled
  · rw [hfailed]
    exact ⟨{}, [extractionWarning f], by simp [hkind], rfl, .inr ⟨⟨_, rfl⟩, .inl ⟨f, rfl⟩⟩⟩

/-- The empty script is read without a warning. -/
theorem fragmentsAndWarnings_empty {k : Compiler} (hextraction : k.failures.extraction = none) :
    k.fragmentsAndWarnings (presentedScript (.text "")) = .ok ({}, []) := by
  have hempty : Script.extract k.failures.recognizer (.text "") = .ok {} :=
    Script.extract_blank _ (by decide)
  have hfilled : isFilled (.text "") = false := by decide
  simp [presentedScript_text, fragmentsAndWarnings, extraction, hextraction, hempty, hfilled]

/-! ## Before the boundary -/

/-- Before the boundary, a script that nothing is read from adds a warning in
front at most; behind an admitted template it does so exactly when the script is
warned about. -/
theorem compileScript_of_readsNothing {k : Compiler} {script : Value}
    (hextraction : k.failures.extraction = none) (h : k.ReadsNothing script) (template : Value) :
    ∃ extra, (extra = [] ∨ ∃ w, extra = [w]) ∧
      k.compileScript template script =
        (k.compileScript template (.text "")).map (CompileResult.warnedFirst extra) ∧
      ∀ text, k.Admits template text → ((∃ w, extra = [w]) ↔ k.WarnsOf script) := by
  rcases k.admits_or_rejected template with ⟨text, ha⟩ | ⟨fault, faults, hfaults⟩
  · obtain ⟨fragments, warnings, hread, hempty, hwarnings⟩ :=
      fragmentsAndWarnings_of_readsNothing h
    have hnothing := fragmentsAndWarnings_empty hextraction
    refine ⟨warnings, ?_, ?_, fun _ _ => ?_⟩
    · rcases hwarnings with ⟨hnone, _⟩ | ⟨hone, _⟩
      · exact .inl hnone
      · exact .inr hone
    · rw [compileScript_of_admits ha, compileScript_of_admits ha]
      simp only [compileAdmitted, hread, hnothing, k.synthesis_of_isEmpty text hempty]
      cases k.synthesis text {} with
      | ok c => simp [Except.map, CompileResult.warnedFirst, CompileResult.success]
      | error f =>
          by_cases hkind : f.kind = .synthesis
          · simp [hkind, Except.map, CompileResult.warnedFirst, CompileResult.failure]
          · simp [hkind, Except.map]
    · rcases hwarnings with ⟨rfl, hnot⟩ | ⟨hone, hwarns⟩
      · simp [hnot]
      · simp [hone, hwarns]
  · refine ⟨[], .inl rfl, ?_, ?_⟩
    · rw [compileScript_of_rejected hfaults, compileScript_of_rejected hfaults]
      rfl
    · rintro text ⟨rfl, hnone⟩
      simp [Template.faults, hnone] at hfaults

/-! ## Behind the boundary -/

/-- A style is judged without regard to the warnings. -/
theorem withStyle_warnedFirst (style : Value) (warnings : List String) (r : CompileResult) :
    withStyle style (r.warnedFirst warnings) =
      (withStyle style r).map (CompileResult.warnedFirst warnings) := by
  unfold withStyle
  rw [CompileResult.isSuccess_warnedFirst]
  cases r.isSuccess with
  | false => rfl
  | true =>
      cases needsStyleNotice style with
      | error f => rfl
      | ok b =>
          cases b with
          | true => simp [Except.map, CompileResult.warnedFirst]
          | false => rfl

/-- Warnings that come first before the boundary come first behind it, unless a
failure reaches it: then they are lost. -/
theorem compile_of_warnedFirst {k : Compiler} {template script script' : Value}
    {extra : List String}
    (h : k.compileScript template script =
      (k.compileScript template script').map (CompileResult.warnedFirst extra))
    (style : Value) :
    ∃ kept, (kept = [] ∨ kept = extra) ∧
      k.compile template script style = (k.compile template script' style).warnedFirst kept ∧
      ((k.compile template script' style).isSuccess = true → kept = extra) := by
  unfold compile
  rw [h]
  cases k.compileScript template script' with
  | error f => exact ⟨[], .inl rfl, rfl, nofun⟩
  | ok r =>
      simp only [Except.map, withStyle_warnedFirst]
      cases withStyle style r with
      | error f => exact ⟨[], .inl rfl, rfl, nofun⟩
      | ok r' => exact ⟨extra, .inr rfl, rfl, fun _ => rfl⟩

/-- The empty script is a success behind an admitted template, with the standard
host, a style that is a text and no stage that is set to fail. -/
theorem isSuccess_compile_empty {k : Compiler} {template : Value} {text : String}
    (hextraction : k.failures.extraction = none) (ha : k.Admits template text)
    (hhost : k.host = Host.standard) (hsynthesis : k.failures.synthesis = none)
    (style : String) : (k.compile template (.text "") (.text style)).isSuccess = true := by
  obtain ⟨c, hmade⟩ := synthesis_empty_of_standard hhost hsynthesis text
  have hscript := compileScript_of_made ha (fragmentsAndWarnings_empty hextraction) hmade
  have houtcome := compile_text_style hscript style
  simp [CompileResult.isSuccess, CompileResult.component?, houtcome, CompileResult.success]

/-- A script that nothing is read from, which is any script that is no text,
whose recogniser fails, or in which nothing is recognised, gives the component
and the error of the empty script, and its warnings with one more in front at
most.  Where nothing else goes wrong, the warning is there exactly when the
extraction failed, or when the script is a text that is not blank and the settings
ask for it. -/
theorem compile_of_readsNothing (k : Compiler) (template script style : Value)
    (hextraction : k.failures.extraction = none) :
    (k.ReadsNothing script ↔
      ∀ s, script = .text s → k.failures.recognizer = none →
        (Script.Fragments.ofScript s.toList).isEmpty = true) ∧
    (k.ReadsNothing script →
      let r := k.compile template script style
      let r₀ := k.compile template (.text "") style
      r.component? = r₀.component? ∧ r.error? = r₀.error? ∧
      (r.warnings = r₀.warnings ∨ ∃ w, r.warnings = w :: r₀.warnings) ∧
      (∀ text s, k.Admits template text → style = .text s → k.host = Host.standard →
        k.failures.synthesis = none →
        ((∃ w, r.warnings = w :: r₀.warnings) ↔
          (∃ f, k.extraction (presentedScript script) = .error f) ∨
          (∃ s, script = .text s ∧ ∃ c ∈ s.toList, Text.isBlank c = false) ∧
            k.settings.warnOnUnrecognizedScript = true))) := by
  refine ⟨readsNothing_iff hextraction script, fun h => ?_⟩
  intro r r₀
  obtain ⟨extra, hextra, hscript, hwarns⟩ :=
    compileScript_of_readsNothing hextraction h template
  obtain ⟨kept, hkept, hr, hsuccess⟩ := compile_of_warnedFirst hscript style
  have hr : r = r₀.warnedFirst kept := hr
  rw [hr]
  refine ⟨rfl, rfl, ?_, ?_⟩
  · rcases hkept with rfl | rfl
    · exact .inl rfl
    · rcases hextra with rfl | ⟨w, rfl⟩
      · exact .inl rfl
      · exact .inr ⟨w, rfl⟩
  · rintro text s ha rfl hhost hsynthesis
    have hkept : kept = extra :=
      hsuccess (isSuccess_compile_empty hextraction ha hhost hsynthesis s)
    have hcons : (∃ w, kept ++ r₀.warnings = [w] ++ r₀.warnings) ↔ ∃ w, extra = [w] := by
      rw [hkept]
      exact exists_congr fun w => List.append_left_inj r₀.warnings
    exact hcons.trans (hwarns text ha)

/-- A recogniser that fails on a whole script leaves a warning alone. -/
theorem compile_of_failing_recognizer :
    let k : Compiler := { failures := { recognizer := some ⟨.value, "lost"⟩ } }
    let script : Value := .text "setup() \x7b\x7d"
    let r := k.compile (.text "<p></p>") script (.text "")
    let r₀ := k.compile (.text "<p></p>") (.text "") (.text "")
    k.failures.extraction = none ∧ k.ReadsNothing script ∧
      k.Admits (.text "<p></p>") "<p></p>" ∧
      r.component? = r₀.component? ∧ r.error? = r₀.error? ∧
      ∃ w, r.warnings = w :: r₀.warnings := by
  intro k script r r₀
  have hlaw := compile_of_readsNothing k (.text "<p></p>") script (.text "") rfl
  have hreads : k.ReadsNothing script := hlaw.1.mpr fun s _ hrecognizer => by cases hrecognizer
  have hadmits : k.Admits (.text "<p></p>") "<p></p>" := ⟨rfl, by decide +kernel⟩
  obtain ⟨hcomponent, herror, -, hwarning⟩ := hlaw.2 hreads
  refine ⟨rfl, hreads, hadmits, hcomponent, herror, ?_⟩
  exact (hwarning "<p></p>" "" hadmits rfl rfl rfl).mpr (.inl ⟨_, rfl⟩)

end Compiler

end SingleFile
