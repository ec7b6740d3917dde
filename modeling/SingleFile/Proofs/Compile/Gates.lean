import SingleFile.Proofs.Compile.Results
import SingleFile.Proofs.Component.Plan
import SingleFile.Proofs.Script.Recognition

/-!
# The gates of a compile

With the standard host and no stage set to fail, a compile of texts succeeds
exactly when every gate is passed: the template has no fault, and each planned
function has a well-formed body, a proper name and proper parameters.  A success
is the planned component; otherwise the first planned function that is refused
says why.

Main results:

- Theorem `compileScript_text`: the outcome of a compile of texts in terms of
  the plan of its component.
- Theorem `plan_of_component?`: with the standard host a component is a plan.
- Theorem `compile_gates`: when a compile of texts succeeds, what its component
  holds, and which function a failure names.
-/

namespace SingleFile

namespace Compiler

/-- The compiler with the given settings, the standard host, and no stage that
is set to fail. -/
def standard (settings : Settings) : Compiler :=
  { settings }

theorem presentedScript_text (script : String) :
    presentedScript (.text script) = .text script := by
  unfold presentedScript
  split
  · rfl
  · rename_i h
    rw [Value.isTruthy_text_iff, Classical.not_not] at h
    rw [h]

/-- Reading a text never fails, and reads everything that is recognised. -/
theorem fragmentsAndWarnings_standard (settings : Settings) (script : String) :
    ∃ warnings, (standard settings).fragmentsAndWarnings (presentedScript (.text script)) =
      .ok (Script.Fragments.ofScript script.toList, warnings) := by
  have hextraction : (standard settings).extraction (.text script) =
      .ok (Script.Fragments.ofScript script.toList) := Script.extract_text script
  rw [presentedScript_text, fragmentsAndWarnings, hextraction]
  simp only
  split
  · exact ⟨_, rfl⟩
  · exact ⟨_, rfl⟩

/-- In the standard host, synthesis makes what is planned, or refuses with the first error
of a function. -/
theorem synthesis_standard (settings : Settings) (template : String)
    (fragments : Script.Fragments) :
    (standard settings).synthesis template fragments =
      match (plan settings template fragments).functions.findSome? ScriptFunction.error? with
      | none => .ok (plan settings template fragments)
      | some e => .error ⟨.synthesis, e.message⟩ := by
  have hsynthesize : synthesize (standard settings).settings (standard settings).host template
      fragments = _ := synthesize_standard settings template fragments
  have hnone : (standard settings).failures.synthesis = none := rfl
  unfold synthesis
  rw [hnone, hsynthesize]
  cases (plan settings template fragments).functions.findSome? ScriptFunction.error? with
  | none => rfl
  | some e => rfl

/-- A synthesis with the standard host makes nothing but the plan. -/
theorem plan_of_synthesis {k : Compiler} (hhost : k.host = Host.standard) {template : String}
    {fragments : Script.Fragments} {c : Component}
    (h : k.synthesis template fragments = .ok c) : c = plan k.settings template fragments := by
  unfold synthesis at h
  rw [hhost, synthesize_standard] at h
  cases hset : k.failures.synthesis with
  | some f =>
      rw [hset] at h
      cases h
  | none =>
      rw [hset] at h
      cases herror : (plan k.settings template fragments).functions.findSome?
          ScriptFunction.error? with
      | none =>
          rw [herror] at h
          exact (Except.ok.inj h).symm
      | some e =>
          rw [herror] at h
          cases h

/-- What a compile with the standard host makes is the plan of its template and
some fragments, whatever it is given and whichever stages are set to fail. -/
theorem plan_of_component? {k : Compiler} (hhost : k.host = Host.standard)
    {template script style : Value} {c : Component}
    (h : (k.compile template script style).component? = some c ∨
      (k.compileTemplate template script).component? = some c) :
    ∃ text fragments, template = .text text ∧ c = plan k.settings text fragments := by
  obtain ⟨text, fragments, ha, hmade⟩ := made_of_component? h
  exact ⟨text, fragments, ha.1, plan_of_synthesis hhost hmade⟩

/-- The outcome of a compile of texts: the plan, or the error of the first
planned function that is refused. -/
theorem compileScript_text {settings : Settings} {template : String}
    (hfaults : Template.textFaults settings template = []) (script : String) :
    ∃ warnings, (standard settings).compileScript (.text template) (.text script) =
      match (plan settings template (.ofScript script.toList)).functions.findSome?
        ScriptFunction.error? with
      | none => .ok (.success (plan settings template (.ofScript script.toList)) warnings)
      | some e => .ok (.failure ("Compilation error: " ++ e.message) warnings) := by
  obtain ⟨warnings, hread⟩ := fragmentsAndWarnings_standard settings script
  have ha : (standard settings).Admits (.text template) template := ⟨rfl, hfaults⟩
  have hsynthesis := synthesis_standard settings template (.ofScript script.toList)
  refine ⟨warnings, ?_⟩
  split <;> rename_i herror
  · rw [herror] at hsynthesis
    exact compileScript_of_made ha hread hsynthesis
  · rw [herror] at hsynthesis
    exact compileScript_of_refused ha hread hsynthesis rfl

/-- A style that is a text changes no more than the warnings. -/
theorem compile_text_style {k : Compiler} {template script : Value} {r : CompileResult}
    (h : k.compileScript template script = .ok r) (style : String) :
    (k.compile template script (.text style)).outcome = r.outcome := by
  have hcompile : k.compile template script (.text style) =
      atBoundary "SFC compilation error" (withStyle (.text style) r) := by
    simp [compile, h]
  rw [hcompile]
  rcases withStyle_cases (.text style) r with
    ⟨_, hw⟩ | ⟨_, _, hw⟩ | ⟨_, _, hw⟩ | ⟨_, _, f, hneeds, _⟩
  · rw [hw]; rfl
  · rw [hw]; rfl
  · rw [hw]; rfl
  · simp [needsStyleNotice] at hneeds

/-! ## Gates -/

/-- No function of a list is refused exactly when all of them are admitted. -/
theorem findSome?_error?_eq_none_iff (fs : List ScriptFunction) :
    fs.findSome? ScriptFunction.error? = none ↔ ∀ f ∈ fs, f.Admitted := by
  simp only [List.findSome?_eq_none_iff, ScriptFunction.error?_eq_none_iff]

/-- The first function that is refused is found behind admitted ones only. -/
theorem findSome?_error?_of_first {before : List ScriptFunction} {f : ScriptFunction}
    (hbefore : ∀ g ∈ before, g.Admitted) (hf : ¬ f.Admitted) (after : List ScriptFunction) :
    ∃ e, (before ++ f :: after).findSome? ScriptFunction.error? = some e ∧
      f.error? = some e := by
  have hnone := (findSome?_error?_eq_none_iff before).mpr hbefore
  rw [List.findSome?_append, hnone, Option.none_or, List.findSome?_cons]
  cases he : f.error? with
  | none => exact absurd (f.error?_eq_none_iff.mp he) hf
  | some e => exact ⟨e, rfl, rfl⟩

/-- A compile of texts whose template has no fault and whose planned functions
are all admitted holds the plan. -/
theorem outcome_of_admitted {settings : Settings} {template script : String}
    (hfaults : Template.textFaults settings template = [])
    (hall : ∀ f ∈ (plan settings template (.ofScript script.toList)).functions, f.Admitted)
    (style : String) :
    ((standard settings).compile (.text template) (.text script) (.text style)).outcome =
      .ok (plan settings template (.ofScript script.toList)) := by
  obtain ⟨warnings, he⟩ := compileScript_text hfaults script
  rw [(findSome?_error?_eq_none_iff _).mpr hall] at he
  rw [compile_text_style he]
  rfl

/-- A compile of texts whose template has no fault ends with the error of the
first planned function that is refused. -/
theorem outcome_of_refused {settings : Settings} {template script : String}
    (hfaults : Template.textFaults settings template = []) {e : SynthesisError}
    (he : (plan settings template (.ofScript script.toList)).functions.findSome?
      ScriptFunction.error? = some e)
    (style : String) :
    ((standard settings).compile (.text template) (.text script) (.text style)).outcome =
      .error ("Compilation error: " ++ e.message) := by
  obtain ⟨warnings, hscript⟩ := compileScript_text hfaults script
  rw [he] at hscript
  rw [compile_text_style hscript]
  rfl

/-- A compile of texts succeeds exactly when the template has no fault and every
planned function is admitted, and then it holds the plan. -/
theorem component?_eq_some_iff (settings : Settings) (template script style : String)
    (c : Component) :
    ((standard settings).compile (.text template) (.text script) (.text style)).component? =
        some c ↔
      Template.textFaults settings template = [] ∧
        (∀ f ∈ (plan settings template (.ofScript script.toList)).functions, f.Admitted) ∧
        c = plan settings template (.ofScript script.toList) := by
  unfold CompileResult.component?
  cases hfaults : Template.textFaults settings template with
  | cons fault faults =>
      have hk : Template.faults (standard settings).settings (.text template) =
          fault :: faults := hfaults
      have hrejected := compileScript_of_rejected hk (.text script)
      rw [compile_text_style hrejected]
      simp [CompileResult.failure]
  | nil =>
      rw [← findSome?_error?_eq_none_iff]
      cases herror : (plan settings template (.ofScript script.toList)).functions.findSome?
          ScriptFunction.error? with
      | none =>
          rw [outcome_of_admitted hfaults ((findSome?_error?_eq_none_iff _).mp herror)]
          simp [eq_comm]
      | some e =>
          rw [outcome_of_refused hfaults herror]
          simp

/-- The functions of a component that a compile of texts makes are admitted. -/
theorem admitted_of_component? {settings : Settings} {template script style : String}
    {c : Component}
    (h : ((standard settings).compile (.text template) (.text script) (.text style)).component? =
      some c) {f : ScriptFunction} (hf : f ∈ c.functions) : f.Admitted := by
  obtain ⟨_, hall, rfl⟩ := (component?_eq_some_iff settings template script style c).mp h
  exact hall f hf

/-- A compile of texts succeeds exactly when every gate is passed; its component
holds the recognised texts as they stand, and a failure behind the template's
gate names the first planned function that is refused. -/
theorem compile_gates (settings : Settings) (template script style : String) :
    let fragments := Script.Fragments.ofScript script.toList
    let r := (standard settings).compile (.text template) (.text script) (.text style)
    Script.extract none (.text script) = .ok fragments ∧
    (r.isSuccess = true ↔
      Template.faults settings (.text template) = [] ∧
      (∀ body, fragments.setupBody = some body → Script.Source.check body = .ok () ∧
        ∀ p ∈ settings.setupBindings, Script.isParameter p = true) ∧
      (∀ body, fragments.dataBody = some body → Script.Source.check body = .ok ()) ∧
      (∀ e ∈ fragments.entries, Script.Source.check e.2.body = .ok () ∧
        Script.isIdentifier e.1 = true ∧
          ∀ p ∈ Script.splitParameters e.2.parameters, Script.isParameter p = true)) ∧
    (∀ c, r.component? = some c →
      c.template = Text.trimmed template ∧
      c.setup = fragments.setupBody.map (fun body =>
        ⟨"setup", .setup, settings.setupBindings, body, settings.trustLevel⟩) ∧
      c.data = fragments.dataBody.map (fun body =>
        ⟨"data", .data, [], body, settings.trustLevel⟩) ∧
      c.methodTable = fragments.entries.map (fun e => (e.1, ⟨e.1, .method,
        Script.splitParameters e.2.parameters, e.2.body, settings.trustLevel⟩))) ∧
    (Template.faults settings (.text template) = [] →
      ∀ before f after, (plan settings template fragments).functions = before ++ f :: after →
        (∀ g ∈ before, g.Admitted) → ¬ f.Admitted →
        ∃ fault, f.refusal? = some fault ∧
          r.error? = some ("Compilation error: " ++ (f.label ++ ": " ++ fault.message))) := by
  intro fragments r
  refine ⟨Script.extract_text script, ?_, ?_, ?_⟩
  · rw [← functions_plan_admitted_iff settings template fragments]
    have hsuccess : r.isSuccess = true ↔ ∃ c, r.component? = some c := by
      rw [CompileResult.isSuccess, Option.isSome_iff_exists]
    rw [hsuccess]
    simp only [r, component?_eq_some_iff]
    constructor
    · rintro ⟨_, hfaults, hall, _⟩
      exact ⟨hfaults, hall⟩
    · rintro ⟨hfaults, hall⟩
      exact ⟨_, hfaults, hall, rfl⟩
  · intro c hc
    obtain ⟨_, _, rfl⟩ := (component?_eq_some_iff settings template script style c).mp hc
    exact ⟨rfl, plan_setup .., plan_data .., plan_methodTable ..⟩
  · intro hfaults before f after hfunctions hbefore hf
    obtain ⟨e, he, hfe⟩ := findSome?_error?_of_first hbefore hf after
    rw [← hfunctions] at he
    obtain ⟨fault, hfault, hmessage⟩ := ScriptFunction.message_of_error? hfe
    refine ⟨fault, hfault, ?_⟩
    rw [CompileResult.error?, outcome_of_refused hfaults he, hmessage]

end Compiler

end SingleFile
