import SingleFile.Proofs.Compile.Gates
import SingleFile.Proofs.Component.Rendering
import SingleFile.Proofs.Script.Entries

/-!
# Compiled functions as source

The functions of a compiled component are rendered safely as long as their
parameters have no default value.  A default value is not looked at by any gate,
so that it may leave a literal, a comment or a bracket open in the header.

Main results:

- Theorem `compile_renders`: when a compiled function is rendered safely.
- Theorem `compile_renders_broken`: compiled functions that are not.
-/

namespace SingleFile

open Script.Source (check IsPlain)

namespace Compiler

/-! ## Parameters of compiled functions -/

/-- What a compile can make a function from. -/
inductive Origin (settings : Settings) (f : ScriptFunction) : Prop where
  /-- The `setup` function is given the bindings of the settings. -/
  | setup (parameters : f.parameters = settings.setupBindings)
  /-- The `data` function has no parameters. -/
  | data (parameters : f.parameters = [])
  /-- A method has the parameters that were listed before a parenthesis. -/
  | method (kind : f.kind = .method) (list : String) (closed : ')' ∉ list.toList)
      (parameters : f.parameters = Script.splitParameters list)

/-- Every function of a plan comes from a script and the settings. -/
theorem origin_of_mem_plan {settings : Settings} {template : String} {script : List Char}
    {f : ScriptFunction} (hf : f ∈ (plan settings template (.ofScript script)).functions) :
    Origin settings f := by
  rcases (Component.mem_functions_iff _ f).mp hf with hsetup | hdata | ⟨name, hmethod⟩
  · rw [plan_setup, Option.map_eq_some_iff] at hsetup
    obtain ⟨body, _, rfl⟩ := hsetup
    exact .setup rfl
  · rw [plan_data, Option.map_eq_some_iff] at hdata
    obtain ⟨body, _, rfl⟩ := hdata
    exact .data rfl
  · rw [plan_methodTable] at hmethod
    obtain ⟨e, he, hplan⟩ := List.mem_map.mp hmethod
    obtain ⟨parts, hparts, hfragment⟩ := Script.Fragments.exists_proper_of_mem_entries he
    cases hplan
    refine .method rfl e.2.parameters ?_ rfl
    rw [hfragment, Script.EntryParts.fragment, String.toList_ofList]
    exact hparts.parameters

/-- The parameters of `setup` and `data` are plain when the bindings are
identifiers. -/
theorem Origin.isPlain {settings : Settings} {f : ScriptFunction} (h : Origin settings f)
    (hbindings : ∀ b ∈ settings.setupBindings, Script.isIdentifier b = true)
    (hkind : f.kind ≠ .method) : ∀ p ∈ f.parameters, ∀ c ∈ p.toList, IsPlain c := by
  cases h with
  | setup parameters =>
      intro p hp
      rw [parameters] at hp
      exact Script.isPlain_of_isIdentifier (hbindings p hp)
  | data parameters =>
      intro p hp
      rw [parameters] at hp
      cases hp
  | method kind _ _ _ => exact absurd kind hkind

/-- No parameter list holds a closing parenthesis. -/
theorem Origin.not_mem_parameterList {settings : Settings} {f : ScriptFunction}
    (h : Origin settings f)
    (hbindings : ∀ b ∈ settings.setupBindings, Script.isIdentifier b = true) :
    ')' ∉ f.parameterList.toList := by
  intro hmem
  rcases ScriptFunction.mem_parameterList hmem with (hc | hc) | ⟨p, hp, hc⟩
  · cases hc
  · cases hc
  · cases h with
    | setup parameters =>
        rw [parameters] at hp
        have hplain := Script.isPlain_of_isIdentifier (hbindings p hp) ')' hc
        cases hplain.ofCloser?_eq_none
    | data parameters =>
        rw [parameters] at hp
        cases hp
    | method _ list closed parameters =>
        rw [parameters] at hp
        exact Script.not_mem_of_mem_splitParameters closed hp hc

/-! ## Rendering -/

/-- A compiled function is rendered safely exactly when its parameter list is
accepted between parentheses.  This is so for `setup` and `data`, and for methods
without default values.  Otherwise its source is accepted only where the list
leaves a template literal or a block comment open. -/
theorem compile_renders (settings : Settings)
    (hbindings : ∀ b ∈ settings.setupBindings, Script.isIdentifier b = true)
    (template script style : String) {c : Component}
    (hc : ((standard settings).compile (.text template) (.text script)
      (.text style)).component? = some c) {f : ScriptFunction} (hf : f ∈ c.functions) :
    (f.RendersSafely ↔ check f.parametersSource = .ok ()) ∧
    (f.kind ≠ .method → f.RendersSafely) ∧
    ((∀ p ∈ f.parameters, '=' ∉ p.toList) → f.RendersSafely) ∧
    (check f.toSource = .ok () → check f.parametersSource = .ok () ∨
      ∃ line, check f.parametersSource = .error ⟨.unterminatedTemplate, line⟩ ∨
        check f.parametersSource = .error ⟨.unterminatedComment, line⟩) := by
  have hadmitted := admitted_of_component? hc hf
  have horigin : Origin settings f := by
    obtain ⟨_, _, rfl⟩ := (component?_eq_some_iff settings template script style c).mp hc
    exact origin_of_mem_plan hf
  have hclosed := horigin.not_mem_parameterList hbindings
  refine ⟨ScriptFunction.rendersSafely_iff hadmitted hclosed, fun hkind => ?_, fun hdefault => ?_,
    ScriptFunction.check_parametersSource_of_check_toSource hadmitted hclosed⟩
  · exact ScriptFunction.rendersSafely_of_isPlain hadmitted (horigin.isPlain hbindings hkind)
  · refine ScriptFunction.rendersSafely_of_isPlain hadmitted fun p hp => ?_
    exact Script.isPlain_of_isParameter (hadmitted.2.2 p hp) (hdefault p hp)

/-- A method with a sound default value is compiled and rendered safely. -/
theorem compile_renders_default :
    ∃ c f, ((standard {}).compile (.text "<p></p>")
        (.text "methods: \x7b go(a = 1) \x7b a++ \x7d \x7d") (.text "")).component? = some c ∧
      c.functions = [f] ∧ f.RendersSafely := by
  have hbindings : ∀ b ∈ ({} : Settings).setupBindings, Script.isIdentifier b = true := by
    decide
  have hmade : ((standard {}).compile (.text "<p></p>")
      (.text "methods: \x7b go(a = 1) \x7b a++ \x7d \x7d") (.text "")).component?.map
        (fun c => c.functions.map ScriptFunction.parametersSource) = some ["(a = 1)"] := by
    decide +kernel
  obtain ⟨c, hc, hfunctions⟩ := Option.map_eq_some_iff.mp hmade
  obtain ⟨f, hf, hlist⟩ := List.map_eq_singleton_iff.mp hfunctions
  have hmem : f ∈ c.functions := by
    rw [hf]
    exact List.mem_singleton_self f
  have hcheck : check f.parametersSource = .ok () := by
    rw [hlist]
    decide
  have hrenders := compile_renders {} hbindings "<p></p>"
    "methods: \x7b go(a = 1) \x7b a++ \x7d \x7d" "" hc hmem
  exact ⟨c, f, hc, hf, hrenders.1.mpr hcheck⟩

/-- The sources of the functions that are compiled from a script. -/
def compiledSources? (script : String) : Option (List String) :=
  ((standard {}).compile (.text "<p></p>") (.text script) (.text "")).component?.map
    fun c => c.functions.map ScriptFunction.toSource

/-- A string that a default value leaves open takes in the brace of the header: the
compile succeeds, and the source of its function is not accepted. -/
theorem compile_renders_broken :
    compiledSources? "methods: \x7b go(a = ') \x7b\x7d \x7d" =
        some ["function go(a = ') \x7b\n\x7d"] ∧
      ¬ check "function go(a = ') \x7b\n\x7d" = .ok () := by
  decide +kernel

end Compiler

end SingleFile
