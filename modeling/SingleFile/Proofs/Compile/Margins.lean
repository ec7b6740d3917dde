import SingleFile.Proofs.Compile.Gates
import SingleFile.Proofs.Settings.Validity
import SingleFile.Proofs.Template.Margins

/-!
# Compiling a trimmed template

A template is checked as it is written and kept without the blanks around it.
Neither the check nor the component tells the two forms apart, so the template
that a component keeps compiles to that component again.

Main results:

- Theorem `compileScript_trimmed`: before the boundary, a compile is the same for a
  template and its trimmed form.
- Theorem `template_of_component?`: what template a component keeps.
- Theorem `compile_trimmed`: the blanks around a template have no part in a compile,
  and the kept template compiles to the same result.
-/

namespace SingleFile

/-! ## Trimmed templates in the stages -/

theorem trimmed_trimmed (t : String) : Text.trimmed (Text.trimmed t) = Text.trimmed t := by
  have htrim : Text.trim (Text.trimmed t).toList = Text.trim t.toList := by
    rw [Text.toList_trimmed, Text.trim_trim]
  rw [Text.trimmed, htrim, ← Text.trimmed]

/-- Synthesis does not see blanks around the template. -/
theorem synthesize_trimmed (settings : Settings) (host : Host) (t : String)
    (fragments : Script.Fragments) :
    synthesize settings host (Text.trimmed t) fragments = synthesize settings host t fragments := by
  simp only [synthesize, draft, trimmed_trimmed]

namespace Compiler

theorem synthesis_trimmed (k : Compiler) (t : String) (fragments : Script.Fragments) :
    k.synthesis (Text.trimmed t) fragments = k.synthesis t fragments := by
  simp only [synthesis, synthesize_trimmed]

/-- Before the boundary, a compile is the same for a template and its trimmed
form. -/
theorem compileScript_trimmed {k : Compiler}
    (h : Template.IsSolid k.settings.directivePrefix.toList) (t : String) (script : Value) :
    k.compileScript (.text (Text.trimmed t)) script = k.compileScript (.text t) script := by
  simp only [compileScript, compileAdmitted, Template.textFaults_trimmed h, synthesis_trimmed]

/-! ## The kept template -/

/-- What template a component keeps. -/
theorem template_of_component? {k : Compiler} (hhost : k.host = Host.standard) {t : String}
    {script style : Value} {c : Component}
    (h : (k.compile (.text t) script style).component? = some c) :
    c.template = Text.trimmed t := by
  obtain ⟨_, _, htext, rfl⟩ := plan_of_component? hhost (.inl h)
  obtain rfl := Value.text.inj htext
  rfl

/-! ## The law -/

/-- Under valid settings a template has the faults of its trimmed form and compiles
as that does; and the template of a component that the standard host made compiles
to the same result again, with the same component and the same warnings. -/
theorem compile_trimmed {k : Compiler} (hs : k.settings.Valid) (t : String)
    (script style : Value) :
    Template.faults k.settings (.text (Text.trimmed t)) = Template.faults k.settings (.text t) ∧
    k.compile (.text (Text.trimmed t)) script style = k.compile (.text t) script style ∧
    (k.host = Host.standard → ∀ c, (k.compile (.text t) script style).component? = some c →
      c.template = Text.trimmed t ∧
        k.compile (.text c.template) script style = k.compile (.text t) script style) := by
  have hsolid : Template.IsSolid k.settings.directivePrefix.toList := hs.directivePrefix.not_blank
  have hcompile : k.compile (.text (Text.trimmed t)) script style =
      k.compile (.text t) script style := by
    simp only [compile, compileScript_trimmed hsolid]
  refine ⟨Template.textFaults_trimmed hsolid t, hcompile, fun hhost c hc => ?_⟩
  have htemplate := template_of_component? hhost hc
  rw [htemplate]
  exact ⟨rfl, hcompile⟩

/-- A template with blanks around it, of a component with a data function. -/
theorem compile_trimmed_blanks :
    let k : Compiler := {}
    let template := "\n  <p v-else>\x7b\x7b n \x7d\x7d</p>\n"
    let script : Value := .text "data() \x7b return \x7b n: 1 \x7d \x7d"
    let style : Value := .text "p \x7b\x7d"
    k.settings.Valid ∧ k.host = Host.standard ∧
    ∃ c, (k.compile (.text template) script style).component? = some c ∧
      c.template = "<p v-else>\x7b\x7b n \x7d\x7d</p>" ∧ c.data.isSome = true ∧
      k.compile (.text c.template) script style = k.compile (.text template) script style := by
  intro k template script style
  have hmade : (k.compile (.text template) script style).component?.map
      (fun c => (c.template, c.data.isSome)) =
        some ("<p v-else>\x7b\x7b n \x7d\x7d</p>", true) := by
    decide +kernel
  obtain ⟨c, hc, hparts⟩ := Option.map_eq_some_iff.mp hmade
  obtain ⟨htemplate, hdata⟩ := Prod.mk.inj hparts
  have hlaw := (compile_trimmed (k := k) Settings.valid_first template script style).2.2 rfl c hc
  exact ⟨Settings.valid_first, rfl, c, hc, htemplate, hdata, hlaw.2⟩

end Compiler

end SingleFile
