import SingleFile.Compile.Basic

/-!
# Stages of a compile

A compile of a template and a script passes three stages: the template is
checked, the script is read for fragments, and the component is synthesised.
This file says what each stage can hand on and how a compile ends at each of
them, so that later theorems need not open the compiler again.

Main results:

- Theorem `compileScript_cases`: the four ways in which a compile ends before
  its boundary.
- Theorem `warnings_of_fragmentsAndWarnings`: reading a script warns at most
  once, and then about the script.
-/

namespace SingleFile

namespace Compiler

/-! ## Admitted templates -/

/-- The value is a text and passes the check of templates. -/
def Admits (k : Compiler) (template : Value) (text : String) : Prop :=
  template = .text text ∧ Template.textFaults k.settings text = []

/-- A template is either admitted or has a first fault. -/
theorem admits_or_rejected (k : Compiler) (template : Value) :
    (∃ text, k.Admits template text) ∨
      ∃ fault faults, Template.faults k.settings template = fault :: faults := by
  cases hfaults : Template.faults k.settings template with
  | cons fault faults => exact .inr ⟨fault, faults, rfl⟩
  | nil =>
      left
      cases template with
      | text t => exact ⟨t, rfl, hfaults⟩
      | _ => simp [Template.faults] at hfaults

/-! ## Reading the script -/

/-- The text warns that a script was not read as it stands. -/
def IsScriptWarning (w : String) : Prop :=
  ∃ reason, w = "Script parsing warning: " ++ reason

theorem isScriptWarning_extractionWarning (f : Failure) :
    IsScriptWarning (extractionWarning f) :=
  ⟨f.text, rfl⟩

theorem isScriptWarning_unrecognizedWarning : IsScriptWarning unrecognizedWarning :=
  ⟨"no setup(), data() or methods block recognized", by decide⟩

/-- The notice about styles is no warning about a script. -/
theorem not_isScriptWarning_styleNotice : ¬ IsScriptWarning styleNotice := by
  rintro ⟨reason, h⟩
  have hhead := congrArg (fun s => s.toList.head?) h
  simp [styleNotice, String.toList_append] at hhead

/-- Reading a script warns at most once, and then about the script. -/
theorem warnings_of_fragmentsAndWarnings {k : Compiler} {script : Value}
    {fragments : Script.Fragments} {warnings : List String}
    (h : k.fragmentsAndWarnings script = .ok (fragments, warnings)) :
    warnings = [] ∨ ∃ w, IsScriptWarning w ∧ warnings = [w] := by
  unfold fragmentsAndWarnings at h
  split at h
  · rename_i f _
    split at h
    · cases h
      exact .inr ⟨_, isScriptWarning_extractionWarning f, rfl⟩
    · cases h
  · split at h
    · cases h
      exact .inr ⟨_, isScriptWarning_unrecognizedWarning, rfl⟩
    · cases h
      exact .inl rfl

/-- Reading a script raises exactly the failures of extraction that are not of
its own kind. -/
theorem fragmentsAndWarnings_eq_error_iff (k : Compiler) (script : Value) (f : Failure) :
    k.fragmentsAndWarnings script = .error f ↔
      k.extraction script = .error f ∧ f.kind ≠ .extraction := by
  unfold fragmentsAndWarnings
  cases k.extraction script with
  | ok fragments =>
      simp only [reduceCtorEq, false_and, iff_false]
      split <;> simp
  | error g =>
      simp only [Except.error.injEq]
      by_cases hg : g.kind = .extraction
      · simp only [hg, if_true, reduceCtorEq, false_iff]
        rintro ⟨rfl, hkind⟩
        exact hkind hg
      · simp only [hg, if_false, Except.error.injEq]
        constructor
        · rintro rfl
          exact ⟨rfl, hg⟩
        · exact And.left

/-! ## Ends of a compile -/

/-- A failure that neither the reading of the script nor the synthesis turns
into a warning or an error of its own. -/
inductive Raises (k : Compiler) (template script : Value) (f : Failure) : Prop where
  /-- Extraction fails in another way than its own. -/
  | ofExtraction {text : String} (admitted : k.Admits template text)
      (failed : k.extraction (presentedScript script) = .error f)
      (kind : f.kind ≠ .extraction)
  /-- The synthesis fails in another way than its own. -/
  | ofSynthesis {text : String} {fragments : Script.Fragments} {warnings : List String}
      (admitted : k.Admits template text)
      (read : k.fragmentsAndWarnings (presentedScript script) = .ok (fragments, warnings))
      (failed : k.synthesis text fragments = .error f)
      (kind : f.kind ≠ .synthesis)

/-- The first fault of a template is the result. -/
theorem compileScript_of_rejected {k : Compiler} {template : Value} {fault : Template.Fault}
    {faults : List Template.Fault} (h : Template.faults k.settings template = fault :: faults)
    (script : Value) :
    k.compileScript template script = .ok (.failure fault.message) := by
  cases template with
  | text t =>
      have ht : Template.textFaults k.settings t = fault :: faults := h
      simp [compileScript, ht]
  | _ =>
      obtain ⟨rfl, _⟩ := List.cons.inj h
      rfl

/-- An admitted template goes on to the stages of the script. -/
theorem compileScript_of_admits {k : Compiler} {template : Value} {text : String}
    (h : k.Admits template text) (script : Value) :
    k.compileScript template script = k.compileAdmitted text script := by
  obtain ⟨rfl, hfaults⟩ := h
  simp [compileScript, hfaults]

/-- A synthesised component is a success with the warnings of the reading. -/
theorem compileScript_of_made {k : Compiler} {template script : Value} {text : String}
    {fragments : Script.Fragments} {warnings : List String} {c : Component}
    (ha : k.Admits template text)
    (hread : k.fragmentsAndWarnings (presentedScript script) = .ok (fragments, warnings))
    (hmade : k.synthesis text fragments = .ok c) :
    k.compileScript template script = .ok (.success c warnings) := by
  rw [compileScript_of_admits ha]
  simp [compileAdmitted, hread, hmade]

/-- A synthesis that fails in its own way is an error with the warnings of the
reading. -/
theorem compileScript_of_refused {k : Compiler} {template script : Value} {text : String}
    {fragments : Script.Fragments} {warnings : List String} {f : Failure}
    (ha : k.Admits template text)
    (hread : k.fragmentsAndWarnings (presentedScript script) = .ok (fragments, warnings))
    (hfailed : k.synthesis text fragments = .error f) (hkind : f.kind = .synthesis) :
    k.compileScript template script =
      .ok (.failure (labelled "Compilation error" f) warnings) := by
  rw [compileScript_of_admits ha]
  simp [compileAdmitted, hread, hfailed, hkind]

/-- A raised failure is all that the stages return. -/
theorem compileScript_of_raises {k : Compiler} {template script : Value} {f : Failure}
    (h : k.Raises template script f) : k.compileScript template script = .error f := by
  cases h with
  | ofExtraction ha hfailed hkind =>
      have hread := (k.fragmentsAndWarnings_eq_error_iff _ f).mpr ⟨hfailed, hkind⟩
      rw [compileScript_of_admits ha]
      simp [compileAdmitted, hread]
  | ofSynthesis ha hread hfailed hkind =>
      rw [compileScript_of_admits ha]
      simp [compileAdmitted, hread, hfailed, hkind]

/-- The four ways in which a compile ends before its boundary. -/
theorem compileScript_cases (k : Compiler) (template script : Value) :
    (∃ fault faults, Template.faults k.settings template = fault :: faults ∧
      k.compileScript template script = .ok (.failure fault.message)) ∨
    (∃ text fragments warnings c, k.Admits template text ∧
      k.fragmentsAndWarnings (presentedScript script) = .ok (fragments, warnings) ∧
      k.synthesis text fragments = .ok c ∧
      k.compileScript template script = .ok (.success c warnings)) ∨
    (∃ text fragments warnings f, k.Admits template text ∧
      k.fragmentsAndWarnings (presentedScript script) = .ok (fragments, warnings) ∧
      k.synthesis text fragments = .error f ∧ f.kind = .synthesis ∧
      k.compileScript template script =
        .ok (.failure (labelled "Compilation error" f) warnings)) ∨
    (∃ f, k.Raises template script f ∧ k.compileScript template script = .error f) := by
  rcases k.admits_or_rejected template with ⟨text, ha⟩ | ⟨fault, faults, hfaults⟩
  · right
    cases hread : k.fragmentsAndWarnings (presentedScript script) with
    | error f =>
        obtain ⟨hfailed, hkind⟩ := (k.fragmentsAndWarnings_eq_error_iff _ f).mp hread
        have hraises : k.Raises template script f := .ofExtraction ha hfailed hkind
        exact .inr (.inr ⟨f, hraises, compileScript_of_raises hraises⟩)
    | ok read =>
        obtain ⟨fragments, warnings⟩ := read
        cases hmade : k.synthesis text fragments with
        | ok c =>
            exact .inl ⟨text, fragments, warnings, c, ha, rfl, hmade,
              compileScript_of_made ha hread hmade⟩
        | error f =>
            by_cases hkind : f.kind = .synthesis
            · exact .inr (.inl ⟨text, fragments, warnings, f, ha, rfl, hmade, hkind,
                compileScript_of_refused ha hread hmade hkind⟩)
            · have hraises : k.Raises template script f := .ofSynthesis ha hread hmade hkind
              exact .inr (.inr ⟨f, hraises, compileScript_of_raises hraises⟩)
  · exact .inl ⟨fault, faults, hfaults, compileScript_of_rejected hfaults script⟩

end Compiler

end SingleFile
