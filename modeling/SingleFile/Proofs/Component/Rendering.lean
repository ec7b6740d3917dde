import SingleFile.Proofs.Component.Plan
import SingleFile.Proofs.Script.Parameters
import SingleFile.Proofs.Source.Wrapper

/-!
# Rendered functions

A function is rendered as a header, its trimmed body, and a closing brace.  The
body of an admitted function is accepted source; of its parameters no more than
the names are known, so a default value may be anything.  Whether the rendered
function is as good as its parts is therefore decided by the parameter list.

Main results:

- Theorem `toList_toSource`: the source of a function as a wrapped text.
- Theorem `rendersSafely_iff`: an admitted function is rendered safely exactly when
  its parameter list is accepted between parentheses.
- Theorem `check_parametersSource_of_check_toSource`: what else its source may be
  accepted for.
-/

namespace SingleFile

namespace ScriptFunction

open Script.Source (check checkChars run IsPlain IntactHeader EndsInCode wrapped lines)

/-! ## The parts of the source -/

/-- The parameters as they are listed. -/
def parameterList (f : ScriptFunction) : String :=
  ", ".intercalate f.parameters

/-- The parameters between their parentheses. -/
def parametersSource (f : ScriptFunction) : String :=
  "(" ++ f.parameterList ++ ")"

/-- The line before the body. -/
def headerLine (f : ScriptFunction) : String :=
  "function " ++ f.name ++ "(" ++ f.parameterList ++ ") \x7b"

/-- The lines between the header and the closing brace. -/
def innerLines (f : ScriptFunction) : List String :=
  (if Text.trimmed f.body = "" then [] else [Text.trimmed f.body]) ++
    (if f.kind = .setup then ["return \x7b\x7d;"] else [])

/-- What stands before the parameters. -/
def front (f : ScriptFunction) : List Char :=
  "function ".toList ++ f.name.toList

/-- The lines of a function: its header, those inside, and a closing brace. -/
theorem sourceLines_eq (f : ScriptFunction) :
    f.sourceLines = f.headerLine :: (f.innerLines ++ ["\x7d"]) := by
  simp only [sourceLines, headerLine, innerLines, parameterList, List.cons_append,
    List.nil_append, List.append_assoc]

theorem toList_headerLine (f : ScriptFunction) :
    f.headerLine.toList = Script.Source.header f.front f.parameterList.toList := by
  unfold headerLine Script.Source.header front
  simp only [String.toList_append, List.append_assoc]
  rfl

theorem toList_parametersSource (f : ScriptFunction) :
    f.parametersSource.toList = '(' :: (f.parameterList.toList ++ [')']) := by
  unfold parametersSource
  simp only [String.toList_append, List.append_assoc]
  rfl

theorem intercalate_newline (first last : List Char) (ls : List (List Char)) :
    ['\n'].intercalate (first :: (ls ++ [last])) = first ++ '\n' :: (lines ls ++ last) := by
  induction ls generalizing first with
  | nil => simp [lines]
  | cons l ls ih =>
      rw [List.cons_append, List.intercalate_cons_cons, ih]
      simp [lines]

/-- The source of a function is a wrapped text. -/
theorem toList_toSource (f : ScriptFunction) :
    f.toSource.toList =
      wrapped f.front f.parameterList.toList (f.innerLines.map String.toList) := by
  have hfeed : "\n".toList = ['\n'] := rfl
  have hbrace : "\x7d".toList = ['}'] := rfl
  rw [toSource, String.toList_intercalate, sourceLines_eq, hfeed, List.map_cons, List.map_append,
    List.map_cons, List.map_nil, hbrace, intercalate_newline, toList_headerLine]
  rfl

/-! ## Admitted functions -/

/-- What stands before the parameters of an admitted function means nothing to the scanner.
-/
theorem isPlain_front {f : ScriptFunction} (hf : f.Admitted) : ∀ c ∈ f.front, IsPlain c := by
  have hword : "function ".toList.all (fun c => Text.isWord c || Text.isBlank c) = true := by
    decide
  intro c hc
  rcases List.mem_append.mp hc with hc | hc
  · rcases Bool.or_eq_true_iff.mp (List.all_eq_true.mp hword c hc) with hc | hc
    · exact Script.Source.isPlain_of_isWord hc
    · exact Script.Source.isPlain_of_isBlank hc
  · exact Script.isPlain_of_isIdentifier hf.2.1 c hc

/-- Every line inside an admitted function is accepted. -/
theorem checkChars_innerLines {f : ScriptFunction} (hf : f.Admitted) :
    ∀ l ∈ f.innerLines.map String.toList, checkChars l = .ok () := by
  have hreturn : check "return \x7b\x7d;" = .ok () := by decide
  have hbody : checkChars (Text.trim f.body.toList) = .ok () := Script.Source.checkChars_trim hf.1
  intro l hl
  obtain ⟨line, hline, rfl⟩ := List.mem_map.mp hl
  rcases List.mem_append.mp hline with hline | hline
  · split at hline
    · cases hline
    · rw [List.mem_singleton.mp hline, Text.toList_trimmed]
      exact hbody
  · split at hline
    · rw [List.mem_singleton.mp hline]
      exact hreturn
    · cases hline

/-! ## Safe rendering -/

/-- The header ends in code with its own brace open and nothing else, so that
body and closing brace are read as what they are. -/
def HeaderIntact (f : ScriptFunction) : Prop :=
  ∃ line at_, run {} f.headerLine.toList = .ok ⟨.code, line, [(.curly, at_)]⟩

/-- The rendered function is accepted, and its header holds what follows it. -/
structure RendersSafely (f : ScriptFunction) : Prop where
  source : check f.toSource = .ok ()
  header : f.HeaderIntact

/-- The header of a function is intact as that of its parts is. -/
theorem headerIntact_iff (f : ScriptFunction) :
    f.HeaderIntact ↔ IntactHeader f.front f.parameterList.toList := by
  rw [HeaderIntact, toList_headerLine, IntactHeader]

/-- A parameter list without a closing bracket is accepted in brackets exactly when it ends
in code. -/
theorem check_parametersSource_iff {f : ScriptFunction} (hp : ')' ∉ f.parameterList.toList) :
    check f.parametersSource = .ok () ↔ EndsInCode f.parameterList.toList := by
  rw [check, toList_parametersSource]
  exact Script.Source.checkChars_enclosed_iff (b := .round) hp

/-- An admitted function is rendered safely exactly when its parameter list is
accepted between parentheses. -/
theorem rendersSafely_iff {f : ScriptFunction} (hf : f.Admitted)
    (hp : ')' ∉ f.parameterList.toList) :
    f.RendersSafely ↔ check f.parametersSource = .ok () := by
  have hheader : f.HeaderIntact ↔ EndsInCode f.parameterList.toList := by
    rw [headerIntact_iff]
    exact Script.Source.intactHeader_iff (isPlain_front hf) hp
  rw [check_parametersSource_iff hp, ← hheader]
  refine ⟨RendersSafely.header, fun h => ⟨?_, h⟩⟩
  rw [check, toList_toSource]
  exact Script.Source.checkChars_wrapped (f.headerIntact_iff.mp h) (checkChars_innerLines hf)

/-- The source of an admitted function whose parameter list is not accepted is
accepted only where the list leaves a template literal or a block comment open. -/
theorem check_parametersSource_of_check_toSource {f : ScriptFunction} (hf : f.Admitted)
    (hp : ')' ∉ f.parameterList.toList) (h : check f.toSource = .ok ()) :
    check f.parametersSource = .ok () ∨
      ∃ line, check f.parametersSource = .error ⟨.unterminatedTemplate, line⟩ ∨
        check f.parametersSource = .error ⟨.unterminatedComment, line⟩ := by
  rw [check, toList_toSource] at h
  rcases Script.Source.endsInCode_or_spansLines (isPlain_front hf) hp (checkChars_innerLines hf) h
    with hcode | ⟨s, hs, hspan⟩
  · exact .inl ((check_parametersSource_iff hp).mpr hcode)
  · right
    rw [check, toList_parametersSource]
    exact Script.Source.checkChars_of_spansLines hs hspan

/-! ## Parameter lists -/

theorem mem_intercalate {c : Char} {separator : List Char} {ls : List (List Char)}
    (h : c ∈ separator.intercalate ls) : c ∈ separator ∨ ∃ l ∈ ls, c ∈ l := by
  induction ls with
  | nil => cases h
  | cons l ls ih =>
      cases ls with
      | nil =>
          rw [List.intercalate_singleton] at h
          exact .inr ⟨l, List.mem_cons_self, h⟩
      | cons m ls =>
          rw [List.intercalate_cons_cons, List.append_assoc] at h
          rcases List.mem_append.mp h with h | h
          · exact .inr ⟨l, List.mem_cons_self, h⟩
          · rcases List.mem_append.mp h with h | h
            · exact .inl h
            · rcases ih h with h | ⟨k, hk, hc⟩
              · exact .inl h
              · exact .inr ⟨k, List.mem_cons_of_mem l hk, hc⟩

/-- A character of a list stands in a parameter or between two of them. -/
theorem mem_parameterList {f : ScriptFunction} {c : Char} (h : c ∈ f.parameterList.toList) :
    (c = ',' ∨ c = ' ') ∨ ∃ p ∈ f.parameters, c ∈ p.toList := by
  rw [parameterList, String.toList_intercalate] at h
  rcases mem_intercalate h with h | ⟨l, hl, hc⟩
  · exact .inl (by simpa using h)
  · obtain ⟨p, hp, rfl⟩ := List.mem_map.mp hl
    exact .inr ⟨p, hp, hc⟩

/-- Plain parameters make a plain list. -/
theorem isPlain_parameterList {f : ScriptFunction}
    (h : ∀ p ∈ f.parameters, ∀ c ∈ p.toList, IsPlain c) :
    ∀ c ∈ f.parameterList.toList, IsPlain c := by
  intro c hc
  rcases mem_parameterList hc with (rfl | rfl) | ⟨p, hp, hmem⟩
  · exact ⟨rfl, rfl, rfl, by decide⟩
  · exact ⟨rfl, rfl, rfl, by decide⟩
  · exact h p hp c hmem

/-- An admitted function with plain parameters is rendered safely. -/
theorem rendersSafely_of_isPlain {f : ScriptFunction} (hf : f.Admitted)
    (h : ∀ p ∈ f.parameters, ∀ c ∈ p.toList, IsPlain c) : f.RendersSafely := by
  have hplain := isPlain_parameterList h
  have hp : ')' ∉ f.parameterList.toList := by
    intro hmem
    cases (hplain ')' hmem).ofCloser?_eq_none
  have hcheck : check f.parametersSource = .ok () :=
    (check_parametersSource_iff hp).mpr (Script.Source.endsInCode_of_plain hplain)
  exact (rendersSafely_iff hf hp).mpr hcheck

end ScriptFunction

end SingleFile
