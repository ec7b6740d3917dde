import SingleFile.Proofs.Component.Rendering
import SingleFile.Proofs.Source.Context

/-!
# Bodies in their wrapper

A function is rendered around its body.  An accepted body stays what it is there: it
can neither close the braces around it nor take in the lines that follow it, so that
the rendered function is judged as if it had no body.

Main results:

- Theorem `check_toSource_iff`: an accepted body does not decide whether the rendered
  function is accepted.
- Theorem `check_in_context`: an accepted text means nothing to the text around it.
-/

namespace SingleFile

open Script.Source

namespace ScriptFunction

/-- The line of the body, if there is one. -/
def bodyLines (f : ScriptFunction) : List (List Char) :=
  if Text.trimmed f.body = "" then [] else [Text.trim f.body.toList]

/-- The lines between the body and the closing brace. -/
def returnLines (f : ScriptFunction) : List (List Char) :=
  if f.kind = .setup then ["return \x7b\x7d;".toList] else []

/-- What follows the body. -/
def ending (f : ScriptFunction) : List Char :=
  lines f.returnLines ++ ['}']

/-- The source of a function is its header's line, its body's lines and its ending. -/
theorem toList_toSource_eq_ending (f : ScriptFunction) :
    f.toSource.toList =
      (f.headerLine.toList ++ ['\n']) ++ (lines f.bodyLines ++ f.ending) := by
  have hbody : (if Text.trimmed f.body = "" then [] else [Text.trimmed f.body]).map
      String.toList = f.bodyLines := by
    unfold bodyLines
    split
    · rfl
    · rw [List.map_singleton, Text.toList_trimmed]
  have hreturn : (if f.kind = .setup then ["return \x7b\x7d;"] else []).map String.toList =
      f.returnLines := by
    unfold returnLines
    split <;> rfl
  have hinner : f.innerLines.map String.toList = f.bodyLines ++ f.returnLines := by
    rw [innerLines, List.map_append, hbody, hreturn]
  rw [toList_toSource, hinner, wrapped, ← toList_headerLine, lines, List.flatMap_append]
  simp only [ending, lines, List.append_assoc, List.cons_append, List.nil_append]

/-- The line of an accepted body is neutral. -/
theorem exists_isNeutral_bodyLines {f : ScriptFunction} (h : check f.body = .ok ()) :
    ∃ ts, written ts = lines f.bodyLines ∧ IsNeutral ts := by
  unfold bodyLines
  split
  · exact ⟨[], rfl, isNeutral_nil⟩
  · obtain ⟨ts, hts, hneutral⟩ := exists_isNeutral (checkChars_trim h)
    exact ⟨ts, by simpa [lines] using hts, hneutral⟩

/-- An accepted body does not decide whether the rendered function is accepted: without
it, the function is as good. -/
theorem check_toSource_iff {f : ScriptFunction} (hheader : MayGoOn f.headerLine.toList)
    (hbody : check f.body = .ok ()) :
    check f.toSource = .ok () ↔ check { f with body := "" }.toSource = .ok () := by
  obtain ⟨k, hfront, hrest⟩ := hheader.exists_frame f.ending
  obtain ⟨ts, hts, hneutral⟩ := exists_isNeutral_bodyLines hbody
  have hsource : f.toSource.toList = k.around ts := by
    rw [toList_toSource_eq_ending, Frame.around, hfront, hts, hrest]
  have hempty : { f with body := "" }.toSource.toList = k.around [] := by
    rw [toList_toSource_eq_ending, Frame.around, hfront, hrest]
    rfl
  simp only [check, hsource, hempty]
  exact k.checkChars_around_iff hneutral isNeutral_nil

end ScriptFunction

/-- An accepted text on lines of its own means no more than a blank line, between a text
that ends in code and any other text.  The whole is accepted with the one when it is
with the other.  Otherwise it has the same fault, at the same piece: one of the text
before, with the same line, or one of the text behind, with a line that is larger by
the line feeds of the text between.  Behind the text the check stands in code again,
with exactly the brackets open that were open before it; so a function that has the
text for its body is rendered as well as it is without a body. -/
theorem check_in_context {p b q : String}
    (hp : check p = .ok () ∨ ∃ c line, check p = .error ⟨.missingCloser c, line⟩)
    (hb : check b = .ok ()) :
    (check (p ++ "\n" ++ b ++ "\n" ++ q) = .ok () ↔ check (p ++ "\n\n" ++ q) = .ok ()) ∧
    (∀ e e', check (p ++ "\n" ++ b ++ "\n" ++ q) = .error e →
      check (p ++ "\n\n" ++ q) = .error e' → e.fault = e'.fault ∧
        ∀ before, FaultAt (p ++ "\n\n" ++ q).toList e'.fault before →
          (before.length < p.toList.length ∧ e.line = e'.line ∧
            FaultAt (p ++ "\n" ++ b ++ "\n" ++ q).toList e.fault before) ∨
          ∃ later, before = (p ++ "\n\n").toList ++ later ∧
            e.line = e'.line + b.toList.count '\n' ∧
            FaultAt (p ++ "\n" ++ b ++ "\n" ++ q).toList e.fault
              ((p ++ "\n" ++ b ++ "\n").toList ++ later)) ∧
    (∃ l opened, run {} (p ++ "\n").toList = .ok ⟨.code, l, opened⟩ ∧
      run {} (p ++ "\n" ++ b ++ "\n").toList =
        .ok ⟨.code, l + b.toList.count '\n' + 1, opened⟩) ∧
    ∀ f : ScriptFunction, f.headerLine = p → f.body = b →
      (check f.toSource = .ok () ↔ check { f with body := "" }.toSource = .ok ()) := by
  have hp : MayGoOn p.toList := hp
  have htext : ∀ later : List Char, (p ++ "\n" ++ b ++ "\n").toList ++ later =
      between p.toList b.toList later := fun later => by simp [between]
  have hblank : ∀ later : List Char, (p ++ "\n\n").toList ++ later =
      between p.toList [] later := fun later => by simp [between]
  have hrest : ∀ x : String, (x ++ q).toList = x.toList ++ q.toList := fun _ =>
    String.toList_append
  have hline : (p ++ "\n").toList = p.toList ++ ['\n'] := by simp
  refine ⟨?_, ?_, ?_, ?_⟩
  · simp only [check, hrest, htext, hblank]
    exact hp.check_between_iff hb q.toList
  · intro e e' he he'
    simp only [check, hrest, htext, hblank] at he he' ⊢
    exact hp.faultAt_between hb he he'
  · have hwhole := htext []
    rw [List.append_nil] at hwhole
    rw [hline, hwhole]
    exact hp.run_between hb
  · rintro f rfl rfl
    exact ScriptFunction.check_toSource_iff hp hb

/-- A body that ends in a comment, in a call that is closed in the wrong way. -/
theorem check_in_context_two_lines :
    check "f(\x7b" = .error ⟨.missingCloser .curly, 1⟩ ∧ check "a[1];\n// b" = .ok () ∧
      check ("f(\x7b" ++ "\n" ++ "a[1];\n// b" ++ "\n" ++ ")") = .error ⟨.unexpected .round, 4⟩ ∧
      check ("f(\x7b" ++ "\n\n" ++ ")") = .error ⟨.unexpected .round, 3⟩ ∧
      ∀ before, FaultAt ("f(\x7b" ++ "\n\n" ++ ")").toList (.unexpected .round) before →
        ∃ later, before = ("f(\x7b" ++ "\n\n").toList ++ later := by
  have hp : check "f(\x7b" = .error ⟨.missingCloser .curly, 1⟩ := rfl
  have hb : check "a[1];\n// b" = .ok () := rfl
  have he : check ("f(\x7b" ++ "\n" ++ "a[1];\n// b" ++ "\n" ++ ")") =
      .error ⟨.unexpected .round, 4⟩ := rfl
  have he' : check ("f(\x7b" ++ "\n\n" ++ ")") = .error ⟨.unexpected .round, 3⟩ := rfl
  refine ⟨hp, hb, he, he', fun before hbefore => ?_⟩
  have hfault := ((check_in_context (.inr ⟨_, _, hp⟩) hb).2.1 _ _ he he').2 before hbefore
  rcases hfault with ⟨_, hline, _⟩ | ⟨later, hlater, _⟩
  · cases hline
  · exact ⟨later, hlater⟩

end SingleFile
