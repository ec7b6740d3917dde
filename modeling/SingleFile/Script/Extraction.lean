import SingleFile.Failure
import SingleFile.Script.Fragments
import SingleFile.Value.Basic

/-!
# Extraction

Takes a script of any kind to its fragments.  A blank script has none; a value
that is no text cannot be extracted from.  A recogniser that fails makes the
extraction fail with its text.

Main results:

- `extract_blank`: a blank script has no fragments, whatever the recogniser.
-/

namespace SingleFile.Script

/-- The fragments of a script; the recogniser may be set to fail. -/
def extract (recognizer : Option Failure) : Value → Except Failure Fragments
  | .text script =>
      if Text.isBlankString script then .ok {}
      else
        match recognizer with
        | some f => .error ⟨.extraction, f.textOrName⟩
        | none => .ok (Fragments.ofScript script.toList)
  | v => .error ⟨.extraction, "expected script text, got " ++ v.kindName⟩

/-- A blank script has no fragments, whatever the recogniser does. -/
theorem extract_blank (recognizer : Option Failure) {script : String}
    (h : Text.isBlankString script = true) : extract recognizer (.text script) = .ok {} := by
  simp [extract, h]

end SingleFile.Script
