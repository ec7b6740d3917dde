import SingleFile.Text.Blank
import SingleFile.Text.Word

/-!
# Identifiers and parameters

A function or binding name is an identifier: an ASCII letter, low line or
dollar sign, then word characters and dollar signs, and no reserved word.  One
line feed may follow it.  A parameter is an identifier that may be preceded by
three dots and followed by a default value.

Main results:

- `mem_splitParameters`: a listed parameter is the trimmed form of a piece
  between two commas, and not empty.
-/

namespace SingleFile.Script

/-! ## Identifiers -/

/-- The words that name nothing. -/
def reservedWords : List String :=
  ["break", "case", "catch", "class", "const", "continue", "debugger", "default", "delete",
    "do", "else", "export", "extends", "false", "finally", "for", "function", "if", "import",
    "in", "instanceof", "new", "null", "return", "super", "switch", "this", "throw", "true",
    "try", "typeof", "var", "void", "while", "with", "yield", "let", "static", "enum", "await"]

/-- A character that an identifier may begin with. -/
def isIdentifierStart (c : Char) : Bool :=
  c.isAlpha || c == '_' || c == '$'

/-- A character that may follow in an identifier. -/
def isIdentifierPart (c : Char) : Bool :=
  Text.isWord c || c == '$'

/-- The rest of an identifier, up to a line feed at the very end. -/
def isIdentifierRest : List Char → Bool
  | [] => true
  | ['\n'] => true
  | c :: s => isIdentifierPart c && isIdentifierRest s

/-- The shape of an identifier, reserved words included. -/
def isIdentifierShape : List Char → Bool
  | [] => false
  | c :: s => isIdentifierStart c && isIdentifierRest s

/-- The text may name a function or a binding. -/
def isIdentifier (name : String) : Bool :=
  isIdentifierShape name.toList && !reservedWords.contains name

/-! ## Parameters -/

/-- The text after three leading dots, if there are any. -/
def dropDots : List Char → List Char
  | '.' :: '.' :: '.' :: s => s
  | s => s

/-- The name within a parameter: what stands between the dots and the default
value. -/
def parameterName (parameter : List Char) : List Char :=
  Text.trim ((dropDots (Text.trim parameter)).takeWhile (· != '='))

/-- The text may stand in a parameter list. -/
def isParameter (parameter : String) : Bool :=
  isIdentifier (String.ofList (parameterName parameter.toList))

/-- The parameters of a list, cut at the commas; blank ones are left out. -/
def splitParameters (parameters : String) : List String :=
  (Text.filledPieces ',' parameters.toList).map String.ofList

/-- A listed parameter is the trimmed form of a piece, and not empty. -/
theorem mem_splitParameters {parameters p : String} (h : p ∈ splitParameters parameters) :
    p ≠ "" ∧ ∃ piece ∈ Text.pieces ',' parameters.toList, p.toList = Text.trim piece := by
  simp only [splitParameters, Text.filledPieces, List.mem_map, List.mem_filter] at h
  obtain ⟨cs, ⟨⟨piece, hpiece, rfl⟩, hne⟩, rfl⟩ := h
  refine ⟨?_, piece, hpiece, by simp⟩
  simpa using hne

end SingleFile.Script
