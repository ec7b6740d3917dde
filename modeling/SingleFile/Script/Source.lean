/-!
# Well-formed source

Script text is never parsed, only checked for pieces that were left open: every
bracket has to be closed by its partner, and every string, template literal and
comment has to end.  The check reads one character at a time and keeps a small
state: where in the text it stands, the current line, and the brackets that are
open, innermost first.

Regular expression literals are not known; their brackets count.

Main results:

- `run_append`: checking a text in two parts is checking it as one.
-/

namespace SingleFile.Script.Source

/-! ## Brackets, quotes and faults -/

/-- The three pairs of brackets. -/
inductive Bracket where
  | round
  | square
  | curly
deriving DecidableEq, Repr

/-- The opening half of a pair. -/
def Bracket.opener : Bracket → Char
  | .round => '('
  | .square => '['
  | .curly => '{'

/-- The closing half of a pair. -/
def Bracket.closer : Bracket → Char
  | .round => ')'
  | .square => ']'
  | .curly => '}'

/-- The pair that a character opens. -/
def Bracket.ofOpener? : Char → Option Bracket
  | '(' => some .round
  | '[' => some .square
  | '{' => some .curly
  | _ => none

/-- The pair that a character closes. -/
def Bracket.ofCloser? : Char → Option Bracket
  | ')' => some .round
  | ']' => some .square
  | '}' => some .curly
  | _ => none

@[simp]
theorem Bracket.ofOpener?_opener (b : Bracket) : ofOpener? b.opener = some b := by
  cases b <;> rfl

@[simp]
theorem Bracket.ofCloser?_closer (b : Bracket) : ofCloser? b.closer = some b := by
  cases b <;> rfl

/-- The three quotes that a literal is written between. -/
inductive Quote where
  | single
  | double
  | backtick
deriving DecidableEq, Repr

/-- The character of a quote. -/
def Quote.char : Quote → Char
  | .single => '\''
  | .double => '"'
  | .backtick => '`'

/-- The quote that a character is. -/
def Quote.ofChar? : Char → Option Quote
  | '\'' => some .single
  | '"' => some .double
  | '`' => some .backtick
  | _ => none

@[simp]
theorem Quote.ofChar?_char (q : Quote) : ofChar? q.char = some q := by
  cases q <;> rfl

/-- What can be wrong with a text. -/
inductive Fault where
  /-- A string ends at the end of its line or of the text. -/
  | unterminatedString
  /-- A template literal is open at the end of the text. -/
  | unterminatedTemplate
  /-- A block comment is open at the end of the text. -/
  | unterminatedComment
  /-- A closing bracket whose partner is not the innermost open bracket. -/
  | unexpected (closed : Bracket)
  /-- An opening bracket that is open at the end of the text. -/
  | missingCloser (opened : Bracket)
deriving DecidableEq, Repr

/-- A fault and the line, counted from one, on which its piece begins. -/
structure Error where
  fault : Fault
  line : Nat
deriving DecidableEq, Repr

/-- The words for a fault. -/
def Fault.message : Fault → String
  | .unterminatedString => "Unterminated string literal"
  | .unterminatedTemplate => "Unterminated template literal"
  | .unterminatedComment => "Unterminated comment"
  | .unexpected b => "Unexpected token '" ++ String.singleton b.closer ++ "'"
  | .missingCloser b =>
      "Missing closing '" ++ String.singleton b.closer ++ "' for '" ++
        String.singleton b.opener ++ "'"

/-- The words for a fault and its line. -/
def Error.message (e : Error) : String :=
  e.fault.message ++ " (line " ++ toString e.line ++ ")"

/-- The fault of a literal that does not end. -/
def Quote.unterminated : Quote → Fault
  | .backtick => .unterminatedTemplate
  | _ => .unterminatedString

/-! ## The reading state -/

/-- Where in a text the next character stands. -/
inductive Mode where
  /-- In code. -/
  | code
  /-- In code, after a slash that may begin a comment. -/
  | slash
  /-- In a literal that began on the given line. -/
  | literal (quote : Quote) (line : Nat)
  /-- In such a literal, after a backslash. -/
  | escape (quote : Quote) (line : Nat)
  /-- In a comment that ends with its line. -/
  | lineComment
  /-- In a block comment that began on the given line. -/
  | comment (line : Nat)
  /-- In such a comment, after a star. -/
  | commentStar (line : Nat)
deriving DecidableEq, Repr

/-- The state between two characters: the mode, the current line, and the open
brackets with their lines, innermost first. -/
structure State where
  mode : Mode := .code
  line : Nat := 1
  opened : List (Bracket × Nat) := []
deriving DecidableEq, Repr

/-- The line after a character. -/
def lineAfter (line : Nat) (c : Char) : Nat :=
  if c = '\n' then line + 1 else line

/-- Closes a bracket; its partner has to be the innermost open one. -/
def State.close (s : State) (b : Bracket) : Except Error State :=
  match s.opened with
  | [] => .error ⟨.unexpected b, s.line⟩
  | (b', _) :: rest =>
      if b' = b then .ok { s with mode := .code, opened := rest }
      else .error ⟨.unexpected b, s.line⟩

/-- Reads a character as code. -/
def State.readCode (s : State) (c : Char) : Except Error State :=
  match Quote.ofChar? c, Bracket.ofOpener? c, Bracket.ofCloser? c with
  | some q, _, _ => .ok { s with mode := .literal q s.line }
  | none, some b, _ => .ok { s with mode := .code, opened := (b, s.line) :: s.opened }
  | none, none, some b => s.close b
  | none, none, none =>
      .ok { s with mode := if c = '/' then .slash else .code, line := lineAfter s.line c }

/-- Reads one character. -/
def State.step (s : State) (c : Char) : Except Error State :=
  match s.mode with
  | .code => s.readCode c
  | .slash =>
      if c = '/' then .ok { s with mode := .lineComment }
      else if c = '*' then .ok { s with mode := .comment s.line }
      else s.readCode c
  | .literal q line =>
      if c = '\\' then .ok { s with mode := .escape q line }
      else if c = q.char then .ok { s with mode := .code }
      else if c = '\n' ∧ q ≠ .backtick then .error ⟨q.unterminated, line⟩
      else .ok { s with line := lineAfter s.line c }
  | .escape q line => .ok { s with mode := .literal q line, line := lineAfter s.line c }
  | .lineComment =>
      .ok { s with
        mode := if c = '\n' then .code else .lineComment
        line := lineAfter s.line c }
  | .comment line =>
      .ok { s with
        mode := if c = '*' then .commentStar line else .comment line
        line := lineAfter s.line c }
  | .commentStar line =>
      .ok { s with
        mode := if c = '/' then .code else if c = '*' then .commentStar line else .comment line
        line := lineAfter s.line c }

/-- Reads a text from a state; the first fault ends it. -/
def run : State → List Char → Except Error State
  | s, [] => .ok s
  | s, c :: cs =>
      match s.step c with
      | .ok s' => run s' cs
      | .error e => .error e

/-- What is left open when the text ends in a state. -/
def State.finish (s : State) : Except Error Unit :=
  match s.mode with
  | .literal q line | .escape q line => .error ⟨q.unterminated, line⟩
  | .comment line | .commentStar line => .error ⟨.unterminatedComment, line⟩
  | .code | .slash | .lineComment =>
      match s.opened with
      | [] => .ok ()
      | (b, line) :: _ => .error ⟨.missingCloser b, line⟩

/-- The check of a text: nothing, or its first fault. -/
def checkChars (source : List Char) : Except Error Unit :=
  match run {} source with
  | .ok s => s.finish
  | .error e => .error e

/-- `checkChars` on strings. -/
def check (source : String) : Except Error Unit :=
  checkChars source.toList

/-! ## Composition -/

@[simp]
theorem run_nil (s : State) : run s [] = .ok s :=
  rfl

theorem run_cons (s : State) (c : Char) (cs : List Char) :
    run s (c :: cs) =
      match s.step c with
      | .ok s' => run s' cs
      | .error e => .error e :=
  rfl

/-- Checking a text in two parts is checking it as one. -/
theorem run_append (s : State) (p q : List Char) :
    run s (p ++ q) =
      match run s p with
      | .ok s' => run s' q
      | .error e => .error e := by
  induction p generalizing s with
  | nil => rfl
  | cons c p ih =>
      simp only [List.cons_append, run_cons]
      cases s.step c with
      | ok s' => exact ih s'
      | error e => rfl

/-- A fault in the first part of a text is the fault of the text. -/
theorem run_append_of_error {s : State} {p : List Char} {e : Error}
    (h : run s p = .error e) (q : List Char) : run s (p ++ q) = .error e := by
  rw [run_append, h]

end SingleFile.Script.Source
