import SingleFile.Proofs.Source.Nesting

/-!
# Tokens of source

Source splits, from left to right, into literals, comments and single
characters.  What the source check asks of a text is said of this split: the
text has to come to an end with its last token, and the brackets that stand
outside literals and comments have to be well nested.

Main results:

- `Splits`: the text splits completely into the tokens.
- `brackets`: the brackets that stand outside literals and comments.
-/

namespace SingleFile.Script.Source

/-! ## Tokens -/

/-- A piece of source. -/
inductive Token where
  /-- A literal, given by what stands between its quotes. -/
  | literal (quote : Quote) (interior : List Char)
  /-- A comment that ends with its line, given by what follows the slashes. -/
  | lineComment (text : List Char)
  /-- A comment between a slash with a star and a star with a slash. -/
  | blockComment (text : List Char)
  /-- Any other character. -/
  | single (char : Char)
deriving DecidableEq, Repr

/-- What may stand between the quotes of a literal: escaped characters, and
others that are neither the quote nor a backslash.  Only a template literal
holds line feeds that are not escaped. -/
inductive Interior (q : Quote) : List Char → Prop where
  | nil : Interior q []
  | escaped (c : Char) {w : List Char} (rest : Interior q w) : Interior q ('\\' :: c :: w)
  | plain {c : Char} {w : List Char} (backslash : c ≠ '\\') (quote : c ≠ q.char)
      (feed : c = '\n' → q = .backtick) (rest : Interior q w) : Interior q (c :: w)

/-- A comment begins the text. -/
def BeginsComment (s : List Char) : Prop :=
  ['/', '/'] <+: s ∨ ['/', '*'] <+: s

/-- The text of a block comment ends where the first star with a slash follows:
none begins before. -/
def EndsFirst (w : List Char) : Prop :=
  ¬ ['*', '/'] <:+: w ++ ['*']

/-- The text splits completely, from left to right, into the tokens. -/
inductive Splits : List Char → List Token → Prop where
  | nil : Splits [] []
  | literal {q : Quote} {w s : List Char} {ts : List Token} (interior : Interior q w)
      (rest : Splits s ts) : Splits (q.char :: (w ++ q.char :: s)) (.literal q w :: ts)
  /-- A line comment reaches through the next line feed. -/
  | lineComment {w s : List Char} {ts : List Token} (line : '\n' ∉ w) (rest : Splits s ts) :
      Splits ('/' :: '/' :: (w ++ '\n' :: s)) (.lineComment w :: ts)
  /-- On the last line it reaches to the end of the text. -/
  | lastComment {w : List Char} (line : '\n' ∉ w) : Splits ('/' :: '/' :: w) [.lineComment w]
  | blockComment {w s : List Char} {ts : List Token} (first : EndsFirst w) (rest : Splits s ts) :
      Splits ('/' :: '*' :: (w ++ '*' :: '/' :: s)) (.blockComment w :: ts)
  | single {c : Char} {s : List Char} {ts : List Token} (quote : Quote.ofChar? c = none)
      (comment : ¬ BeginsComment (c :: s)) (rest : Splits s ts) :
      Splits (c :: s) (.single c :: ts)

/-! ## Brackets -/

/-- The character is half of a pair. -/
def isBracket (c : Char) : Bool :=
  (Bracket.ofOpener? c).isSome || (Bracket.ofCloser? c).isSome

/-- The bracket that a token is. -/
def Token.bracket? : Token → Option Char
  | .single c => if isBracket c then some c else none
  | _ => none

/-- The brackets among tokens: those that stand outside literals and comments. -/
def brackets (ts : List Token) : List Char :=
  ts.filterMap Token.bracket?

@[simp]
theorem brackets_nil : brackets [] = [] :=
  rfl

@[simp]
theorem brackets_opener (b : Bracket) (ts : List Token) :
    brackets (.single b.opener :: ts) = b.opener :: brackets ts := by
  cases b <;> rfl

@[simp]
theorem brackets_closer (b : Bracket) (ts : List Token) :
    brackets (.single b.closer :: ts) = b.closer :: brackets ts := by
  cases b <;> rfl

@[simp]
theorem brackets_slash (ts : List Token) : brackets (.single '/' :: ts) = brackets ts :=
  rfl

theorem brackets_plain {c : Char} (h : IsPlain c) (ts : List Token) :
    brackets (.single c :: ts) = brackets ts := by
  have hbracket : isBracket c = false := by
    simp [isBracket, h.ofOpener?_eq_none, h.ofCloser?_eq_none]
  simp [brackets, Token.bracket?, hbracket]

/-! ## Comments -/

theorem beginsComment_slash_iff {s : List Char} :
    BeginsComment ('/' :: s) ↔ ∃ c r, s = c :: r ∧ (c = '/' ∨ c = '*') := by
  cases s with
  | nil => simp [BeginsComment]
  | cons c s => simp [BeginsComment, eq_comm]

theorem not_beginsComment_of_ne {c : Char} (h : c ≠ '/') (s : List Char) :
    ¬ BeginsComment (c :: s) := by
  simp [BeginsComment, Ne.symm h]

theorem endsFirst_nil : EndsFirst [] := by
  simp [EndsFirst, List.infix_cons_iff]

/-- A character of a comment that is no star does not change where it ends. -/
theorem endsFirst_cons_iff_of_ne {c : Char} (h : c ≠ '*') {w : List Char} :
    EndsFirst (c :: w) ↔ EndsFirst w := by
  simp [EndsFirst, List.infix_cons_iff, Ne.symm h]

/-- A star ends a comment when a slash follows. -/
theorem endsFirst_star_iff {w : List Char} :
    EndsFirst ('*' :: w) ↔ EndsFirst w ∧ ∀ r, w ≠ '/' :: r := by
  have hslash : ['/'] <+: w ++ ['*'] ↔ ∃ r, w = '/' :: r := by
    cases w with
    | nil => simp
    | cons c w => simp [eq_comm]
  have hstar : EndsFirst ('*' :: w) ↔ ¬ ['/'] <+: w ++ ['*'] ∧ EndsFirst w := by
    simp [EndsFirst, List.infix_cons_iff]
  rw [hstar, hslash, not_exists, and_comm]

end SingleFile.Script.Source
