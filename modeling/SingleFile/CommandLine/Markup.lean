/-!
# Brackets in printed messages

Messages are printed with their brackets as they are.  A backslash right before
an opening bracket is printed only when the bracket opens something of the shape
of a tag: one of the characters that a tag begins with, no further opening
bracket, and a closing one.

Main results:

- `printed_eq_self`: a message without backslashes is printed as it is.
-/

namespace SingleFile.CommandLine

/-- A tag may begin with the character. -/
def isTagStart (c : Char) : Bool :=
  ('a' ≤ c ∧ c ≤ 'z') || c == '#' || c == '/' || c == '@'

/-- What follows an opening bracket has the shape of a tag. -/
def continuesTag : List Char → Bool
  | [] => false
  | c :: s => isTagStart c && (s.dropWhile fun d => d != '[' && d != ']').head? == some ']'

/-- The characters of a message that are printed. -/
def printedChars : List Char → List Char
  | [] => []
  | '\\' :: '[' :: s =>
      if continuesTag s then '\\' :: '[' :: printedChars s else '[' :: printedChars s
  | c :: s => c :: printedChars s

/-- A message as it is printed. -/
def printed (s : String) : String :=
  String.ofList (printedChars s.toList)

/-- A message without backslashes is printed as it is. -/
theorem printed_eq_self {s : String} (h : '\\' ∉ s.toList) : printed s = s := by
  have hs : ∀ cs : List Char, '\\' ∉ cs → printedChars cs = cs := by
    intro cs hcs
    fun_induction printedChars cs <;> simp_all
  rw [printed, hs _ h, String.ofList_toList]

end SingleFile.CommandLine
