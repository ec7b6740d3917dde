import SingleFile.Script.Phrase
import SingleFile.Text.Word

/-!
# Directives

A directive is an attribute whose name begins with a marker such as `v-`.  It
is found as text: the marker may not follow a word character or a hyphen, and
it is followed by an ASCII letter.  Then come the rest of the name, any number
of arguments and modifiers, and possibly an equals sign.

Main results:

- `eq_append_of_directiveAt?`: a directive and its assignment are a prefix of
  the text they were read from.
-/

namespace SingleFile.Template

open SingleFile.Text (isBlank isWord)

/-- An occurrence of a directive: its whole text, the name within it, and the
blanks and equals sign after it. -/
structure Directive where
  text : List Char
  name : List Char
  assignment : Option (List Char)
deriving DecidableEq, Repr

/-- A character of a directive's name after its first letter. -/
def isNameChar (c : Char) : Bool :=
  c.isAlphanum || c == '-'

/-- A character of an argument or modifier. -/
def isSegmentChar (c : Char) : Bool :=
  isWord c || c == '-' || c == '[' || c == ']'

/-- A character that begins an argument or modifier. -/
def isSegmentMark (c : Char) : Bool :=
  c == ':' || c == '.'

/-- The arguments and modifiers that a text begins with; the flag tells whether
one has begun before the text. -/
def segments (inside : Bool) : List Char → List Char
  | [] => []
  | c :: s =>
      if (inside && isSegmentChar c) || (isSegmentMark c && s.head?.any isSegmentChar) then
        c :: segments true s
      else []

/-- The blanks and the equals sign that a text begins with. -/
def assignment? (s : List Char) : Option (List Char) :=
  match s.dropWhile isBlank with
  | '=' :: _ => some (s.takeWhile isBlank ++ ['='])
  | _ => none

/-- The directive that a text begins with, and the text after it. -/
def directiveAt? (marker s : List Char) : Option (Directive × List Char) :=
  match Script.Phrase.afterWord? marker s with
  | some (c :: t) =>
      if c.isAlpha then
        let name := marker ++ c :: t.takeWhile isNameChar
        let text := name ++ segments false (t.dropWhile isNameChar)
        let assignment := assignment? (s.drop text.length)
        some (⟨text, name, assignment⟩, s.drop (text.length + (assignment.getD []).length))
      else none
  | _ => none

/-- A directive may begin after the given character. -/
def mayFollow : Option Char → Bool
  | none => true
  | some c => !(isWord c || c == '-')

theorem length_lt_of_directiveAt? {marker s rest : List Char} {d : Directive}
    (h : directiveAt? marker s = some (d, rest)) : rest.length < s.length := by
  unfold directiveAt? at h
  split at h
  · rename_i c t ht
    split at h
    · simp only [Option.some.injEq, Prod.mk.injEq] at h
      obtain ⟨_, rfl⟩ := h
      rw [Script.Phrase.afterWord?_eq_some_iff] at ht
      subst ht
      simp only [List.length_drop, List.length_append, List.length_cons]
      omega
    · simp at h
  · simp at h

/-- The directives of a text, from left to right, given the character before
it.  The search goes on after the equals sign of each. -/
def directivesFrom (marker : List Char) (before : Option Char) (s : List Char) :
    List Directive :=
  match s with
  | [] => []
  | c :: t =>
      if mayFollow before then
        match _h : directiveAt? marker (c :: t) with
        | some (d, rest) =>
            d :: directivesFrom marker (d.text ++ d.assignment.getD []).getLast? rest
        | none => directivesFrom marker (some c) t
      else directivesFrom marker (some c) t
termination_by s.length
decreasing_by
  · exact length_lt_of_directiveAt? _h
  · simp
  · simp

/-- The directives of a template. -/
def directives (marker template : List Char) : List Directive :=
  directivesFrom marker none template

/-- The directives that lack an assignment and are not allowed to. -/
def invalidDirectives (marker : List Char) (valueless : List (List Char))
    (template : List Char) : List (List Char) :=
  ((directives marker template).filter fun d =>
    d.assignment.isNone && !valueless.contains d.name).map Directive.text

/-- The segments are a prefix of the text that they were read from. -/
theorem segments_isPrefix (inside : Bool) (s : List Char) : segments inside s <+: s := by
  induction s generalizing inside with
  | nil => exact List.nil_prefix
  | cons c s ih =>
      simp only [segments]
      split
      · exact (List.prefix_cons_inj c).mpr (ih true)
      · exact List.nil_prefix

theorem assignment?_isPrefix {s a : List Char} (h : assignment? s = some a) : a <+: s := by
  unfold assignment? at h
  split at h
  · rename_i t ht
    simp only [Option.some.injEq] at h
    subst h
    refine ⟨t, ?_⟩
    rw [List.append_assoc, List.singleton_append, ← ht]
    exact List.takeWhile_append_dropWhile
  · simp at h

/-- A directive and its assignment are a prefix of the text that they were read
from. -/
theorem eq_append_of_directiveAt? {marker s rest : List Char} {d : Directive}
    (h : directiveAt? marker s = some (d, rest)) :
    s = d.text ++ (d.assignment.getD [] ++ rest) := by
  unfold directiveAt? at h
  split at h
  · rename_i c t ht
    split at h
    · simp only [Option.some.injEq, Prod.mk.injEq] at h
      obtain ⟨rfl, rfl⟩ := h
      rw [Script.Phrase.afterWord?_eq_some_iff] at ht
      have htext : marker ++ c :: t.takeWhile isNameChar ++
          segments false (t.dropWhile isNameChar) <+: s := by
        obtain ⟨r, hr⟩ := segments_isPrefix false (t.dropWhile isNameChar)
        refine ⟨r, ?_⟩
        rw [ht, List.append_assoc, hr, List.append_assoc, List.cons_append,
          List.takeWhile_append_dropWhile]
      have hsplit := List.prefix_iff_eq_append.mp htext
      have hassign : ∀ a : Option (List Char), a = assignment? (s.drop (marker ++ c ::
          t.takeWhile isNameChar ++ segments false (t.dropWhile isNameChar)).length) →
          s.drop (marker ++ c :: t.takeWhile isNameChar ++
            segments false (t.dropWhile isNameChar)).length =
          a.getD [] ++ (s.drop (marker ++ c :: t.takeWhile isNameChar ++
            segments false (t.dropWhile isNameChar)).length).drop (a.getD []).length := by
        intro a ha
        cases a with
        | none => simp
        | some a => exact (List.prefix_iff_eq_append.mp (assignment?_isPrefix ha.symm)).symm
      rw [← List.drop_drop, ← hassign _ rfl]
      exact hsplit.symm
    · simp at h
  · simp at h

end SingleFile.Template
