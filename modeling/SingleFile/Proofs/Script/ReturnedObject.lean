import SingleFile.Proofs.Script.Initializers
import SingleFile.Proofs.Source.Cut

/-!
# Returned objects

The object that `data` returns is captured up to the first closing brace that is
followed, after blanks, by another one.  An object that is written between the
function's braces is captured whole unless it has such a brace itself, or ends in a
closing brace; an object whose last value is an object is cut short.  What is left of
an accepted object is nearly always rejected.

Main results:

- Theorem `dataBody?_dataScript`: which part of a written object is captured.
- Theorem `returnedObject_captured_iff`: which objects are captured whole, and what
  becomes of the others.
- Theorem `returnedObject_cut_short`: an object that is cut short.
-/

namespace SingleFile.Script

open SingleFile.Text (isBlankText)
open SingleFile.Script.Source (check checkChars EndsInLineComment)

/-! ## Written objects -/

/-- The script of a `data` function that returns the object. -/
def dataScript (object : List Char) : List Char :=
  "data() \x7b return \x7b".toList ++ (object ++ "\x7d \x7d".toList)

/-- A closing brace of the text is followed, after blanks, by another one or by
nothing. -/
def ClosesEarly (object : List Char) : Prop :=
  ∃ u gap v, isBlankText gap = true ∧ object = u ++ '}' :: (gap ++ v) ∧
    (v = [] ∨ v.head? = some '}')

/-- A character that is met in the first of two joined texts stands in it. -/
theorem exists_eq_append_of_length_lt {c : Char} {s w u x : List Char}
    (h : s ++ w = u ++ c :: x) (hlt : u.length < s.length) :
    ∃ r, s = u ++ c :: r ∧ r ++ w = x := by
  rcases List.append_eq_append_iff.mp h with ⟨t, rfl, _⟩ | ⟨t, rfl, ht⟩
  · rw [List.length_append] at hlt
    omega
  · cases t with
    | nil =>
        rw [List.append_nil] at hlt
        exact absurd hlt (Nat.lt_irrefl _)
    | cons d r =>
        obtain ⟨rfl, hr⟩ := List.cons.inj ht
        exact ⟨r, rfl, hr.symm⟩

/-- Of a pair of closing braces that begins in a written object, the second stands
in the object, or behind it. -/
theorem eq_blank_or_head_of_append {r gap rest : List Char} (hgap : isBlankText gap = true)
    (h : r ++ "\x7d \x7d".toList = gap ++ '}' :: rest) :
    ∃ v, r = gap ++ v ∧ (v = [] ∨ v.head? = some '}') := by
  have hclosers : "\x7d \x7d".toList = ['}', ' ', '}'] := rfl
  rw [hclosers] at h
  rcases List.append_eq_append_iff.mp h with ⟨t, hgap', ht⟩ | ⟨v, rfl, hv⟩
  · cases t with
    | nil => exact ⟨[], by rw [hgap', List.append_nil, List.append_nil], .inl rfl⟩
    | cons d t =>
        obtain ⟨rfl, _⟩ := List.cons.inj ht
        have hblank := List.all_eq_true.mp hgap '}' (by rw [hgap']; simp)
        exact absurd hblank (by decide)
  · refine ⟨v, rfl, ?_⟩
    cases v with
    | nil => exact .inl rfl
    | cons d v =>
        obtain ⟨rfl, _⟩ := List.cons.inj hv
        exact .inr rfl

/-- A pair of closing braces begins in a written object exactly when one of its
braces is followed by another or by nothing. -/
theorem closesEarly_iff {object : List Char} :
    ClosesEarly object ↔ ∃ u rest,
      returnCloser.Occurs (object ++ "\x7d \x7d".toList) u rest ∧ u.length < object.length := by
  constructor
  · rintro ⟨u, gap, v, hgap, rfl, hv⟩
    have hspells : returnCloser.Spells ('}' :: (gap ++ ['}'])) :=
      Phrase.spells_pair_iff.mpr ⟨gap, hgap, rfl⟩
    rcases hv with rfl | hv
    · exact ⟨u, " \x7d".toList, ⟨_, hspells, by simp⟩, by simp⟩
    · obtain ⟨v', rfl⟩ := List.head?_eq_some_iff.mp hv
      exact ⟨u, v' ++ "\x7d \x7d".toList, ⟨_, hspells, by simp⟩, by simp⟩
  · rintro ⟨u, rest, ⟨t, ht, hs⟩, hlt⟩
    obtain ⟨gap, hgap, rfl⟩ := Phrase.spells_pair_iff.mp ht
    simp only [List.append_assoc] at hs
    obtain ⟨r, rfl, hr⟩ := exists_eq_append_of_length_lt hs hlt
    obtain ⟨v, rfl, hv⟩ := eq_blank_or_head_of_append hgap hr
    exact ⟨u, gap, v, hgap, rfl, hv⟩

/-! ## What is captured -/

/-- The object is captured up to the first pair of closing braces. -/
theorem dataBody?_dataScript_eq (object : List Char) :
    dataBody? (dataScript object) =
      (returnCloser.cut (object ++ "\x7d \x7d".toList)).map Prod.fst := by
  have hheader : dataHeader.cut (dataScript object) =
      some ([], " return \x7b".toList ++ (object ++ "\x7d \x7d".toList)) :=
    Phrase.cut_of_after? rfl
  have hopener : returnHeader.cut (" return \x7b".toList ++ (object ++ "\x7d \x7d".toList)) =
      some ([' '], object ++ "\x7d \x7d".toList) := rfl
  simp only [dataBody?, hheader, hopener, Option.bind_eq_bind, Option.bind_some]
  cases returnCloser.cut (object ++ "\x7d \x7d".toList) <;> rfl

/-- A written object is captured whole, or up to one of its closing braces. -/
theorem dataBody?_dataScript (object : List Char) :
    ∃ body, dataBody? (dataScript object) = some body ∧
      ((body = object ∧ ¬ ClosesEarly object) ∨
        ((∃ rest, object = body ++ '}' :: rest) ∧ ClosesEarly object)) := by
  have hclosers : returnCloser.Occurs (object ++ "\x7d \x7d".toList) object [] :=
    ⟨"\x7d \x7d".toList, Phrase.spells_pair_iff.mpr ⟨" ".toList, rfl, rfl⟩, by simp⟩
  obtain ⟨body, rest, hfirst⟩ := hclosers.exists_first isVisible_returnCloser
  refine ⟨body, ?_, ?_⟩
  · rw [dataBody?_dataScript_eq, (Phrase.cut_eq_some_iff isVisible_returnCloser).mpr hfirst]
    rfl
  by_cases hlt : body.length < object.length
  · obtain ⟨t, ht, hs⟩ := hfirst.occurs
    obtain ⟨gap, _, rfl⟩ := Phrase.spells_pair_iff.mp ht
    obtain ⟨r, hr, _⟩ := exists_eq_append_of_length_lt hs hlt
    exact .inr ⟨⟨r, hr⟩, closesEarly_iff.mpr ⟨body, rest, hfirst.occurs, hlt⟩⟩
  · have hle := hfirst.2 object [] hclosers
    have hbody := (hfirst.occurs.unique isVisible_returnCloser hclosers (by omega)).1
    refine .inl ⟨hbody, fun hearly => ?_⟩
    obtain ⟨u, rest', hoccurs, hshort⟩ := closesEarly_iff.mp hearly
    have hfirst' := hfirst.2 u rest' hoccurs
    omega

/-- An accepted object is captured whole exactly when none of its closing braces is
followed, after blanks, by another one or by nothing.  Otherwise it is cut short at
one of its closing braces, and what is left is rejected unless it ends in a line
comment outside all brackets. -/
theorem returnedObject_captured_iff (object : String) (h : check object = .ok ()) :
    (dataBody? (dataScript object.toList) = some object.toList ↔ ¬ ClosesEarly object.toList) ∧
    (ClosesEarly object.toList →
      ∃ body rest, dataBody? (dataScript object.toList) = some body ∧
        object.toList = body ++ '}' :: rest ∧
        (checkChars body = .ok () ↔ EndsInLineComment body)) := by
  obtain ⟨body, hbody, ⟨rfl, hwhole⟩ | ⟨⟨rest, hrest⟩, hearly⟩⟩ :=
    dataBody?_dataScript object.toList
  · exact ⟨⟨fun _ => hwhole, fun _ => hbody⟩, fun hearly => absurd hearly hwhole⟩
  · constructor
    · constructor
      · intro hsame
        rw [hbody, Option.some.injEq] at hsame
        have hlength := congrArg List.length hrest
        rw [hsame, List.length_append, List.length_cons] at hlength
        omega
      · intro hwhole
        exact absurd hearly hwhole
    · intro _
      have hobject : checkChars (body ++ Source.Bracket.curly.closer :: rest) = .ok () := by
        rw [check, hrest] at h
        exact h
      exact ⟨body, rest, hbody, hrest, Source.checkChars_cut_iff hobject⟩

/-- An object with an object and a list of objects in it. -/
theorem returnedObject_captured_nested :
    check "a: \x7bb: 1\x7d, c: [\x7b\x7d]" = .ok () ∧
      dataBody? (dataScript "a: \x7bb: 1\x7d, c: [\x7b\x7d]".toList) =
        some "a: \x7bb: 1\x7d, c: [\x7b\x7d]".toList ∧
      ¬ ClosesEarly "a: \x7bb: 1\x7d, c: [\x7b\x7d]".toList := by
  have hobject : check "a: \x7bb: 1\x7d, c: [\x7b\x7d]" = .ok () := by decide +kernel
  have hwhole : dataBody? (dataScript "a: \x7bb: 1\x7d, c: [\x7b\x7d]".toList) =
      some "a: \x7bb: 1\x7d, c: [\x7b\x7d]".toList := by
    decide +kernel
  exact ⟨hobject, hwhole, (returnedObject_captured_iff _ hobject).1.mp hwhole⟩

/-- An accepted object whose last value is an object is cut short, and what is left
is rejected; one with both braces in a line comment is cut short without notice. -/
theorem returnedObject_cut_short :
    check "a: \x7b\x7d" = .ok () ∧
      dataBody? (dataScript "a: \x7b\x7d".toList) = some "a: \x7b".toList ∧
      check "a: \x7b" ≠ .ok () ∧
      check "// \x7d\x7d\n" = .ok () ∧
      dataBody? (dataScript "// \x7d\x7d\n".toList) = some "// ".toList ∧
      check "// " = .ok () := by
  decide +kernel

end SingleFile.Script
