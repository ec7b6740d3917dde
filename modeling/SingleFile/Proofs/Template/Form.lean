import Mathlib.Data.List.TakeWhile
import SingleFile.Proofs.Template.Borders

/-!
# The form of directives

A directive takes as much of a text as it can: the longest name behind its marker, as
many segments as fit, each as long as it goes, and the equals sign that blanks may set
apart.  This form says how far each part goes without the reader that finds it, and the
reader finds exactly the one directive of this form.

Main results:

- Theorem `segments_of_areSegmentsBefore`: the segments that are read are all that fit.
- Theorem `assignment?_eq_some_iff`: which assignment is read.
- Theorem `directiveAt?_of_standsBefore`: a directive of the form is read.
- Theorem `exists_standsBefore`: behind every marker and letter stands a directive of
  the form.
-/

namespace SingleFile.Template

open SingleFile.Text (isBlank isBlankText isWord)

/-! ## Parts of a directive -/

/-- The run is made of characters of a class, and goes on as long as there are any. -/
structure IsRunBefore (p : Char → Bool) (rest run : List Char) : Prop where
  all : ∀ c ∈ run, p c = true
  ends : ∀ c ∈ rest.head?, p c = false

/-- A colon or a point, and then characters of an argument, at least one. -/
def IsSegment (g : List Char) : Prop :=
  ∃ m run, isSegmentMark m = true ∧ run ≠ [] ∧ (∀ c ∈ run, isSegmentChar c = true) ∧ g = m :: run

/-- Segments one behind the other, as many as fit before the rest, each as long as it
goes. -/
inductive AreSegmentsBefore (rest : List Char) : List (List Char) → Prop where
  | none (none : ∀ g, IsSegment g → ¬ g <+: rest) : AreSegmentsBefore rest []
  | next {g : List Char} {gs : List (List Char)} (segment : IsSegment g)
      (longest : ∀ c ∈ (gs.flatten ++ rest).head?, isSegmentChar c = false)
      (behind : AreSegmentsBefore rest gs) : AreSegmentsBefore rest (g :: gs)

/-- Blanks, if any, and an equals sign. -/
def IsAssignment (a : List Char) : Prop :=
  ∃ blanks, isBlankText blanks = true ∧ a = blanks ++ ['=']

namespace Directive

/-- The directive and its assignment take as much of a text as they can, up to the rest:
the name is the marker, a letter and the longest run of name characters; as many
segments follow as fit; and then comes an assignment, unless there is none. -/
structure Takes (d : Directive) (marker rest : List Char) (letter : Char) (run : List Char)
    (gs : List (List Char)) : Prop where
  isAlpha : letter.isAlpha = true
  name_eq : d.name = marker ++ letter :: run
  longest : IsRunBefore isNameChar (gs.flatten ++ (d.assignment.getD [] ++ rest)) run
  text_eq : d.text = d.name ++ gs.flatten
  segments : AreSegmentsBefore (d.assignment.getD [] ++ rest) gs
  assigned : ∀ a, d.assignment = some a → IsAssignment a
  unassigned : d.assignment = none → ∀ a, IsAssignment a → ¬ a <+: rest

/-- The directive stands in a text before the rest, in parts of the right form. -/
def StandsBefore (d : Directive) (marker rest : List Char) : Prop :=
  ∃ letter run gs, d.Takes marker rest letter run gs

end Directive

/-! ## Runs -/

section

variable {p : Char → Bool} {run rest : List Char}

theorem IsRunBefore.takeWhile_append (h : IsRunBefore p rest run) :
    (run ++ rest).takeWhile p = run := by
  rw [takeWhile_append_of_head h.ends, List.takeWhile_eq_self_iff.mpr h.all]

theorem IsRunBefore.dropWhile_append (h : IsRunBefore p rest run) :
    (run ++ rest).dropWhile p = rest := by
  rw [dropWhile_append_of_head h.ends, List.dropWhile_eq_nil_iff.mpr h.all, List.nil_append]

/-- What is taken from the front of a text while it is of a class is a run. -/
theorem isRunBefore_takeWhile (p : Char → Bool) (s : List Char) :
    IsRunBefore p (s.dropWhile p) (s.takeWhile p) where
  all := List.all_eq_true.mp List.all_takeWhile
  ends c hc := by
    have hhead := List.head?_dropWhile_not p s
    rw [Option.mem_def.mp hc] at hhead
    exact hhead

end

/-! ## Segments -/

section

variable {s rest : List Char}

theorem segments_inside_of_head (h : ∀ c ∈ s.head?, isSegmentChar c = false) :
    segments true s = segments false s := by
  cases s with
  | nil => rfl
  | cons c s => simp [segments, h c rfl]

/-- Within a segment all its characters are read. -/
theorem segments_inside_append {run : List Char} (h : ∀ c ∈ run, isSegmentChar c = true)
    (s : List Char) : segments true (run ++ s) = run ++ segments true s := by
  induction run with
  | nil => rfl
  | cons c run ih =>
      have hc : isSegmentChar c = true := h c List.mem_cons_self
      have hrun := ih fun d hd => h d (List.mem_cons_of_mem c hd)
      simp [segments, hc, hrun]

/-- A segment is read, and the next ones behind it. -/
theorem segments_segment_append {g : List Char} (hg : IsSegment g)
    (hlongest : ∀ c ∈ s.head?, isSegmentChar c = false) :
    segments false (g ++ s) = g ++ segments false s := by
  obtain ⟨m, run, hm, hne, hrun, rfl⟩ := hg
  obtain ⟨c, run, rfl⟩ := List.exists_cons_of_ne_nil hne
  have hc : isSegmentChar c = true := hrun c List.mem_cons_self
  have hread := segments_inside_append hrun s
  rw [segments_inside_of_head hlongest] at hread
  rw [List.cons_append, segments, hread]
  simp [hm, hc]

/-- Where no segment fits none is read. -/
theorem segments_eq_nil (h : ∀ g, IsSegment g → ¬ g <+: s) : segments false s = [] := by
  cases s with
  | nil => rfl
  | cons m s =>
      have hnot : ¬ (isSegmentMark m = true ∧ s.head?.any isSegmentChar = true) := by
        rintro ⟨hm, hany⟩
        cases s with
        | nil => cases hany
        | cons c s =>
            have hsegment : IsSegment [m, c] := ⟨m, [c], hm, by simp, by simpa using hany, rfl⟩
            exact h _ hsegment ⟨s, rfl⟩
      simpa [segments] using hnot

/-- The segments that are read are all that fit. -/
theorem segments_of_areSegmentsBefore {gs : List (List Char)} (h : AreSegmentsBefore rest gs) :
    segments false (gs.flatten ++ rest) = gs.flatten := by
  induction h with
  | none hnone => exact segments_eq_nil hnone
  | next hsegment hlongest _ ih =>
      rw [List.flatten_cons, List.append_assoc, segments_segment_append hsegment hlongest, ih]

/-- Every text begins with segments, as many as fit. A segment goes on as long as it can.
-/
theorem exists_areSegmentsBefore (s : List Char) :
    ∃ gs rest, s = gs.flatten ++ rest ∧ AreSegmentsBefore rest gs := by
  by_cases h : ∃ g, IsSegment g ∧ g <+: s
  · obtain ⟨_, ⟨m, run, hm, hne, hrun, rfl⟩, t, ht⟩ := h
    obtain ⟨gs, rest, hrest, hgs⟩ := exists_areSegmentsBefore ((run ++ t).dropWhile isSegmentChar)
    have hlongest := isRunBefore_takeWhile isSegmentChar (run ++ t)
    have hne' : (run ++ t).takeWhile isSegmentChar ≠ [] := by
      rw [List.takeWhile_append_of_pos hrun]
      simp [hne]
    refine ⟨(m :: (run ++ t).takeWhile isSegmentChar) :: gs, rest, ?_, .next ?_ ?_ hgs⟩
    · rw [List.flatten_cons, List.append_assoc, ← hrest, List.cons_append,
        List.takeWhile_append_dropWhile, ← ht, List.cons_append]
    · exact ⟨m, _, hm, hne', hlongest.all, rfl⟩
    · rw [← hrest]
      exact hlongest.ends
  · exact ⟨[], s, rfl, .none fun g hg hprefix => h ⟨g, hg, hprefix⟩⟩
termination_by s.length
decreasing_by
  have hle := (List.dropWhile_sublist isSegmentChar (l := run ++ t)).length_le
  rw [← ht]
  simp only [List.cons_append, List.length_cons]
  omega

end

/-! ## Assignments -/

/-- The assignment that is read is the one that the text begins with. -/
theorem assignment?_eq_some_iff {s a : List Char} :
    assignment? s = some a ↔ IsAssignment a ∧ a <+: s := by
  constructor
  · intro h
    refine ⟨⟨s.takeWhile isBlank, List.all_takeWhile, ?_⟩, assignment?_isPrefix h⟩
    unfold assignment? at h
    split at h
    · cases h
      rfl
    · cases h
  · rintro ⟨⟨blanks, hblanks, rfl⟩, t, rfl⟩
    induction blanks with
    | nil => rfl
    | cons c blanks ih =>
        simp only [isBlankText, List.all_cons, Bool.and_eq_true] at hblanks
        rw [List.cons_append, List.cons_append, assignment?_cons, if_pos hblanks.1, ih hblanks.2]
        rfl

/-- No assignment is read where none stands. -/
theorem assignment?_eq_none_iff {s : List Char} :
    assignment? s = none ↔ ∀ a, IsAssignment a → ¬ a <+: s := by
  rw [Option.eq_none_iff_forall_ne_some]
  simp only [ne_eq, assignment?_eq_some_iff, not_and]

/-- The assignment of a directive is the one that is read behind it. -/
theorem Directive.Takes.assignment?_eq {d : Directive} {marker rest run : List Char}
    {letter : Char} {gs : List (List Char)} (h : d.Takes marker rest letter run gs) :
    assignment? (d.assignment.getD [] ++ rest) = d.assignment := by
  cases ha : d.assignment with
  | none => exact assignment?_eq_none_iff.mpr (h.unassigned ha)
  | some a => exact assignment?_eq_some_iff.mpr ⟨h.assigned a ha, List.prefix_append a rest⟩

/-! ## Directives -/

/-- A directive of the form is read. -/
theorem directiveAt?_of_standsBefore {d : Directive} {marker rest : List Char}
    (h : d.StandsBefore marker rest) :
    directiveAt? marker (d.text ++ (d.assignment.getD [] ++ rest)) = some (d, rest) := by
  obtain ⟨letter, run, gs, hd⟩ := h
  have htext : d.text ++ (d.assignment.getD [] ++ rest) =
      marker ++ letter :: (run ++ (gs.flatten ++ (d.assignment.getD [] ++ rest))) := by
    rw [hd.text_eq, hd.name_eq]
    simp
  rw [htext, directiveAt?_marker_append hd.isAlpha]
  simp only [hd.longest.takeWhile_append, hd.longest.dropWhile_append,
    segments_of_areSegmentsBefore hd.segments, List.drop_left, hd.assignment?_eq]
  rw [← hd.name_eq, ← hd.text_eq]

/-- Behind every marker and letter stands a directive of the form. -/
theorem exists_standsBefore {letter : Char} (hletter : letter.isAlpha = true)
    (marker t : List Char) :
    ∃ d : Directive, ∃ rest, marker ++ letter :: t = d.text ++ (d.assignment.getD [] ++ rest) ∧
      d.StandsBefore marker rest := by
  have hrun := isRunBefore_takeWhile isNameChar t
  obtain ⟨gs, behind, hbehind, hgs⟩ := exists_areSegmentsBefore (t.dropWhile isNameChar)
  obtain ⟨rest, hrest⟩ : ∃ rest, behind = (assignment? behind).getD [] ++ rest := by
    cases ha : assignment? behind with
    | none => exact ⟨behind, rfl⟩
    | some a =>
        obtain ⟨rest, hrest⟩ := assignment?_isPrefix ha
        exact ⟨rest, hrest.symm⟩
  have hname : marker ++ letter :: t =
      marker ++ letter :: t.takeWhile isNameChar ++ (gs.flatten ++ behind) := by
    rw [← hbehind, List.append_assoc, List.cons_append, List.takeWhile_append_dropWhile]
  refine ⟨⟨marker ++ letter :: t.takeWhile isNameChar ++ gs.flatten,
    marker ++ letter :: t.takeWhile isNameChar, assignment? behind⟩, rest, ?_,
    letter, t.takeWhile isNameChar, gs, ?_⟩
  · rw [← hrest, hname, List.append_assoc _ gs.flatten]
  · refine ⟨hletter, rfl, ?_, rfl, ?_, ?_, ?_⟩
    · rw [← hrest, ← hbehind]
      exact hrun
    · rw [← hrest]
      exact hgs
    · exact fun a ha => (assignment?_eq_some_iff.mp ha).1
    · intro (hnone : assignment? behind = none)
      rw [hnone, Option.getD_none, List.nil_append] at hrest
      rw [← hrest]
      exact assignment?_eq_none_iff.mp hnone

/-- The directive that is read is of the form. -/
theorem standsBefore_of_directiveAt? {marker s rest : List Char} {d : Directive}
    (h : directiveAt? marker s = some (d, rest)) :
    s = d.text ++ (d.assignment.getD [] ++ rest) ∧ d.StandsBefore marker rest := by
  rcases eq_marker_append_or_none marker s with ⟨letter, t, hletter, rfl⟩ | hnone
  · obtain ⟨d', rest', hs, hd'⟩ := exists_standsBefore hletter marker t
    have hread := directiveAt?_of_standsBefore hd'
    rw [← hs, h, Option.some.injEq, Prod.mk.injEq] at hread
    obtain ⟨rfl, rfl⟩ := hread
    exact ⟨hs, hd'⟩
  · rw [hnone] at h
    cases h

end SingleFile.Template
