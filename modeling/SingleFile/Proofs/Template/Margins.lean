import SingleFile.Proofs.Template.Borders
import SingleFile.Proofs.Template.Counting
import SingleFile.Proofs.Text.Blank
import SingleFile.Template.Check

/-!
# Margins of a template

The blanks around a template have no part in its check.  A tag begins and ends
with an angle, which is no blank; a directive begins with its marker and goes on
in characters that are none either, and the blanks before its equals sign count
only when the equals sign follows.

Main results:

- Theorem `tagImbalance_trim`: the blanks around a text hold no tag.
- Theorem `isBorder_of_isBlankText`: the blanks behind a text are no part of a
  directive.
- Theorem `directives_trim`: a text has the directives of its trimmed form.
- Theorem `textFaults_trimmed`: a text has the faults of its trimmed form.
-/

namespace SingleFile.Template

open SingleFile.Text (isBlank isBlankText isWord trim)

/-! ## Tags -/

theorem not_mem_of_isBlankText {c : Char} (hc : isBlank c = false) {s : List Char}
    (h : isBlankText s = true) : c ∉ s := by
  intro hmem
  have hblank := List.all_eq_true.mp h c hmem
  rw [hc] at hblank
  cases hblank

/-- Blanks around a template do not change the balance of its tags. -/
theorem tagImbalance_blank_append_blank {before after : List Char}
    (hbefore : isBlankText before = true) (hafter : isBlankText after = true) (s : List Char) :
    tagImbalance (before ++ (s ++ after)) = tagImbalance s := by
  have hopen : '<' ∉ before := not_mem_of_isBlankText (by decide) hbefore
  have hclose : '>' ∉ after := not_mem_of_isBlankText (by decide) hafter
  have hopened : openTags (s ++ after) = openTags s := openTags_counts.append_of_not_mem hclose _ _
  have hself : selfClosingTags (s ++ after) = selfClosingTags s :=
    selfClosingTags_counts.append_of_not_mem hclose _ _
  have hclosed : closeTags (s ++ after) = closeTags s :=
    closeTags_counts.append_of_not_mem hclose _ _
  rw [tagImbalance, tagImbalance, openTags_append_of_outside hopen,
    selfClosingTags_append_of_outside hopen, closeTags_append_of_outside hopen, hopened, hself,
    hclosed]

/-- The blanks around a text hold no tag. -/
theorem tagImbalance_trim (s : List Char) : tagImbalance (trim s) = tagImbalance s := by
  obtain ⟨before, after, hbefore, hafter, hs⟩ := Text.exists_eq_append_trim s
  have hsame := tagImbalance_blank_append_blank hbefore hafter (trim s)
  rw [← hs] at hsame
  exact hsame.symm

/-! ## Blanks and directives -/

/-- The text is without blanks, as every directive prefix is. -/
def IsSolid (s : List Char) : Prop :=
  ∀ c ∈ s, isBlank c = false

theorem ne_of_isBlank {c d : Char} (h : isBlank c = true) (hd : isBlank d = false) : c ≠ d := by
  rintro rfl
  rw [hd] at h
  cases h

theorem isSegmentChar_eq_false_of_isBlank {c : Char} (h : isBlank c = true) :
    isSegmentChar c = false := by
  simp [isSegmentChar, Text.isWord_eq_false_of_isBlank h, ne_of_isBlank h (d := '-') (by decide),
    ne_of_isBlank h (d := '[') (by decide), ne_of_isBlank h (d := ']') (by decide)]

theorem isSegmentMark_eq_false_of_isBlank {c : Char} (h : isBlank c = true) :
    isSegmentMark c = false := by
  simp [isSegmentMark, ne_of_isBlank h (d := ':') (by decide),
    ne_of_isBlank h (d := '.') (by decide)]

theorem isAlpha_eq_false_of_isBlank {c : Char} (h : isBlank c = true) : c.isAlpha = false := by
  have hname := isNameChar_eq_false_of_isSegmentChar (isSegmentChar_eq_false_of_isBlank h)
  simp only [isNameChar, Char.isAlphanum, Bool.or_eq_false_iff] at hname
  exact hname.1.1

theorem isBlank_eq_false_of_isAlpha {c : Char} (h : c.isAlpha = true) : isBlank c = false := by
  rw [Bool.eq_false_iff]
  intro hblank
  rw [isAlpha_eq_false_of_isBlank hblank] at h
  cases h

/-- A directive may begin after a blank as it may at the beginning of a text. -/
theorem mayFollow_of_isBlank {c : Char} (h : isBlank c = true) : mayFollow (some c) = true := by
  simp [mayFollow, Text.isWord_eq_false_of_isBlank h, ne_of_isBlank h (d := '-') (by decide)]

/-- The blanks before a text hold no directive. -/
theorem directivesFrom_blank_append {marker before : List Char} (hm : IsSolid marker)
    (h : isBlankText before = true) (s : List Char) :
    directivesFrom marker none (before ++ s) = directivesFrom marker none s := by
  induction before with
  | nil => rfl
  | cons c before ih =>
      simp only [isBlankText, List.all_cons, Bool.and_eq_true] at h
      have hfree : mayFollow (some c) = mayFollow none := mayFollow_of_isBlank h.1
      have hmem : c ∉ marker := by
        intro hmem
        exact ne_of_isBlank h.1 (hm c hmem) rfl
      have hnone := directiveAt?_of_not_mem hmem (isAlpha_eq_false_of_isBlank h.1) (before ++ s)
      rw [List.cons_append, directivesFrom_of_eq_none hnone, directivesFrom_congr hfree]
      exact ih h.2

theorem assignment?_of_isBlankText {s : List Char} (h : isBlankText s = true) :
    assignment? s = none := by
  have hdrop : s.dropWhile isBlank = [] := (Text.dropBlank_eq_nil_iff s).mpr h
  rw [assignment?, hdrop]

/-- The blanks behind a text are no part of a directive in it. A letter behind them would
be the last of them. -/
theorem isBorder_of_isBlankText {after : List Char} (h : isBlankText after = true)
    (marker : List Char) : IsBorder marker after := by
  have hhead : ∀ c ∈ after.head?, isBlank c = true := by
    intro c hc
    exact List.all_eq_true.mp h c (List.mem_of_mem_head? hc)
  constructor
  · intro c hc
    exact isSegmentChar_eq_false_of_isBlank (hhead c hc)
  · intro c hc
    exact isSegmentMark_eq_false_of_isBlank (hhead c hc)
  · exact assignment?_of_isBlankText h
  · intro s u c hc hu hwhole
    have hletter : c ∉ after := not_mem_of_isBlankText (isBlank_eq_false_of_isAlpha hc) h
    rcases List.eq_nil_or_concat u with hnil | ⟨v, d, rfl⟩
    · exact hnil
    · rw [List.concat_eq_append] at hu hwhole
      rw [← List.append_assoc] at hwhole
      obtain ⟨_, hlast⟩ := List.append_inj' hwhole rfl
      obtain ⟨rfl, _⟩ := List.cons.inj hlast
      exact absurd (hu.subset (by simp)) hletter

/-- Blanks hold no directive. -/
theorem directivesFrom_of_isBlankText {s : List Char} (h : isBlankText s = true)
    (marker : List Char) (b : Option Char) : directivesFrom marker b s = [] := by
  induction s generalizing b with
  | nil => rw [directivesFrom]
  | cons c s ih =>
      have hnone : directiveAt? marker (c :: s) = none := by
        rcases eq_marker_append_or_none marker (c :: s) with ⟨d, t, hd, hs⟩ | hnone
        · have hletter : d ∉ c :: s := not_mem_of_isBlankText (isBlank_eq_false_of_isAlpha hd) h
          exact absurd (hs ▸ by simp) hletter
        · exact hnone
      have hrest : isBlankText s = true := by
        rw [isBlankText, List.all_cons, Bool.and_eq_true] at h
        exact h.2
      rw [directivesFrom_of_eq_none hnone]
      exact ih hrest _

/-- The blanks behind a text hold no directive. -/
theorem directivesFrom_append_blank {after : List Char} (h : isBlankText after = true)
    (marker : List Char) (b : Option Char) (s : List Char) :
    directivesFrom marker b (s ++ after) = directivesFrom marker b s := by
  rw [directivesFrom_append (isBorder_of_isBlankText h marker), directivesFrom_of_isBlankText h,
    List.append_nil]

/-! ## Trimmed templates -/

/-- A text has the directives of its trimmed form. -/
theorem directives_trim {marker : List Char} (hm : IsSolid marker) (s : List Char) :
    directives marker (trim s) = directives marker s := by
  obtain ⟨before, after, hbefore, hafter, hs⟩ := Text.exists_eq_append_trim s
  have hsame : directives marker (before ++ (trim s ++ after)) = directives marker (trim s) := by
    rw [directives, directivesFrom_blank_append hm hbefore, directivesFrom_append_blank hafter,
      directives]
  rw [← hs] at hsame
  exact hsame.symm

/-- A trimmed text is blank if the text is. -/
theorem isBlankString_trimmed (t : String) :
    Text.isBlankString (Text.trimmed t) = Text.isBlankString t := by
  have hiff : isBlankText (trim t.toList) = true ↔ isBlankText t.toList = true := by
    rw [← Text.trim_eq_nil_iff, ← Text.trim_eq_nil_iff, Text.trim_trim]
  rw [Text.isBlankString, Text.isBlankString, Text.toList_trimmed]
  exact Bool.eq_iff_iff.mpr hiff

/-- Under a prefix without blanks a text has the faults of its trimmed form. -/
theorem textFaults_trimmed {settings : Settings} (h : IsSolid settings.directivePrefix.toList)
    (t : String) : textFaults settings (Text.trimmed t) = textFaults settings t := by
  have htags : tagFaults (Text.trimmed t) = tagFaults t := by
    rw [tagFaults, tagFaults, Text.toList_trimmed, tagImbalance_trim]
  have hbad : badDirectives settings (Text.trimmed t) = badDirectives settings t := by
    rw [badDirectives, badDirectives, invalidDirectives, invalidDirectives, Text.toList_trimmed,
      directives_trim h]
  have hdirectives : directiveFaults settings (Text.trimmed t) = directiveFaults settings t := by
    rw [directiveFaults, directiveFaults, hbad]
  rw [textFaults, textFaults, isBlankString_trimmed, htags, hdirectives]

end SingleFile.Template
