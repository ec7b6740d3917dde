import SingleFile.Template.Directives

/-!
# Borders of directives

A directive reads as far as its characters go: the name, then segments, then blanks
if an equals sign follows.  A text that begins otherwise, and in which no directive
that began before it can still have its letter, is a border: no directive reaches
into it.  A search for directives may stop there and go on behind.

Main results:

- Theorem `directiveAt?_append`: a directive is read the same before a border.
- Theorem `directivesFrom_append`: a search in two parts, divided by a border.
-/

namespace SingleFile.Template

open SingleFile.Text (isBlank isBlankText isWord)

/-! ## Where a directive begins -/

/-- A directive begins with the marker and a letter. -/
theorem eq_marker_append_or_none (marker s : List Char) :
    (∃ c t, c.isAlpha = true ∧ s = marker ++ c :: t) ∨ directiveAt? marker s = none := by
  unfold directiveAt?
  split
  · rename_i c t ht
    rw [Script.Phrase.afterWord?_eq_some_iff] at ht
    by_cases hc : c.isAlpha = true
    · exact Or.inl ⟨c, t, hc, ht⟩
    · exact Or.inr (by simp [hc])
  · exact Or.inr rfl

/-- A character that is no letter begins no directive unless it is in the marker. -/
theorem directiveAt?_of_not_mem {marker : List Char} {c : Char} (hmarker : c ∉ marker)
    (hc : c.isAlpha = false) (s : List Char) : directiveAt? marker (c :: s) = none := by
  rcases eq_marker_append_or_none marker (c :: s) with ⟨d, t, hd, hs⟩ | hnone
  · cases marker with
    | nil =>
        obtain ⟨rfl, _⟩ := List.cons.inj hs
        rw [hc] at hd
        cases hd
    | cons e marker =>
        obtain ⟨rfl, _⟩ := List.cons.inj hs
        exact absurd List.mem_cons_self hmarker
  · exact hnone

/-- What follows the name of a directive: its segments, its assignment and the
rest. -/
theorem directiveAt?_marker_append {c : Char} (hc : c.isAlpha = true) (marker t : List Char) :
    directiveAt? marker (marker ++ c :: t) =
      let name := marker ++ c :: t.takeWhile isNameChar
      let behind := t.dropWhile isNameChar
      let rest := behind.drop (segments false behind).length
      some (⟨name ++ segments false behind, name, assignment? rest⟩,
        rest.drop ((assignment? rest).getD []).length) := by
  have hafter : Script.Phrase.afterWord? marker (marker ++ c :: t) = some (c :: t) :=
    (Script.Phrase.afterWord?_eq_some_iff _ _ _).mpr rfl
  have hname : marker ++ c :: t = marker ++ c :: t.takeWhile isNameChar ++
      t.dropWhile isNameChar := by
    rw [List.append_assoc, List.cons_append, List.takeWhile_append_dropWhile]
  have hdrop : (marker ++ c :: t).drop (marker ++ c :: t.takeWhile isNameChar ++
      segments false (t.dropWhile isNameChar)).length =
      (t.dropWhile isNameChar).drop (segments false (t.dropWhile isNameChar)).length := by
    rw [hname, List.length_append, ← List.drop_drop, List.drop_left]
  unfold directiveAt?
  rw [hafter]
  simp only [hc, if_true]
  rw [← List.drop_drop, hdrop]

/-! ## The search, step by step -/

/-- Where no directive begins, the search goes on behind the first character. -/
theorem directivesFrom_of_eq_none {marker s : List Char} {c : Char}
    (h : directiveAt? marker (c :: s) = none) (b : Option Char) :
    directivesFrom marker b (c :: s) = directivesFrom marker (some c) s := by
  rw [directivesFrom]
  split
  · split
    · rename_i d rest hsome
      rw [h] at hsome
      cases hsome
    · rfl
  · rfl

/-- Where a directive begins, the search goes on behind it. -/
theorem directivesFrom_of_eq_some {marker s rest : List Char} {c : Char} {b : Option Char}
    (hb : mayFollow b = true) {d : Directive} (h : directiveAt? marker (c :: s) = some (d, rest)) :
    directivesFrom marker b (c :: s) =
      d :: directivesFrom marker (d.text ++ d.assignment.getD []).getLast? rest := by
  rw [directivesFrom, if_pos hb]
  split
  · rename_i d' rest' hsome
    rw [h] at hsome
    cases hsome
    rfl
  · rename_i hnone
    rw [h] at hnone
    cases hnone

/-- Where no directive may begin, the search goes on behind the first character. -/
theorem directivesFrom_of_not_mayFollow {b : Option Char} (hb : ¬ mayFollow b = true)
    (marker s : List Char) (c : Char) :
    directivesFrom marker b (c :: s) = directivesFrom marker (some c) s := by
  rw [directivesFrom, if_neg hb]

/-- The character before a text decides only whether a directive may begin. -/
theorem directivesFrom_congr {b b' : Option Char} (h : mayFollow b = mayFollow b')
    (marker s : List Char) : directivesFrom marker b s = directivesFrom marker b' s := by
  cases s with
  | nil => rw [directivesFrom, directivesFrom]
  | cons c s =>
      rw [directivesFrom, directivesFrom, h]

/-! ## The parts of a directive before a border -/

section Parts

variable {after : List Char}

theorem takeWhile_append_of_head {p : Char → Bool} (h : ∀ c ∈ after.head?, p c = false)
    (s : List Char) : (s ++ after).takeWhile p = s.takeWhile p := by
  induction s with
  | nil =>
      cases after with
      | nil => rfl
      | cons c after => simp [h c rfl]
  | cons c s ih => by_cases hc : p c = true <;> simp [hc, ih]

theorem dropWhile_append_of_head {p : Char → Bool} (h : ∀ c ∈ after.head?, p c = false)
    (s : List Char) : (s ++ after).dropWhile p = s.dropWhile p ++ after := by
  induction s with
  | nil =>
      cases after with
      | nil => rfl
      | cons c after => simp [h c rfl]
  | cons c s ih => by_cases hc : p c = true <;> simp [hc, ih]

/-- The segments of a name end before a character that belongs to none. -/
theorem segments_append (hchar : ∀ c ∈ after.head?, isSegmentChar c = false)
    (hmark : ∀ c ∈ after.head?, isSegmentMark c = false) (inside : Bool) (s : List Char) :
    segments inside (s ++ after) = segments inside s := by
  induction s generalizing inside with
  | nil =>
      cases after with
      | nil => rfl
      | cons c after => simp [segments, hchar c rfl, hmark c rfl]
  | cons c s ih =>
      have hnext : (s ++ after).head?.any isSegmentChar = s.head?.any isSegmentChar := by
        cases s with
        | cons d s => rfl
        | nil =>
            cases after with
            | nil => rfl
            | cons d after => simp [hchar d rfl]
      simp only [List.cons_append, segments, hnext, ih]

/-- An assignment is blanks and an equals sign. -/
theorem assignment?_cons (c : Char) (s : List Char) :
    assignment? (c :: s) =
      if isBlank c then (assignment? s).map (c :: ·)
      else if c = '=' then some ['='] else none := by
  by_cases hc : isBlank c = true
  · rw [if_pos hc, assignment?, assignment?, List.dropWhile_cons_of_pos hc,
      List.takeWhile_cons_of_pos hc]
    split <;> rfl
  · rw [if_neg hc, assignment?, List.dropWhile_cons_of_neg hc, List.takeWhile_cons_of_neg hc]
    by_cases heq : c = '='
    · simp [heq]
    · rw [if_neg heq]
      split
      · rename_i t ht
        exact absurd (List.cons.inj ht).1 heq
      · rfl

/-- An assignment does not reach into text that begins none. -/
theorem assignment?_append (h : assignment? after = none) (s : List Char) :
    assignment? (s ++ after) = assignment? s := by
  induction s with
  | nil => exact h
  | cons c s ih => rw [List.cons_append, assignment?_cons, assignment?_cons, ih]

end Parts

/-! ## Borders -/

/-- No directive that begins before the text reaches into it: it goes on with no
character of a directive, and holds neither the marker nor the letter of one that has
begun. -/
structure IsBorder (marker after : List Char) : Prop where
  char : ∀ c ∈ after.head?, isSegmentChar c = false
  mark : ∀ c ∈ after.head?, isSegmentMark c = false
  assignment : assignment? after = none
  letter : ∀ s u c, c.isAlpha = true → u <+: after → s ++ u = marker ++ [c] → u = []

theorem isNameChar_eq_false_of_isSegmentChar {c : Char} (h : isSegmentChar c = false) :
    isNameChar c = false := by
  simp only [isSegmentChar, Bool.or_eq_false_iff] at h
  obtain ⟨⟨⟨hword, hhyphen⟩, _⟩, _⟩ := h
  have halnum : c.isAlphanum = false := by
    rw [Bool.eq_false_iff]
    intro halnum
    rw [Text.isWord_of_isAlphanum halnum] at hword
    cases hword
  rw [isNameChar, halnum, hhyphen, Bool.or_false]

/-- The marker and the letter of a directive stand before a border. -/
theorem IsBorder.begins {marker after : List Char} (h : IsBorder marker after) {c : Char}
    (hc : c.isAlpha = true) {s t : List Char} (hs : s ++ after = marker ++ c :: t) :
    ∃ t', s = marker ++ c :: t' ∧ t = t' ++ after := by
  have hwhole : marker ++ [c] <+: s ++ after := ⟨t, by rw [hs]; simp⟩
  have hbefore : marker ++ [c] <+: s := by
    rcases List.prefix_or_prefix_of_prefix hwhole (List.prefix_append s after) with
      hinside | ⟨u, hu⟩
    · exact hinside
    · rw [← hu] at hwhole
      have hnil : u = [] := h.letter s u c hc ((List.prefix_append_right_inj s).mp hwhole) hu
      rw [hnil, List.append_nil] at hu
      exact ⟨[], by rw [← hu, List.append_nil]⟩
  obtain ⟨t', rfl⟩ := hbefore
  refine ⟨t', by simp, ?_⟩
  simpa [eq_comm] using hs

/-- Before a border a directive is read as if nothing followed. -/
theorem directiveAt?_append {marker after : List Char} (h : IsBorder marker after)
    (s : List Char) :
    directiveAt? marker (s ++ after) =
      (directiveAt? marker s).map fun (d, rest) => (d, rest ++ after) := by
  rcases eq_marker_append_or_none marker (s ++ after) with ⟨c, t, hc, hs⟩ | hnone
  · obtain ⟨t, rfl, rfl⟩ := h.begins hc hs
    have hname : ∀ d ∈ after.head?, isNameChar d = false := by
      intro d hd
      exact isNameChar_eq_false_of_isSegmentChar (h.char d hd)
    have hsegments : (segments false (t.dropWhile isNameChar)).length ≤
        (t.dropWhile isNameChar).length := (segments_isPrefix _ _).length_le
    have hassignment : ∀ rest : List Char, ((assignment? rest).getD []).length ≤ rest.length := by
      intro rest
      cases ha : assignment? rest with
      | none => exact Nat.zero_le _
      | some a => exact (assignment?_isPrefix ha).length_le
    rw [hs, directiveAt?_marker_append hc, directiveAt?_marker_append hc]
    simp only [takeWhile_append_of_head hname, dropWhile_append_of_head hname,
      segments_append h.char h.mark, Option.map_some]
    rw [List.drop_append_of_le_length hsegments, assignment?_append h.assignment,
      List.drop_append_of_le_length (hassignment _)]
  · rcases eq_marker_append_or_none marker s with ⟨c, t, hc, rfl⟩ | hnone'
    · rw [List.append_assoc, List.cons_append, directiveAt?_marker_append hc] at hnone
      cases hnone
    · rw [hnone, hnone', Option.map_none]

/-- The last character before the rest of a text, once its first one is read. -/
theorem getLast?_cons_or (c : Char) (s : List Char) (b : Option Char) :
    (c :: s).getLast?.or b = s.getLast?.or (some c) := by
  rw [List.getLast?_cons]
  cases s.getLast? with
  | none => rfl
  | some d => rfl

/-- A search may stop at a border and go on there.  It keeps only the last character
before it. -/
theorem directivesFrom_append {marker after : List Char} (h : IsBorder marker after)
    (b : Option Char) (s : List Char) :
    directivesFrom marker b (s ++ after) =
      directivesFrom marker b s ++ directivesFrom marker (s.getLast?.or b) after := by
  induction b, s using directivesFrom.induct marker with
  | case1 b =>
      have hnil : directivesFrom marker b [] = [] := by rw [directivesFrom]
      rw [hnil, List.nil_append, List.nil_append, List.getLast?_nil, Option.none_or]
  | case2 b c s hb d rest hsome ih =>
      have hsome' : directiveAt? marker (c :: (s ++ after)) = some (d, rest ++ after) := by
        rw [← List.cons_append, directiveAt?_append h, hsome, Option.map_some]
      have hlast : (c :: s).getLast?.or b =
          rest.getLast?.or (d.text ++ d.assignment.getD []).getLast? := by
        have hfirst : (c :: s).getLast?.or b = (c :: s).getLast? := by
          rw [getLast?_cons_or, List.getLast?_cons]
          cases s.getLast? <;> rfl
        rw [hfirst, eq_append_of_directiveAt? hsome, ← List.append_assoc, List.getLast?_append]
      rw [List.cons_append, directivesFrom_of_eq_some hb hsome', directivesFrom_of_eq_some hb hsome,
        ih, hlast, List.cons_append]
  | case3 b c s _ hnone ih =>
      have hnone' : directiveAt? marker (c :: (s ++ after)) = none := by
        rw [← List.cons_append, directiveAt?_append h, hnone, Option.map_none]
      rw [List.cons_append, directivesFrom_of_eq_none hnone', directivesFrom_of_eq_none hnone, ih,
        getLast?_cons_or]
  | case4 b c s hb ih =>
      rw [List.cons_append, directivesFrom_of_not_mayFollow hb, directivesFrom_of_not_mayFollow hb,
        ih, getLast?_cons_or]

end SingleFile.Template
