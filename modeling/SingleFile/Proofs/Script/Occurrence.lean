import SingleFile.Proofs.Script.Recognition

/-!
# Occurrences of phrases

A phrase is spelled by its words in order, with nothing but blanks between them.
It may occur at many places of a text.  Each place has at most one spelling, and
what follows a later occurrence is a part of what follows an earlier one, so that
nothing is lost by looking at the first occurrence alone.

Main results:

- Theorem `Phrase.after?_eq_some_iff`: a text begins with a phrase exactly when it
  begins with a spelling of it.
- Theorem `Phrase.cut_eq_some_iff`: a text is cut at the first occurrence.
- Theorem `Phrase.cut_eq_none_iff_not_occurs`: a cut fails exactly when the phrase
  does not occur.
- Theorem `Phrase.Occurs.suffix`: what follows a later occurrence is a part of what
  follows an earlier one.
-/

namespace SingleFile.Script

open SingleFile.Text (isBlank isBlankText dropBlank)

/-! ## Marks in a text -/

/-- A mark of the given kind stands in the text between the two parts. -/
def StandsIn (marks : List Char → Prop) (s before rest : List Char) : Prop :=
  ∃ t, marks t ∧ s = before ++ (t ++ rest)

/-- A mark of the given kind stands between the two parts, and none stands earlier. -/
def StandsFirst (marks : List Char → Prop) (s before rest : List Char) : Prop :=
  StandsIn marks s before rest ∧
    ∀ before' rest', StandsIn marks s before' rest' → before.length ≤ before'.length

namespace Phrase

/-! ## Spellings -/

/-- The text is the words of the phrase in order, with blanks between them. -/
inductive Spells : Phrase → List Char → Prop where
  | nil : Spells [] []
  | word (w : List Char) : Spells [w] w
  | words {w v gap t : List Char} {ws : Phrase} (blank : isBlankText gap = true)
      (rest : Spells (v :: ws) t) : Spells (w :: v :: ws) (w ++ (gap ++ t))

/-- Every word of the phrase begins with a character that is no blank. -/
def IsVisible (p : Phrase) : Prop :=
  ∀ w ∈ p, ∃ c ∈ w.head?, isBlank c = false

instance (p : Phrase) : Decidable p.IsVisible :=
  decidable_of_iff (p.all (fun w => w.head?.any fun c => !isBlank c) = true) <| by
    simp [IsVisible, Option.any_eq_true]

theorem IsVisible.tail {w : List Char} {p : Phrase} (h : IsVisible (w :: p)) : p.IsVisible :=
  fun v hv => h v (List.mem_cons_of_mem w hv)

theorem spells_word_iff {w t : List Char} : Spells [w] t ↔ t = w := by
  constructor
  · intro h
    cases h
    rfl
  · rintro rfl
    exact .word t

theorem spells_words_iff {w v t : List Char} {ws : Phrase} :
    Spells (w :: v :: ws) t ↔
      ∃ gap u, isBlankText gap = true ∧ Spells (v :: ws) u ∧ t = w ++ (gap ++ u) := by
  constructor
  · intro h
    cases h with
    | words blank rest => exact ⟨_, _, blank, rest, rfl⟩
  · rintro ⟨gap, u, blank, rest, rfl⟩
    exact .words blank rest

theorem spells_pair_iff {v w t : List Char} :
    Spells [v, w] t ↔ ∃ gap, isBlankText gap = true ∧ t = v ++ (gap ++ w) := by
  rw [spells_words_iff]
  constructor
  · rintro ⟨gap, u, hgap, hu, rfl⟩
    rw [spells_word_iff] at hu
    exact ⟨gap, hgap, by rw [hu]⟩
  · rintro ⟨gap, hgap, rfl⟩
    exact ⟨gap, w, hgap, .word w, rfl⟩

/-- A spelling begins as the first word does. -/
theorem Spells.exists_cons {w t : List Char} {p : Phrase} (h : Spells (w :: p) t)
    (hw : ∃ c ∈ w.head?, isBlank c = false) : ∃ c u, t = c :: u ∧ isBlank c = false := by
  obtain ⟨c, hc, hvisible⟩ := hw
  cases w with
  | nil => cases hc
  | cons d w =>
      simp only [List.head?_cons, Option.mem_def, Option.some.injEq] at hc
      subst hc
      cases h with
      | word => exact ⟨d, w, rfl, hvisible⟩
      | words _ _ => exact ⟨d, _, rfl, hvisible⟩

/-- A text begins with a phrase exactly when it begins with a spelling of it. -/
theorem after?_eq_some_iff {p : Phrase} (hp : p.IsVisible) {s rest : List Char} :
    p.after? s = some rest ↔ ∃ t, p.Spells t ∧ s = t ++ rest := by
  induction p generalizing s with
  | nil =>
      constructor
      · intro h
        exact ⟨[], .nil, by simpa [after?] using h⟩
      · rintro ⟨t, h, rfl⟩
        cases h
        rfl
  | cons w p ih =>
      cases p with
      | nil => simp [after?, afterWord?_eq_some_iff, spells_word_iff]
      | cons v ws =>
          constructor
          · intro h
            rw [after?] at h
            split at h
            · cases h
            · rename_i r hr
              rw [afterWord?_eq_some_iff] at hr
              obtain ⟨gap, hgap, hsplit⟩ := Text.exists_eq_append_dropBlank r
              obtain ⟨t, ht, hdrop⟩ := (ih hp.tail).mp h
              refine ⟨w ++ (gap ++ t), .words hgap ht, ?_⟩
              rw [hr, hsplit, hdrop, List.append_assoc, List.append_assoc]
          · rintro ⟨t, h, rfl⟩
            obtain ⟨gap, u, hgap, hu, rfl⟩ := spells_words_iff.mp h
            have hword : afterWord? w (w ++ (gap ++ u) ++ rest) = some (gap ++ (u ++ rest)) := by
              rw [afterWord?_eq_some_iff, List.append_assoc, List.append_assoc]
            have hdrop : dropBlank (gap ++ (u ++ rest)) = u ++ rest := by
              obtain ⟨c, u', hc, hvisible⟩ := hu.exists_cons (hp.tail v List.mem_cons_self)
              rw [Text.dropBlank_blank_append hgap, hc]
              exact Text.dropBlank_of_head hvisible
            rw [after?, hword]
            simp only [hdrop]
            exact (ih hp.tail).mpr ⟨u, hu, rfl⟩

/-! ## Occurrences -/

/-- A spelling of the phrase stands in the text between the two parts. -/
def Occurs (p : Phrase) : List Char → List Char → List Char → Prop :=
  StandsIn p.Spells

/-- The phrase occurs in the text between the two parts, and nowhere earlier. -/
def OccursFirst (p : Phrase) : List Char → List Char → List Char → Prop :=
  StandsFirst p.Spells

theorem OccursFirst.occurs {p : Phrase} {s before rest : List Char}
    (h : p.OccursFirst s before rest) : p.Occurs s before rest :=
  h.1

/-- A phrase occurs where the text can be read behind it. -/
theorem occurs_iff_after? {p : Phrase} (hp : p.IsVisible) {s before rest : List Char} :
    p.Occurs s before rest ↔ ∃ t, s = before ++ t ∧ p.after? t = some rest := by
  constructor
  · rintro ⟨t, ht, hs⟩
    exact ⟨t ++ rest, hs, (after?_eq_some_iff hp).mpr ⟨t, ht, rfl⟩⟩
  · rintro ⟨u, hs, hu⟩
    obtain ⟨t, ht, rfl⟩ := (after?_eq_some_iff hp).mp hu
    exact ⟨t, ht, hs⟩

/-- A phrase occurs at the front of a text, or behind its first character. -/
theorem occurs_cons_iff {p : Phrase} (hp : p.IsVisible) {c : Char} {s before rest : List Char} :
    p.Occurs (c :: s) before rest ↔
      (before = [] ∧ p.after? (c :: s) = some rest) ∨
        ∃ b, before = c :: b ∧ p.Occurs s b rest := by
  simp only [occurs_iff_after? hp]
  constructor
  · rintro ⟨t, hs, ht⟩
    cases before with
    | nil => exact .inl ⟨rfl, by rw [hs]; exact ht⟩
    | cons d b =>
        obtain ⟨rfl, htail⟩ := List.cons.inj hs
        exact .inr ⟨b, rfl, t, htail, ht⟩
  · rintro (⟨rfl, h⟩ | ⟨b, rfl, t, rfl, ht⟩)
    · exact ⟨c :: s, rfl, h⟩
    · exact ⟨t, rfl, ht⟩

/-- At one place there is at most one occurrence. -/
theorem Occurs.unique {p : Phrase} (hp : p.IsVisible) {s before rest before' rest' : List Char}
    (h : p.Occurs s before rest) (h' : p.Occurs s before' rest')
    (hlength : before.length = before'.length) : before = before' ∧ rest = rest' := by
  obtain ⟨t, hs, ht⟩ := (occurs_iff_after? hp).mp h
  obtain ⟨t', hs', ht'⟩ := (occurs_iff_after? hp).mp h'
  obtain ⟨hbefore, rfl⟩ := List.append_inj (hs.symm.trans hs') hlength
  rw [ht, Option.some.injEq] at ht'
  exact ⟨hbefore, ht'⟩

/-- A phrase occurs first at one place. -/
theorem OccursFirst.unique {p : Phrase} (hp : p.IsVisible) {s before rest before' rest' : List Char}
    (h : p.OccursFirst s before rest) (h' : p.OccursFirst s before' rest') :
    before = before' ∧ rest = rest' := by
  have hle := h.2 before' rest' h'.occurs
  have hge := h'.2 before rest h.occurs
  exact h.occurs.unique hp h'.occurs (by omega)

/-- An occurrence in the last part of a text is one in the text. -/
theorem Occurs.of_suffix {p : Phrase} {s s' before rest : List Char} (h : p.Occurs s' before rest)
    (hs : s' <:+ s) : ∃ before', p.Occurs s before' rest := by
  obtain ⟨u, rfl⟩ := hs
  obtain ⟨t, ht, rfl⟩ := h
  exact ⟨u ++ before, t, ht, by rw [List.append_assoc]⟩

/-! ## The first occurrence -/

/-- A text is cut at the first occurrence of a phrase. A cut that passes a character over
has found nothing at its place. -/
theorem cut_eq_some_iff {p : Phrase} (hp : p.IsVisible) {s before rest : List Char} :
    p.cut s = some (before, rest) ↔ p.OccursFirst s before rest := by
  suffices hfirst : ∀ before rest, p.cut s = some (before, rest) → p.OccursFirst s before rest by
    refine ⟨hfirst before rest, fun h => ?_⟩
    cases hcut : p.cut s with
    | none =>
        obtain ⟨t, rfl, ht⟩ := (occurs_iff_after? hp).mp h.occurs
        have hnone := (cut_eq_none_iff p (before ++ t)).mp hcut t (List.suffix_append before t)
        rw [hnone] at ht
        cases ht
    | some found =>
        obtain ⟨hbefore, hrest⟩ := (hfirst found.1 found.2 hcut).unique hp h
        rw [← hbefore, ← hrest]
  intro before rest h
  refine ⟨(occurs_iff_after? hp).mpr (eq_append_of_cut h), fun before' rest' hoccurs => ?_⟩
  induction s generalizing before before' with
  | nil =>
      obtain ⟨t, hs, _⟩ := eq_append_of_cut h
      have hnil := (List.append_eq_nil_iff.mp hs.symm).1
      simp [hnil]
  | cons c s ih =>
      rw [cut] at h
      split at h
      · cases h
        exact Nat.zero_le _
      · rename_i hnone
        obtain ⟨⟨b, r⟩, hcut, heq⟩ := Option.map_eq_some_iff.mp h
        cases heq
        rcases (occurs_cons_iff hp).mp hoccurs with ⟨_, hfront⟩ | ⟨b', rfl, hoccurs'⟩
        · rw [hnone] at hfront
          cases hfront
        · have hle := ih b hcut b' hoccurs'
          simp only [List.length_cons]
          omega

/-- A cut fails exactly when the phrase does not occur. -/
theorem cut_eq_none_iff_not_occurs {p : Phrase} (hp : p.IsVisible) {s : List Char} :
    p.cut s = none ↔ ∀ before rest, ¬ p.Occurs s before rest := by
  rw [cut_eq_none_iff]
  constructor
  · intro h before rest hoccurs
    obtain ⟨t, rfl, ht⟩ := (occurs_iff_after? hp).mp hoccurs
    rw [h t (List.suffix_append before t)] at ht
    cases ht
  · rintro h t ⟨before, rfl⟩
    cases ht : p.after? t with
    | none => rfl
    | some rest => exact absurd ((occurs_iff_after? hp).mpr ⟨t, rfl, ht⟩) (h before rest)

/-- A phrase that occurs has a first occurrence. -/
theorem Occurs.exists_first {p : Phrase} (hp : p.IsVisible) {s before rest : List Char}
    (h : p.Occurs s before rest) : ∃ before' rest', p.OccursFirst s before' rest' := by
  cases hcut : p.cut s with
  | none => exact absurd h ((cut_eq_none_iff_not_occurs hp).mp hcut before rest)
  | some found => exact ⟨found.1, found.2, (cut_eq_some_iff hp).mp hcut⟩

/-! ## Later occurrences -/

/-- Behind its leading blanks, the last part of a text is still a last part. -/
theorem dropBlank_suffix_dropBlank {s s' : List Char} (h : s' <:+ s) :
    dropBlank s' <:+ dropBlank s := by
  obtain ⟨u, rfl⟩ := h
  induction u with
  | nil => exact List.suffix_rfl
  | cons c u ih =>
      by_cases hc : isBlank c = true
      · simpa [dropBlank, hc] using ih
      · have hvisible : isBlank c = false := by simpa using hc
        rw [List.cons_append, Text.dropBlank_of_head hvisible]
        have hrest : s' <:+ c :: (u ++ s') := ⟨c :: u, rfl⟩
        exact (List.dropWhile_suffix isBlank).trans hrest

theorem suffix_of_afterWord? {w s s' rest rest' : List Char} (hs : s' <:+ s)
    (h : afterWord? w s = some rest) (h' : afterWord? w s' = some rest') : rest' <:+ rest := by
  rw [afterWord?_eq_some_iff] at h h'
  obtain ⟨u, hu⟩ := hs
  rw [h, h', ← List.append_assoc] at hu
  have hlength := congrArg List.length hu
  simp only [List.length_append] at hlength
  exact List.suffix_of_suffix_length_le ⟨u ++ w, hu⟩ (List.suffix_append w rest) (by omega)

/-- What follows a phrase at the front of a last part of a text is a part of what
follows it at the front of the text. -/
theorem suffix_of_after? {p : Phrase} {s s' rest rest' : List Char} (hs : s' <:+ s)
    (h : p.after? s = some rest) (h' : p.after? s' = some rest') : rest' <:+ rest := by
  induction p generalizing s s' with
  | nil =>
      simp only [after?, Option.some.injEq] at h h'
      rwa [← h, ← h']
  | cons w p ih =>
      cases p with
      | nil => exact suffix_of_afterWord? hs h h'
      | cons v ws =>
          rw [after?] at h h'
          split at h
          · cases h
          · rename_i r hr
            split at h'
            · cases h'
            · rename_i r' hr'
              exact ih (dropBlank_suffix_dropBlank (suffix_of_afterWord? hs hr hr')) h h'

/-- What follows a later occurrence is a part of what follows an earlier one. -/
theorem Occurs.suffix {p : Phrase} (hp : p.IsVisible) {s before rest before' rest' : List Char}
    (h : p.Occurs s before rest) (h' : p.Occurs s before' rest')
    (hlength : before.length ≤ before'.length) : rest' <:+ rest := by
  obtain ⟨t, rfl, ht⟩ := (occurs_iff_after? hp).mp h
  obtain ⟨t', hs', ht'⟩ := (occurs_iff_after? hp).mp h'
  have hle := congrArg List.length hs'
  simp only [List.length_append] at hle
  have hsuffix : t' <:+ t := List.suffix_of_suffix_length_le ⟨before', hs'.symm⟩
    (List.suffix_append before t) (by omega)
  exact suffix_of_after? hsuffix ht ht'

/-- A phrase that occurs in the last part of a text has a first occurrence in the
text, behind which there stands no less. -/
theorem Occurs.exists_first_of_suffix {p : Phrase} (hp : p.IsVisible)
    {s s' before' rest' : List Char} (h : p.Occurs s' before' rest') (hs : s' <:+ s) :
    ∃ before rest, p.OccursFirst s before rest ∧ rest' <:+ rest := by
  obtain ⟨later, hlater⟩ := h.of_suffix hs
  obtain ⟨before, rest, hfirst⟩ := hlater.exists_first hp
  exact ⟨before, rest, hfirst, hfirst.occurs.suffix hp hlater (hfirst.2 later rest' hlater)⟩

end Phrase

end SingleFile.Script
