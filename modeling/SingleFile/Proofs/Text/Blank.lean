import SingleFile.Text.Blank
import SingleFile.Text.Word

/-!
# Blanks around and between

A text consists of blanks, its trimmed form, and blanks again.  Where a word
ends at a blank or a parenthesis it ends for good, as neither is a word
character.

Main results:

- Theorem `exists_eq_append_trim`: what trimming takes away.
- Theorem `trim_blank_append_blank`: blanks around a text are trimmed away.
- Theorem `mem_of_mem_pieces`: pieces are made of the characters of a text.
- Theorems `pieces_intercalate` and `intercalate_pieces`: cutting a text at a separator
  and joining its pieces undo each other.
- Theorem `filledPieces_intercalate`: a joined list is cut into its elements.
- Theorem `isWord_eq_false_of_isBlank`: no blank is a word character.
-/

namespace SingleFile.Text

/-! ## Trimming -/

/-- Dropping the leading blanks of a text takes a blank text away. -/
theorem exists_eq_append_dropBlank (s : List Char) :
    ∃ before, isBlankText before = true ∧ s = before ++ dropBlank s :=
  ⟨s.takeWhile isBlank, List.all_takeWhile, List.takeWhile_append_dropWhile.symm⟩

/-- A text consists of blanks, its trimmed form, and blanks again. -/
theorem exists_eq_append_trim (s : List Char) :
    ∃ before after, isBlankText before = true ∧ isBlankText after = true ∧
      s = before ++ (trim s ++ after) := by
  obtain ⟨before, hbefore, hs⟩ := exists_eq_append_dropBlank s
  obtain ⟨after, hafter, hrest⟩ := exists_eq_append_dropBlank (dropBlank s).reverse
  refine ⟨before, after.reverse, hbefore, ?_, ?_⟩
  · simpa [isBlankText] using hafter
  · have hdrop : dropBlank s = trim s ++ after.reverse := by
      have hreverse := congrArg List.reverse hrest
      simpa [trim] using hreverse
    rw [← hdrop]
    exact hs

theorem mem_of_mem_trim {c : Char} {s : List Char} (h : c ∈ trim s) : c ∈ s := by
  obtain ⟨before, after, _, _, hs⟩ := exists_eq_append_trim s
  rw [hs]
  simp [h]

/-- Blanks in front are dropped with those that follow. -/
theorem dropBlank_blank_append {before : List Char} (h : isBlankText before = true)
    (s : List Char) : dropBlank (before ++ s) = dropBlank s :=
  List.dropWhile_append_of_pos (List.all_eq_true.mp h)

theorem isBlankText_reverse (s : List Char) : isBlankText s.reverse = isBlankText s := by
  simp [isBlankText]

/-- Blanks in front are trimmed. -/
theorem trim_blank_append {before : List Char} (h : isBlankText before = true) (s : List Char) :
    trim (before ++ s) = trim s := by
  rw [trim, dropBlank_blank_append h, ← trim]

/-- Blanks at the end are trimmed. -/
theorem trim_append_blank {after : List Char} (h : isBlankText after = true) (s : List Char) :
    trim (s ++ after) = trim s := by
  have hreverse : isBlankText after.reverse = true := by rw [isBlankText_reverse, h]
  cases hs : dropBlank s with
  | nil =>
      have hblank : isBlankText s = true := (dropBlank_eq_nil_iff s).mp hs
      rw [trim_blank_append hblank, (trim_eq_nil_iff after).mpr h, (trim_eq_nil_iff s).mpr hblank]
  | cons c t =>
      have happend : dropBlank (s ++ after) = (c :: t) ++ after := by
        obtain ⟨before, hbefore, hsplit⟩ := exists_eq_append_dropBlank s
        rw [hs] at hsplit
        rw [hsplit, List.append_assoc, dropBlank_blank_append hbefore]
        exact dropBlank_of_head (head_dropBlank hs)
      rw [trim, happend, trim, hs, List.reverse_append, dropBlank_blank_append hreverse]

/-- Blanks around a text are trimmed away. -/
theorem trim_blank_append_blank {before after : List Char} (hbefore : isBlankText before = true)
    (hafter : isBlankText after = true) (s : List Char) :
    trim (before ++ (s ++ after)) = trim s := by
  rw [trim_blank_append hbefore, trim_append_blank hafter]

/-- A text without blanks is its own trimmed form. -/
theorem trim_of_not_blank {s : List Char} (h : ∀ c ∈ s, isBlank c = false) : trim s = s := by
  obtain ⟨before, after, hbefore, hafter, hs⟩ := exists_eq_append_trim s
  have hnil : ∀ t : List Char, isBlankText t = true → (∀ c ∈ t, c ∈ s) → t = [] := by
    intro t ht hmem
    refine List.eq_nil_iff_forall_not_mem.mpr fun c hc => ?_
    have hblank := List.all_eq_true.mp ht c hc
    rw [h c (hmem c hc)] at hblank
    cases hblank
  have hb := hnil before hbefore fun c hc => by rw [hs]; simp [hc]
  have ha := hnil after hafter fun c hc => by rw [hs]; simp [hc]
  rw [ha, hb] at hs
  simpa using hs.symm

/-- The last character that is no blank, as it is met from behind. -/
theorem dropBlank_reverse_append {c : Char} {gap : List Char} (hc : isBlank c = false)
    (hgap : isBlankText gap = true) (s : List Char) :
    dropBlank (s ++ c :: gap).reverse = c :: s.reverse := by
  have hreverse : isBlankText gap.reverse = true := by rw [isBlankText_reverse, hgap]
  rw [List.reverse_append, List.reverse_cons, List.append_assoc, dropBlank_blank_append hreverse]
  exact dropBlank_of_head hc

/-- Before the blanks at its end a text has one last character. -/
theorem eq_of_append_blank {c d : Char} {s t gap gap' : List Char} (hc : isBlank c = false)
    (hd : isBlank d = false) (hgap : isBlankText gap = true) (hgap' : isBlankText gap' = true)
    (h : s ++ c :: gap = t ++ d :: gap') : c = d := by
  have hlast := dropBlank_reverse_append hc hgap s
  rw [h, dropBlank_reverse_append hd hgap' t] at hlast
  exact (List.cons.inj hlast).1.symm

/-! ## Pieces -/

/-- A piece of a text is made of characters of the text. -/
theorem mem_of_mem_pieces {c separator : Char} {s piece : List Char}
    (h : piece ∈ pieces separator s) (hc : c ∈ piece) : c ∈ s := by
  induction s generalizing piece with
  | nil =>
      simp only [pieces, List.mem_singleton] at h
      simp [h] at hc
  | cons d s ih =>
      simp only [pieces] at h
      split at h
      · rename_i hnil
        exact absurd hnil (pieces_ne_nil separator s)
      · rename_i q qs hs
        have hrest : ∀ r ∈ q :: qs, c ∈ r → c ∈ d :: s := by
          intro r hr hcr
          exact List.mem_cons_of_mem d (ih (by rw [hs]; exact hr) hcr)
        split at h
        · rcases List.mem_cons.mp h with rfl | h
          · cases hc
          · exact hrest piece h hc
        · rcases List.mem_cons.mp h with rfl | h
          · rcases List.mem_cons.mp hc with rfl | hc
            · exact List.mem_cons_self
            · exact hrest q List.mem_cons_self hc
          · exact hrest piece (List.mem_cons_of_mem q h) hc

theorem pieces_of_not_mem {separator : Char} {s : List Char} (h : separator ∉ s) :
    pieces separator s = [s] := by
  induction s with
  | nil => rfl
  | cons c s ih =>
      simp only [List.mem_cons, not_or] at h
      have hc : (c == separator) = false := by simp [Ne.symm h.1]
      simp [pieces, ih h.2, hc]

/-- The first piece ends at the first separator. -/
theorem pieces_append_cons {separator : Char} {s : List Char} (h : separator ∉ s)
    (t : List Char) : pieces separator (s ++ separator :: t) = s :: pieces separator t := by
  induction s with
  | nil =>
      cases ht : pieces separator t with
      | nil => exact absurd ht (pieces_ne_nil separator t)
      | cons p ps => simp [pieces, ht]
  | cons c s ih =>
      simp only [List.mem_cons, not_or] at h
      have hc : (c == separator) = false := by simp [Ne.symm h.1]
      simp [pieces, ih h.2, hc]

/-- Pieces that are joined by a separator are cut apart again. -/
theorem pieces_intercalate {separator : Char} {ps : List (List Char)} (hne : ps ≠ [])
    (h : ∀ p ∈ ps, separator ∉ p) : pieces separator ([separator].intercalate ps) = ps := by
  induction ps with
  | nil => exact absurd rfl hne
  | cons p ps ih =>
      have hp := h p List.mem_cons_self
      cases ps with
      | nil =>
          rw [List.intercalate_singleton]
          exact pieces_of_not_mem hp
      | cons q ps =>
          have hrest := ih (by simp) fun r hr => h r (List.mem_cons_of_mem p hr)
          rw [List.intercalate_cons_cons, List.append_assoc, List.singleton_append,
            pieces_append_cons hp, hrest]

/-- A text is what its pieces make when they are joined again. -/
theorem intercalate_pieces (separator : Char) (s : List Char) :
    [separator].intercalate (pieces separator s) = s := by
  induction s with
  | nil => rfl
  | cons c s ih =>
      cases hs : pieces separator s with
      | nil => exact absurd hs (pieces_ne_nil separator s)
      | cons p ps =>
          rw [hs] at ih
          by_cases hc : c = separator
          · subst hc
            simp [pieces, hs, ih]
          · have hpieces : pieces separator (c :: s) = (c :: p) :: ps := by
              simp [pieces, hs, hc]
            rw [hpieces]
            cases ps with
            | nil =>
                rw [List.intercalate_singleton] at ih ⊢
                rw [ih]
            | cons q ps =>
                rw [List.intercalate_cons_cons] at ih ⊢
                rw [← ih]
                rfl

/-- A blank before a text does not show in its trimmed pieces. -/
theorem filledPieces_blank_cons {separator c : Char} (hc : isBlank c = true)
    (hne : c ≠ separator) (s : List Char) :
    filledPieces separator (c :: s) = filledPieces separator s := by
  have hblank : isBlankText [c] = true := by simp [isBlankText, hc]
  cases hs : pieces separator s with
  | nil => exact absurd hs (pieces_ne_nil separator s)
  | cons p ps =>
      have htrim : trim (c :: p) = trim p := trim_blank_append hblank p
      simp [filledPieces, pieces, hs, hne, htrim]

/-- The text can stand in a list: it is trimmed, and neither empty nor divided
by the separator. -/
structure IsElement (separator : Char) (s : List Char) : Prop where
  ne_nil : s ≠ []
  trim_eq : trim s = s
  not_mem : separator ∉ s

/-- An element before a separator is the first filled piece. -/
theorem IsElement.filledPieces_append_cons {separator : Char} {s : List Char}
    (h : IsElement separator s) (t : List Char) :
    filledPieces separator (s ++ separator :: t) = s :: filledPieces separator t := by
  simp [filledPieces, pieces_append_cons h.not_mem, h.trim_eq, h.ne_nil]

theorem IsElement.filledPieces_self {separator : Char} {s : List Char}
    (h : IsElement separator s) : filledPieces separator s = [s] := by
  simp [filledPieces, pieces_of_not_mem h.not_mem, h.trim_eq, h.ne_nil]

/-- Filled pieces are elements. -/
theorem isElement_of_mem_filledPieces {separator : Char} {s p : List Char}
    (h : p ∈ filledPieces separator s) : IsElement separator p := by
  simp only [filledPieces, List.mem_filter, List.mem_map] at h
  obtain ⟨⟨piece, hpiece, rfl⟩, hne⟩ := h
  refine ⟨by simpa using hne, trim_trim piece, fun hmem => ?_⟩
  exact mem_pieces hpiece (mem_of_mem_trim hmem)

/-- Elements that are joined by a separator and a blank are cut apart again. -/
theorem filledPieces_intercalate {separator c : Char} (hc : isBlank c = true)
    (hne : c ≠ separator) {ls : List (List Char)} (h : ∀ l ∈ ls, IsElement separator l) :
    filledPieces separator ([separator, c].intercalate ls) = ls := by
  induction ls with
  | nil => rfl
  | cons l ls ih =>
      have hl := h l List.mem_cons_self
      have hls := ih fun m hm => h m (List.mem_cons_of_mem l hm)
      cases ls with
      | nil =>
          rw [List.intercalate_singleton]
          exact hl.filledPieces_self
      | cons m ls =>
          rw [List.intercalate_cons_cons, List.append_assoc, List.cons_append, List.cons_append,
            List.nil_append, hl.filledPieces_append_cons, filledPieces_blank_cons hc hne, hls]

/-! ## Blanks and words -/

/-- The code points of the blanks. -/
def blankCodes : List Nat :=
  [9, 10, 11, 12, 13, 28, 29, 30, 31, 32, 0x85, 0xA0, 0x1680, 0x2000, 0x2001, 0x2002, 0x2003,
    0x2004, 0x2005, 0x2006, 0x2007, 0x2008, 0x2009, 0x200A, 0x2028, 0x2029, 0x202F, 0x205F, 0x3000]

/-- Every blank is listed by its code. -/
theorem mem_blankCodes_of_isBlank {c : Char} (h : isBlank c = true) : c.toNat ∈ blankCodes := by
  simp only [isBlank, Bool.or_eq_true, Bool.and_eq_true, decide_eq_true_eq, beq_iff_eq] at h
  simp only [blankCodes, List.mem_cons, List.not_mem_nil, or_false]
  omega

/-- No blank is a word character. -/
theorem isWord_eq_false_of_isBlank {c : Char} (h : isBlank c = true) : isWord c = false := by
  have hcodes : ∀ n ∈ blankCodes, isWord (Char.ofNat n) = false := by decide +kernel
  rw [← Char.ofNat_toNat c]
  exact hcodes _ (mem_blankCodes_of_isBlank h)

end SingleFile.Text
