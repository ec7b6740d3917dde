import SingleFile.Proofs.Text.Blank
import SingleFile.Script.Extraction

/-!
# Recognition

What the recognisers find in a script is decided by the first place where their
header stands.  A header is never found in a blank text, so that leaving blank
scripts unread changes nothing; and a header at the very front of a script is
the first one.

Main results:

- Theorem `extract_text`: extraction from a text succeeds with everything that
  is recognised in it.
- Theorem `Phrase.cut_of_after?`: a phrase at the front of a text is its first
  occurrence.
- Theorem `Phrase.exists_of_cut_append`: the last two words of a phrase stand before
  what follows it.
-/

namespace SingleFile.Script

/-! ## Headers -/

/-- A phrase at the front of a text is its first occurrence. -/
theorem Phrase.cut_of_after? {p : Phrase} {s rest : List Char} (h : p.after? s = some rest) :
    p.cut s = some ([], rest) := by
  cases s with
  | nil => simp [cut, h]
  | cons c s => simp [cut, h]

theorem Phrase.after?_eq_none_of_head {c d : Char} {w s : List Char} {p : Phrase} (h : c ≠ d) :
    after? ((c :: w) :: p) (d :: s) = none := by
  cases p with
  | nil => simp [after?, afterWord?, h]
  | cons v ws => simp [after?, afterWord?, h]

/-- Between the last two words of a phrase there is nothing but blanks. -/
theorem Phrase.exists_of_after?_append {p : Phrase} {v w s rest : List Char}
    (h : after? (p ++ [v, w]) s = some rest) :
    ∃ before gap, Text.isBlankText gap = true ∧
      s = before ++ (v ++ (gap ++ (w ++ rest))) := by
  induction p generalizing s with
  | nil =>
      simp only [List.nil_append, after?] at h
      split at h
      · cases h
      · rename_i t ht
        rw [afterWord?_eq_some_iff] at ht h
        obtain ⟨gap, hgap, hsplit⟩ := Text.exists_eq_append_dropBlank t
        exact ⟨[], gap, hgap, by rw [ht, hsplit, h]; rfl⟩
  | cons u p ih =>
      obtain ⟨u', ws, hws⟩ : ∃ u' ws, p ++ [v, w] = u' :: ws := by
        cases p with
        | nil => exact ⟨v, [w], rfl⟩
        | cons u' p => exact ⟨u', p ++ [v, w], rfl⟩
      rw [List.cons_append, hws, after?] at h
      split at h
      · cases h
      · rename_i t ht
        rw [← hws] at h
        rw [afterWord?_eq_some_iff] at ht
        obtain ⟨skipped, _, hskipped⟩ := Text.exists_eq_append_dropBlank t
        obtain ⟨before, gap, hgap, hsplit⟩ := ih h
        refine ⟨u ++ (skipped ++ before), gap, hgap, ?_⟩
        rw [ht, hskipped, hsplit]
        simp

/-- Where a phrase is found, its last two words stand before what follows it. -/
theorem Phrase.exists_of_cut_append {p : Phrase} {v w s before rest : List Char}
    (h : cut (p ++ [v, w]) s = some (before, rest)) :
    ∃ before' gap, Text.isBlankText gap = true ∧
      s = before' ++ (v ++ (gap ++ (w ++ rest))) := by
  obtain ⟨t, hs, ht⟩ := eq_append_of_cut h
  obtain ⟨skipped, gap, hgap, hsplit⟩ := exists_of_after?_append ht
  exact ⟨before ++ skipped, gap, hgap, by rw [hs, hsplit, List.append_assoc]⟩

/-- What follows a phrase that is found is a suffix of the text. -/
theorem Phrase.suffix_of_cut {p : Phrase} {s before rest : List Char}
    (h : p.cut s = some (before, rest)) : rest <:+ s := by
  obtain ⟨t, hs, ht⟩ := eq_append_of_cut h
  exact (after?_suffix ht).trans ⟨before, hs.symm⟩

/-- A phrase that begins with a visible character is not found in a blank
text. -/
theorem Phrase.cut_of_blank {c : Char} {w s : List Char} {p : Phrase}
    (hc : Text.isBlank c = false) (hs : Text.isBlankText s = true) :
    cut ((c :: w) :: p) s = none := by
  induction s with
  | nil =>
      cases p with
      | nil => simp [cut, after?, afterWord?]
      | cons v ws => simp [cut, after?, afterWord?]
  | cons d s ih =>
      simp only [Text.isBlankText, List.all_cons, Bool.and_eq_true] at hs
      have hne : c ≠ d := by
        rintro rfl
        rw [hc] at hs
        exact Bool.false_ne_true hs.1
      simp [cut, after?_eq_none_of_head hne, ih hs.2]

/-! ## Blank scripts -/

/-- Nothing is recognised in a blank text. -/
theorem Fragments.ofScript_of_blank {script : List Char}
    (h : Text.isBlankText script = true) : Fragments.ofScript script = {} := by
  have hsetup : setupHeader.cut script = none := Phrase.cut_of_blank (by decide) h
  have hdata : dataHeader.cut script = none := Phrase.cut_of_blank (by decide) h
  have hmethods : methodsHeader.cut script = none := Phrase.cut_of_blank (by decide) h
  simp [ofScript, initializer?, methods?, setupBody?, dataBody?, methodsInterior?, hsetup, hdata,
    hmethods]

/-- Extraction from a text succeeds with everything that is recognised in it. -/
theorem extract_text (script : String) :
    extract none (.text script) = .ok (Fragments.ofScript script.toList) := by
  cases h : Text.isBlankString script with
  | true => rw [extract_blank none h, Fragments.ofScript_of_blank h]
  | false => simp [extract, h]

/-! ## Initializers -/

/-- The body of `setup` among the fragments is the one found in the script. -/
theorem Fragments.setupBody_ofScript (script : List Char) :
    (ofScript script).setupBody = (setupBody? script).map String.ofList := by
  unfold setupBody ofScript initializer?
  cases setupBody? script with
  | some body => rfl
  | none =>
      simp only [Option.map_none]
      cases dataBody? script <;> rfl

theorem Fragments.dataBody_ofScript_eq_none {script : List Char} (h : dataBody? script = none) :
    (ofScript script).dataBody = none := by
  unfold dataBody ofScript initializer?
  rw [h]
  cases setupBody? script <;> rfl

end SingleFile.Script
