import SingleFile.Text.Blank

/-!
# Phrases

The recognised shapes of a script are marked by phrases: fixed words that may
be set apart by blanks, such as `setup ( ) {`.  A phrase is looked for as text;
it may also begin inside a longer word.

Main results:

- `eq_append_of_cut`: a cut loses nothing before the phrase.
- `cut_eq_none_iff`: a cut fails exactly when no rest of the text begins with
  the phrase.
-/

namespace SingleFile.Script

open SingleFile.Text (dropBlank)

/-- The words of a phrase in order. -/
abbrev Phrase := List (List Char)

namespace Phrase

/-- The text after a word that it begins with. -/
def afterWord? : List Char → List Char → Option (List Char)
  | [], s => some s
  | _ :: _, [] => none
  | c :: w, d :: s => if c = d then afterWord? w s else none

/-- The text after a phrase that it begins with. -/
def after? : Phrase → List Char → Option (List Char)
  | [], s => some s
  | [w], s => afterWord? w s
  | w :: v :: ws, s =>
      match afterWord? w s with
      | none => none
      | some rest => after? (v :: ws) (dropBlank rest)

/-- The texts before and after the first occurrence of a phrase. -/
def cut (p : Phrase) : List Char → Option (List Char × List Char)
  | [] => (p.after? []).map fun rest => ([], rest)
  | c :: s =>
      match p.after? (c :: s) with
      | some rest => some ([], rest)
      | none => (cut p s).map fun (before, rest) => (c :: before, rest)

theorem afterWord?_eq_some_iff (w s rest : List Char) :
    afterWord? w s = some rest ↔ s = w ++ rest := by
  induction w generalizing s with
  | nil => simp [afterWord?]
  | cons c w ih =>
      cases s with
      | nil => simp [afterWord?]
      | cons d s =>
          by_cases h : c = d
          · simp [afterWord?, h, ih]
          · simp [afterWord?, h, Ne.symm h]

/-- What follows a phrase is a suffix of the text. -/
theorem after?_suffix {p : Phrase} {s rest : List Char} (h : p.after? s = some rest) :
    rest <:+ s := by
  induction p generalizing s with
  | nil => simp_all [after?]
  | cons w p ih =>
      cases p with
      | nil =>
          rw [after?, afterWord?_eq_some_iff] at h
          exact ⟨w, h.symm⟩
      | cons v ws =>
          simp only [after?] at h
          split at h
          · simp at h
          · rename_i r hr
            rw [afterWord?_eq_some_iff] at hr
            have hd : dropBlank r <:+ r := List.dropWhile_suffix _
            exact ((ih h).trans hd).trans ⟨w, hr.symm⟩

/-- A cut loses nothing before the phrase, and the phrase with the text after
it follows. -/
theorem eq_append_of_cut {p : Phrase} {s before rest : List Char}
    (h : p.cut s = some (before, rest)) :
    ∃ t, s = before ++ t ∧ p.after? t = some rest := by
  induction s generalizing before with
  | nil =>
      simp only [cut, Option.map_eq_some_iff, Prod.mk.injEq] at h
      obtain ⟨r, hr, rfl, rfl⟩ := h
      exact ⟨[], rfl, hr⟩
  | cons c s ih =>
      simp only [cut] at h
      split at h
      · rename_i r hr
        simp only [Option.some.injEq, Prod.mk.injEq] at h
        obtain ⟨rfl, rfl⟩ := h
        exact ⟨c :: s, rfl, hr⟩
      · simp only [Option.map_eq_some_iff] at h
        obtain ⟨⟨b, r⟩, hcut, heq⟩ := h
        simp only [Prod.mk.injEq] at heq
        obtain ⟨rfl, rfl⟩ := heq
        obtain ⟨t, hs, ht⟩ := ih hcut
        exact ⟨t, by simp [hs], ht⟩

/-- A cut fails exactly when no rest of the text begins with the phrase. -/
theorem cut_eq_none_iff (p : Phrase) (s : List Char) :
    p.cut s = none ↔ ∀ t, t <:+ s → p.after? t = none := by
  induction s with
  | nil => simp [cut]
  | cons c s ih =>
      simp only [cut, List.suffix_cons_iff]
      split
      · rename_i r hr
        simp only [reduceCtorEq, false_iff]
        exact fun h => by simp [h (c :: s) (.inl rfl)] at hr
      · rename_i hr
        rw [Option.map_eq_none_iff, ih]
        constructor
        · rintro h t (rfl | ht)
          · exact hr
          · exact h t ht
        · exact fun h t ht => h t (.inr ht)

end Phrase

end SingleFile.Script
