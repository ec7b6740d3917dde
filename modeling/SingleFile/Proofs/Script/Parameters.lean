import Mathlib.Data.List.TakeWhile
import SingleFile.Proofs.Source.Neutral
import SingleFile.Script.Identifier

/-!
# Identifiers and parameters as source

Identifiers are plain source.  So are parameters without a default value; what
stands in a default value is never looked at.

Main results:

- Theorem `isPlain_of_isIdentifier`: identifiers are plain.
- Theorem `isParameter_iff_of_isIdentifier`: which identifiers are parameters.
- Theorem `isPlain_of_isParameter`: parameters without a default value are plain.
- Theorem `splitParameters_intercalate`: a joined list of parameters is cut into them.
- Theorem `not_mem_of_mem_splitParameters`: a listed parameter holds no character
  that is missing in the list.
-/

namespace SingleFile.Script

open Source (IsPlain isPlain_of_isBlank isPlain_of_isWord)

/-! ## Identifiers -/

/-- A character of identifiers means nothing to the scanner. -/
theorem isPlain_of_isIdentifierPart {c : Char} (h : isIdentifierPart c = true) : IsPlain c := by
  rcases Bool.or_eq_true_iff.mp h with hword | hdollar
  · exact isPlain_of_isWord hword
  · rw [beq_iff_eq] at hdollar
    subst hdollar
    exact ⟨rfl, rfl, rfl, by decide⟩

theorem isIdentifierPart_of_isIdentifierStart {c : Char} (h : isIdentifierStart c = true) :
    isIdentifierPart c = true := by
  simp only [isIdentifierStart, Bool.or_eq_true, beq_iff_eq] at h
  rcases h with (halpha | rfl) | rfl
  · have hword : Text.isWord c = true :=
      Text.isWord_of_isAlphanum (by simp [Char.isAlphanum, halpha])
    simp [isIdentifierPart, hword]
  · decide
  · decide

theorem isIdentifierPart_eq_false_of_isBlank {c : Char} (h : Text.isBlank c = true) :
    isIdentifierPart c = false := by
  have hdollar : c ≠ '$' := by
    rintro rfl
    cases h
  simp [isIdentifierPart, Text.isWord_eq_false_of_isBlank h, hdollar]

/-- A text equals another, up to a line feed at its end, character by character. -/
theorem cons_eq_or_line_iff {c d : Char} {s t : List Char} :
    c :: s = d :: t ∨ c :: s = d :: t ++ ['\n'] ↔ c = d ∧ (s = t ∨ s = t ++ ['\n']) := by
  simp [← and_or_left]

/-- The rest of an identifier: further characters, and at most one line feed. -/
theorem isIdentifierRest_iff (s : List Char) :
    isIdentifierRest s = true ↔
      ∃ t, (∀ c ∈ t, isIdentifierPart c = true) ∧ (s = t ∨ s = t ++ ['\n']) := by
  induction s using isIdentifierRest.induct with
  | case1 => exact ⟨fun _ => ⟨[], nofun, Or.inl rfl⟩, fun _ => rfl⟩
  | case2 => exact ⟨fun _ => ⟨[], nofun, Or.inr rfl⟩, fun _ => rfl⟩
  | case3 c s hfeed ih =>
      have hstep : isIdentifierRest (c :: s) = (isIdentifierPart c && isIdentifierRest s) := by
        rw [isIdentifierRest]
        exact hfeed
      rw [hstep, Bool.and_eq_true, ih]
      constructor
      · rintro ⟨hc, t, ht, hs⟩
        exact ⟨c :: t, List.forall_mem_cons.mpr ⟨hc, ht⟩, cons_eq_or_line_iff.mpr ⟨rfl, hs⟩⟩
      · rintro ⟨t, ht, hs⟩
        cases t with
        | nil =>
            rcases hs with hs | hs
            · cases hs
            · obtain ⟨rfl, rfl⟩ := List.cons.inj hs
              exact absurd rfl (hfeed rfl)
        | cons d t =>
            obtain ⟨hd, hrest⟩ := List.forall_mem_cons.mp ht
            obtain ⟨rfl, hline⟩ := cons_eq_or_line_iff.mp hs
            exact ⟨hd, t, hrest, hline⟩

/-- The shape of an identifier: a first character, further ones, and at most one line
feed behind them. -/
theorem isIdentifierShape_iff (s : List Char) :
    isIdentifierShape s = true ↔
      ∃ c t, isIdentifierStart c = true ∧ (∀ d ∈ t, isIdentifierPart d = true) ∧
        (s = c :: t ∨ s = c :: t ++ ['\n']) := by
  cases s with
  | nil => simp [isIdentifierShape]
  | cons c s =>
      rw [isIdentifierShape, Bool.and_eq_true, isIdentifierRest_iff]
      constructor
      · rintro ⟨hc, t, ht, hs⟩
        exact ⟨c, t, hc, ht, cons_eq_or_line_iff.mpr ⟨rfl, hs⟩⟩
      · rintro ⟨d, t, hd, ht, hs⟩
        obtain ⟨rfl, hline⟩ := cons_eq_or_line_iff.mp hs
        exact ⟨hd, t, ht, hline⟩

/-- A text of characters of identifiers has no blanks to trim. -/
theorem trim_of_isIdentifierPart {s : List Char} (h : ∀ c ∈ s, isIdentifierPart c = true) :
    Text.trim s = s := by
  refine Text.trim_of_not_blank fun c hc => ?_
  rw [Bool.eq_false_iff]
  intro hblank
  have hnot := isIdentifierPart_eq_false_of_isBlank hblank
  rw [h c hc] at hnot
  cases hnot

/-- An identifier is its trimmed form, or that with a line feed behind it. -/
theorem trim_of_isIdentifierShape {s : List Char} (h : isIdentifierShape s = true) :
    isIdentifierShape (Text.trim s) = true ∧
      (∀ c ∈ Text.trim s, isIdentifierPart c = true) ∧
      (s = Text.trim s ∨ s = Text.trim s ++ ['\n']) := by
  obtain ⟨c, t, hc, ht, hs⟩ := (isIdentifierShape_iff s).mp h
  have hpart : ∀ d ∈ c :: t, isIdentifierPart d = true :=
    List.forall_mem_cons.mpr ⟨isIdentifierPart_of_isIdentifierStart hc, ht⟩
  have htrim : Text.trim s = c :: t := by
    rcases hs with rfl | rfl
    · exact trim_of_isIdentifierPart hpart
    · rw [Text.trim_append_blank (by decide), trim_of_isIdentifierPart hpart]
  rw [htrim]
  exact ⟨(isIdentifierShape_iff _).mpr ⟨c, t, hc, ht, Or.inl rfl⟩, hpart, hs⟩

/-- Identifiers are plain. -/
theorem isPlain_of_isIdentifier {name : String} (h : isIdentifier name = true) :
    ∀ c ∈ name.toList, IsPlain c := by
  obtain ⟨_, hpart, hname⟩ := trim_of_isIdentifierShape (Bool.and_eq_true_iff.mp h).1
  intro c hc
  rcases hname with hname | hname <;> rw [hname] at hc
  · exact isPlain_of_isIdentifierPart (hpart c hc)
  · rcases List.mem_append.mp hc with hc | hc
    · exact isPlain_of_isIdentifierPart (hpart c hc)
    · rw [List.mem_singleton.mp hc]
      exact isPlain_of_isBlank (by decide)

/-- An identifier that no line feed ends is made of the characters of one. -/
theorem isIdentifierPart_of_isIdentifier {name : String} (h : isIdentifier name = true)
    (hlast : name.toList.getLast? ≠ some '\n') : ∀ c ∈ name.toList, isIdentifierPart c = true := by
  obtain ⟨_, hpart, hname⟩ := trim_of_isIdentifierShape (Bool.and_eq_true_iff.mp h).1
  rcases hname with hname | hname
  · rw [hname]
    exact hpart
  · rw [hname] at hlast
    exact absurd List.getLast?_concat hlast

/-- Only the dollar sign tells identifiers from words. -/
theorem isWord_of_isIdentifierPart {c : Char} (h : isIdentifierPart c = true) (hc : c ≠ '$') :
    Text.isWord c = true := by
  rcases Bool.or_eq_true_iff.mp h with hword | hdollar
  · exact hword
  · exact absurd (beq_iff_eq.mp hdollar) hc

/-! ## Parameters -/

/-- A text is plain when its trimmed form is. -/
theorem isPlain_of_trim {s : List Char} (h : ∀ c ∈ Text.trim s, IsPlain c) :
    ∀ c ∈ s, IsPlain c := by
  obtain ⟨before, after, hbefore, hafter, hs⟩ := Text.exists_eq_append_trim s
  rw [hs]
  intro c hc
  rcases List.mem_append.mp hc with hc | hc
  · exact isPlain_of_isBlank (List.all_eq_true.mp hbefore c hc)
  · rcases List.mem_append.mp hc with hc | hc
    · exact h c hc
    · exact isPlain_of_isBlank (List.all_eq_true.mp hafter c hc)

/-- Leading dots mean nothing to the scanner. -/
theorem isPlain_of_dropDots {s : List Char} (h : ∀ c ∈ dropDots s, IsPlain c) :
    ∀ c ∈ s, IsPlain c := by
  have hdot : IsPlain '.' := ⟨rfl, rfl, rfl, by decide⟩
  unfold dropDots at h
  split at h
  · intro c hc
    simp only [List.mem_cons] at hc
    rcases hc with rfl | rfl | rfl | hc
    · exact hdot
    · exact hdot
    · exact hdot
    · exact h c hc
  · exact h

/-- Dots that are dropped leave characters of the text. -/
theorem mem_of_mem_dropDots {c : Char} {s : List Char} (h : c ∈ dropDots s) : c ∈ s := by
  unfold dropDots at h
  split at h
  · simp [h]
  · exact h

/-- Parameters without a default value are plain. -/
theorem isPlain_of_isParameter {p : String} (h : isParameter p = true) (hp : '=' ∉ p.toList) :
    ∀ c ∈ p.toList, IsPlain c := by
  have hname := isPlain_of_isIdentifier h
  rw [String.toList_ofList, parameterName] at hname
  have hall : (dropDots (Text.trim p.toList)).takeWhile (· != '=') =
      dropDots (Text.trim p.toList) := by
    refine List.takeWhile_eq_self_iff.mpr fun c hc => ?_
    rw [bne_iff_ne]
    rintro rfl
    exact hp (Text.mem_of_mem_trim (mem_of_mem_dropDots hc))
  rw [hall] at hname
  exact isPlain_of_trim (isPlain_of_dropDots (isPlain_of_trim hname))

/-! ## Identifiers as parameters -/

/-- An identifier has neither dots nor a default value: as a parameter its name is its
trimmed form. -/
theorem parameterName_of_isIdentifierShape {s : List Char} (h : isIdentifierShape s = true) :
    parameterName s = Text.trim s := by
  obtain ⟨_, hpart, _⟩ := trim_of_isIdentifierShape h
  have hdots : dropDots (Text.trim s) = Text.trim s := by
    unfold dropDots
    split
    · rename_i hcons
      have hdot := hpart '.' (by rw [hcons]; exact List.mem_cons_self)
      exact absurd hdot (by decide)
    · rfl
  have hdefault : (Text.trim s).takeWhile (· != '=') = Text.trim s := by
    refine List.takeWhile_eq_self_iff.mpr fun c hc => ?_
    rw [bne_iff_ne]
    rintro rfl
    exact absurd (hpart '=' hc) (by decide)
  rw [parameterName, hdots, hdefault, Text.trim_trim]

/-- The reserved words with a line feed behind them. -/
def reservedLines : List String :=
  reservedWords.map (· ++ "\n")

/-- Trimming takes the line feed away. -/
theorem trim_of_mem_reservedLines {w : String} (h : w ∈ reservedWords) :
    Text.trim (w ++ "\n").toList = w.toList := by
  have hall : reservedWords.all (fun w => w.toList.all isIdentifierPart) = true := by decide
  have hpart : ∀ c ∈ w.toList, isIdentifierPart c = true :=
    List.all_eq_true.mp (List.all_eq_true.mp hall w h)
  have hfeed : Text.isBlankText ['\n'] = true := by decide
  rw [String.toList_append]
  exact (Text.trim_append_blank hfeed w.toList).trans (trim_of_isIdentifierPart hpart)

/-- Identifiers are told from reserved words with the line feed that may end them, and
parameters without it.  So the reserved words with a line feed are the identifiers that
are no parameters. -/
theorem isParameter_iff_of_isIdentifier {n : String} (h : isIdentifier n = true) :
    isParameter n = true ↔ n ∉ reservedLines := by
  obtain ⟨hshape, hfree⟩ := Bool.and_eq_true_iff.mp h
  obtain ⟨htrimmed, _, hn⟩ := trim_of_isIdentifierShape hshape
  have hparameter : isParameter n = true ↔ Text.trimmed n ∉ reservedWords := by
    rw [isParameter, parameterName_of_isIdentifierShape hshape, ← Text.trimmed, isIdentifier,
      Text.toList_trimmed, htrimmed]
    simp
  refine hparameter.trans (not_congr ?_)
  rw [reservedLines, List.mem_map]
  constructor
  · intro hreserved
    refine ⟨Text.trimmed n, hreserved, ?_⟩
    rw [← String.toList_inj, String.toList_append, Text.toList_trimmed]
    rcases hn with hn | hn
    · -- without a line feed the identifier would be the reserved word itself
      have hsame : Text.trimmed n = n := by rw [Text.trimmed, ← hn, String.ofList_toList]
      rw [hsame] at hreserved
      simp [hreserved] at hfree
    · exact hn.symm
  · rintro ⟨w, hw, rfl⟩
    have htrim : Text.trimmed (w ++ "\n") = w := by
      rw [Text.trimmed, trim_of_mem_reservedLines hw, String.ofList_toList]
    rw [htrim]
    exact hw

/-- The parameter can stand in a list. -/
def IsListed (p : String) : Prop :=
  Text.IsElement ',' p.toList

/-- A parameter that is split off can be listed again. -/
theorem isListed_of_mem_splitParameters {parameters p : String}
    (h : p ∈ splitParameters parameters) : IsListed p := by
  obtain ⟨cs, hcs, rfl⟩ := List.mem_map.mp h
  rw [IsListed, String.toList_ofList]
  exact Text.isElement_of_mem_filledPieces hcs

/-- A joined list of parameters is cut into them. -/
theorem splitParameters_intercalate {ps : List String} (h : ∀ p ∈ ps, IsListed p) :
    splitParameters (", ".intercalate ps) = ps := by
  have hseparator : ", ".toList = [',', ' '] := rfl
  have hpieces : Text.filledPieces ',' ([',', ' '].intercalate (ps.map String.toList)) =
      ps.map String.toList := by
    refine Text.filledPieces_intercalate (by decide) (by decide) fun l hl => ?_
    obtain ⟨p, hp, rfl⟩ := List.mem_map.mp hl
    exact h p hp
  rw [splitParameters, String.toList_intercalate, hseparator, hpieces, List.map_map]
  simp [Function.comp_def]

/-- A listed parameter holds no character that is missing in the list. -/
theorem not_mem_of_mem_splitParameters {c : Char} {parameters p : String}
    (hc : c ∉ parameters.toList) (h : p ∈ splitParameters parameters) : c ∉ p.toList := by
  obtain ⟨_, piece, hpiece, hp⟩ := mem_splitParameters h
  rw [hp]
  exact fun hmem => hc (Text.mem_of_mem_pieces hpiece (Text.mem_of_mem_trim hmem))

end SingleFile.Script
