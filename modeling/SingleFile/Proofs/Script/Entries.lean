import SingleFile.Proofs.Table
import SingleFile.Proofs.Text.Blank
import SingleFile.Script.Fragments

/-!
# Entries of a method table

An entry is read from the front of a text exactly when the text begins with the
source of the entry and its parts are of the right kind: a word, blank gaps,
parameters without a closing parenthesis, a body without a closing brace.

Main results:

- Theorem `entryAt?_eq_some_iff`: which entry a text begins with.
- Theorem `EntryParts.Proper.of_mem`: every entry of an interior has parts of
  the right kind.
- Theorem `Fragments.entries_ofScript`: the entries of a script.
-/

namespace SingleFile.Script

open SingleFile.Text (isBlank isWord isBlankText dropBlank cutAt)

/-! ## Parts -/

/-- The parts are what an entry can be read as. -/
structure EntryParts.Proper (e : EntryParts) : Prop where
  name : ∀ c ∈ e.name, isWord c = true
  nameGap : isBlankText e.nameGap = true
  parameters : ')' ∉ e.parameters
  headGap : isBlankText e.headGap = true
  body : '}' ∉ e.body

/-- A character is found behind blanks exactly when nothing else stands before
it. -/
theorem afterBlanks?_eq_some_iff {c : Char} (hc : isBlank c = false) {s gap rest : List Char} :
    afterBlanks? c s = some (gap, rest) ↔ s = gap ++ c :: rest ∧ isBlankText gap = true := by
  constructor
  · intro h
    refine ⟨eq_append_of_afterBlanks? h, ?_⟩
    simp only [afterBlanks?] at h
    split at h
    · split at h
      · cases h
        exact List.all_takeWhile
      · cases h
    · cases h
  · rintro ⟨rfl, hgap⟩
    have hall : ∀ d ∈ gap, isBlank d = true := List.all_eq_true.mp hgap
    have hdrop : dropBlank (gap ++ c :: rest) = c :: rest := by
      rw [dropBlank, List.dropWhile_append_of_pos hall]
      exact Text.dropBlank_of_head hc
    have htake : (gap ++ c :: rest).takeWhile isBlank = gap := by
      rw [List.takeWhile_append_of_pos hall, List.takeWhile_cons_of_neg (by simp [hc]),
        List.append_nil]
    simp [afterBlanks?, hdrop, htake]

/-- A word ends at the blanks and the parenthesis after it. -/
theorem takeWhile_isWord_append {name gap : List Char} (hname : ∀ c ∈ name, isWord c = true)
    (hgap : isBlankText gap = true) (rest : List Char) :
    (name ++ (gap ++ '(' :: rest)).takeWhile isWord = name ∧
      (name ++ (gap ++ '(' :: rest)).dropWhile isWord = gap ++ '(' :: rest := by
  have hend : (gap ++ '(' :: rest).takeWhile isWord = [] ∧
      (gap ++ '(' :: rest).dropWhile isWord = gap ++ '(' :: rest := by
    cases gap with
    | nil => exact ⟨rfl, rfl⟩
    | cons c gap =>
        have hblank : isBlank c = true := List.all_eq_true.mp hgap c List.mem_cons_self
        have hword := Text.isWord_eq_false_of_isBlank hblank
        simp [hword]
  rw [List.takeWhile_append_of_pos hname, List.dropWhile_append_of_pos hname, hend.1, hend.2]
  simp

/-- A text begins with an entry exactly when it begins with the entry's source
and the parts are proper. -/
theorem entryAt?_eq_some_iff {s rest : List Char} {e : EntryParts} :
    entryAt? s = some (e, rest) ↔ s = e.source ++ rest ∧ e.Proper := by
  have hopener : isBlank '(' = false := by decide
  have hbrace : isBlank '{' = false := by decide
  constructor
  · intro h
    refine ⟨eq_append_of_entryAt? h, ?_⟩
    simp only [entryAt?, Option.bind_eq_bind, Option.bind_eq_some_iff] at h
    obtain ⟨⟨g₁, s₁⟩, h₁, ⟨ps, s₂⟩, h₂, ⟨g₂, s₃⟩, h₃, ⟨b, r⟩, h₄, h₅⟩ := h
    cases h₅
    exact {
      name := fun c hc => List.all_eq_true.mp List.all_takeWhile c hc
      nameGap := ((afterBlanks?_eq_some_iff hopener).mp h₁).2
      parameters := (Text.cutAt_eq_some_iff.mp h₂).2
      headGap := ((afterBlanks?_eq_some_iff hbrace).mp h₃).2
      body := (Text.cutAt_eq_some_iff.mp h₄).2 }
  · rintro ⟨rfl, he⟩
    obtain ⟨name, nameGap, parameters, headGap, body⟩ := e
    have hs : EntryParts.source ⟨name, nameGap, parameters, headGap, body⟩ ++ rest =
        name ++ (nameGap ++ '(' :: (parameters ++ ')' :: (headGap ++ '{' ::
          (body ++ '}' :: rest)))) := by
      simp [EntryParts.source]
    rw [hs]
    obtain ⟨htake, hdrop⟩ := takeWhile_isWord_append he.name he.nameGap
      (parameters ++ ')' :: (headGap ++ '{' :: (body ++ '}' :: rest)))
    have h₁ : afterBlanks? '(' (nameGap ++ '(' :: (parameters ++ ')' :: (headGap ++ '{' ::
        (body ++ '}' :: rest)))) = some (nameGap, _) :=
      (afterBlanks?_eq_some_iff hopener).mpr ⟨rfl, he.nameGap⟩
    have h₂ : cutAt ')' (parameters ++ ')' :: (headGap ++ '{' :: (body ++ '}' :: rest))) =
        some (parameters, _) := Text.cutAt_eq_some_iff.mpr ⟨rfl, he.parameters⟩
    have h₃ : afterBlanks? '{' (headGap ++ '{' :: (body ++ '}' :: rest)) = some (headGap, _) :=
      (afterBlanks?_eq_some_iff hbrace).mpr ⟨rfl, he.headGap⟩
    have h₄ : cutAt '}' (body ++ '}' :: rest) = some (body, rest) :=
      Text.cutAt_eq_some_iff.mpr ⟨rfl, he.body⟩
    simp only [entryAt?, htake, hdrop, h₁, h₂, h₃, h₄, Option.bind_eq_bind, Option.bind_some]
    rfl

/-! ## Interiors -/

/-- No entry begins at a character that is not of words. -/
theorem entryParts_of_not_isWord {c : Char} (hc : isWord c = false) (s : List Char) :
    entryParts (c :: s) = entryParts s := by
  rw [entryParts]
  simp [hc]

/-- An entry that is read is followed by those of the rest. -/
theorem entryParts_of_entryAt? {c : Char} {s rest : List Char} {e : EntryParts}
    (hc : isWord c = true) (h : entryAt? (c :: s) = some (e, rest)) :
    entryParts (c :: s) = e :: entryParts rest := by
  rw [entryParts]
  simp only [hc, if_true]
  split
  · rename_i e' rest' h'
    rw [h] at h'
    cases h'
    rfl
  · rename_i h'
    rw [h] at h'
    cases h'

/-- Where a word begins no entry, entries are looked for behind it. -/
theorem entryParts_of_entryAt?_eq_none {c : Char} {s : List Char} (hc : isWord c = true)
    (h : entryAt? (c :: s) = none) : entryParts (c :: s) = entryParts (s.dropWhile isWord) := by
  rw [entryParts]
  simp only [hc, if_true]
  split
  · rename_i e' rest' h'
    rw [h] at h'
    cases h'
  · rfl

/-- An interior of one blank has no entry. -/
theorem methodTable_blank : methodTable " ".toList = [] := by
  have hparts : entryParts " ".toList = [] := by
    rw [show " ".toList = [' '] from rfl, entryParts_of_not_isWord (by decide), entryParts]
  rw [methodTable, entries, hparts]
  rfl

/-- An interior that begins with an entry has this entry first. -/
theorem entryParts_source_append {e : EntryParts} (he : e.Proper) (hname : e.name ≠ [])
    (rest : List Char) : entryParts (e.source ++ rest) = e :: entryParts rest := by
  have hentry : entryAt? (e.source ++ rest) = some (e, rest) :=
    entryAt?_eq_some_iff.mpr ⟨rfl, he⟩
  obtain ⟨c, name, hcons⟩ := List.exists_cons_of_ne_nil hname
  have hword : isWord c = true := he.name c (by rw [hcons]; exact List.mem_cons_self)
  have hsource : ∃ s, e.source ++ rest = c :: s := by
    simp only [EntryParts.source, hcons, List.cons_append]
    exact ⟨_, rfl⟩
  obtain ⟨s, hs⟩ := hsource
  rw [hs] at hentry ⊢
  exact entryParts_of_entryAt? hword hentry

/-- Every entry of an interior has proper parts. -/
theorem EntryParts.Proper.of_mem {interior : List Char} {e : EntryParts}
    (h : e ∈ entryParts interior) : e.Proper := by
  induction interior using entryParts.induct with
  | case1 =>
      rw [entryParts] at h
      cases h
  | case2 c s hc first rest hfirst ih =>
      rw [entryParts_of_entryAt? hc hfirst] at h
      rcases List.mem_cons.mp h with rfl | h
      · exact (entryAt?_eq_some_iff.mp hfirst).2
      · exact ih h
  | case3 c s hc hfirst ih =>
      rw [entryParts_of_entryAt?_eq_none hc hfirst] at h
      exact ih h
  | case4 c s hc ih =>
      rw [entryParts_of_not_isWord (by simpa using hc)] at h
      exact ih h

/-- Every entry of a table was read from proper parts, and stands under its name. -/
theorem exists_proper_of_mem_methodTable {interior : List Char} {e : String × MethodFragment}
    (h : e ∈ methodTable interior) :
    ∃ parts : EntryParts, parts.Proper ∧ e = (parts.fragment.name, parts.fragment) := by
  obtain ⟨f, hf, rfl⟩ := List.mem_map.mp (Table.mem_of_mem_ofEntries h)
  obtain ⟨parts, hparts, rfl⟩ := List.mem_map.mp hf
  exact ⟨parts, .of_mem hparts, rfl⟩

/-! ## Scripts -/

/-- The entries of a script are the entries of its table's interior. -/
theorem Fragments.entries_ofScript (script : List Char) :
    (ofScript script).entries = ((methodsInterior? script).map methodTable).getD [] := by
  unfold entries ofScript methods?
  cases methodsInterior? script with
  | none => rfl
  | some interior =>
      simp only [Option.map_some, Option.getD_some]
      cases methodTable interior with
      | nil => rfl
      | cons e t => rfl

/-- Every entry of a script was read from proper parts, and stands under its name. -/
theorem Fragments.exists_eq_of_mem_entries {script : List Char} {e : String × MethodFragment}
    (h : e ∈ (ofScript script).entries) :
    ∃ parts : EntryParts, parts.Proper ∧ e = (parts.fragment.name, parts.fragment) := by
  rw [entries_ofScript] at h
  cases hinterior : methodsInterior? script with
  | none => simp [hinterior] at h
  | some interior =>
      simp only [hinterior, Option.map_some, Option.getD_some] at h
      exact exists_proper_of_mem_methodTable h

/-- The entries of a script are made of parts that can be told from its text. -/
theorem Fragments.exists_proper_of_mem_entries {script : List Char} {e : String × MethodFragment}
    (h : e ∈ (ofScript script).entries) :
    ∃ parts : EntryParts, parts.Proper ∧ e.2 = parts.fragment := by
  obtain ⟨parts, hparts, rfl⟩ := exists_eq_of_mem_entries h
  exact ⟨parts, hparts, rfl⟩

end SingleFile.Script
