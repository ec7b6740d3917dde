import SingleFile.Proofs.Script.Occurrence

/-!
# Recognised initializers

An initializer is recognised by what stands around it: a header, for `data` the
opening of a returned object somewhere behind it, and what closes the body.  A
script may be taken apart in this way at many places.  The first header, the first
opening behind it and the first closing behind that always go together, since
whatever stands behind a later one stands behind the first one as well.

Main results:

- Theorem `isEarliest_iff`: a reading is the earliest one exactly when each of its
  three marks is the first that there is.
- Theorem `initializers_earliest`: an initializer is recognised exactly when the
  script can be read as having one, and then by the earliest reading.
-/

namespace SingleFile.Script

open SingleFile.Text (isBlankText cutAt)

/-! ## Readings of a script -/

/-- The text is the head of a function without parameters, up to the brace. -/
def OpensFunction (name t : List Char) : Prop :=
  ∃ g₁ g₂ g₃, isBlankText g₁ = true ∧ isBlankText g₂ = true ∧ isBlankText g₃ = true ∧
    t = name ++ (g₁ ++ '(' :: (g₂ ++ ')' :: (g₃ ++ ['{'])))

/-- The text begins a returned object. -/
def OpensObject (t : List Char) : Prop :=
  ∃ gap, isBlankText gap = true ∧ t = "return".toList ++ (gap ++ ['{'])

/-- The text ends a returned object and the function around it. -/
def ClosesObject (t : List Char) : Prop :=
  ∃ gap, isBlankText gap = true ∧ t = '}' :: (gap ++ ['}'])

/-- The script can be read as having a `setup` function with the given body. -/
def IsSetupAt (script before body after : List Char) : Prop :=
  ∃ header, OpensFunction "setup".toList header ∧
    script = before ++ (header ++ (body ++ '}' :: after))

/-- The script can be read as having a `data` function that returns the given
object. -/
def IsDataAt (script before between body after : List Char) : Prop :=
  ∃ header opener closer, OpensFunction "data".toList header ∧ OpensObject opener ∧
    ClosesObject closer ∧
    script = before ++ (header ++ (between ++ (opener ++ (body ++ (closer ++ after)))))

/-- Of two readings, the first has less text before its header; or as much, and less
between header and object; or as much again, and an object that is no longer. -/
def NoLater (before between body before' between' body' : List Char) : Prop :=
  before.length < before'.length ∨ before.length = before'.length ∧
    (between.length < between'.length ∨ between.length = between'.length ∧
      body.length ≤ body'.length)

/-- A reading of the script that comes before all others. -/
def IsEarliest (script before between body after : List Char) : Prop :=
  IsDataAt script before between body after ∧
    ∀ before' between' body' after', IsDataAt script before' between' body' after' →
      NoLater before between body before' between' body'

/-! ## Readings as occurrences -/

/-- The phrase of a header without parameters is spelled by what opens such a function. -/
theorem spells_function_iff {name t : List Char} :
    Phrase.Spells [name, "(".toList, ")".toList, "\x7b".toList] t ↔ OpensFunction name t := by
  simp only [Phrase.spells_words_iff, Phrase.spells_word_iff]
  constructor
  · rintro ⟨g₁, _, h₁, ⟨g₂, _, h₂, ⟨g₃, _, h₃, rfl, rfl⟩, rfl⟩, rfl⟩
    exact ⟨g₁, g₂, g₃, h₁, h₂, h₃, rfl⟩
  · rintro ⟨g₁, g₂, g₃, h₁, h₂, h₃, rfl⟩
    exact ⟨g₁, _, h₁, ⟨g₂, _, h₂, ⟨g₃, _, h₃, rfl, rfl⟩, rfl⟩, rfl⟩

theorem spells_setupHeader : setupHeader.Spells = OpensFunction "setup".toList :=
  funext fun _ => propext spells_function_iff

theorem spells_dataHeader : dataHeader.Spells = OpensFunction "data".toList :=
  funext fun _ => propext spells_function_iff

theorem spells_returnHeader : returnHeader.Spells = OpensObject :=
  funext fun _ => propext Phrase.spells_pair_iff

theorem spells_returnCloser : returnCloser.Spells = ClosesObject :=
  funext fun _ => propext Phrase.spells_pair_iff

theorem isVisible_setupHeader : setupHeader.IsVisible := by decide

theorem isVisible_dataHeader : dataHeader.IsVisible := by decide

theorem isVisible_returnHeader : returnHeader.IsVisible := by decide

theorem isVisible_returnCloser : returnCloser.IsVisible := by decide

/-- A `setup` stands in a script where its header occurs, with a body up to a closing
brace. -/
theorem isSetupAt_iff {script before body after : List Char} :
    IsSetupAt script before body after ↔
      setupHeader.Occurs script before (body ++ '}' :: after) := by
  rw [Phrase.Occurs, spells_setupHeader]
  rfl

/-- A `data` stands in a script where its header, the head of a return and its closer occur
in order. -/
theorem isDataAt_iff {script before between body after : List Char} :
    IsDataAt script before between body after ↔
      ∃ rest object, dataHeader.Occurs script before rest ∧
        returnHeader.Occurs rest between object ∧ returnCloser.Occurs object body after := by
  simp only [Phrase.Occurs, spells_dataHeader, spells_returnHeader, spells_returnCloser]
  constructor
  · rintro ⟨header, opener, closer, hheader, hopener, hcloser, hs⟩
    exact ⟨_, _, ⟨header, hheader, hs⟩, ⟨opener, hopener, rfl⟩, ⟨closer, hcloser, rfl⟩⟩
  · rintro ⟨_, _, ⟨header, hheader, hs⟩, ⟨opener, hopener, rfl⟩, ⟨closer, hcloser, rfl⟩⟩
    exact ⟨header, opener, closer, hheader, hopener, hcloser, hs⟩

/-! ## What is recognised -/

/-- The body of `setup` stands between the first header and the next closing
brace. -/
theorem setupBody?_eq_some_iff {script body : List Char} :
    setupBody? script = some body ↔
      '}' ∉ body ∧ ∃ before after,
        setupHeader.OccursFirst script before (body ++ '}' :: after) := by
  simp only [setupBody?, Option.bind_eq_bind, Option.bind_eq_some_iff]
  constructor
  · rintro ⟨⟨before, rest⟩, hheader, ⟨body', after⟩, hcut, hbody⟩
    cases hbody
    obtain ⟨rfl, hfree⟩ := Text.cutAt_eq_some_iff.mp hcut
    exact ⟨hfree, before, after, (Phrase.cut_eq_some_iff isVisible_setupHeader).mp hheader⟩
  · rintro ⟨hfree, before, after, hfirst⟩
    exact ⟨(before, body ++ '}' :: after),
      (Phrase.cut_eq_some_iff isVisible_setupHeader).mpr hfirst,
      (body, after), Text.cutAt_eq_some_iff.mpr ⟨rfl, hfree⟩, rfl⟩

/-- The object of `data` stands between the first mark of each kind. -/
theorem dataBody?_eq_some_iff {script body : List Char} :
    dataBody? script = some body ↔
      ∃ before between after rest object, dataHeader.OccursFirst script before rest ∧
        returnHeader.OccursFirst rest between object ∧
          returnCloser.OccursFirst object body after := by
  simp only [dataBody?, Option.bind_eq_bind, Option.bind_eq_some_iff]
  constructor
  · rintro ⟨⟨before, rest⟩, hheader, ⟨between, object⟩, hopener, ⟨body', after⟩, hcloser, hbody⟩
    cases hbody
    exact ⟨before, between, after, rest, object,
      (Phrase.cut_eq_some_iff isVisible_dataHeader).mp hheader,
      (Phrase.cut_eq_some_iff isVisible_returnHeader).mp hopener,
      (Phrase.cut_eq_some_iff isVisible_returnCloser).mp hcloser⟩
  · rintro ⟨before, between, after, rest, object, hheader, hopener, hcloser⟩
    exact ⟨(before, rest), (Phrase.cut_eq_some_iff isVisible_dataHeader).mpr hheader,
      (between, object), (Phrase.cut_eq_some_iff isVisible_returnHeader).mpr hopener,
      (body, after), (Phrase.cut_eq_some_iff isVisible_returnCloser).mpr hcloser, rfl⟩

/-- A script that can be read as having a `setup` function has one recognised. -/
theorem IsSetupAt.exists_setupBody? {script before body after : List Char}
    (h : IsSetupAt script before body after) : ∃ body', setupBody? script = some body' := by
  obtain ⟨first, rest, hfirst, hsuffix⟩ :=
    (isSetupAt_iff.mp h).exists_first_of_suffix isVisible_setupHeader List.suffix_rfl
  have hcloser : '}' ∈ rest := hsuffix.subset (by simp)
  cases hcut : cutAt '}' rest with
  | none => exact absurd hcloser (Text.cutAt_eq_none_iff.mp hcut)
  | some cut =>
      obtain ⟨rfl, hfree⟩ := Text.cutAt_eq_some_iff.mp hcut
      exact ⟨cut.1, setupBody?_eq_some_iff.mpr ⟨hfree, first, cut.2, hfirst⟩⟩

/-- A script that can be read as having a `data` function has a first mark of each
kind. -/
theorem IsDataAt.exists_first {script before between body after : List Char}
    (h : IsDataAt script before between body after) :
    ∃ before' between' body' after' rest object, dataHeader.OccursFirst script before' rest ∧
      returnHeader.OccursFirst rest between' object ∧
        returnCloser.OccursFirst object body' after' := by
  obtain ⟨rest, object, hheader, hopener, hcloser⟩ := isDataAt_iff.mp h
  obtain ⟨before', rest', hheader', hrest⟩ :=
    hheader.exists_first_of_suffix isVisible_dataHeader List.suffix_rfl
  obtain ⟨between', object', hopener', hobject⟩ :=
    hopener.exists_first_of_suffix isVisible_returnHeader hrest
  obtain ⟨body', after', hcloser', _⟩ :=
    hcloser.exists_first_of_suffix isVisible_returnCloser hobject
  exact ⟨before', between', body', after', rest', object', hheader', hopener', hcloser'⟩

/-! ## The earliest reading -/

/-- First marks make a reading that comes before all others. -/
theorem isEarliest_of_first {script before between body after rest object : List Char}
    (hheader : dataHeader.OccursFirst script before rest)
    (hopener : returnHeader.OccursFirst rest between object)
    (hcloser : returnCloser.OccursFirst object body after) :
    IsEarliest script before between body after := by
  refine ⟨isDataAt_iff.mpr ⟨rest, object, hheader.occurs, hopener.occurs, hcloser.occurs⟩, ?_⟩
  intro before' between' body' after' h
  obtain ⟨rest', object', hheader', hopener', hcloser'⟩ := isDataAt_iff.mp h
  have hbefore := hheader.2 before' rest' hheader'
  by_cases hlt : before.length < before'.length
  · exact .inl hlt
  obtain ⟨_, rfl⟩ := hheader.occurs.unique isVisible_dataHeader hheader' (by omega)
  have hbetween := hopener.2 between' object' hopener'
  refine .inr ⟨by omega, ?_⟩
  by_cases hlt' : between.length < between'.length
  · exact .inl hlt'
  obtain ⟨_, rfl⟩ := hopener.occurs.unique isVisible_returnHeader hopener' (by omega)
  exact .inr ⟨by omega, hcloser.2 body' after' hcloser'⟩

/-- A reading is the earliest one exactly when each of its marks is the first. -/
theorem isEarliest_iff {script before between body after : List Char} :
    IsEarliest script before between body after ↔
      ∃ rest object, dataHeader.OccursFirst script before rest ∧
        returnHeader.OccursFirst rest between object ∧
          returnCloser.OccursFirst object body after := by
  constructor
  · rintro ⟨hread, hearliest⟩
    obtain ⟨before', between', body', after', rest', object', hheader', hopener', hcloser'⟩ :=
      hread.exists_first
    obtain ⟨hread', hearliest'⟩ := isEarliest_of_first hheader' hopener' hcloser'
    have hle := hearliest before' between' body' after' hread'
    have hge := hearliest' before between body after hread
    unfold NoLater at hle hge
    obtain ⟨rest, object, hheader, hopener, hcloser⟩ := isDataAt_iff.mp hread
    obtain ⟨rfl, rfl⟩ := hheader.unique isVisible_dataHeader hheader'.occurs (by omega)
    obtain ⟨rfl, rfl⟩ := hopener.unique isVisible_returnHeader hopener'.occurs (by omega)
    obtain ⟨rfl, rfl⟩ := hcloser.unique isVisible_returnCloser hcloser'.occurs (by omega)
    exact ⟨rest, object, hheader', hopener', hcloser'⟩
  · rintro ⟨rest, object, hheader, hopener, hcloser⟩
    exact isEarliest_of_first hheader hopener hcloser

/-- An initializer is recognised exactly when the script can be read as having one.
The body of `setup` then stands between the first header and the next closing brace,
and the object of `data` is that of the earliest reading, in which the header, the
opening of the object and its closing are each the first that there is. -/
theorem initializers_earliest (script : List Char) :
    (setupBody? script = none ↔ ∀ before body after, ¬ IsSetupAt script before body after) ∧
    (∀ body, setupBody? script = some body ↔
      '}' ∉ body ∧ ∃ before after,
        StandsFirst (OpensFunction "setup".toList) script before (body ++ '}' :: after)) ∧
    (dataBody? script = none ↔
      ∀ before between body after, ¬ IsDataAt script before between body after) ∧
    (∀ body, dataBody? script = some body ↔
      ∃ before between after, IsEarliest script before between body after) ∧
    (∀ before between body after, IsEarliest script before between body after ↔
      ∃ rest object, StandsFirst (OpensFunction "data".toList) script before rest ∧
        StandsFirst OpensObject rest between object ∧
          StandsFirst ClosesObject object body after) := by
  rw [← spells_setupHeader, ← spells_dataHeader, ← spells_returnHeader, ← spells_returnCloser]
  refine ⟨?_, fun body => setupBody?_eq_some_iff, ?_, ?_, fun _ _ _ _ => isEarliest_iff⟩
  · constructor
    · intro hnone before body after h
      obtain ⟨body', hsome⟩ := h.exists_setupBody?
      rw [hnone] at hsome
      cases hsome
    · intro h
      cases hbody : setupBody? script with
      | none => rfl
      | some body =>
          obtain ⟨_, before, after, hfirst⟩ := setupBody?_eq_some_iff.mp hbody
          exact absurd (isSetupAt_iff.mpr hfirst.occurs) (h before body after)
  · constructor
    · intro hnone before between body after h
      obtain ⟨before', between', body', after', rest, object, hfirst⟩ := h.exists_first
      have hsome := dataBody?_eq_some_iff.mpr ⟨before', between', after', rest, object, hfirst⟩
      rw [hnone] at hsome
      cases hsome
    · intro h
      cases hbody : dataBody? script with
      | none => rfl
      | some body =>
          obtain ⟨before, between, after, rest, object, hheader, hopener, hcloser⟩ :=
            dataBody?_eq_some_iff.mp hbody
          have hearliest := isEarliest_of_first hheader hopener hcloser
          exact absurd hearliest.1 (h before between body after)
  · intro body
    simp only [dataBody?_eq_some_iff, isEarliest_iff]

end SingleFile.Script
