import SingleFile.Settings.Reading

/-!
# Valid settings

Settings keep the rules of their fields however they came about.  A field has
one reading, which serves its given value, its variable and every later
assignment alike; so it is enough to know what each reading lets through, and
that the first values of all fields keep the rules themselves.

Main results:

- Theorem `valid_of_read`: settings that are read from any sources are valid.
- Theorem `Valid.assign`: an accepted assignment keeps settings valid.
- Theorem `Valid.assign_fieldValue`: assigning a field the value that it has is
  accepted and changes nothing.
-/

namespace SingleFile.Settings

/-! ## The rules -/

/-- The text may be a directive prefix: it is not empty and holds no blank. -/
structure IsPrefix (s : String) : Prop where
  ne_empty : s ≠ ""
  not_blank : ∀ c ∈ s.toList, Text.isBlank c = false

/-- The names may be setup bindings: they are distinct identifiers. -/
structure AreBindings (names : List String) : Prop where
  nodup : names.Nodup
  identifier : ∀ n ∈ names, Script.isIdentifier n = true

/-- The settings keep the rules of their fields. -/
structure Valid (s : Settings) : Prop where
  directivePrefix : IsPrefix s.directivePrefix
  setupBindings : AreBindings s.setupBindings
  trustLevel : s.trustLevel.name = "untrusted" ∨ s.trustLevel.name = "trusted"

theorem trustLevel_name_cases (t : TrustLevel) : t.name = "untrusted" ∨ t.name = "trusted" := by
  cases t with
  | untrusted => exact Or.inl rfl
  | trusted => exact Or.inr rfl

/-! ## Repeated names -/

/-- Leaving out repetitions loses no name. -/
theorem mem_dedup_iff {n : String} {names : List String} : n ∈ dedup names ↔ n ∈ names := by
  suffices h : ∀ kept : List String,
      n ∈ names.foldl (fun kept m => if kept.contains m then kept else kept ++ [m]) kept ↔
        n ∈ kept ∨ n ∈ names by
    simpa [dedup] using h []
  induction names with
  | nil => simp
  | cons m names ih =>
      intro kept
      rw [List.foldl_cons, ih]
      by_cases hm : m ∈ kept
      · have hsame : n = m → n ∈ kept := fun e => e ▸ hm
        simp only [List.contains_eq_mem, hm, decide_true, if_true, List.mem_cons]
        constructor
        · rintro (h | h)
          · exact Or.inl h
          · exact Or.inr (Or.inr h)
        · rintro (h | h | h)
          · exact Or.inl h
          · exact Or.inl (hsame h)
          · exact Or.inr h
      · simp [hm, or_assoc]

/-- Distinct names are all kept. -/
theorem dedup_of_nodup {names : List String} (h : names.Nodup) : dedup names = names := by
  suffices hfold : ∀ kept : List String, (kept ++ names).Nodup →
      names.foldl (fun kept m => if kept.contains m then kept else kept ++ [m]) kept =
        kept ++ names by
    simpa [dedup] using hfold [] (by simpa using h)
  clear h
  induction names with
  | nil => simp
  | cons m names ih =>
      intro kept hkept
      have hm : m ∉ kept := by
        intro hmem
        exact (List.nodup_append.mp hkept).2.2 m hmem m List.mem_cons_self rfl
      have hnext : (kept ++ [m] ++ names).Nodup := by simpa using hkept
      have hstep : (if kept.contains m then kept else kept ++ [m]) = kept ++ [m] := by simp [hm]
      rw [List.foldl_cons, hstep, ih _ hnext]
      simp

/-! ## What a reading lets through -/

/-- A prefix passes its check unchanged, exactly when it is one. -/
theorem checkPrefix_eq_ok_iff {s p : String} :
    checkPrefix s = .ok p ↔ p = s ∧ IsPrefix s := by
  unfold checkPrefix
  split
  · rename_i hbad
    simp only [reduceCtorEq, false_iff, not_and]
    rintro _ ⟨hne, hblank⟩
    rcases hbad with hempty | hany
    · exact hne hempty
    · obtain ⟨c, hc, hcblank⟩ := List.any_eq_true.mp hany
      rw [hblank c hc] at hcblank
      cases hcblank
  · rename_i hgood
    rw [not_or] at hgood
    constructor
    · intro h
      cases h
      refine ⟨rfl, hgood.1, fun c hc => ?_⟩
      rw [Bool.eq_false_iff]
      intro hcblank
      exact hgood.2 (List.any_eq_true.mpr ⟨c, hc, hcblank⟩)
    · rintro ⟨rfl, _⟩
      rfl

/-- Names pass the check of bindings exactly when all are identifiers, each of them once.
-/
theorem checkBindings_eq_ok_iff {names bs : List String} :
    checkBindings names = .ok bs ↔
      bs = dedup names ∧ ∀ n ∈ names, Script.isIdentifier n = true := by
  unfold checkBindings
  split
  · rename_i hnone
    have hall : ∀ n ∈ names, Script.isIdentifier n = true := by
      simpa [List.filter_eq_nil_iff] using hnone
    constructor
    · intro h
      cases h
      exact ⟨rfl, hall⟩
    · rintro ⟨rfl, _⟩
      rfl
  · rename_i hbad
    simp only [reduceCtorEq, false_iff, not_and]
    intro _ hall
    apply hbad
    simpa [List.filter_eq_nil_iff] using hall

theorem underRule_eq_ok_iff {α : Type} {r : Except Fault α} {a : α} :
    underRule r = .ok a ↔ r = .ok a := by
  cases r <;> simp [underRule, Reading.fail]

/-- What is read as a prefix is one. -/
theorem isPrefix_of_readPrefix {v : Value} {p : String} (h : readPrefix v = .ok p) :
    IsPrefix p := by
  obtain ⟨s, _, hrule⟩ := (Reading.andThen_eq_ok_iff _ _ _).mp h
  obtain ⟨rfl, hs⟩ := checkPrefix_eq_ok_iff.mp (underRule_eq_ok_iff.mp hrule)
  exact hs

/-- What is read as bindings is such. -/
theorem areBindings_of_readBindings {v : Value} {bs : List String}
    (h : readBindings v = .ok bs) : AreBindings bs := by
  obtain ⟨names, _, hrule⟩ := (Reading.andThen_eq_ok_iff _ _ _).mp h
  obtain ⟨rfl, hnames⟩ := checkBindings_eq_ok_iff.mp (underRule_eq_ok_iff.mp hrule)
  exact ⟨dedup_nodup names, fun n hn => hnames n (mem_dedup_iff.mp hn)⟩

/-! ## Sources -/

/-- A field that is read has its first value or one that its reading lets
through. -/
theorem eq_or_read_of_fromSources {α : Type} {given : Table String Value} {env : Environment}
    {f : Field} {absent a : α} {read : Value → Reading α}
    (h : fromSources given env f absent read = .ok a) : a = absent ∨ ∃ v, read v = .ok a := by
  unfold fromSources at h
  split at h
  · rename_i v _
    exact Or.inr ⟨v, (Reading.within_eq_ok_iff _ _ _).mp h⟩
  · cases h
    exact Or.inl rfl

/-- The first prefix passes its own check. -/
theorem isPrefix_first : IsPrefix ({} : Settings).directivePrefix := by
  have hblank : ({} : Settings).directivePrefix.toList.all (fun c => !Text.isBlank c) = true := by
    decide
  refine ⟨by decide, fun c hc => ?_⟩
  simpa using List.all_eq_true.mp hblank c hc

/-- The first bindings pass their own check. -/
theorem areBindings_first : AreBindings ({} : Settings).setupBindings :=
  ⟨by decide, by decide +kernel⟩

/-- The first values of all fields are valid. -/
theorem valid_first : ({} : Settings).Valid :=
  ⟨isPrefix_first, areBindings_first, trustLevel_name_cases _⟩

/-- Settings that are read from any values and any environment are valid. -/
theorem valid_of_read {given : Table String Value} {env : Environment} {s : Settings}
    (h : read given env = .ok s) : s.Valid := by
  obtain ⟨⟨⟨⟨⟨p, v⟩, b⟩, t⟩, w⟩, hparts, rfl⟩ := (Reading.mapRead_eq_ok_iff _ _ _).mp h
  simp only [Reading.both_eq_ok_iff] at hparts
  obtain ⟨⟨⟨⟨hp, _⟩, hb⟩, _⟩, _⟩ := hparts
  refine ⟨?_, ?_, trustLevel_name_cases t⟩
  · rcases eq_or_read_of_fromSources hp with rfl | ⟨v', hv'⟩
    · exact isPrefix_first
    · exact isPrefix_of_readPrefix hv'
  · rcases eq_or_read_of_fromSources hb with rfl | ⟨v', hv'⟩
    · exact areBindings_first
    · exact areBindings_of_readBindings hv'

/-! ## Assignments -/

/-- One field read anew keeps settings valid. -/
theorem Valid.update {s s' : Settings} (hs : s.Valid) {f : Field} {v : Value}
    (h : s.update f v = .ok s') : s'.Valid := by
  cases f with
  | directivePrefix =>
      obtain ⟨p, hp, rfl⟩ := (Reading.mapRead_eq_ok_iff _ _ _).mp h
      exact { hs with directivePrefix := isPrefix_of_readPrefix hp }
  | valuelessDirectives =>
      obtain ⟨_, _, rfl⟩ := (Reading.mapRead_eq_ok_iff _ _ _).mp h
      exact { hs with }
  | setupBindings =>
      obtain ⟨bs, hbs, rfl⟩ := (Reading.mapRead_eq_ok_iff _ _ _).mp h
      exact { hs with setupBindings := areBindings_of_readBindings hbs }
  | trustLevel =>
      obtain ⟨t, _, rfl⟩ := (Reading.mapRead_eq_ok_iff _ _ _).mp h
      exact { hs with trustLevel := trustLevel_name_cases t }
  | warnOnUnrecognizedScript =>
      obtain ⟨_, _, rfl⟩ := (Reading.mapRead_eq_ok_iff _ _ _).mp h
      exact { hs with }

/-- An accepted assignment keeps settings valid. -/
theorem Valid.assign {s s' : Settings} (hs : s.Valid) {name : String} {v : Value}
    (h : s.assign name v = .ok s') : s'.Valid := by
  obtain ⟨f, _, hf⟩ := exists_update_of_assign h
  exact hs.update hf

/-- A name that is no field's is refused. -/
theorem assign_of_unknown (s : Settings) {name : String} (hfield : ∀ f : Field, f.name ≠ name)
    (v : Value) : ∃ e, s.assign name v = .error e := by
  have hnone : Field.ofName? name = none := by
    apply List.find?_eq_none.mpr
    intro f _
    simpa using hfield f
  unfold assign
  rw [hnone]
  split
  · exact ⟨_, rfl⟩
  · exact ⟨_, rfl⟩

/-- The field that is written to an object of settings is that of the assigned settings. -/
theorem map_put_assigned (s : Settings) (f : Field) (v : Value) :
    (assigned f.name (({} : Settings).update f v)).map (fun t =>
        s.attributes.settled.put f.name ((t.attributes.get? f.name).getD v)) =
      (assigned f.name (s.update f v)).map attributes := by
  cases f with
  | directivePrefix => cases h : readPrefix v <;> simp only [Settings.update, h] <;> rfl
  | valuelessDirectives => cases h : readTexts v <;> simp only [Settings.update, h] <;> rfl
  | setupBindings => cases h : readBindings v <;> simp only [Settings.update, h] <;> rfl
  | trustLevel => cases h : readTrust v <;> simp only [Settings.update, h] <;> rfl
  | warnOnUnrecognizedScript => cases h : v.readBoolean <;> simp only [Settings.update, h] <;> rfl

/-- To an object of settings, a checked assignment is one to the settings. -/
theorem assignAttributes_attributes (s : Settings) {name : String}
    (hname : isReservedName name = false) (v : Value) :
    assignAttributes s.attributes name v = (s.assign name v).map attributes := by
  have hcheck : s.attributes.checkFailure? = none := rfl
  unfold assignAttributes assign
  rw [if_neg (by simp [hname])]
  simp only [hcheck]
  split
  · rfl
  · split
    · rename_i f hf
      obtain rfl : f.name = name := by simpa using List.find?_some hf
      exact map_put_assigned s f v
    · rfl

/-! ## Assigning what is there -/

/-- The name of a field is not reserved. -/
theorem isReservedName_name (f : Field) : isReservedName f.name = false := by
  cases f <;> decide

/-- The name of a field is not computed. -/
theorem assign_name (s : Settings) (f : Field) (v : Value) :
    s.assign f.name v = assigned f.name (s.update f v) := by
  have hcomputed : isComputedName f.name = false := by cases f <;> decide
  simp [assign, hcomputed]

/-- A field that is read anew from its own value stays as it is. -/
theorem Valid.update_fieldValue {s : Settings} (hs : s.Valid) (f : Field) :
    s.update f (s.fieldValue f) = .ok s := by
  cases f with
  | directivePrefix =>
      have hread : readPrefix (.text s.directivePrefix) = .ok s.directivePrefix :=
        underRule_eq_ok_iff.mpr (checkPrefix_eq_ok_iff.mpr ⟨rfl, hs.directivePrefix⟩)
      simp [Settings.update, fieldValue, hread, Reading.mapRead]
  | valuelessDirectives =>
      have hread := Value.readList_ofTexts s.valuelessDirectives
      simp [Settings.update, fieldValue, readTexts, hread, Reading.mapRead]
  | setupBindings =>
      have hrule : checkBindings s.setupBindings = .ok s.setupBindings :=
        checkBindings_eq_ok_iff.mpr
          ⟨(dedup_of_nodup hs.setupBindings.nodup).symm, hs.setupBindings.identifier⟩
      have hread : readBindings (.ofTexts s.setupBindings) = .ok s.setupBindings :=
        (Reading.andThen_eq_ok_iff _ _ _).mpr
          ⟨_, Value.readList_ofTexts s.setupBindings, underRule_eq_ok_iff.mpr hrule⟩
      simp [Settings.update, fieldValue, hread, Reading.mapRead]
  | trustLevel => simp [Settings.update, fieldValue, readTrust, Value.readWord, Reading.mapRead]
  | warnOnUnrecognizedScript => rfl

/-- Assigning a field the value that it has is accepted and changes nothing. -/
theorem Valid.assign_fieldValue {s : Settings} (hs : s.Valid) (f : Field) :
    s.assign f.name (s.fieldValue f) = .ok s := by
  rw [assign_name, hs.update_fieldValue]
  rfl

end SingleFile.Settings
