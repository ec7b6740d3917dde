import SingleFile.Proofs.Settings.Validity
import SingleFile.Proofs.Table
import SingleFile.Proofs.Text.Blank

/-!
# Settings in variables

A list is written in a variable with commas.  Blanks around an item and items of blanks
alone do not matter, so a list may be written in many ways, each of which is read as
that list.  A variable decides its field as an assignment of what it says would, unless
a value is given for the field; then the variable is not looked at, and the other fields
are still decided by theirs.

Main results:

- Theorem `ofVariable_eq_ofTexts_iff`: the texts that are read as a list.
- Theorem `read_eq_ok_iff_of_source`: what a value does to settings that are read
  without it.
- Theorem `read_eq_ok_iff_of_variable`: a variable decides its field and no other.
- Theorem `list_variables`: lists are read from variables as they were written, unless
  they are given otherwise.
-/

namespace SingleFile.Settings

open Text (IsElement isBlankText trim)

/-! ## Written lists -/

/-- Pieces that stand for items: each item stands in a piece with blanks around it, and
pieces of blanks alone may stand anywhere. -/
inductive Spreads : List (List Char) → List String → Prop
  | nil : Spreads [] []
  | blank {gap : List Char} {pieces : List (List Char)} {items : List String}
      (hgap : isBlankText gap = true) (h : Spreads pieces items) : Spreads (gap :: pieces) items
  | item {before after : List Char} {i : String} {pieces : List (List Char)}
      {items : List String} (hbefore : isBlankText before = true)
      (hafter : isBlankText after = true) (hi : IsElement ',' i.toList)
      (h : Spreads pieces items) :
      Spreads ((before ++ (i.toList ++ after)) :: pieces) (i :: items)

/-- The text of pieces between commas. -/
def listText (pieces : List (List Char)) : String :=
  String.ofList ([','].intercalate pieces)

/-- Blanks hold no comma. -/
theorem comma_not_mem_of_isBlankText {gap : List Char} (h : isBlankText gap = true) :
    ',' ∉ gap := by
  intro hmem
  have hblank := List.all_eq_true.mp h ',' hmem
  exact absurd hblank (by decide)

namespace Spreads

variable {pieces : List (List Char)} {items : List String}

/-- No piece that stands for items holds a comma. -/
theorem comma_not_mem (h : Spreads pieces items) : ∀ p ∈ pieces, ',' ∉ p := by
  induction h with
  | nil => exact fun _ hp => absurd hp List.not_mem_nil
  | blank hgap _ ih => exact List.forall_mem_cons.mpr ⟨comma_not_mem_of_isBlankText hgap, ih⟩
  | item hbefore hafter hi _ ih =>
      refine List.forall_mem_cons.mpr ⟨?_, ih⟩
      simp [comma_not_mem_of_isBlankText hbefore, comma_not_mem_of_isBlankText hafter, hi.not_mem]

/-- Each item can be told between commas. -/
theorem isElement (h : Spreads pieces items) : ∀ i ∈ items, IsElement ',' i.toList := by
  induction h with
  | nil => exact fun _ hi => absurd hi List.not_mem_nil
  | blank _ _ ih => exact ih
  | item _ _ hi _ ih => exact List.forall_mem_cons.mpr ⟨hi, ih⟩

/-- Of the trimmed pieces those that are not empty are the items. -/
theorem filter_trim (h : Spreads pieces items) :
    (pieces.map trim).filter (fun p => !p.isEmpty) = items.map String.toList := by
  induction h with
  | nil => rfl
  | blank hgap _ ih =>
      rw [List.map_cons, (Text.trim_eq_nil_iff _).mpr hgap, ← ih]
      rfl
  | item hbefore hafter hi _ ih =>
      rw [List.map_cons, Text.trim_blank_append_blank hbefore hafter, hi.trim_eq,
        List.filter_cons_of_pos (by simp [hi.ne_nil]), ih, List.map_cons]

/-- Items without anything around them. -/
theorem of_isElement (h : ∀ i ∈ items, IsElement ',' i.toList) :
    Spreads (items.map String.toList) items := by
  induction items with
  | nil => exact .nil
  | cons i items ih =>
      have hrest := ih fun j hj => h j (List.mem_cons_of_mem i hj)
      have hitem : Spreads (([] ++ (i.toList ++ [])) :: items.map String.toList) (i :: items) :=
        .item rfl rfl (h i List.mem_cons_self) hrest
      rwa [List.nil_append, List.append_nil] at hitem

end Spreads

/-- The pieces of any text stand for those that are not blank, trimmed. -/
theorem spreads_filledPieces {ps : List (List Char)} (hps : ∀ p ∈ ps, ',' ∉ p) :
    Spreads ps (((ps.map trim).filter fun p => !p.isEmpty).map String.ofList) := by
  induction ps with
  | nil => exact .nil
  | cons p ps ih =>
      have hrest := ih fun q hq => hps q (List.mem_cons_of_mem p hq)
      by_cases hblank : isBlankText p = true
      · rw [List.map_cons, (Text.trim_eq_nil_iff p).mpr hblank]
        exact .blank hblank hrest
      · have hne : trim p ≠ [] := fun h => hblank ((Text.trim_eq_nil_iff p).mp h)
        obtain ⟨before, after, hbefore, hafter, hp⟩ := Text.exists_eq_append_trim p
        have hi : IsElement ',' (String.ofList (trim p)).toList := by
          rw [String.toList_ofList]
          exact ⟨hne, Text.trim_trim p,
            fun hmem => hps p List.mem_cons_self (Text.mem_of_mem_trim hmem)⟩
        have hitem := Spreads.item hbefore hafter hi hrest
        rw [String.toList_ofList, ← hp] at hitem
        rw [List.map_cons, List.filter_cons_of_pos (by simp [hne]), List.map_cons]
        exact hitem

/-- The pieces that stand for items are cut out of their text. -/
theorem filledPieces_listText {pieces : List (List Char)} {items : List String}
    (h : Spreads pieces items) :
    (Text.filledPieces ',' (listText pieces).toList).map String.ofList = items := by
  have hfilled : Text.filledPieces ',' ([','].intercalate pieces) = items.map String.toList := by
    cases hp : pieces with
    | nil =>
        rw [hp] at h
        cases h
        rfl
    | cons p ps =>
        rw [← hp, Text.filledPieces,
          Text.pieces_intercalate (by simp [hp]) h.comma_not_mem, h.filter_trim]
  rw [listText, String.toList_ofList, hfilled, List.map_map]
  simp

/-- The texts that the variable of a list is read from as these items: pieces between
commas that stand for them. -/
theorem ofVariable_eq_ofTexts_iff {f : Field} (hf : f.isList = true) {text : String}
    {items : List String} :
    ofVariable f text = .ofTexts items ↔
      ∃ pieces, text = listText pieces ∧ Spreads pieces items := by
  have hinj : ∀ ss ss' : List String, Value.ofTexts ss = .ofTexts ss' → ss = ss' := by
    intro ss ss' h
    have hread := Value.readList_ofTexts ss
    rw [h, Value.readList_ofTexts] at hread
    exact (Except.ok.inj hread).symm
  rw [ofVariable, if_pos hf]
  constructor
  · intro h
    refine ⟨Text.pieces ',' text.toList, ?_, ?_⟩
    · rw [listText, Text.intercalate_pieces, String.ofList_toList]
    · rw [← hinj _ _ h]
      exact spreads_filledPieces fun p hp => Text.mem_pieces hp
  · rintro ⟨pieces, rfl, h⟩
    rw [filledPieces_listText h]

/-! ## Variables of an environment -/

/-- An environment without the variables that name a field. -/
def withoutVariable (env : Environment) (f : Field) : Environment :=
  env.filter fun e => !(e.1.toLower == variableName f)

/-- Each field has a variable of its own. -/
theorem variableName_injective {f g : Field} (h : variableName f = variableName g) : f = g := by
  have hname : f.name = g.name := String.append_right_inj "sfcplay_" |>.mp h
  have hfield := congrArg Field.ofName? hname
  rw [Field.ofName?_name, Field.ofName?_name] at hfield
  exact Option.some.inj hfield

/-- A field is read from the same variable when other variables are taken away. -/
theorem environmentText?_filter (env : Environment) {p : String × String → Bool} {f : Field}
    (h : ∀ e : String × String, e.1.toLower = variableName f → p e = true) :
    environmentText? (env.filter p) f = environmentText? env f := by
  have hnamed : ∀ e : String × String,
      decide (p e = true ∧ (e.1.toLower == variableName f) = true) =
        (e.1.toLower == variableName f) := by
    intro e
    rw [Bool.eq_iff_iff, decide_eq_true_iff, and_iff_right_iff_imp, beq_iff_eq]
    exact h e
  rw [environmentText?, environmentText?, ← List.filter_reverse, List.find?_filter]
  simp only [hnamed]

/-- Without its variable a field has no text in the environment. -/
theorem environmentText?_withoutVariable_self (env : Environment) (f : Field) :
    environmentText? (withoutVariable env f) f = none := by
  rw [environmentText?, Option.map_eq_none_iff, List.find?_eq_none]
  intro e he
  have hkept := (List.mem_filter.mp (List.mem_reverse.mp he)).2
  simpa using hkept

/-- Removing the variable of one field keeps the texts of the others. -/
theorem environmentText?_withoutVariable_of_ne (env : Environment) {f g : Field} (h : g ≠ f) :
    environmentText? (withoutVariable env f) g = environmentText? env g := by
  refine environmentText?_filter env fun e he => ?_
  rw [he, Bool.not_eq_true', beq_eq_false_iff_ne]
  exact fun heq => h (variableName_injective heq)

/-- A variable that is set is the last one. -/
theorem assign_some_eq (env : Environment) (name value : String) :
    env.assign name (some value) = Table.erase env name ++ [(name, value)] := by
  have habsent : name ∉ (Table.erase env name).keys := by
    rw [← Table.get?_eq_none_iff]
    exact Table.get?_erase_self env name
  rw [Environment.assign, Table.put_of_not_mem habsent]

/-- A variable that is assigned gives its text to the field, in whatever capitals it is
named. -/
theorem environmentText?_assign_self (env : Environment) {f : Field} {name : String}
    (h : name.toLower = variableName f) (value : String) :
    environmentText? (env.assign name (some value)) f = some value := by
  rw [assign_some_eq, environmentText?]
  simp [h]

/-- Assigning the variable of one field keeps the texts of the others. -/
theorem environmentText?_assign_of_ne (env : Environment) {f g : Field} {name : String}
    (h : name.toLower = variableName f) (value : String) (hg : g ≠ f) :
    environmentText? (env.assign name (some value)) g = environmentText? env g := by
  have hne : variableName f ≠ variableName g := fun heq => hg (variableName_injective heq).symm
  have hlast : environmentText? (Table.erase env name ++ [(name, value)]) g =
      environmentText? (Table.erase env name) g := by
    simp [environmentText?, h, hne]
  rw [assign_some_eq, hlast, Table.erase]
  refine environmentText?_filter env fun e he => ?_
  rw [decide_eq_true_iff]
  rintro rfl
  exact hne (h.symm.trans he)

/-! ## What a variable decides -/

theorem source?_of_given {given : Table String Value} {f : Field} {v : Value}
    (h : given.get? f.name = some v) (env : Environment) : source? given env f = some v := by
  rw [source?, h]

theorem source?_of_not_given {given : Table String Value} {f : Field}
    (h : given.get? f.name = none) (env : Environment) :
    source? given env f = (environmentText? env f).map (ofVariable f) := by
  rw [source?, h]

/-- Fields with the same variables have the same sources. -/
theorem source?_congr (given : Table String Value) {env env' : Environment} {f : Field}
    (h : environmentText? env f = environmentText? env' f) :
    source? given env f = source? given env' f := by
  rw [source?, source?, h]

/-- A field is read alike from sources that its reading does not tell apart. -/
theorem fromSources_congr {α : Type} {given given' : Table String Value}
    {env env' : Environment} {f : Field} {read : Value → Reading α}
    (h : (source? given env f).map read = (source? given' env' f).map read) (absent : α) :
    fromSources given env f absent read = fromSources given' env' f absent read := by
  have hmatch : ∀ given env, fromSources given env f absent read =
      match (source? given env f).map read with
      | some r => r.within (.field f.name)
      | none => .ok absent := by
    intro given env
    unfold fromSources
    cases source? given env f <;> rfl
  rw [hmatch, hmatch, h]

/-- Settings are read alike from the same sources, or from ones that differ in bindings
that are read alike. -/
theorem read_congr {given given' : Table String Value} {env env' : Environment}
    (h : ∀ f, f ≠ .setupBindings → source? given env f = source? given' env' f)
    (hb : (source? given env .setupBindings).map readBindings =
      (source? given' env' .setupBindings).map readBindings) :
    read given env = read given' env' := by
  have hcongr : ∀ f : Field, f ≠ .setupBindings →
      ∀ {α : Type} (absent : α) (read : Value → Reading α),
        fromSources given env f absent read = fromSources given' env' f absent read :=
    fun f hf _ absent read => fromSources_congr (by rw [h f hf]) absent
  simp only [read, hcongr .directivePrefix nofun, hcongr .valuelessDirectives nofun,
    fromSources_congr hb, hcongr .trustLevel nofun, hcongr .warnOnUnrecognizedScript nofun]

theorem fromSources_of_source {α : Type} {given : Table String Value} {env : Environment}
    {f : Field} {v : Value} (h : source? given env f = some v) (absent : α)
    (read : Value → Reading α) (a : α) :
    fromSources given env f absent read = .ok a ↔ read v = .ok a := by
  rw [fromSources, h, Reading.within_eq_ok_iff]

theorem fromSources_of_none {α : Type} {given : Table String Value} {env : Environment}
    {f : Field} (h : source? given env f = none) (absent : α) (read : Value → Reading α) (a : α) :
    fromSources given env f absent read = .ok a ↔ absent = a := by
  rw [fromSources, h, Except.ok.injEq]

/-- A field of settings is what its sources make of it. -/
def IsRead (given : Table String Value) (env : Environment) (s : Settings) : Field → Prop
  | .directivePrefix =>
      fromSources given env .directivePrefix ({} : Settings).directivePrefix readPrefix =
        .ok s.directivePrefix
  | .valuelessDirectives =>
      fromSources given env .valuelessDirectives ({} : Settings).valuelessDirectives readTexts =
        .ok s.valuelessDirectives
  | .setupBindings =>
      fromSources given env .setupBindings ({} : Settings).setupBindings readBindings =
        .ok s.setupBindings
  | .trustLevel =>
      fromSources given env .trustLevel ({} : Settings).trustLevel readTrust = .ok s.trustLevel
  | .warnOnUnrecognizedScript =>
      fromSources given env .warnOnUnrecognizedScript ({} : Settings).warnOnUnrecognizedScript
        Value.readBoolean = .ok s.warnOnUnrecognizedScript

/-- Settings are read when each of their fields is. -/
theorem read_eq_ok_iff {given : Table String Value} {env : Environment} {s : Settings} :
    read given env = .ok s ↔ ∀ f, IsRead given env s f := by
  rw [read, Reading.mapRead_eq_ok_iff]
  constructor
  · rintro ⟨⟨⟨⟨⟨p, v⟩, b⟩, t⟩, w⟩, hparts, rfl⟩
    simp only [Reading.both_eq_ok_iff] at hparts
    obtain ⟨⟨⟨⟨hmarker, hdirectives⟩, hbindings⟩, htrust⟩, hwarn⟩ := hparts
    intro f
    cases f with
    | directivePrefix => exact hmarker
    | valuelessDirectives => exact hdirectives
    | setupBindings => exact hbindings
    | trustLevel => exact htrust
    | warnOnUnrecognizedScript => exact hwarn
  · intro h
    refine ⟨((((s.directivePrefix, s.valuelessDirectives), s.setupBindings), s.trustLevel),
      s.warnOnUnrecognizedScript), ?_, rfl⟩
    simp only [Reading.both_eq_ok_iff]
    exact ⟨⟨⟨⟨h .directivePrefix, h .valuelessDirectives⟩, h .setupBindings⟩, h .trustLevel⟩,
      h .warnOnUnrecognizedScript⟩

/-- Settings with one field as it is first. -/
def reset (s : Settings) : Field → Settings
  | .directivePrefix => { s with directivePrefix := ({} : Settings).directivePrefix }
  | .valuelessDirectives =>
      { s with valuelessDirectives := ({} : Settings).valuelessDirectives }
  | .setupBindings => { s with setupBindings := ({} : Settings).setupBindings }
  | .trustLevel => { s with trustLevel := ({} : Settings).trustLevel }
  | .warnOnUnrecognizedScript =>
      { s with warnOnUnrecognizedScript := ({} : Settings).warnOnUnrecognizedScript }

theorem reset_reset (s : Settings) (f : Field) : (s.reset f).reset f = s.reset f := by
  cases f <;> rfl

/-- Settings with a field read from a value differ in that field alone. -/
theorem reset_eq_of_update {s s' : Settings} {f : Field} {v : Value}
    (h : s.update f v = .ok s') : s'.reset f = s.reset f := by
  cases f <;> obtain ⟨_, _, rfl⟩ := (Reading.mapRead_eq_ok_iff ..).mp h <;> rfl

section Fields

variable {given given' : Table String Value} {env env' : Environment} {s : Settings}
  {f g : Field}

/-- What a field is read as depends on its source alone. -/
theorem isRead_congr (h : source? given env f = source? given' env' f) :
    IsRead given env s f ↔ IsRead given' env' s f := by
  cases f <;> exact iff_of_eq (congrArg (· = _) (fromSources_congr (by rw [h]) _))

/-- Resetting one field keeps what the others are read as. -/
theorem isRead_reset_of_ne (h : g ≠ f) : IsRead given env (s.reset f) g ↔ IsRead given env s g := by
  cases f <;> cases g <;> first | exact Iff.rfl | exact absurd rfl h

/-- Without a source a field is as it is first. -/
theorem isRead_iff_of_none (h : source? given env f = none) :
    IsRead given env s f ↔ s.reset f = s := by
  cases s
  cases f <;> simp [IsRead, fromSources_of_none h, reset]

/-- A source decides a field as an assignment of it does. -/
theorem isRead_iff_of_source {v : Value} (h : source? given env f = some v) :
    IsRead given env s f ↔ (s.reset f).update f v = .ok s := by
  cases s
  cases f <;>
    simp [IsRead, fromSources_of_source h, update, Reading.mapRead_eq_ok_iff, reset,
      -Bool.exists_bool]

end Fields

/-- The value that a field is read from does what an assignment of it would do to what
is read without it. -/
theorem read_eq_ok_iff_of_source {given given' : Table String Value} {env env' : Environment}
    {f : Field} {v : Value} (hv : source? given env f = some v)
    (hnone : source? given' env' f = none)
    (hother : ∀ h, h ≠ f → source? given env h = source? given' env' h) (s : Settings) :
    read given env = .ok s ↔
      ∃ s₀ : Settings, read given' env' = .ok s₀ ∧ s₀.update f v = .ok s := by
  simp only [read_eq_ok_iff]
  constructor
  · intro h
    refine ⟨s.reset f, fun g => ?_, (isRead_iff_of_source hv).mp (h f)⟩
    by_cases hg : g = f
    · rw [hg]
      exact (isRead_iff_of_none hnone).mpr (s.reset_reset f)
    · exact (isRead_reset_of_ne hg).mpr ((isRead_congr (hother g hg)).mp (h g))
  · rintro ⟨s₀, h, hupdate⟩ g
    have hreset : s.reset f = s₀ :=
      (reset_eq_of_update hupdate).trans ((isRead_iff_of_none hnone).mp (h f))
    by_cases hg : g = f
    · rw [hg]
      exact (isRead_iff_of_source hv).mpr (hreset ▸ hupdate)
    · exact (isRead_reset_of_ne hg).mp (hreset ▸ (isRead_congr (hother g hg)).mpr (h g))

/-- A variable decides a field that is not given, and no other field. -/
theorem read_eq_ok_iff_of_variable {given : Table String Value} {env : Environment} {f : Field}
    {text : String} (hgiven : given.get? f.name = none)
    (htext : environmentText? env f = some text) (s : Settings) :
    read given env = .ok s ↔
      ∃ s₀ : Settings, read given (withoutVariable env f) = .ok s₀ ∧
        s₀.update f (ofVariable f text) = .ok s := by
  have hv : source? given env f = some (ofVariable f text) := by
    rw [source?_of_not_given hgiven, htext, Option.map_some]
  have hnone : source? given (withoutVariable env f) f = none := by
    rw [source?_of_not_given hgiven, environmentText?_withoutVariable_self, Option.map_none]
  have hother : ∀ h, h ≠ f → source? given env h = source? given (withoutVariable env f) h :=
    fun h hne => source?_congr given (environmentText?_withoutVariable_of_ne env hne).symm
  exact read_eq_ok_iff_of_source hv hnone hother s

/-! ## Lists in variables -/

/-- Repeated names are collapsed as the keys of a table are. -/
theorem dedup_eq_eraseDups (names : List String) : dedup names = names.eraseDups := by
  have hkeys : ∀ t : Table String Unit,
      names.foldl (fun kept n => if kept.contains n then kept else kept ++ [n]) t.keys =
        ((names.map fun n => (n, ())).foldl (fun t e => t.put e.1 e.2) t).keys := by
    induction names with
    | nil => exact fun _ => rfl
    | cons n names ih =>
        intro t
        have hput : (if t.keys.contains n then t.keys else t.keys ++ [n]) = (t.put n ()).keys := by
          rw [Table.keys_put]
          simp
        rw [List.foldl_cons, hput, ih, List.map_cons, List.foldl_cons]
  have hall := Table.keys_ofEntries (names.map fun n => (n, ()))
  have hnames : (names.map fun n => (n, ())).map Prod.fst = names := by
    simp [Function.comp_def]
  rw [hnames] at hall
  rw [← hall]
  exact hkeys []

/-- Texts are taken as the valueless directives as they are. -/
theorem update_valuelessDirectives (s : Settings) (items : List String) :
    s.update .valuelessDirectives (.ofTexts items) =
      .ok { s with valuelessDirectives := items } := by
  rw [update, readTexts, Value.readList_ofTexts]
  rfl

/-- Identifiers are read as bindings, each of them once. -/
theorem readBindings_ofTexts {names : List String}
    (h : ∀ n ∈ names, Script.isIdentifier n = true) :
    readBindings (.ofTexts names) = .ok (dedup names) := by
  have hrule : checkBindings names = .ok (dedup names) := checkBindings_eq_ok_iff.mpr ⟨rfl, h⟩
  exact (Reading.andThen_eq_ok_iff _ _ _).mpr
    ⟨names, Value.readList_ofTexts names, underRule_eq_ok_iff.mpr hrule⟩

/-- Identifiers are taken as the setup bindings, each of them once. -/
theorem update_setupBindings (s : Settings) {names : List String}
    (h : ∀ n ∈ names, Script.isIdentifier n = true) :
    s.update .setupBindings (.ofTexts names) = .ok { s with setupBindings := dedup names } := by
  rw [update, readBindings_ofTexts h]
  rfl

/-- Joining texts by commas writes their list without blanks. -/
theorem intercalate_eq_listText (items : List String) :
    ",".intercalate items = listText (items.map String.toList) := by
  have hcomma : ",".toList = [','] := by decide
  rw [listText, ← hcomma, ← String.toList_intercalate, String.ofList_toList]

/-- Items that are joined again are read as the items. -/
theorem ofVariable_intercalate {f : Field} (hf : f.isList = true) {items : List String}
    (h : ∀ i ∈ items, IsElement ',' i.toList) :
    ofVariable f (",".intercalate items) = .ofTexts items :=
  (ofVariable_eq_ofTexts_iff hf).mpr
    ⟨_, intercalate_eq_listText items, Spreads.of_isElement h⟩

section Assigned

variable {given : Table String Value} {env : Environment} {f : Field} {name : String}
  (hname : name.toLower = variableName f)
include hname

/-- A field that is not given has the text that is assigned to its variable as its source.
-/
theorem source?_assign_self (hgiven : given.get? f.name = none) (text : String) :
    source? given (env.assign name (some text)) f = some (ofVariable f text) := by
  rw [source?_of_not_given hgiven, environmentText?_assign_self env hname, Option.map_some]

/-- Assigning the variable of one field keeps the sources of the others. -/
theorem source?_assign_of_ne (text : String) {h : Field} (hne : h ≠ f) :
    source? given (env.assign name (some text)) h = source? given env h :=
  source?_congr given (environmentText?_assign_of_ne env hname text hne)

/-- A variable that is set to another text for the same value is read as before. -/
theorem read_assign_of_ofVariable_eq (hgiven : given.get? f.name = none) {text text' : String}
    (htext : environmentText? env f = some text)
    (hsame : ofVariable f text' = ofVariable f text) :
    read given (env.assign name (some text')) = read given env := by
  have hsource : ∀ h, source? given (env.assign name (some text')) h = source? given env h := by
    intro h
    by_cases hne : h = f
    · subst hne
      rw [source?_assign_self hname hgiven, source?_of_not_given hgiven, htext, Option.map_some,
        hsame]
    · exact source?_assign_of_ne hname text' hne
  exact read_congr (fun h _ => hsource h) (by rw [hsource])

end Assigned

/-- Bindings whose variable is set to the names without repetitions are read as before. -/
theorem read_assign_dedup {given : Table String Value} {env : Environment} {name text : String}
    (hname : name.toLower = variableName .setupBindings)
    (hgiven : given.get? Field.setupBindings.name = none)
    (htext : environmentText? env .setupBindings = some text) {names : List String}
    (hnames : ofVariable .setupBindings text = .ofTexts names)
    (helement : ∀ n ∈ names, IsElement ',' n.toList)
    (hidentifier : ∀ n ∈ names, Script.isIdentifier n = true) :
    read given (env.assign name (some (",".intercalate (dedup names)))) = read given env := by
  have hjoined : ofVariable .setupBindings (",".intercalate (dedup names)) =
      .ofTexts (dedup names) :=
    ofVariable_intercalate rfl fun n hn => helement n (mem_dedup_iff.mp hn)
  have hagain : readBindings (.ofTexts (dedup names)) = readBindings (.ofTexts names) := by
    rw [readBindings_ofTexts hidentifier,
      readBindings_ofTexts fun n hn => hidentifier n (mem_dedup_iff.mp hn),
      dedup_of_nodup (dedup_nodup names)]
  refine read_congr (fun h hne => source?_assign_of_ne hname _ hne) ?_
  rw [source?_assign_self hname hgiven, source?_of_not_given hgiven, htext, hjoined,
    Option.map_some, Option.map_some, Option.map_some, hnames, hagain]

/-- A list that is written in a variable, with any blanks around its items and any blank
items between them, is read as it is unless the field is given; of bindings, which have
to be identifiers, each is kept at its first place.  Joined again, the list is read as
before.  A variable has no part in a field that is given, and decides every field that is
not. -/
theorem list_variables (given : Table String Value) (env : Environment) :
    (∀ pieces items, Spreads pieces items →
      given.get? Field.valuelessDirectives.name = none →
      environmentText? env .valuelessDirectives = some (listText pieces) →
      (∀ s, read given env = .ok s ↔
        ∃ s₀ : Settings, read given (withoutVariable env .valuelessDirectives) = .ok s₀ ∧
          s = { s₀ with valuelessDirectives := items }) ∧
      ∀ name : String, name.toLower = variableName .valuelessDirectives →
        read given (env.assign name (some (",".intercalate items))) = read given env) ∧
    (∀ pieces items, Spreads pieces items →
      (∀ n ∈ items, Script.isIdentifier n = true) →
      given.get? Field.setupBindings.name = none →
      environmentText? env .setupBindings = some (listText pieces) →
      (∀ s, read given env = .ok s ↔
        ∃ s₀ : Settings, read given (withoutVariable env .setupBindings) = .ok s₀ ∧
          s = { s₀ with setupBindings := items.eraseDups }) ∧
      ∀ name : String, name.toLower = variableName .setupBindings →
        read given (env.assign name (some (",".intercalate items.eraseDups))) =
          read given env) ∧
    (∀ f v, given.get? (Field.name f) = some v →
      ∀ env', (∀ g, g ≠ f → environmentText? env' g = environmentText? env g) →
        read given env' = read given env) ∧
    (∀ f text, given.get? (Field.name f) = none → environmentText? env f = some text →
      ∀ s, read given env = .ok s ↔
        ∃ s₀ : Settings, read given (withoutVariable env f) = .ok s₀ ∧
          s₀.update f (ofVariable f text) = .ok s) := by
  refine ⟨?_, ?_, ?_, ?_⟩
  · intro pieces items hspreads hgiven htext
    have hvalue : ofVariable .valuelessDirectives (listText pieces) = .ofTexts items :=
      (ofVariable_eq_ofTexts_iff rfl).mpr ⟨pieces, rfl, hspreads⟩
    have hjoined : ofVariable .valuelessDirectives (",".intercalate items) = .ofTexts items :=
      ofVariable_intercalate rfl hspreads.isElement
    constructor
    · intro s
      rw [read_eq_ok_iff_of_variable hgiven htext, hvalue]
      simp only [update_valuelessDirectives, Except.ok.injEq, eq_comm]
    · intro name hname
      exact read_assign_of_ofVariable_eq hname hgiven htext (hjoined.trans hvalue.symm)
  · intro pieces items hspreads hidentifier hgiven htext
    have hvalue : ofVariable .setupBindings (listText pieces) = .ofTexts items :=
      (ofVariable_eq_ofTexts_iff rfl).mpr ⟨pieces, rfl, hspreads⟩
    rw [← dedup_eq_eraseDups]
    constructor
    · intro s
      rw [read_eq_ok_iff_of_variable hgiven htext, hvalue]
      simp only [update_setupBindings _ hidentifier, Except.ok.injEq, eq_comm]
    · intro name hname
      exact read_assign_dedup hname hgiven htext hvalue hspreads.isElement hidentifier
  · intro f v hv env' henv
    have hsource : ∀ g, source? given env' g = source? given env g := by
      intro g
      by_cases hg : g = f
      · subst hg
        rw [source?_of_given hv, source?_of_given hv]
      · exact source?_congr given (henv g hg)
    exact read_congr (fun g _ => hsource g) (by rw [hsource])
  · intro f text hgiven htext s
    exact read_eq_ok_iff_of_variable hgiven htext s

/-- Both lists in variables, with blank items and a repeated name, next to a variable of a
field that is given. -/
theorem list_variables_written :
    let given : Table String Value := [("trust_level", .text "trusted")]
    let env : Environment :=
      [("SFCPLAY_SETUP_BINDINGS", " ref,, watch\t,ref"),
        ("sfcplay_valueless_directives", "v-else, v-slot,"),
        ("SFCPLAY_TRUST_LEVEL", "untrusted"), ("SFCPLAY_DIRECTIVE_PREFIX", "x-")]
    let settings : Settings :=
      { directivePrefix := "x-", valuelessDirectives := ["v-else", "v-slot"]
        setupBindings := ["ref", "watch"], trustLevel := .trusted }
    read given env = .ok settings ∧
    read given (env.assign "sfcplay_valueless_directives" (some "v-else,v-slot")) =
      .ok settings ∧
    read given (env.assign "SFCPLAY_setup_bindings" (some "ref,watch")) = .ok settings ∧
    read given (withoutVariable env .trustLevel) = .ok settings ∧
    ∃ s₀ : Settings, read given (withoutVariable env .directivePrefix) = .ok s₀ ∧
      s₀.update .directivePrefix (.text "x-") = .ok settings := by
  intro given env settings
  obtain ⟨hdirectives, hbindings, hgiven, hvariable⟩ := list_variables given env
  have hread : ∀ {r : Reading Settings} {s : Settings}, r.toOption = some s → r = .ok s := by
    intro r s h
    cases r with
    | ok s' => exact congrArg Except.ok (Option.some.inj h)
    | error issues => cases h
  obtain ⟨ps, hps, hspreads⟩ :
      ∃ ps, "v-else, v-slot," = listText ps ∧ Spreads ps ["v-else", "v-slot"] :=
    (ofVariable_eq_ofTexts_iff (f := .valuelessDirectives) rfl).mp rfl
  obtain ⟨qs, hqs, hspreads'⟩ :
      ∃ qs, " ref,, watch\t,ref" = listText qs ∧ Spreads qs ["ref", "watch", "ref"] :=
    (ofVariable_eq_ofTexts_iff (f := .setupBindings) rfl).mp rfl
  have htext : environmentText? env .valuelessDirectives = some (listText ps) := by
    rw [← hps]
    decide +kernel
  have htext' : environmentText? env .setupBindings = some (listText qs) := by
    rw [← hqs]
    decide +kernel
  obtain ⟨hlist, hjoined⟩ := hdirectives ps _ hspreads rfl htext
  obtain ⟨_, hjoined'⟩ := hbindings qs _ hspreads' (by decide) rfl htext'
  have hwithout : read given (withoutVariable env .valuelessDirectives) =
      .ok { settings with valuelessDirectives := ({} : Settings).valuelessDirectives } :=
    hread (by decide +kernel)
  have hall : read given env = .ok settings := (hlist settings).mpr ⟨_, hwithout, rfl⟩
  have hother : ∀ g, g ≠ .trustLevel →
      environmentText? (withoutVariable env .trustLevel) g = environmentText? env g :=
    fun g hg => environmentText?_withoutVariable_of_ne env hg
  have hmarker : environmentText? env .directivePrefix = some "x-" := by decide +kernel
  refine ⟨hall, ?_, ?_, ?_, ?_⟩
  · exact (hjoined _ (by decide +kernel)).trans hall
  · exact (hjoined' _ (by decide +kernel)).trans hall
  · exact (hgiven .trustLevel _ rfl _ hother).trans hall
  · exact (hvariable .directivePrefix "x-" rfl hmarker settings).mp hall

end SingleFile.Settings
