import SingleFile.Proofs.Compile.Gates
import SingleFile.Proofs.Script.Parameters
import SingleFile.Proofs.Settings.Validity

/-!
# Usable bindings

The names that `setup` is given are checked twice: as identifiers when the settings
are read or assigned, and as parameters when a function is built.  An accepted name
fails the second check only when it is a reserved word with a line feed behind it, which
no variable of the environment can hold.  Where the settings have no such name, the
bindings never keep a script from being compiled.

Main results:

- Theorem `Reached.valid`: settings that were read and assigned are valid.
- Theorem `bindings_usable_iff`: when accepted bindings make parameters of `setup`, and
  when a compile that would succeed without bindings succeeds with them.
- Theorem `bindings_refused`: accepted bindings that no function can have.
-/

namespace SingleFile

namespace Settings

/-! ## Settings that come about -/

/-- The settings were read from some sources and then changed by accepted assignments to
names that are not reserved.  Through a reserved name the fields of an object can be given
any values, which are not checked. -/
inductive Reached : Settings → Prop
  | read {given : Table String Value} {env : Environment} {s : Settings}
      (h : Settings.read given env = .ok s) : Reached s
  | assign {s s' : Settings} {name : String} {v : Value} (hs : Reached s)
      (hname : isReservedName name = false) (h : s.assign name v = .ok s') : Reached s'

/-- Settings that came about in this way are valid. -/
theorem Reached.valid {s : Settings} (hs : s.Reached) : s.Valid := by
  induction hs with
  | read h => exact valid_of_read h
  | assign _ _ h ih => exact ih.assign h

/-! ## Names that are refused as parameters -/

/-- The bindings that are reserved words with a line feed behind them. -/
def reservedBindings (s : Settings) : List String :=
  s.setupBindings.filter (· ∈ Script.reservedLines)

/-- Among the bindings of valid settings those that are no parameters are the reserved
ones. -/
theorem Valid.filter_not_isParameter {s : Settings} (hs : s.Valid) :
    s.setupBindings.filter (fun n => !Script.isParameter n) = s.reservedBindings := by
  refine List.filter_congr fun n hn => ?_
  have hiff := Script.isParameter_iff_of_isIdentifier (hs.setupBindings.identifier n hn)
  rw [Bool.eq_iff_iff, Bool.not_eq_true', ← Bool.not_eq_true, hiff, Classical.not_not,
    decide_eq_true_eq]

/-- All bindings of valid settings are parameters exactly when none is reserved. -/
theorem Valid.isParameter_iff {s : Settings} (hs : s.Valid) :
    (∀ n ∈ s.setupBindings, Script.isParameter n = true) ↔ s.reservedBindings = [] := by
  rw [← hs.filter_not_isParameter, List.filter_eq_nil_iff]
  simp

/-- A trimmed text is no reserved word with a line feed behind it. -/
theorem not_mem_reservedLines_of_trim {n : String} (h : Text.trim n.toList = n.toList) :
    n ∉ Script.reservedLines := by
  intro hn
  obtain ⟨w, hw, rfl⟩ := List.mem_map.mp hn
  rw [Script.trim_of_mem_reservedLines hw, String.toList_append] at h
  simpa using congrArg List.length h

/-- The bindings of an environment are the first ones, or names cut out of a variable. -/
theorem eq_or_mem_filledPieces_of_fromSources {env : Environment} {bs : List String}
    (h : fromSources [] env .setupBindings ({} : Settings).setupBindings readBindings = .ok bs) :
    bs = ({} : Settings).setupBindings ∨
      ∃ s : List Char, ∀ n ∈ bs, n.toList ∈ Text.filledPieces ',' s := by
  have hsource : source? [] env .setupBindings =
      (environmentText? env .setupBindings).map (ofVariable .setupBindings) := rfl
  unfold fromSources at h
  rw [hsource] at h
  cases htext : environmentText? env .setupBindings with
  | none =>
      rw [htext] at h
      exact Or.inl (Except.ok.inj h).symm
  | some text =>
      rw [htext] at h
      right
      obtain ⟨names, hnames, hrule⟩ :=
        (Reading.andThen_eq_ok_iff _ _ _).mp ((Reading.within_eq_ok_iff _ _ _).mp h)
      have hpieces : names = (Text.filledPieces ',' text.toList).map String.ofList := by
        have hread := Value.readList_ofTexts ((Text.filledPieces ',' text.toList).map String.ofList)
        exact Except.ok.inj (hnames.symm.trans hread)
      obtain ⟨rfl, _⟩ := checkBindings_eq_ok_iff.mp (underRule_eq_ok_iff.mp hrule)
      refine ⟨text.toList, fun n hn => ?_⟩
      rw [mem_dedup_iff, hpieces] at hn
      obtain ⟨piece, hpiece, rfl⟩ := List.mem_map.mp hn
      rw [String.toList_ofList]
      exact hpiece

/-- The names of a variable are trimmed: none of them is followed by a line feed. -/
theorem reservedBindings_of_ofEnvironment {env : Environment} {s : Settings}
    (h : ofEnvironment env = .ok s) : s.reservedBindings = [] := by
  obtain ⟨⟨⟨⟨⟨p, v⟩, b⟩, t⟩, w⟩, hparts, rfl⟩ := (Reading.mapRead_eq_ok_iff _ _ _).mp h
  simp only [Reading.both_eq_ok_iff] at hparts
  obtain ⟨⟨⟨_, hb⟩, _⟩, _⟩ := hparts
  rcases eq_or_mem_filledPieces_of_fromSources hb with rfl | ⟨text, hpieces⟩
  · have hfirst : ({} : Settings).reservedBindings = [] := by decide +kernel
    exact hfirst
  · refine List.filter_eq_nil_iff.mpr fun n hn => ?_
    rw [decide_eq_true_eq]
    exact not_mem_reservedLines_of_trim (Text.isElement_of_mem_filledPieces (hpieces n hn)).trim_eq

end Settings

/-! ## The bindings of `setup` -/

/-- With valid settings `setup` is built from every accepted body, unless some binding is
a reserved word with a line feed; then these bindings are reported. -/
theorem buildFunction_setup {settings : Settings} (hs : settings.Valid) {body : String}
    (hbody : Script.Source.check body = .ok ()) :
    buildFunction settings "setup" .setup settings.setupBindings body =
      if settings.reservedBindings = [] then
        .ok ⟨"setup", .setup, settings.setupBindings, body, settings.trustLevel⟩
      else
        .error ⟨.inadmissible [.badParameters settings.reservedBindings], some "setup()"⟩ := by
  have hname : nameFault? "setup" = none :=
    (ScriptFunction.nameFault?_eq_none_iff "setup").mpr (by decide)
  have hfaults : ScriptFunction.faults
      ⟨"setup", .setup, settings.setupBindings, body, settings.trustLevel⟩ =
      if settings.reservedBindings = [] then [] else [.badParameters settings.reservedBindings] := by
    rw [ScriptFunction.faults, hname, parametersFault?, hs.filter_not_isParameter]
    cases settings.reservedBindings with
    | nil => rfl
    | cons n ns => rfl
  rw [buildFunction, hbody]
  simp only [ScriptFunction.validate, hfaults]
  by_cases hnone : settings.reservedBindings = []
  · simp only [if_pos hnone]
  · simp only [if_neg hnone]
    rfl

namespace Compiler

/-- The settings with no names for `setup`. -/
def withoutBindings (settings : Settings) : Settings :=
  { settings with setupBindings := [] }

/-- A compile of texts succeeds exactly when it does without bindings, and `setup` is
absent or all bindings are parameters. -/
theorem isSuccess_iff_withoutBindings (settings : Settings) (template script style : String) :
    ((standard settings).compile (.text template) (.text script) (.text style)).isSuccess = true ↔
      ((standard (withoutBindings settings)).compile (.text template) (.text script)
        (.text style)).isSuccess = true ∧
      ((Script.Fragments.ofScript script.toList).setupBody = none ∨
        ∀ n ∈ settings.setupBindings, Script.isParameter n = true) := by
  have hsame : Template.faults (withoutBindings settings) (.text template) =
      Template.faults settings (.text template) := rfl
  rw [(compile_gates settings template script style).2.1,
    (compile_gates (withoutBindings settings) template script style).2.1, hsame]
  cases hsetup : (Script.Fragments.ofScript script.toList).setupBody with
  | none => simp
  | some body =>
      constructor
      · rintro ⟨hfaults, hbodies, hrest⟩
        exact ⟨⟨hfaults, fun b hb => ⟨(hbodies b hb).1, nofun⟩, hrest⟩,
          Or.inr (hbodies body rfl).2⟩
      · rintro ⟨⟨hfaults, hbodies, hrest⟩, hbindings⟩
        exact ⟨hfaults, fun b hb => ⟨(hbodies b hb).1, hbindings.resolve_left nofun⟩, hrest⟩

/-! ## The law -/

/-- Bindings that the settings accepted, at the start or by an assignment that is checked,
make parameters of `setup` for every accepted body and leave the success of every compile as
it is without bindings, unless some of them are reserved words with a line feed; the
bindings of an environment never are. -/
theorem bindings_usable_iff {settings : Settings} (hs : settings.Reached) :
    let refused := settings.reservedBindings
    (∀ body, Script.Source.check body = .ok () →
      buildFunction settings "setup" .setup settings.setupBindings body =
        if refused = [] then
          .ok ⟨"setup", .setup, settings.setupBindings, body, settings.trustLevel⟩
        else .error ⟨.inadmissible [.badParameters refused], some "setup()"⟩) ∧
    (∀ template script style : String,
      ((standard settings).compile (.text template) (.text script) (.text style)).isSuccess =
          true ↔
        ((standard (withoutBindings settings)).compile (.text template) (.text script)
          (.text style)).isSuccess = true ∧
        ((Script.Fragments.ofScript script.toList).setupBody = none ∨ refused = [])) ∧
    (∀ env, Settings.ofEnvironment env = .ok settings → refused = []) := by
  intro refused
  refine ⟨fun body hbody => buildFunction_setup hs.valid hbody, fun template script style => ?_,
    fun env henv => Settings.reservedBindings_of_ofEnvironment henv⟩
  rw [isSuccess_iff_withoutBindings, hs.valid.isParameter_iff]

/-- A line feed behind a name that is not reserved does no harm. -/
theorem bindings_usable_line :
    ∃ settings, Settings.read [("setup_bindings", .ofTexts ["ref\n", "x"])] [] = .ok settings ∧
      settings.setupBindings = ["ref\n", "x"] ∧
      buildFunction settings "setup" .setup settings.setupBindings "x.value = 1" =
        .ok ⟨"setup", .setup, ["ref\n", "x"], "x.value = 1", .untrusted⟩ := by
  have hread : Settings.read [("setup_bindings", .ofTexts ["ref\n", "x"])] [] =
      .ok { setupBindings := ["ref\n", "x"] } := rfl
  have hbody : Script.Source.check "x.value = 1" = .ok () := by decide +kernel
  refine ⟨_, hread, rfl, ?_⟩
  exact (bindings_usable_iff (.read hread)).1 _ hbody

/-- A reserved word with a line feed is accepted as a binding, at the start and later,
and no `setup` can be built and no script with one compiled from then on. -/
theorem bindings_refused :
    let settings : Settings := { setupBindings := ["if\n"] }
    Settings.read [("setup_bindings", .ofTexts ["if\n"])] [] = .ok settings ∧
    ({} : Settings).assign "setup_bindings" (.ofTexts ["if\n"]) = .ok settings ∧
    Script.Source.check "" = .ok () ∧
    buildFunction settings "setup" .setup settings.setupBindings "" =
      .error ⟨.inadmissible [.badParameters ["if\n"]], some "setup()"⟩ ∧
    ((standard settings).compile (.text "<p></p>") (.text "setup() \x7b\x7d")
      (.text "")).error? =
      some "Compilation error: setup(): Invalid parameter names: 'if\\n'" := by
  exact ⟨rfl, rfl, by decide +kernel, rfl, by decide +kernel⟩

end Compiler

end SingleFile
