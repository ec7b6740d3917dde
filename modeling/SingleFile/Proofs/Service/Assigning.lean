import SingleFile.Proofs.Service.Runs
import SingleFile.Proofs.Settings.Validity

/-!
# Assigning settings

The settings service takes assignments by name, of any value.  Each is one step:
it is refused and everything stays as it is, or the object that the service holds
has other attributes.  Assignments to names that are not reserved keep the object
one of valid settings.  Three reserved names do not: through two of them fields are
replaced by values that nothing checks, and through the third every later assignment is
refused.

Main results:

- Theorem `perform_assignSetting`: what an assignment does.
- Theorem `HoldsValid.perform`: a checked assignment keeps the settings valid and
  changes the field of its name at most.
- Theorem `assignments_valid_and_atomic`: this holds in every state of a run of such
  assignments.
- Theorem `assignments_unchecked`: runs through reserved names after which it does not.
-/

namespace SingleFile

namespace Session

variable {s : Session} {d : SettingsService} {settings : Settings}

/-! ## One assignment -/

/-- What is put in the place of an object is found there. -/
@[simp]
theorem attributes_put (s : Session) (o : ObjectId) (a : Attributes) :
    attributes { s with settings := s.settings.put o a } o = a := by
  simp [attributes]

/-- An assignment is refused and nothing changes, or the object of the service has the
assigned attributes. -/
theorem perform_assignSetting (hm : s.manager.isSome = true)
    (hd : s.services.get? .settings = some (.settings d)) (name : String) (v : Value) :
    s.perform (.assignSetting name v) =
      match Settings.assignAttributes (s.attributes d.settings) name v with
      | .error e => (.error (.refused e), s)
      | .ok a => (.ok (shown a), { s with settings := s.settings.put d.settings a }) := by
  obtain ⟨id, hid⟩ := Option.isSome_iff_exists.mp hm
  rw [perform_of_managed hid]
  simp only [performWith, assignSetting, getSettingsService, get_of_has hd]
  cases Settings.assignAttributes (s.attributes d.settings) name v with
  | error e => rfl
  | ok a => rfl

/-- An assignment that is refused leaves the whole session as it was. -/
theorem eq_of_refused (hm : s.manager.isSome = true)
    (hd : s.services.get? .settings = some (.settings d)) {name : String} {v : Value}
    {e : ServiceError} {s' : Session}
    (h : s.perform (.assignSetting name v) = (.error e, s')) : s' = s := by
  rw [perform_assignSetting hm hd] at h
  cases hassign : Settings.assignAttributes (s.attributes d.settings) name v with
  | error e' =>
      rw [hassign] at h
      exact (Prod.mk.inj h).2.symm
  | ok a =>
      rw [hassign] at h
      cases h

/-! ## Checked assignments -/

/-- The service is kept, and its object is one of valid settings. -/
structure HoldsValid (s : Session) (d : SettingsService) (settings : Settings) : Prop where
  managed : s.manager.isSome = true
  kept : s.services.get? .settings = some (.settings d)
  attributes_eq : s.attributes d.settings = settings.attributes
  valid : settings.Valid

/-- An assignment to a name that is not reserved is one to the settings. -/
theorem HoldsValid.perform_eq (h : s.HoldsValid d settings) {name : String}
    (hname : isReservedName name = false) (v : Value) :
    s.perform (.assignSetting name v) =
      match settings.assign name v with
      | .error e => (.error (.refused e), s)
      | .ok settings' =>
          (.ok (.settings settings'),
            { s with settings := s.settings.put d.settings settings'.attributes }) := by
  rw [perform_assignSetting h.managed h.kept, h.attributes_eq,
    settings.assignAttributes_attributes hname v]
  cases settings.assign name v with
  | error e => rfl
  | ok settings' => simp [Except.map]

/-- What an assignment to a name that is not reserved leaves when it is accepted: settings
that are valid again, with the fields of all other names as they were. -/
theorem HoldsValid.of_accepted (h : s.HoldsValid d settings) {name : String}
    (hname : isReservedName name = false) {v : Value} {o : Outcome} {s' : Session}
    (haccepted : s.perform (.assignSetting name v) = (.ok o, s')) :
    ∃ settings', o = .settings settings' ∧ s'.HoldsValid d settings' ∧
      ∀ f : Settings.Field, f.name ≠ name → settings'.fieldValue f = settings.fieldValue f := by
  rw [h.perform_eq hname] at haccepted
  cases hassign : settings.assign name v with
  | error e =>
      rw [hassign] at haccepted
      cases haccepted
  | ok settings' =>
      rw [hassign] at haccepted
      obtain ⟨ho, rfl⟩ := Prod.mk.inj haccepted
      exact ⟨settings', (Except.ok.inj ho).symm,
        ⟨h.managed, h.kept, attributes_put _ _ _, h.valid.assign hassign⟩,
        fun f hf => Settings.assign_other hassign hf⟩

/-- A checked assignment, accepted or not, leaves valid settings. -/
theorem HoldsValid.perform (h : s.HoldsValid d settings) {name : String}
    (hname : isReservedName name = false) (v : Value) :
    ∃ settings', (s.perform (.assignSetting name v)).2.HoldsValid d settings' := by
  cases hperform : s.perform (.assignSetting name v) with
  | mk outcome s' =>
      cases outcome with
      | error e =>
          obtain rfl := eq_of_refused h.managed h.kept hperform
          exact ⟨settings, h⟩
      | ok o =>
          obtain ⟨settings', _, h', _⟩ := h.of_accepted hname hperform
          exact ⟨settings', h'⟩

/-- Names and values as a run of assignments. -/
def assignments (as : List (String × Value)) : List Action :=
  as.map fun (name, v) => .assignSetting name v

/-- A run of checked assignments leaves valid settings. -/
theorem HoldsValid.after (h : s.HoldsValid d settings) {as : List (String × Value)}
    (has : ∀ a ∈ as, isReservedName a.1 = false) :
    ∃ settings', (s.after (assignments as)).HoldsValid d settings' := by
  induction as generalizing s settings with
  | nil => exact ⟨settings, h⟩
  | cons a as ih =>
      obtain ⟨settings', h'⟩ := h.perform (has a List.mem_cons_self) a.2
      exact ih h' fun b hb => has b (List.mem_cons_of_mem a hb)

/-! ## The law -/

/-- Behind any run of assignments to names that are not reserved, of any values, to settings
that were read from any given values and any environment, the settings are valid.  Whatever
is assigned next, nothing changes if it is refused, as every name is that is neither a
field's nor reserved.  One to a name that is not reserved, if it is accepted, changes the
field of its name at most; and a field may be assigned the value that it has, which changes
nothing.  The one name that stands for all fields takes any object, and its entries are the
fields from then on. -/
theorem assignments_valid_and_atomic (hm : s.manager.isSome = true)
    (hd : s.services.get? .settings = some (.settings d))
    {given : Table String Value} {env : Environment} {start : Settings}
    (hread : Settings.read given env = .ok start)
    (hstart : s.attributes d.settings = start.attributes)
    (as : List (String × Value)) (has : ∀ a ∈ as, isReservedName a.1 = false) :
    let now := s.after (assignments as)
    ∃ settings : Settings, now.attributes d.settings = settings.attributes ∧ settings.Valid ∧
    (∀ name v e next, now.perform (.assignSetting name v) = (.error e, next) → next = now) ∧
    (∀ name v, isReservedName name = false → (∀ f : Settings.Field, f.name ≠ name) →
      ∃ e, now.perform (.assignSetting name v) = (.error e, now)) ∧
    (∀ name v o next, isReservedName name = false →
      now.perform (.assignSetting name v) = (.ok o, next) →
      ∃ settings' : Settings, o = .settings settings' ∧
        next.attributes d.settings = settings'.attributes ∧
        ∀ f : Settings.Field, f.name ≠ name →
          settings'.fieldValue f = settings.fieldValue f) ∧
    (∀ f : Settings.Field, ∃ next,
      now.perform (.assignSetting f.name (settings.fieldValue f)) =
        (.ok (.settings settings), next) ∧
      next.attributes d.settings = settings.attributes) ∧
    ∀ fields, ∃ next,
      now.perform (.assignSetting "__dict__" (.object fields)) = (.ok (shown { fields }), next) ∧
      next.attributes d.settings = { fields } := by
  intro now
  have hfirst : s.HoldsValid d start := ⟨hm, hd, hstart, Settings.valid_of_read hread⟩
  obtain ⟨settings, hnow⟩ := hfirst.after has
  refine ⟨settings, hnow.attributes_eq, hnow.valid, ?_, ?_, ?_, ?_, ?_⟩
  · intro name v e next h
    exact eq_of_refused hnow.managed hnow.kept h
  · intro name v hname hfield
    obtain ⟨e, he⟩ := settings.assign_of_unknown hfield v
    exact ⟨.refused e, by rw [hnow.perform_eq hname, he]⟩
  · intro name v o next hname h
    obtain ⟨settings', ho, hnext, hothers⟩ := hnow.of_accepted hname h
    exact ⟨settings', ho, hnext.attributes_eq, hothers⟩
  · intro f
    have hassign := hnow.valid.assign_fieldValue f
    refine ⟨_, ?_, attributes_put now d.settings settings.attributes⟩
    rw [hnow.perform_eq (Settings.isReservedName_name f), hassign]
  · intro fields
    refine ⟨_, ?_, attributes_put now d.settings { fields }⟩
    rw [perform_assignSetting hnow.managed hnow.kept, hnow.attributes_eq]
    rfl

/-- Settings that are read from a given prefix, behind a refused assignment and an
accepted one whose repeated name is collapsed. -/
theorem assignments_valid_and_atomic_two :
    let d : SettingsService := { id := 0, settings := 1, isReady := true }
    let start : Settings := { directivePrefix := "q-" }
    let s : Session :=
      { manager := some 2, services := [(.settings, .settings d)]
        settings := [(1, start.attributes)] }
    let as : List (String × Value) :=
      [("directive_prefix", .text " "), ("setup_bindings", .ofTexts ["b", "a", "b"])]
    let settings : Settings := { directivePrefix := "q-", setupBindings := ["b", "a"] }
    s.manager.isSome = true ∧ s.services.get? .settings = some (.settings d) ∧
      Settings.read [("directive_prefix", .text "q-")] [] = .ok start ∧
      s.attributes d.settings = start.attributes ∧ (∀ a ∈ as, isReservedName a.1 = false) ∧
      (s.after (assignments as)).attributes d.settings = settings.attributes ∧
      settings.Valid := by
  intro d start s as settings
  have hread : Settings.read [("directive_prefix", .text "q-")] [] = .ok start := rfl
  have hnames : ∀ a ∈ as, isReservedName a.1 = false := by
    simp only [as, List.forall_mem_cons]
    decide
  have hsettings : (s.after (assignments as)).attributes d.settings = settings.attributes := rfl
  obtain ⟨settings', hattributes, hvalid, _⟩ :=
    assignments_valid_and_atomic (s := s) (d := d) rfl rfl hread rfl as hnames
  have hsame : settings' = settings := by
    have htold := congrArg Settings.ofAttributes (hattributes.symm.trans hsettings)
    simpa using htold
  exact ⟨rfl, rfl, hread, rfl, hnames, hsettings, hsame ▸ hvalid⟩

/-- Assignments to reserved names that are accepted, and what they lead to.  One replaces
all fields by others that are not valid.  One lays attributes by, and then an assignment
to one field, of the value that it has, changes two others.  One takes the place of the
check, and then no field can be assigned the value that it has. -/
theorem assignments_unchecked :
    let s := (initial []).after [.get .settings none]
    let fields : Table String Value :=
      [("directive_prefix", .text " "), ("valueless_directives", .list []),
        ("setup_bindings", .ofTexts ["if"]), ("trust_level", .text "untrusted"),
        ("warn_on_unrecognized_script", .bool true)]
    let laidBy : Table String Value :=
      [("directive_prefix", .text " "), ("setup_bindings", .ofTexts ["if"])]
    let replaced := s.perform (.assignSetting "__dict__" (.object fields))
    let behind := s.perform (.assignSetting "__pydantic_extra__" (.object laidBy))
    let assigned := behind.2.perform (.assignSetting "warn_on_unrecognized_script" (.bool true))
    let broken : Settings := { directivePrefix := " ", setupBindings := ["if"] }
    let unchecked := s.perform (.assignSetting "__pydantic_validator__" .null)
    let refused := unchecked.2.perform (.assignSetting "warn_on_unrecognized_script" (.bool true))
    ¬ broken.Valid ∧
      replaced.1 = .ok (.settings { broken with valuelessDirectives := [] }) ∧
      behind.1 = .ok (.settings {}) ∧ assigned.1 = .ok (.settings broken) ∧
      unchecked.1 = .ok (.settings {}) ∧
      refused.1 = .error (.refused (.noCheck ⟨"NoneType", "validate_assignment"⟩)) := by
  intro s fields laidBy replaced behind assigned broken unchecked refused
  have hblank : Text.isBlank ' ' = true := by decide +kernel
  refine ⟨fun hvalid => ?_, rfl, rfl, rfl, rfl, rfl⟩
  have hnot := hvalid.directivePrefix.not_blank ' ' (by decide)
  rw [hblank] at hnot
  cases hnot

end Session

end SingleFile
