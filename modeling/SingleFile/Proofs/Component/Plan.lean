import SingleFile.Component.Synthesis
import SingleFile.Proofs.Table

/-!
# Planned components

The component that a template and fragments would make is known before any of
its functions is checked.  Synthesis with the standard host returns exactly this
plan, or the error of the first planned function that is not admitted, the
initializer coming before the methods in their order.

Main results:

- Theorem `buildFunction_eq`: building a function is checking its plan.
- Theorem `synthesize_standard`: the outcome of synthesis in terms of the plan.
- Theorem `functions_plan_admitted_iff`: when every planned function is
  admitted, said of the fragments.
-/

namespace SingleFile

/-! ## Admitted functions -/

namespace ScriptFunction

/-- A function is admitted when its body is well formed and its name and
parameters are proper. -/
def Admitted (f : ScriptFunction) : Prop :=
  Script.Source.check f.body = .ok () ∧ Script.isIdentifier f.name = true ∧
    ∀ p ∈ f.parameters, Script.isParameter p = true

/-- How messages refer to the function. -/
def label (f : ScriptFunction) : String :=
  functionLabel f.name f.kind

/-- What is wrong with a function: its body comes first. -/
def refusal? (f : ScriptFunction) : Option SynthesisFault :=
  match Script.Source.check f.body with
  | .error e => some (.malformed e)
  | .ok () =>
      match f.faults with
      | [] => none
      | faults => some (.inadmissible faults)

/-- The error that a refused function ends the synthesis with. -/
def error? (f : ScriptFunction) : Option SynthesisError :=
  f.refusal?.map fun fault => ⟨fault, some f.label⟩

/-- A function has no fault exactly when its name and parameters are legal. -/
theorem faults_eq_nil_iff (f : ScriptFunction) :
    f.faults = [] ↔
      Script.isIdentifier f.name = true ∧
        ∀ p ∈ f.parameters, Script.isParameter p = true := by
  rw [← nameFault?_eq_none_iff, ← parametersFault?_eq_none_iff]
  simp only [faults]
  cases nameFault? f.name <;> cases parametersFault? f.parameters <;> simp

/-- Exactly the admitted functions are not refused. -/
theorem refusal?_eq_none_iff (f : ScriptFunction) : f.refusal? = none ↔ f.Admitted := by
  unfold refusal? Admitted
  rw [← faults_eq_nil_iff]
  cases Script.Source.check f.body with
  | error e => simp
  | ok _ =>
      cases f.faults with
      | nil => simp
      | cons fault faults => simp

/-- A function is not refused exactly when it is admitted. -/
theorem error?_eq_none_iff (f : ScriptFunction) : f.error? = none ↔ f.Admitted := by
  rw [error?, Option.map_eq_none_iff, refusal?_eq_none_iff]

theorem label_ne_empty (f : ScriptFunction) : f.label ≠ "" := by
  unfold label functionLabel
  split <;> simp

/-- The message of a refused function begins with its label. -/
theorem message_of_error? {f : ScriptFunction} {e : SynthesisError} (h : f.error? = some e) :
    ∃ fault, f.refusal? = some fault ∧ e.message = f.label ++ ": " ++ fault.message := by
  simp only [error?, Option.map_eq_some_iff] at h
  obtain ⟨fault, hfault, rfl⟩ := h
  refine ⟨fault, hfault, ?_⟩
  simp [SynthesisError.message, f.label_ne_empty]

end ScriptFunction

/-! ## The functions of a component -/

/-- The functions of a component are its initializer, in either role, and its
methods. -/
theorem Component.mem_functions_iff (c : Component) (f : ScriptFunction) :
    f ∈ c.functions ↔
      c.setup = some f ∨ c.data = some f ∨ ∃ name, (name, f) ∈ c.methodTable := by
  have hmethods : f ∈ c.methodTable.map Prod.snd ↔ ∃ name, (name, f) ∈ c.methodTable := by
    simp [List.mem_map]
  rw [functions, List.mem_append, hmethods, ← or_assoc]
  refine or_congr_left ?_
  unfold setup data
  rcases c.initializer with _ | (g | g)
  · simp [Initializer.setup?, Initializer.data?]
  · simp [Initializer.setup?, Initializer.data?, Initializer.function, eq_comm]
  · simp [Initializer.setup?, Initializer.data?, Initializer.function, eq_comm]

/-! ## Plans -/

/-- The initializer that recognised text makes. -/
def planInitializer (settings : Settings) :
    Option (Initializer String) → Option (Initializer ScriptFunction)
  | none => none
  | some (.setup body) =>
      some (.setup ⟨"setup", .setup, settings.setupBindings, body, settings.trustLevel⟩)
  | some (.data body) => some (.data ⟨"data", .data, [], body, settings.trustLevel⟩)

/-- The method that a table entry makes. -/
def planMethod (settings : Settings) (e : String × Script.MethodFragment) :
    String × ScriptFunction :=
  (e.1, ⟨e.1, .method, Script.splitParameters e.2.parameters, e.2.body, settings.trustLevel⟩)

/-- The component that a template and fragments make when nothing is refused. -/
def plan (settings : Settings) (template : String) (fragments : Script.Fragments) : Component where
  template := Text.trimmed template
  initializer := planInitializer settings fragments.initializer
  methods :=
    if fragments.entries.isEmpty then none
    else some (fragments.entries.map (planMethod settings))

/-- The planned `setup` is the body with the settings' bindings. -/
theorem plan_setup (settings : Settings) (template : String) (fragments : Script.Fragments) :
    (plan settings template fragments).setup =
      fragments.setupBody.map fun body =>
        ⟨"setup", .setup, settings.setupBindings, body, settings.trustLevel⟩ := by
  unfold plan Component.setup Script.Fragments.setupBody
  rcases fragments.initializer with _ | (body | body) <;> rfl

/-- The planned `data` is its object without parameters. -/
theorem plan_data (settings : Settings) (template : String) (fragments : Script.Fragments) :
    (plan settings template fragments).data =
      fragments.dataBody.map fun body => ⟨"data", .data, [], body, settings.trustLevel⟩ := by
  unfold plan Component.data Script.Fragments.dataBody
  rcases fragments.initializer with _ | (body | body) <;> rfl

/-- The planned methods are those of the entries, in order. -/
theorem plan_methodTable (settings : Settings) (template : String)
    (fragments : Script.Fragments) :
    (plan settings template fragments).methodTable =
      fragments.entries.map (planMethod settings) := by
  unfold plan Component.methodTable
  cases fragments.entries <;> simp

/-- The method that is planned under a name. -/
theorem get?_methodTable_plan (settings : Settings) (template : String)
    (fragments : Script.Fragments) (name : String) :
    (plan settings template fragments).methodTable.get? name =
      (fragments.entries.get? name).map fun m => (planMethod settings (name, m)).2 := by
  rw [plan_methodTable]
  exact fragments.entries.get?_map (fun name m => (planMethod settings (name, m)).2) name

/-- The planned functions are the initializer and then the methods in order. -/
theorem functions_plan (settings : Settings) (template : String)
    (fragments : Script.Fragments) :
    (plan settings template fragments).functions =
      ((planInitializer settings fragments.initializer).map Initializer.function).toList ++
        (fragments.entries.map (planMethod settings)).map Prod.snd := by
  unfold Component.functions
  rw [plan_methodTable]
  rfl

/-- The initializer is admitted exactly when its body is accepted and, for `setup`, the
bindings are parameters. -/
theorem planInitializer_admitted_iff (settings : Settings) (i : Option (Initializer String)) :
    (∀ f ∈ ((planInitializer settings i).map Initializer.function).toList, f.Admitted) ↔
      (∀ body, Initializer.setup? i = some body → Script.Source.check body = .ok () ∧
        ∀ p ∈ settings.setupBindings, Script.isParameter p = true) ∧
      ∀ body, Initializer.data? i = some body → Script.Source.check body = .ok () := by
  have hsetup : Script.isIdentifier "setup" = true := by decide
  have hdata : Script.isIdentifier "data" = true := by decide
  rcases i with _ | (body | body)
  · simp [planInitializer, Initializer.setup?, Initializer.data?]
  · simp [planInitializer, Initializer.setup?, Initializer.data?, Initializer.function,
      ScriptFunction.Admitted, hsetup]
  · simp [planInitializer, Initializer.setup?, Initializer.data?, Initializer.function,
      ScriptFunction.Admitted, hdata]

/-- The methods are admitted exactly when each has an accepted body, an identifier for its
name and parameters. -/
theorem planMethods_admitted_iff (settings : Settings)
    (t : Table String Script.MethodFragment) :
    (∀ f ∈ (t.map (planMethod settings)).map Prod.snd, f.Admitted) ↔
      ∀ e ∈ t, Script.Source.check e.2.body = .ok () ∧ Script.isIdentifier e.1 = true ∧
        ∀ p ∈ Script.splitParameters e.2.parameters, Script.isParameter p = true := by
  rw [List.map_map, List.forall_mem_map]
  exact Iff.rfl

/-- Every planned function is admitted exactly when the bodies, names and
parameters of the fragments are proper. -/
theorem functions_plan_admitted_iff (settings : Settings) (template : String)
    (fragments : Script.Fragments) :
    (∀ f ∈ (plan settings template fragments).functions, f.Admitted) ↔
      (∀ body, fragments.setupBody = some body → Script.Source.check body = .ok () ∧
        ∀ p ∈ settings.setupBindings, Script.isParameter p = true) ∧
      (∀ body, fragments.dataBody = some body → Script.Source.check body = .ok ()) ∧
      (∀ e ∈ fragments.entries, Script.Source.check e.2.body = .ok () ∧
        Script.isIdentifier e.1 = true ∧
          ∀ p ∈ Script.splitParameters e.2.parameters, Script.isParameter p = true) := by
  rw [functions_plan, List.forall_mem_append, planInitializer_admitted_iff,
    planMethods_admitted_iff, and_assoc]
  exact Iff.rfl

/-! ## Synthesis -/

/-- Building a function is checking its plan. -/
theorem buildFunction_eq (settings : Settings) (name : String) (kind : FunctionKind)
    (parameters : List String) (body : String) :
    buildFunction settings name kind parameters body =
      match ScriptFunction.error? ⟨name, kind, parameters, body, settings.trustLevel⟩ with
      | none => .ok ⟨name, kind, parameters, body, settings.trustLevel⟩
      | some e => .error e := by
  unfold buildFunction ScriptFunction.error? ScriptFunction.refusal? ScriptFunction.validate
  cases Script.Source.check body with
  | error e => rfl
  | ok _ =>
      cases hfaults : ScriptFunction.faults ⟨name, kind, parameters, body, settings.trustLevel⟩ with
      | nil => rfl
      | cons fault faults => rfl

/-- The initializer is built as planned, or its error is reported. -/
theorem buildInitializer_eq (settings : Settings) (i : Option (Initializer String)) :
    buildInitializer settings i =
      match ((planInitializer settings i).map Initializer.function).bind
        ScriptFunction.error? with
      | none => .ok (planInitializer settings i)
      | some e => .error e := by
  rcases i with _ | (body | body)
  · rfl
  · simp only [buildInitializer, buildFunction_eq, planInitializer, Option.map_some,
      Initializer.function, Option.bind_some]
    split <;> rfl
  · simp only [buildInitializer, buildFunction_eq, planInitializer, Option.map_some,
      Initializer.function, Option.bind_some]
    split <;> rfl

/-- The methods are built as planned, or the first error is reported. -/
theorem buildMethods_eq (settings : Settings) (t : Table String Script.MethodFragment) :
    buildMethods settings t =
      match ((t.map (planMethod settings)).map Prod.snd).findSome? ScriptFunction.error? with
      | none => .ok (t.map (planMethod settings))
      | some e => .error e := by
  induction t with
  | nil => rfl
  | cons entry t ih =>
      obtain ⟨name, m⟩ := entry
      simp only [buildMethods, buildMethod, buildFunction_eq, List.map_cons, planMethod,
        List.findSome?_cons]
      split
      · rename_i e he
        split at he
        · cases he
        · rename_i e' he'
          cases he
          rw [he']
      · rename_i f hf
        split at hf
        · rename_i hnone
          cases hf
          rw [hnone, ih]
          simp only
          split <;> rfl
        · cases hf

/-- The methods of a table are built exactly when every planned one is admitted. -/
theorem buildMethods_eq_ok_iff {settings : Settings} {t : Table String Script.MethodFragment}
    {fs : Table String ScriptFunction} :
    buildMethods settings t = .ok fs ↔
      fs = t.map (planMethod settings) ∧ ∀ f ∈ fs, f.2.Admitted := by
  have hadmitted : ((t.map (planMethod settings)).map Prod.snd).findSome?
      ScriptFunction.error? = none ↔ ∀ f ∈ t.map (planMethod settings), f.2.Admitted := by
    rw [List.findSome?_eq_none_iff, List.forall_mem_map]
    exact forall₂_congr fun f _ => f.2.error?_eq_none_iff
  rw [buildMethods_eq]
  cases hfirst : ((t.map (planMethod settings)).map Prod.snd).findSome?
      ScriptFunction.error? with
  | none =>
      simp only [Except.ok.injEq]
      constructor
      · rintro rfl
        exact ⟨rfl, hadmitted.mp hfirst⟩
      · exact fun h => h.1.symm
  | some e =>
      simp only [reduceCtorEq, false_iff]
      rintro ⟨rfl, hall⟩
      rw [hadmitted.mpr hall] at hfirst
      cases hfirst

/-- Synthesis with the standard host returns the plan, unless a planned function
is refused; then the first refused function is the error. -/
theorem synthesize_standard (settings : Settings) (template : String)
    (fragments : Script.Fragments) :
    synthesize settings Host.standard template fragments =
      match (plan settings template fragments).functions.findSome? ScriptFunction.error? with
      | none => .ok (plan settings template fragments)
      | some e => .error e := by
  rw [functions_plan, List.findSome?_append]
  unfold synthesize draft
  rw [buildInitializer_eq, buildMethods_eq]
  have hinitializer : ∀ o : Option ScriptFunction,
      o.toList.findSome? ScriptFunction.error? = o.bind ScriptFunction.error? := by
    intro o
    cases o <;> simp
  rw [hinitializer]
  cases ((planInitializer settings fragments.initializer).map Initializer.function).bind
      ScriptFunction.error? with
  | some e => rfl
  | none =>
      simp only [Option.none_or]
      cases ((fragments.entries.map (planMethod settings)).map Prod.snd).findSome?
          ScriptFunction.error? with
      | some e => rfl
      | none =>
          simp only [assemble, Host.standard, Draft.withoutEmptyMethods, Draft.component?,
            Initializer.ofRoles?_roles, plan]
          cases fragments.entries <;> rfl

end SingleFile
