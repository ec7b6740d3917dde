import SingleFile.CommandLine.Output
import SingleFile.Proofs.Compile.Gates

/-!
# Exported definitions

The sources of a definition are rendered from the roles of the initializer and from
the table of methods; its trust is collected from the functions of the component.
Both go over the same functions, so the trust that is stated is that of every source
in the definition, and of nothing else.

Main results:

- Theorem `exportedSources_definition`: the sources in a definition are those of the
  functions whose trust is collected.
- Theorem `commonTrust_eq_some_iff`: what level functions have in common.
- Theorem `trust_of_mem_plan`: planned functions are trusted as the settings say.
- Theorem `definition_trust`: when a definition states trust, and which.
-/

namespace SingleFile

namespace CommandLine

/-! ## Fields of a definition -/

/-- A field that may be absent is there under its own key only. -/
theorem get?_optionalField (key key' : String) (v : Option Value) :
    (optionalField key v).get? key' = if key = key' then v else none := by
  cases v with
  | none => simp [optionalField]
  | some v => simp [optionalField, Table.get?]

/-- What a definition has under a key: the field of that name, if it is filled. -/
theorem get?_definitionFields (d : Component.Definition) (key : String) :
    (definitionFields d).get? key =
      if "template" = key then some (.text d.template)
      else if "setup" = key then d.setup.map Value.text
      else if "data" = key then d.data.map Value.text
      else if "methods" = key then
        if d.methods.isEmpty then none else some (sourcesValue d.methods)
      else if "trust" = key then d.trust.map fun t => .text t.name
      else none := by
  simp only [definitionFields, Table.get?_append, get?_optionalField, Table.get?]
  by_cases htemplate : "template" = key
  · simp [htemplate]
  by_cases hsetup : "setup" = key
  · simp [← hsetup]
  by_cases hdata : "data" = key
  · simp [← hdata]
  by_cases hmethods : "methods" = key
  · simp [← hmethods]
  · simp [htemplate, hsetup, hdata, hmethods]

/-! ## Sources in a definition -/

/-- The sources in a field: its text, or what an object holds. -/
def sourcesIn : Value → List Value
  | .object fields => fields.map Prod.snd
  | v => [v]

/-- The sources in the fields of a definition. -/
def exportedSources (fields : Table String Value) : List Value :=
  ["setup", "data", "methods"].flatMap fun key => (fields.get? key).toList.flatMap sourcesIn

theorem flatMap_sourcesIn_map_text (s : Option String) :
    (s.map Value.text).toList.flatMap sourcesIn = s.toList.map Value.text := by
  cases s <;> rfl

theorem flatMap_sourcesIn_methods (methods : Table String String) :
    (if methods.isEmpty then none else some (sourcesValue methods)).toList.flatMap sourcesIn =
      methods.map fun e => .text e.2 := by
  cases methods with
  | nil => rfl
  | cons e methods => simp [sourcesValue, sourcesIn]

/-- The sources in a definition are its initializer and its methods. -/
theorem exportedSources_definitionFields (d : Component.Definition) :
    exportedSources (definitionFields d) =
      d.setup.toList.map Value.text ++ d.data.toList.map Value.text ++
        d.methods.map fun e => .text e.2 := by
  simp only [exportedSources, List.flatMap_cons, List.flatMap_nil, List.append_nil,
    get?_definitionFields, String.reduceEq, if_false, if_true, flatMap_sourcesIn_map_text,
    flatMap_sourcesIn_methods, List.append_assoc]

/-- The sources in a definition are those of the functions whose trust is collected,
in the same order. -/
theorem exportedSources_definition (c : Component) :
    exportedSources (definitionFields c.definition) =
      c.functions.map fun f => .text f.toSource := by
  have hmethods : (c.definition.methods.map fun e => Value.text e.2) =
      (c.methodTable.map Prod.snd).map fun f => .text f.toSource := by
    simp [Component.definition]
  have hinitializer : c.definition.setup.toList.map Value.text ++
      c.definition.data.toList.map Value.text =
        (c.initializer.map Initializer.function).toList.map fun f => .text f.toSource := by
    unfold Component.definition Component.setup Component.data
    rcases c.initializer with _ | (f | f) <;> rfl
  rw [exportedSources_definitionFields, hmethods, hinitializer, Component.functions,
    List.map_append]

end CommandLine

/-! ## Common trust -/

namespace Component

/-- Functions have a level in common when there are any: they are trusted when all of
them are, and untrusted when one of them is. -/
theorem commonTrust_eq_some_iff (fs : List ScriptFunction) (t : TrustLevel) :
    commonTrust fs = some t ↔
      fs ≠ [] ∧ (t = .trusted ↔ ∀ f ∈ fs, f.trust = .trusted) := by
  cases fs with
  | nil => simp [commonTrust]
  | cons f fs =>
      have hall : ((f :: fs).all fun g => g.trust = .trusted) = true ↔
          ∀ g ∈ f :: fs, g.trust = .trusted := by
        simp only [List.all_eq_true, decide_eq_true_eq]
      by_cases htrusted : ∀ g ∈ f :: fs, g.trust = .trusted
      · have hcommon : commonTrust (f :: fs) = some .trusted := by
          rw [commonTrust, if_pos (hall.mpr htrusted)]
          exact List.cons_ne_nil f fs
        rw [hcommon, Option.some.injEq]
        constructor
        · rintro rfl
          exact ⟨List.cons_ne_nil f fs, iff_of_true rfl htrusted⟩
        · exact fun h => (h.2.mpr htrusted).symm
      · have hcommon : commonTrust (f :: fs) = some .untrusted := by
          rw [commonTrust, if_neg (htrusted ∘ hall.mp)]
          exact List.cons_ne_nil f fs
        rw [hcommon, Option.some.injEq]
        constructor
        · rintro rfl
          exact ⟨List.cons_ne_nil f fs, iff_of_false nofun htrusted⟩
        · intro h
          cases t with
          | untrusted => rfl
          | trusted => exact absurd (h.2.mp rfl) htrusted

/-- Functions of one level have it in common. -/
theorem commonTrust_of_forall {fs : List ScriptFunction} {t t' : TrustLevel}
    (hall : ∀ f ∈ fs, f.trust = t) (h : commonTrust fs = some t') : t' = t := by
  obtain ⟨hne, htrusted⟩ := (commonTrust_eq_some_iff fs t').mp h
  obtain ⟨f, hf⟩ := List.exists_mem_of_ne_nil fs hne
  cases t with
  | trusted => exact htrusted.mpr hall
  | untrusted =>
      cases t' with
      | untrusted => rfl
      | trusted =>
          have hf' := htrusted.mp rfl f hf
          rw [hall f hf] at hf'
          cases hf'

end Component

/-- Planned functions are trusted as the settings say. -/
theorem trust_of_mem_plan {settings : Settings} {template : String}
    {fragments : Script.Fragments} {f : ScriptFunction}
    (h : f ∈ (plan settings template fragments).functions) : f.trust = settings.trustLevel := by
  rw [Component.mem_functions_iff, plan_setup, plan_data, plan_methodTable] at h
  rcases h with h | h | ⟨name, h⟩
  · obtain ⟨_, _, rfl⟩ := Option.map_eq_some_iff.mp h
    rfl
  · obtain ⟨_, _, rfl⟩ := Option.map_eq_some_iff.mp h
    rfl
  · obtain ⟨e, _, he⟩ := List.mem_map.mp h
    cases he
    rfl

/-! ## The law -/

/-- A definition states trust exactly when there is a source in it; the functions whose
trust is collected are the initializer and every method, and theirs are the sources in
it.  It is trusted exactly when every one of them is.  What the standard host makes is
trusted as far as the settings say, whatever is compiled. -/
theorem definition_trust (c : Component) :
    let fields := CommandLine.definitionFields c.definition
    (∀ f, f ∈ c.functions ↔
      c.setup = some f ∨ c.data = some f ∨ ∃ name, (name, f) ∈ c.methodTable) ∧
    CommandLine.exportedSources fields = c.functions.map (fun f => .text f.toSource) ∧
    (fields.has "trust" = true ↔ CommandLine.exportedSources fields ≠ []) ∧
    (∀ v, fields.get? "trust" = some v → v = .text "trusted" ∨ v = .text "untrusted") ∧
    (fields.has "trust" = true →
      (fields.get? "trust" = some (.text "trusted") ↔ ∀ f ∈ c.functions, f.trust = .trusted)) ∧
    ∀ (settings : Settings) (failures : StageFailures) (template script style : Value),
      ((({ settings, failures } : Compiler).compile template script style).component? = some c ∨
        (({ settings, failures } : Compiler).compileTemplate template script).component? =
          some c) →
      ∀ v, fields.get? "trust" = some v → v = .text settings.trustLevel.name := by
  intro fields
  have hstated : ∀ v, fields.get? "trust" = some v ↔
      ∃ t, Component.commonTrust c.functions = some t ∧ Value.text t.name = v := by
    intro v
    simp only [fields, CommandLine.get?_definitionFields, String.reduceEq, if_false, if_true,
      Option.map_eq_some_iff]
    rfl
  have hhas : fields.has "trust" = true ↔ c.functions ≠ [] := by
    simp only [fields, Table.has, CommandLine.get?_definitionFields, String.reduceEq, if_false,
      if_true, Option.isSome_map, Option.isSome_iff_ne_none]
    exact not_congr c.trust_eq_none_iff
  refine ⟨c.mem_functions_iff, CommandLine.exportedSources_definition c, ?_, ?_, ?_, ?_⟩
  · rw [hhas, CommandLine.exportedSources_definition, ne_eq, ne_eq, List.map_eq_nil_iff]
  · intro v hv
    obtain ⟨t, _, rfl⟩ := (hstated v).mp hv
    cases t with
    | trusted => exact .inl rfl
    | untrusted => exact .inr rfl
  · intro hpresent
    have hname : ∀ t : TrustLevel, Value.text t.name = .text "trusted" ↔ t = .trusted := by
      intro t
      cases t <;> simp [TrustLevel.name]
    simp only [hstated, hname, exists_eq_right]
    rw [Component.commonTrust_eq_some_iff]
    simp [hhas.mp hpresent]
  · intro settings failures template script style hmade v hv
    obtain ⟨text, fragments, _, rfl⟩ := Compiler.plan_of_component? rfl hmade
    obtain ⟨t, ht, rfl⟩ := (hstated v).mp hv
    have hlevel := Component.commonTrust_of_forall (fun f => trust_of_mem_plan) ht
    rw [hlevel]

/-- A trusted initializer next to a method that is not trusted; and a component that
is compiled under settings that trust scripts. -/
theorem definition_trust_mixed :
    let mixed : Component :=
      { template := ""
        initializer := some (.data ⟨"data", .data, [], "", .trusted⟩)
        methods := some [("go", ⟨"go", .method, [], "", .untrusted⟩)] }
    let settings : Settings := { trustLevel := .trusted }
    (CommandLine.definitionFields mixed.definition).has "trust" = true ∧
      (CommandLine.definitionFields mixed.definition).get? "trust" ≠ some (.text "trusted") ∧
      ∃ c, (({ settings } : Compiler).compile (.text "<p></p>")
          (.text "data() { return { n: 1 } }") (.text "")).component? = some c ∧
        ∃ v, (CommandLine.definitionFields c.definition).get? "trust" = some v ∧
          v = .text "trusted" := by
  intro mixed settings
  obtain ⟨_, _, hhas, _, htrusted, _⟩ := definition_trust mixed
  have hpresent : (CommandLine.definitionFields mixed.definition).has "trust" = true :=
    hhas.mpr (by decide)
  refine ⟨hpresent, fun h => ?_, ?_⟩
  · have hall := (htrusted hpresent).mp h ⟨"go", .method, [], "", .untrusted⟩ (by decide)
    cases hall
  · have hsuccess : (((({ settings } : Compiler).compile (.text "<p></p>")
        (.text "data() { return { n: 1 } }") (.text "")).component?.bind fun c =>
          (CommandLine.definitionFields c.definition).get? "trust").isSome) = true := by
      decide +kernel
    obtain ⟨v, hv⟩ := Option.isSome_iff_exists.mp hsuccess
    obtain ⟨c, hc, htrust⟩ := Option.bind_eq_some_iff.mp hv
    obtain ⟨_, _, _, _, _, hlevel⟩ := definition_trust c
    exact ⟨c, hc, v, htrust, hlevel settings {} _ _ _ (.inl hc) v htrust⟩

end SingleFile
