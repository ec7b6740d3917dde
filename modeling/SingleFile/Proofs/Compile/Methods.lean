import SingleFile.Proofs.Compile.Gates
import SingleFile.Proofs.Component.Listing

/-!
# Written methods

A script that is nothing but a table of methods, each with a name that is allowed
for it, is compiled to these methods.  There is one exception: a dollar sign may
stand in a name, but it is no character of a word, so that an entry is read from
behind it and its method is compiled under another name.

Main results:

- Theorem `isWord_name_of_component?`: compiled methods are named by words.
- Theorem `compile_methodsScript_iff`: written methods are compiled as what they are
  exactly when no name of theirs has a dollar sign.
- Theorem `compile_methodsScript_renames`: what becomes of a name with a dollar sign.
-/

namespace SingleFile

open Script (ClosesBraces IsListed Lists dataBody? entryParts methodTable methodsInterior?
  setupBody?)
open Script.Source (check)
open Text (isBlank isBlankText isWord)

/-! ## Methods as they are written -/

/-- A method as a learner writes it. -/
structure WrittenMethod where
  name : String
  parameters : List String
  body : String
deriving DecidableEq, Repr

namespace WrittenMethod

/-- The method in a table. -/
def source (m : WrittenMethod) : String :=
  m.name ++ "(" ++ ", ".intercalate m.parameters ++ ") \x7b" ++ m.body ++ "\x7d"

/-- The function that the method stands for. -/
def function (trust : TrustLevel) (m : WrittenMethod) : ScriptFunction where
  name := m.name
  kind := .method
  parameters := m.parameters
  body := m.body
  trust := trust

/-- The name may name a function and is written on one line, the parameters can be
told apart in their list, and the body is accepted and has no braces. -/
structure Legal (m : WrittenMethod) : Prop where
  name : Script.isIdentifier m.name = true
  line : m.name.toList.getLast? ≠ some '\n'
  parameters : ∀ p ∈ m.parameters, Script.isParameter p = true ∧ Text.trimmed p = p
  separators : ∀ p ∈ m.parameters, ',' ∉ p.toList ∧ ')' ∉ p.toList
  parameterBraces : ∀ p ∈ m.parameters, '{' ∉ p.toList ∧ '}' ∉ p.toList
  body : check m.body = .ok ()
  bodyBraces : '{' ∉ m.body.toList ∧ '}' ∉ m.body.toList

instance (m : WrittenMethod) : Decidable m.Legal :=
  decidable_of_iff
    (Script.isIdentifier m.name = true ∧ m.name.toList.getLast? ≠ some '\n' ∧
      (∀ p ∈ m.parameters, Script.isParameter p = true ∧ Text.trimmed p = p) ∧
      (∀ p ∈ m.parameters, ',' ∉ p.toList ∧ ')' ∉ p.toList) ∧
      (∀ p ∈ m.parameters, '{' ∉ p.toList ∧ '}' ∉ p.toList) ∧
      check m.body = .ok () ∧ '{' ∉ m.body.toList ∧ '}' ∉ m.body.toList)
    ⟨fun ⟨h₁, h₂, h₃, h₄, h₅, h₆, h₇⟩ => ⟨h₁, h₂, h₃, h₄, h₅, h₆, h₇⟩,
      fun ⟨h₁, h₂, h₃, h₄, h₅, h₆, h₇⟩ => ⟨h₁, h₂, h₃, h₄, h₅, h₆, h₇⟩⟩

/-- What stands before the body's opening brace. -/
def head (m : WrittenMethod) : List Char :=
  m.name.toList ++ '(' :: ((", ".intercalate m.parameters).toList ++ [')', ' '])

theorem toList_source (m : WrittenMethod) :
    m.source.toList = m.head ++ '{' :: (m.body.toList ++ ['}']) := by
  unfold source head
  simp [String.toList_append]

/-- The source of a method's entry is the method as it is written. -/
theorem source_entry (trust : TrustLevel) (m : WrittenMethod) :
    (m.function trust).entry.source = m.source.toList := by
  rw [toList_source]
  unfold Script.EntryParts.source ScriptFunction.entry ScriptFunction.parameterList function head
  simp

end WrittenMethod

/-- A script of one method table. -/
def methodsScript (ms : List WrittenMethod) : String :=
  "methods: \x7b" ++ ", ".intercalate (ms.map WrittenMethod.source) ++ "\x7d"

/-- The interior of the table. -/
def methodsText (ms : List WrittenMethod) : List Char :=
  ", ".toList.intercalate (ms.map fun m => m.source.toList)

theorem toList_methodsScript (ms : List WrittenMethod) :
    (methodsScript ms).toList = "methods: \x7b".toList ++ (methodsText ms ++ ['}']) := by
  unfold methodsScript methodsText
  rw [String.toList_append, String.toList_append, String.toList_intercalate, List.map_map,
    List.append_assoc]
  rfl

namespace WrittenMethod

/-! ## Legal methods -/

/-- The parameters of a legal method can be listed. -/
theorem Legal.isListed {m : WrittenMethod} (h : m.Legal) : ∀ p ∈ m.parameters, IsListed p := by
  intro p hp
  obtain ⟨hparameter, htrim⟩ := h.parameters p hp
  refine ⟨?_, ?_, ?_⟩
  · intro hnil
    rw [Script.isParameter, hnil] at hparameter
    cases hparameter
  · rw [← Text.toList_trimmed, htrim]
  · exact (h.separators p hp).1

/-- The function of a legal method is admitted. -/
theorem Legal.admitted {m : WrittenMethod} (h : m.Legal) (trust : TrustLevel) :
    (m.function trust).Admitted :=
  ⟨h.body, h.name, fun p hp => (h.parameters p hp).1⟩

/-- A legal name without a dollar sign is a word. -/
theorem Legal.isWord {m : WrittenMethod} (h : m.Legal) (hdollar : '$' ∉ m.name.toList) :
    ∀ c ∈ m.name.toList, isWord c = true := by
  intro c hc
  refine Script.isWord_of_isIdentifierPart ?_ ?_
  · exact Script.isIdentifierPart_of_isIdentifier h.name h.line c hc
  · rintro rfl
    exact hdollar hc

/-- The function of a legal method without a dollar sign in its name fits a table. -/
theorem Legal.fitsTable {m : WrittenMethod} (h : m.Legal) (hdollar : '$' ∉ m.name.toList)
    (trust : TrustLevel) : (m.function trust).FitsTable where
  kind := rfl
  name := h.isWord hdollar
  listed := h.isListed
  parameters := fun p hp => (h.separators p hp).2
  body := h.bodyBraces.2

/-- No brace stands before that of the body. -/
theorem Legal.not_mem_head {m : WrittenMethod} (h : m.Legal) {c : Char}
    (hc : c = '{' ∨ c = '}') : c ∉ m.head := by
  have hname : c ∉ m.name.toList := by
    intro hmem
    have hpart := Script.isIdentifierPart_of_isIdentifier h.name h.line c hmem
    rcases hc with rfl | rfl
    · exact absurd hpart (by decide)
    · exact absurd hpart (by decide)
  have hlist : c ∉ (", ".intercalate m.parameters).toList := by
    intro hmem
    rcases (m.function .untrusted).mem_parameterList hmem with (rfl | rfl) | ⟨p, hp, hcp⟩
    · exact absurd hc (by decide)
    · exact absurd hc (by decide)
    · rcases hc with rfl | rfl
      · exact (h.parameterBraces p hp).1 hcp
      · exact (h.parameterBraces p hp).2 hcp
  have hrest : c ∉ ['(', ')', ' '] := by
    rcases hc with rfl | rfl
    · decide
    · decide
  simp only [head, List.mem_append, List.mem_cons, not_or] at hrest ⊢
  exact ⟨hname, hrest.1, hlist, hrest.2⟩

/-- A legal method closes its braces. -/
theorem Legal.closesBraces {m : WrittenMethod} (h : m.Legal) : ClosesBraces m.source.toList := by
  have hcount : (m.head ++ '{' :: m.body.toList).count '{' = 1 := by
    rw [List.count_append, List.count_cons_self, List.count_eq_zero.mpr h.bodyBraces.1,
      List.count_eq_zero.mpr (h.not_mem_head (.inl rfl))]
  have hbefore : '}' ∉ m.head ++ '{' :: m.body.toList := by
    simp [h.not_mem_head (.inr rfl), h.bodyBraces.2]
  have hsource : m.source.toList = (m.head ++ '{' :: m.body.toList) ++ ['}'] := by
    rw [toList_source]
    simp
  rw [hsource]
  exact Script.closesBraces_of_count_eq_one hcount hbefore

end WrittenMethod

/-! ## Braces of the script -/

section Braces

variable {ms : List WrittenMethod} (hlegal : ∀ m ∈ ms, m.Legal)
include hlegal

/-- The table is found whole. -/
theorem methodsInterior?_methodsScript :
    methodsInterior? (methodsScript ms).toList = some (methodsText ms) := by
  have hcloses : ClosesBraces (methodsText ms) := by
    refine (Script.lists_intercalate _).closesBraces ?_
    rw [List.forall_mem_map]
    exact fun m hm => (hlegal m hm).closesBraces
  rw [toList_methodsScript]
  exact Script.methodsInterior?_of_closesBraces hcloses

/-- A brace is opened for the table or for the body of a method. -/
theorem opener_of_methodsScript {t r : List Char}
    (h : (methodsScript ms).toList = t ++ '{' :: r) :
    t = "methods: ".toList ∨
      ∃ m ∈ ms, ∃ before rest, t = before ++ m.head ∧ r = m.body.toList ++ '}' :: rest := by
  have hkey : "methods: \x7b".toList = "methods: ".toList ++ ['{'] := by decide
  have hclear : '{' ∉ "methods: ".toList := by decide
  rw [toList_methodsScript, hkey, List.append_assoc, List.singleton_append] at h
  obtain ⟨t₁, rfl, h₁⟩ := Script.exists_eq_append_of_not_mem hclear h
  cases t₁ with
  | nil => exact .inl (List.append_nil _)
  | cons c t₁ =>
      obtain ⟨rfl, hopener⟩ := List.cons.inj h₁
      have hlists : Lists (ms.map fun m => m.head ++ '{' :: (m.body.toList ++ ['}']))
          (methodsText ms) := by
        have hsources : Lists (ms.map fun m => m.source.toList) (methodsText ms) :=
          Script.lists_intercalate _
        simpa only [WrittenMethod.toList_source] using hsources
      have htail : ∀ m ∈ ms, '{' ∉ m.body.toList ++ ['}'] := by
        intro m hm
        simp [(hlegal m hm).bodyBraces.1]
      have hend : '{' ∉ ['}'] := by decide
      obtain ⟨m, hm, before, rest, rfl, rfl⟩ := hlists.exists_of_opener
        (fun m hm => (hlegal m hm).not_mem_head (.inl rfl)) htail hend hopener
      refine .inr ⟨m, hm, "methods: ".toList ++ '{' :: before, rest, ?_, ?_⟩
      · simp
      · simp

/-- The body of `setup`, if one is found, is the body of a method. -/
theorem setupBody?_methodsScript {body : List Char}
    (h : setupBody? (methodsScript ms).toList = some body) :
    ∃ m ∈ ms, body = m.body.toList := by
  simp only [setupBody?, Option.bind_eq_bind, Option.bind_eq_some_iff] at h
  obtain ⟨⟨before, rest⟩, hcut, ⟨captured, after⟩, hbody, hsome⟩ := h
  cases hsome
  obtain ⟨skipped, gap, _, hsplit⟩ :=
    Script.Phrase.exists_of_cut_append (p := ["setup".toList, "(".toList]) hcut
  have hopener : (methodsScript ms).toList = (skipped ++ ')' :: gap) ++ '{' :: rest := by
    rw [hsplit]
    simp
  rcases opener_of_methodsScript hlegal hopener with hkey | ⟨m, hm, _, after', _, rfl⟩
  · have hmem : ')' ∈ "methods: ".toList := by
      rw [← hkey]
      simp
    exact absurd hmem (by decide)
  · have hmethod : Text.cutAt '}' (m.body.toList ++ '}' :: after') = some (m.body.toList, after') :=
      Text.cutAt_eq_some_iff.mpr ⟨rfl, (hlegal m hm).bodyBraces.2⟩
    rw [hmethod] at hbody
    cases hbody
    exact ⟨m, hm, rfl⟩

/-- No returned object is found. Before its blanks a header ends in a colon or a bracket,
and no word does. -/
theorem dataBody?_methodsScript : dataBody? (methodsScript ms).toList = none := by
  rw [Option.eq_none_iff_forall_not_mem]
  intro body h
  simp only [dataBody?, Option.bind_eq_bind, Option.mem_def, Option.bind_eq_some_iff] at h
  obtain ⟨⟨_, rest⟩, hdata, ⟨_, object⟩, hreturn, _⟩ := h
  obtain ⟨front, hfront⟩ := Script.Phrase.suffix_of_cut hdata
  obtain ⟨skipped, gap, hgap, hsplit⟩ := Script.Phrase.exists_of_cut_append (p := []) hreturn
  simp only at hsplit
  have hopener : (methodsScript ms).toList =
      (front ++ (skipped ++ "retur".toList) ++ 'n' :: gap) ++ '{' :: object := by
    rw [← hfront, hsplit]
    simp
  have hspace : isBlankText [' '] = true := by decide
  have hn : isBlank 'n' = false := by decide
  rcases opener_of_methodsScript hlegal hopener with hkey | ⟨m, _, before, _, hhead, _⟩
  · have hcolon : front ++ (skipped ++ "retur".toList) ++ 'n' :: gap =
        "methods".toList ++ ':' :: [' '] := hkey
    exact absurd (Text.eq_of_append_blank hn (by decide) hgap hspace hcolon) (by decide)
  · have hclose : front ++ (skipped ++ "retur".toList) ++ 'n' :: gap =
        (before ++ (m.name.toList ++ '(' :: (", ".intercalate m.parameters).toList)) ++
          ')' :: [' '] := by
      rw [hhead, WrittenMethod.head]
      simp
    exact absurd (Text.eq_of_append_blank hn (by decide) hgap hspace hclose) (by decide)

/-- What is recognised in the script apart from its table. -/
theorem initializer_methodsScript :
    (∀ body, (Script.Fragments.ofScript (methodsScript ms).toList).setupBody = some body →
      check body = .ok ()) ∧
    (Script.Fragments.ofScript (methodsScript ms).toList).dataBody = none := by
  constructor
  · intro body hbody
    rw [Script.Fragments.setupBody_ofScript, Option.map_eq_some_iff] at hbody
    obtain ⟨captured, hcaptured, rfl⟩ := hbody
    obtain ⟨m, hm, rfl⟩ := setupBody?_methodsScript hlegal hcaptured
    rw [String.ofList_toList]
    exact (hlegal m hm).body
  · exact Script.Fragments.dataBody_ofScript_eq_none (dataBody?_methodsScript hlegal)

/-- The entries of the script of methods are those of its table. -/
theorem entries_methodsScript :
    (Script.Fragments.ofScript (methodsScript ms).toList).entries = methodTable (methodsText ms) := by
  rw [Script.Fragments.entries_ofScript, methodsInterior?_methodsScript hlegal]
  rfl

/-- Without dollar signs the table holds the written methods. -/
theorem methodTable_methodsText (hnames : (ms.map WrittenMethod.name).Nodup)
    (hdollar : ∀ m ∈ ms, '$' ∉ m.name.toList) (trust : TrustLevel) :
    methodTable (methodsText ms) =
      (ms.map fun m => m.function trust).map fun f => (f.name, f.entry.fragment) := by
  have hread : entryParts (methodsText ms) = ms.map fun m => (m.function trust).entry := by
    have hlists : Lists (ms.map fun m => m.source.toList) (methodsText ms) :=
      Script.lists_intercalate _
    refine hlists.entryParts_eq ?_
    intro m hm rest
    have hname := ((hlegal m hm).admitted trust).name_ne_nil
    rw [← m.source_entry trust]
    exact ((hlegal m hm).fitsTable (hdollar m hm) trust).entryParts_append hname rest
  refine methodTable_of_entry ?_ ?_
  · rw [hread, List.map_map]
    rfl
  · rw [List.map_map]
    exact hnames

/-- Without dollar signs the written methods are planned as what they are. -/
theorem map_planMethod_methodsText (hnames : (ms.map WrittenMethod.name).Nodup)
    (hdollar : ∀ m ∈ ms, '$' ∉ m.name.toList) (settings : Settings) :
    (methodTable (methodsText ms)).map (planMethod settings) =
      ms.map fun m => (m.name, m.function settings.trustLevel) := by
  rw [methodTable_methodsText hlegal hnames hdollar settings.trustLevel, map_planMethod_entry,
    List.map_map]
  · rfl
  · rw [List.forall_mem_map]
    exact fun m hm => (hlegal m hm).fitsTable (hdollar m hm) settings.trustLevel
  · rw [List.forall_mem_map]
    exact fun m _ => rfl

/-- Without dollar signs every function that is planned for the script is admitted. -/
theorem admitted_of_mem_plan_methodsScript (hnames : (ms.map WrittenMethod.name).Nodup)
    (hdollar : ∀ m ∈ ms, '$' ∉ m.name.toList) {settings : Settings}
    (hbindings : ∀ b ∈ settings.setupBindings, Script.isParameter b = true) (template : String) :
    ∀ f ∈ (plan settings template (.ofScript (methodsScript ms).toList)).functions,
      f.Admitted := by
  obtain ⟨hsetup, hdata⟩ := initializer_methodsScript hlegal
  rw [functions_plan_admitted_iff]
  refine ⟨fun body hbody => ⟨hsetup body hbody, hbindings⟩, ?_, ?_⟩
  · rw [hdata]
    exact nofun
  · rw [← planMethods_admitted_iff settings, entries_methodsScript hlegal,
      map_planMethod_methodsText hlegal hnames hdollar, List.map_map, List.forall_mem_map]
    exact fun m hm => (hlegal m hm).admitted settings.trustLevel

/-- Without dollar signs the planned methods are the written ones. -/
theorem methods_plan_methodsScript (hne : ms ≠ []) (hnames : (ms.map WrittenMethod.name).Nodup)
    (hdollar : ∀ m ∈ ms, '$' ∉ m.name.toList) (settings : Settings) (template : String) :
    (plan settings template (.ofScript (methodsScript ms).toList)).methods =
      some (ms.map fun m => (m.name, m.function settings.trustLevel)) := by
  have hmethods := map_planMethod_methodsText hlegal hnames hdollar settings
  have hfilled : methodTable (methodsText ms) ≠ [] := by
    intro hnil
    rw [hnil] at hmethods
    exact hne (List.map_eq_nil_iff.mp hmethods.symm)
  rw [plan, entries_methodsScript hlegal, hmethods, if_neg]
  rwa [List.isEmpty_iff]

end Braces

namespace Compiler

/-! ## Compiled methods -/

/-- The methods of a component that a compile of texts makes are named by words. -/
theorem isWord_name_of_component? {settings : Settings} {template script style : String}
    {c : Component}
    (h : ((standard settings).compile (.text template) (.text script) (.text style)).component? =
      some c) {e : String × ScriptFunction} (he : e ∈ c.methodTable) :
    ∀ x ∈ e.1.toList, isWord x = true := by
  obtain ⟨_, _, rfl⟩ := (component?_eq_some_iff settings template script style c).mp h
  rw [plan_methodTable] at he
  obtain ⟨entry, hentry, rfl⟩ := List.mem_map.mp he
  obtain ⟨parts, hparts, rfl⟩ := Script.Fragments.exists_eq_of_mem_entries hentry
  have hname : parts.fragment.name.toList = parts.name := by
    simp only [Script.EntryParts.fragment, String.toList_ofList]
  rw [planMethod, hname]
  exact hparts.name

/-- Written methods are compiled as what they are exactly when no name of theirs has
a dollar sign. -/
theorem compile_methodsScript_iff {settings : Settings}
    (hbindings : ∀ b ∈ settings.setupBindings, Script.isParameter b = true) {template : String}
    (htemplate : Template.faults settings (.text template) = []) {ms : List WrittenMethod}
    (hne : ms ≠ []) (hnames : (ms.map WrittenMethod.name).Nodup) (hlegal : ∀ m ∈ ms, m.Legal)
    (style : String) :
    (∃ c, ((standard settings).compile (.text template) (.text (methodsScript ms))
        (.text style)).component? = some c ∧
      c.methods = some (ms.map fun m => (m.name, m.function settings.trustLevel))) ↔
      ∀ m ∈ ms, '$' ∉ m.name.toList := by
  constructor
  · rintro ⟨c, hc, hmethods⟩ m hm hdollar
    have hmem : (m.name, m.function settings.trustLevel) ∈ c.methodTable := by
      rw [Component.methodTable, hmethods, Option.getD_some]
      exact List.mem_map.mpr ⟨m, hm, rfl⟩
    have hword := isWord_name_of_component? hc hmem '$' hdollar
    exact absurd hword (by decide)
  · intro hdollar
    have hadmitted := admitted_of_mem_plan_methodsScript hlegal hnames hdollar hbindings template
    have hmethods := methods_plan_methodsScript hlegal hne hnames hdollar settings template
    exact ⟨_, (component?_eq_some_iff settings template _ style _).mpr
      ⟨htemplate, hadmitted, rfl⟩, hmethods⟩

/-- Two methods, one of them named as an initializer is. -/
theorem compile_methodsScript_two :
    ∃ c, ((standard {}).compile (.text "<p></p>") (.text (methodsScript
        [⟨"go", ["a", "b = 1"], " a++ "⟩, ⟨"setup", [], ""⟩])) (.text "")).component? = some c ∧
      c.methods = some [("go", ⟨"go", .method, ["a", "b = 1"], " a++ ", .untrusted⟩),
        ("setup", ⟨"setup", .method, [], "", .untrusted⟩)] := by
  have hbindings : ∀ b ∈ ({} : Settings).setupBindings, Script.isParameter b = true := by
    decide
  have htemplate : Template.faults {} (.text "<p></p>") = [] := by decide +kernel
  have hlegal : ∀ m ∈ ([⟨"go", ["a", "b = 1"], " a++ "⟩, ⟨"setup", [], ""⟩] :
      List WrittenMethod), m.Legal := by
    decide +kernel
  have hdollar : ∀ m ∈ ([⟨"go", ["a", "b = 1"], " a++ "⟩, ⟨"setup", [], ""⟩] :
      List WrittenMethod), '$' ∉ m.name.toList := by
    decide
  exact (compile_methodsScript_iff hbindings htemplate (by simp) (by decide) hlegal "").mpr hdollar

/-- The names of the methods that are compiled from written ones. -/
def compiledNames? (ms : List WrittenMethod) : Option (List String) :=
  ((standard {}).compile (.text "<p></p>") (.text (methodsScript ms)) (.text "")).component?.map
    fun c => c.methodTable.keys

/-- Legal methods that are compiled without an error, and not as what they are: a
method is renamed, one of two is lost, and one is dropped. -/
theorem compile_methodsScript_renames :
    (∀ m ∈ ([⟨"$go", [], ""⟩, ⟨"go", [], ""⟩, ⟨"go$", [], ""⟩] : List WrittenMethod), m.Legal) ∧
      compiledNames? [⟨"$go", [], ""⟩] = some ["go"] ∧
      compiledNames? [⟨"$go", [], ""⟩, ⟨"go", [], ""⟩] = some ["go"] ∧
      compiledNames? [⟨"go$", [], ""⟩] = some [] := by
  decide +kernel

end Compiler

end SingleFile
