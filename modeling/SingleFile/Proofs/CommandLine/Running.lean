import SingleFile.CommandLine.Run
import SingleFile.Proofs.CommandLine.Definition
import SingleFile.Proofs.Text.Utf8

/-!
# What a command reports

A command that is not refused for its arguments, its log file or its settings reads its
files.  If
one of them is no UTF-8, the command is refused; otherwise it prints what the compiler
makes of their texts and nothing else, and its exit code says whether that is a success.

Main results:

- Theorem `sources_eq_ok_iff`: which texts a job reads from its files.
- Theorem `exists_holds_or_holdsNoText`: a job has the texts of all its files, or one of
  them is no text.
- Theorem `resultFields_consistent`: the fields of a result agree about its success.
- Theorem `run_reports`: what a command prints, and its exit code.
-/

namespace SingleFile.CommandLine

open Text (unifyNewlines)

/-! ## Texts of files -/

/-- The file at a path encodes a text, which is read with its line ends unified. -/
def HoldsText (files : Files.Lookup) (path text : String) : Prop :=
  ∃ cs : List Char, Files.content? files path = some (cs.flatMap String.utf8EncodeChar) ∧
    text = String.ofList (unifyNewlines cs)

/-- The file at a path is there and encodes no text. -/
def HoldsNoText (files : Files.Lookup) (path : String) : Prop :=
  ∃ octets, Files.content? files path = some octets ∧
    ∀ cs : List Char, octets ≠ cs.flatMap String.utf8EncodeChar

/-- The text of a file that may be absent, and then is empty. -/
def SuppliesText (files : Files.Lookup) : Option String → String → Prop
  | none, text => text = ""
  | some path, text => HoldsText files path text

/-- The files of a job hold the given texts. -/
structure Job.Holds (j : Job) (files : Files.Lookup) (s : Sources) : Prop where
  template : HoldsText files j.template s.template
  script : SuppliesText files j.script s.script
  style : SuppliesText files j.style s.style

/-- The paths of the files that a job is given. -/
def Job.paths (j : Job) : List String :=
  j.template :: (j.script.toList ++ j.style.toList)

/-- A file that is there is decoded. -/
theorem fileText_of_content {files : Files.Lookup} {path : String} {octets : List UInt8}
    (h : Files.content? files path = some octets) (p : Parameter) :
    fileText files p path =
      match Text.Utf8.decode octets with
      | .ok cs => .ok (String.ofList (unifyNewlines cs))
      | .error e => .error (.notText p path e) := by
  cases hdecode : Text.Utf8.decode octets <;> simp only [fileText, h, hdecode]

/-- A file is read as the text that it holds. -/
theorem fileText_eq_ok_iff (files : Files.Lookup) (p : Parameter) (path text : String) :
    fileText files p path = .ok text ↔ HoldsText files path text := by
  constructor
  · intro h
    cases hcontent : Files.content? files path with
    | none =>
        rw [fileText, hcontent] at h
        cases h
    | some octets =>
        rw [fileText_of_content hcontent] at h
        cases hdecode : Text.Utf8.decode octets with
        | error e =>
            rw [hdecode] at h
            cases h
        | ok cs =>
            rw [hdecode] at h
            have hoctets := (Text.Utf8.decode_eq_ok_iff octets cs).mp hdecode
            exact ⟨cs, hoctets ▸ hcontent, (Except.ok.inj h).symm⟩
  · rintro ⟨cs, hcontent, rfl⟩
    rw [fileText_of_content hcontent, (Text.Utf8.decode_eq_ok_iff _ cs).mpr rfl]

/-- A file that may be absent is read as the text that it supplies. -/
theorem optionalText_eq_ok_iff (files : Files.Lookup) (p : Parameter) (path : Option String)
    (text : String) : optionalText files p path = .ok text ↔ SuppliesText files path text := by
  cases path with
  | none => simp [optionalText, SuppliesText, eq_comm]
  | some path => exact fileText_eq_ok_iff files p path text

/-- A job reads the texts that its files hold. -/
theorem sources_eq_ok_iff (j : Job) (files : Files.Lookup) (s : Sources) :
    j.sources files = .ok s ↔ j.Holds files s := by
  constructor
  · intro h
    unfold Job.sources at h
    cases htemplate : fileText files .template j.template with
    | error e =>
        rw [htemplate] at h
        cases h
    | ok template =>
        cases hscript : optionalText files .script j.script with
        | error e =>
            rw [htemplate, hscript] at h
            cases h
        | ok script =>
            cases hstyle : optionalText files .style j.style with
            | error e =>
                rw [htemplate, hscript, hstyle] at h
                cases h
            | ok style =>
                rw [htemplate, hscript, hstyle] at h
                cases h
                exact
                  { template := (fileText_eq_ok_iff ..).mp htemplate
                    script := (optionalText_eq_ok_iff ..).mp hscript
                    style := (optionalText_eq_ok_iff ..).mp hstyle }
  · intro h
    rw [Job.sources, (fileText_eq_ok_iff ..).mpr h.template,
      (optionalText_eq_ok_iff ..).mpr h.script, (optionalText_eq_ok_iff ..).mpr h.style]
    rfl

/-- A file that is there holds a text or none. -/
theorem holdsText_or_holdsNoText {files : Files.Lookup} {path : String}
    (h : (Files.content? files path).isSome = true) :
    (∃ text, HoldsText files path text) ∨ HoldsNoText files path := by
  obtain ⟨octets, hcontent⟩ := Option.isSome_iff_exists.mp h
  by_cases hoctets : ∃ cs : List Char, octets = cs.flatMap String.utf8EncodeChar
  · obtain ⟨cs, rfl⟩ := hoctets
    exact .inl ⟨_, cs, hcontent, rfl⟩
  · exact .inr ⟨octets, hcontent, fun cs hcs => hoctets ⟨cs, hcs⟩⟩

/-- Files that are there supply texts, or one of them holds none. -/
theorem suppliesText_or_holdsNoText {files : Files.Lookup} {path : Option String}
    (h : ∀ p ∈ path, (Files.content? files p).isSome = true) :
    (∃ text, SuppliesText files path text) ∨ ∃ p ∈ path, HoldsNoText files p := by
  cases path with
  | none => exact .inl ⟨"", rfl⟩
  | some p =>
      rcases holdsText_or_holdsNoText (h p rfl) with htext | hno
      · exact .inl htext
      · exact .inr ⟨p, rfl, hno⟩

/-- The file of an option that passed the check of paths is there. -/
theorem isSome_content_of_option {options : Table OptionKey String} {files : Files.Lookup}
    (h : options.findSome? (pathError? files) = none) {k : OptionKey} {p : Parameter}
    (hk : k.parameter? = some p) {path : String} (hpath : options.get? k = some path) :
    (Files.content? files path).isSome = true := by
  have hfound := List.findSome?_eq_none_iff.mp h (k, path) (Table.mem_of_get? hpath)
  simp only [pathError?, hk] at hfound
  split at hfound
  · assumption
  · cases hfound

/-- The files of a job are there. -/
theorem isSome_content_of_job {i : Invocation} {files : Files.Lookup} {j : Job}
    (h : i.job files = .ok j) :
    ∀ path ∈ j.paths, (Files.content? files path).isSome = true := by
  unfold Invocation.job at h
  split at h
  · cases h
  · cases h
  · rename_i template extra hoptions _
    split at h
    · cases h
    · rename_i htemplate
      split at h
      · cases h
      · cases hformat : formatOf i.options with
        | error e =>
            rw [hformat] at h
            cases h
        | ok format =>
            rw [hformat] at h
            cases h
            intro path hpath
            simp only [Job.paths, List.mem_cons, List.mem_append, Option.mem_toList] at hpath
            rcases hpath with rfl | hscript | hstyle
            · exact Option.isSome_iff_ne_none.mpr (by simpa using htemplate)
            · exact isSome_content_of_option hoptions (k := .script) rfl hscript
            · exact isSome_content_of_option hoptions (k := .style) rfl hstyle

/-- A job has the texts of all its files, or one of them is no text. -/
theorem exists_holds_or_holdsNoText {j : Job} {files : Files.Lookup}
    (h : ∀ path ∈ j.paths, (Files.content? files path).isSome = true) :
    (∃ s, j.Holds files s) ∨ ∃ path ∈ j.paths, HoldsNoText files path := by
  have hscript : ∀ p ∈ j.script, p ∈ j.paths := by
    intro p hp
    simp [Job.paths, Option.mem_def.mp hp]
  have hstyle : ∀ p ∈ j.style, p ∈ j.paths := by
    intro p hp
    simp [Job.paths, Option.mem_def.mp hp]
  rcases holdsText_or_holdsNoText (h j.template List.mem_cons_self) with ⟨t, ht⟩ | hno
  · rcases suppliesText_or_holdsNoText fun p hp => h p (hscript p hp) with ⟨s, hs⟩ | ⟨p, hp, hno⟩
    · rcases suppliesText_or_holdsNoText fun p hp => h p (hstyle p hp) with
        ⟨y, hy⟩ | ⟨p, hp, hno⟩
      · exact .inl ⟨⟨t, s, y⟩, ht, hs, hy⟩
      · exact .inr ⟨p, hstyle p hp, hno⟩
    · exact .inr ⟨p, hscript p hp, hno⟩
  · exact .inr ⟨j.template, List.mem_cons_self, hno⟩

/-- A job with a file that is no text has no texts. -/
theorem not_holds_of_holdsNoText {j : Job} {files : Files.Lookup} {path : String}
    (hpath : path ∈ j.paths) (hno : HoldsNoText files path) (s : Sources) :
    ¬ j.Holds files s := by
  have hnot : ∀ text, ¬ HoldsText files path text := by
    rintro text ⟨cs, hcontent, _⟩
    obtain ⟨octets, hcontent', hoctets⟩ := hno
    rw [hcontent] at hcontent'
    exact hoctets cs (Option.some.inj hcontent').symm
  intro h
  simp only [Job.paths, List.mem_cons, List.mem_append, Option.mem_toList] at hpath
  rcases hpath with rfl | hscript | hstyle
  · exact hnot _ h.template
  · have htext := h.script
    rw [hscript] at htext
    exact hnot _ htext
  · have htext := h.style
    rw [hstyle] at htext
    exact hnot _ htext

/-! ## Payloads -/

/-- The fields of a result agree about its success: it is a success, has no error and has
a component, or none of these. -/
theorem resultFields_consistent (r : CompileResult) :
    (resultFields r).get? "success" = some (.bool r.isSuccess) ∧
    (r.isSuccess = true ↔ (resultFields r).get? "error" = some .null) ∧
    (r.isSuccess = true ↔ (resultFields r).get? "component" ≠ some .null) := by
  obtain ⟨outcome, warnings⟩ := r
  cases outcome with
  | ok c =>
      simp [resultFields, Table.get?, CompileResult.isSuccess, CompileResult.component?,
        CompileResult.error?, Value.ofText?, definitionValue]
  | error e =>
      simp [resultFields, Table.get?, CompileResult.isSuccess, CompileResult.component?,
        CompileResult.error?, Value.ofText?]

/-- The printed fields of a success hold the definition of its component. -/
theorem get?_component_resultFields {r : CompileResult} {c : Component}
    (h : r.component? = some c) :
    (resultFields r).get? "component" = some (.object (definitionFields c.definition)) := by
  simp [resultFields, Table.get?, h, definitionValue]

/-- A component presents fragments: each of them stands in its definition as the source
of the function that the component has for it. -/
structure Presents (fragments : Script.Fragments) (c : Component) : Prop where
  setup : ∀ body, fragments.setupBody = some body →
    ∃ f, c.setup = some f ∧ f.body = body ∧
      (definitionFields c.definition).get? "setup" = some (.text f.toSource)
  data : ∀ body, fragments.dataBody = some body →
    ∃ f, c.data = some f ∧ f.body = body ∧
      (definitionFields c.definition).get? "data" = some (.text f.toSource)
  methods : ∀ name m, fragments.entries.get? name = some m →
    ∃ f, c.methodTable.get? name = some f ∧ f.name = name ∧ f.body = m.body ∧
      ∃ methods : Table String Value,
        (definitionFields c.definition).get? "methods" = some (.object methods) ∧
          methods.get? name = some (.text f.toSource)

/-- The source of a method stands in the definition under its name. -/
theorem exists_methods_definitionFields {c : Component} {name : String} {f : ScriptFunction}
    (h : c.methodTable.get? name = some f) :
    ∃ methods : Table String Value,
      (definitionFields c.definition).get? "methods" = some (.object methods) ∧
        methods.get? name = some (.text f.toSource) := by
  refine ⟨c.methodTable.map fun e => (e.1, .text e.2.toSource), ?_, ?_⟩
  · have hfilled : c.definition.methods.isEmpty = false := by
      rw [Component.definition, List.isEmpty_map]
      cases htable : c.methodTable with
      | nil =>
          rw [htable] at h
          cases h
      | cons e t => rfl
    simp only [get?_definitionFields, String.reduceEq, if_false, if_true, hfilled,
      Bool.false_eq_true]
    rw [sourcesValue, Component.definition, List.map_map]
    rfl
  · have hread := c.methodTable.get?_map (fun _ g => Value.text g.toSource) name
    rw [h, Option.map_some] at hread
    exact hread

/-- A plan presents the fragments that it is made from. -/
theorem presents_plan (settings : Settings) (template : String) (fragments : Script.Fragments) :
    Presents fragments (plan settings template fragments) where
  setup body hbody := by
    have hsetup := plan_setup settings template fragments
    rw [hbody, Option.map_some] at hsetup
    refine ⟨_, hsetup, rfl, ?_⟩
    simp [get?_definitionFields, Component.definition, hsetup]
  data body hbody := by
    have hdata := plan_data settings template fragments
    rw [hbody, Option.map_some] at hdata
    refine ⟨_, hdata, rfl, ?_⟩
    simp [get?_definitionFields, Component.definition, hdata]
  methods name m hm := by
    have hmethod := get?_methodTable_plan settings template fragments name
    rw [hm, Option.map_some] at hmethod
    exact ⟨_, hmethod, rfl, rfl, exists_methods_definitionFields hmethod⟩

/-! ## Arguments of a compile -/

/-- The arguments that have files compiled, at whatever paths they are. -/
def compileArguments (template : String) (script style : Option String) : List String :=
  "compile" :: (script.toList.flatMap (fun path => ["--script", path]) ++
    (style.toList.flatMap (fun path => ["--style", path]) ++ ["--format", "json", "--", template]))

/-- The job of a compile of files. -/
def compileJob (template : String) (script style : Option String) : Job where
  command := .compile
  template := template
  script := script
  style := style
  format := .json
  verbose := false

/-- Files that are there are compiled by these arguments. -/
theorem exists_job_compileArguments {files : Files.Lookup} (template : String)
    (script style : Option String)
    (h : ∀ path ∈ (compileJob template script style).paths,
      (Files.content? files path).isSome = true) :
    ∃ i, parse (compileArguments template script style) = .ok (.invoke i) ∧
      i.job files = .ok (compileJob template script style) := by
  have htemplate : Files.content? files template ≠ none :=
    Option.isSome_iff_ne_none.mp (h template List.mem_cons_self)
  have hscript : ∀ path ∈ script, pathError? files (.script, path) = none := by
    intro path hpath
    have hcontent := h path (by simp [Job.paths, compileJob, Option.mem_def.mp hpath])
    exact if_pos hcontent
  have hstyle : ∀ path ∈ style, pathError? files (.style, path) = none := by
    intro path hpath
    have hcontent := h path (by simp [Job.paths, compileJob, Option.mem_def.mp hpath])
    exact if_pos hcontent
  refine ⟨⟨.compile, script.toList.map (fun path => (.script, path)) ++
    (style.toList.map (fun path => (.style, path)) ++ [(.format, "json")]), [template]⟩, ?_, ?_⟩
  · cases script <;> cases style <;> rfl
  · have hformat : pathError? files (.format, "json") = none := rfl
    have hjson : OutputFormat.ofName? "json" = some .json := rfl
    cases script <;> cases style <;>
      simp [Invocation.job, htemplate, hscript, hstyle, hformat, formatOf, Table.get?, Table.has,
        hjson, compileJob, Except.map]

/-! ## Runs -/

theorem ofLines_singleton (line : String) : ofLines [line] = line ++ "\n" := by
  simp [ofLines, String.join]

section Runs

variable {args : List String} {env : Environment} {files : Files.Lookup} {i : Invocation}
  {j : Job} {settings : Settings} {refusal? : Option Failure}

/-- Arguments that call for a job under readable settings have its files read, unless it is
verbose and refused its log file. -/
theorem run_of_job (hparse : parse args = .ok (.invoke i)) (hjob : i.job files = .ok j)
    (hlog : j.verbose = true → refusal? = none)
    (hsettings : Settings.ofEnvironment env = .ok settings) :
    run args env files refusal? =
      match j.sources files with
      | .error e => .error (.usage e)
      | .ok s => .ok (j.output { settings } s) := by
  have hopened : j.logFailure? refusal? = none := by
    unfold Job.logFailure?
    split
    · rename_i hverbose
      exact hlog hverbose
    · rfl
  cases hsources : j.sources files <;>
    simp only [run, hparse, Call.run, hjob, Job.run, hopened, hsettings, hsources]

/-- A command whose files hold texts is carried out on them; one with a file that holds
none is refused and prints nothing.  The log file is opened if the command is verbose.  A compile prints the result of the compiler, whose
fields agree about its success, with the source of the function for every fragment of
the script; a check prints its faults.  The exit code says which it is. -/
theorem run_reports (hparse : parse args = .ok (.invoke i)) (hjob : i.job files = .ok j)
    (hformat : j.format = .json) (hsettings : Settings.ofEnvironment env = .ok settings)
    (hlog : j.verbose = true → refusal? = none) :
    ((∃ s, j.Holds files s) ∨ ∃ path ∈ j.paths, HoldsNoText files path) ∧
    ((∃ path ∈ j.paths, HoldsNoText files path) →
      exitStatus (run args env files refusal?) = 2 ∧ printedText (run args env files refusal?) = "") ∧
    (∀ s, j.Holds files s → j.command = .compile →
      let r := ({ settings } : Compiler).compile (.text s.template) (.text s.script)
        (.text s.style)
      let payload := resultFields r
      printedText (run args env files refusal?) = (Value.object payload).json ++ "\n" ∧
      exitStatus (run args env files refusal?) = (if r.isSuccess then 0 else 1) ∧
      payload.get? "success" = some (.bool r.isSuccess) ∧
      (r.isSuccess = true ↔ payload.get? "error" = some .null) ∧
      (r.isSuccess = true ↔ payload.get? "component" ≠ some .null) ∧
      ∀ c, r.component? = some c →
        payload.get? "component" = some (.object (definitionFields c.definition)) ∧
          Presents (Script.Fragments.ofScript s.script.toList) c) ∧
    (∀ s, j.Holds files s → j.command = .validate →
      let faults := Template.faults settings (.text s.template)
      printedText (run args env files refusal?) = (Value.object (faultsFields faults)).json ++ "\n" ∧
      (exitStatus (run args env files refusal?) = 0 ↔ faults = []) ∧
      (faultsFields faults).get? "errors" =
        some (.ofTexts (faults.map Template.Fault.message))) := by
  have hrun := run_of_job hparse hjob hlog hsettings
  refine ⟨exists_holds_or_holdsNoText (isSome_content_of_job hjob), ?_, ?_, ?_⟩
  · rintro ⟨path, hpath, hno⟩
    cases hsources : j.sources files with
    | ok s =>
        have hholds := (sources_eq_ok_iff j files s).mp hsources
        exact absurd hholds (not_holds_of_holdsNoText hpath hno s)
    | error e =>
        rw [hrun, hsources]
        exact ⟨rfl, rfl⟩
  · intro s hs hcommand r payload
    obtain ⟨hsuccess, herror, hcomponent⟩ := resultFields_consistent r
    have hrun' : run args env files refusal? =
        .ok { (j.output { settings } s) with
          exitCode := exitCode r.isSuccess, text := resultText r .json } := by
      rw [hrun, (sources_eq_ok_iff j files s).mpr hs]
      simp only [Job.output, hcommand, hformat]
      rfl
    rw [hrun']
    refine ⟨ofLines_singleton _, rfl, hsuccess, herror, hcomponent, fun c hc => ?_⟩
    obtain ⟨_, _, rfl⟩ := (Compiler.component?_eq_some_iff _ _ _ _ c).mp hc
    exact ⟨get?_component_resultFields hc, presents_plan ..⟩
  · intro s hs hcommand faults
    have hrun' : run args env files refusal? =
        .ok { exitCode := exitCode faults.isEmpty, text := faultsText faults .json } := by
      rw [hrun, (sources_eq_ok_iff j files s).mpr hs]
      simp only [Job.output, hcommand, hformat]
      rfl
    rw [hrun']
    refine ⟨ofLines_singleton _, ?_, rfl⟩
    cases faults <;> simp [exitStatus, exitCode]

end Runs

/-- Two files that are compiled with different line ends, and the same two with a style
that is no text. -/
theorem run_reports_files :
    let octets (text : String) := text.toList.flatMap String.utf8EncodeChar
    let files (style : List UInt8) : Files.Lookup := fun path =>
      if path = "t.html" then some (.file (octets "<p>ä</p>\r\n"))
      else if path = "s.js" then some (.file (octets "data() { return { n: 1 } }\r"))
      else if path = "y.css" then some (.file style)
      else none
    let args := compileArguments "t.html" (some "s.js") (some "y.css")
    let r := ({} : Compiler).compile (.text "<p>ä</p>\n")
      (.text "data() { return { n: 1 } }\n") (.text "")
    (exitStatus (run args [] (files [])) = 0 ∧
      printedText (run args [] (files [])) = (Value.object (resultFields r)).json ++ "\n") ∧
    (exitStatus (run args [] (files [0xC3, 0x28])) = 2 ∧
      printedText (run args [] (files [0xC3, 0x28])) = "") := by
  intro octets files args r
  have hsettings : Settings.ofEnvironment [] = .ok {} := rfl
  have hthere : ∀ style : List UInt8,
      ∀ path ∈ (compileJob "t.html" (some "s.js") (some "y.css")).paths,
        (Files.content? (files style) path).isSome = true := by
    intro style path hpath
    simp only [Job.paths, compileJob, Option.toList_some, List.singleton_append, List.mem_cons,
      List.not_mem_nil, or_false] at hpath
    rcases hpath with rfl | rfl | rfl <;> rfl
  constructor
  · obtain ⟨i, hparse, hjob⟩ := exists_job_compileArguments _ _ _ (hthere [])
    obtain ⟨_, _, hcompiled, _⟩ := run_reports hparse hjob rfl hsettings (fun _ => rfl)
    have hholds : (compileJob "t.html" (some "s.js") (some "y.css")).Holds (files [])
        ⟨"<p>ä</p>\n", "data() { return { n: 1 } }\n", ""⟩ :=
      { template := ⟨"<p>ä</p>\r\n".toList, rfl, by decide⟩
        script := ⟨"data() { return { n: 1 } }\r".toList, rfl, by decide⟩
        style := ⟨[], rfl, by decide⟩ }
    obtain ⟨hprinted, hexit, _⟩ := hcompiled _ hholds rfl
    have hsuccess : r.isSuccess = true := by decide +kernel
    rw [hprinted, hexit]
    exact ⟨if_pos hsuccess, rfl⟩
  · obtain ⟨i, hparse, hjob⟩ := exists_job_compileArguments _ _ _ (hthere [0xC3, 0x28])
    obtain ⟨_, hrefused, _⟩ := run_reports hparse hjob rfl hsettings (fun _ => rfl)
    refine hrefused ⟨"y.css", by simp [Job.paths, compileJob], [0xC3, 0x28], rfl, ?_⟩
    intro cs hcs
    have hdecoded := (Text.Utf8.decode_eq_ok_iff [0xC3, 0x28] cs).mpr hcs
    have hfault : Text.Utf8.decode [0xC3, 0x28] = .error ⟨.invalidContinuation, 0⟩ := rfl
    rw [hfault] at hdecoded
    cases hdecoded

end SingleFile.CommandLine
