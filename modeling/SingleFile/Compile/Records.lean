import SingleFile.Compile.Basic
import SingleFile.Log.Record

/-!
# What a compile reports

The log records of a compile, in order.  They follow from the outcomes of its
stages: a stage that is set to fail reports nothing itself.

Main results:

- `compileRecords_severity`: everything a compile reports is for debugging.
-/

namespace SingleFile

open Log

/-- The texts in rising order of their code points. -/
def sortedTexts (ss : List String) : List String :=
  ss.mergeSort fun a b => !(decide (b < a))

namespace Compiler

/-- What the check of a template reports. -/
def checkRecords : Value → List Record
  | .text _ => []
  | _ => [{ event := "Error validating template", fields := causedByFailure }]

/-- What the extraction of a script reports. -/
def extractionRecords (k : Compiler) : Value → List Record
  | .text s =>
      match k.failures.extraction, k.failures.recognizer with
      | some _, _ => []
      | none, recognizer =>
          if Text.isBlankString s then []
          else
            match recognizer with
            | some _ =>
                [{ event := "Error extracting script fragments", fields := causedByFailure }]
            | none =>
                let fragments := Script.Fragments.ofScript s.toList
                [{ event := "Extracted script fragments"
                   fields :=
                    [("setup", .bool fragments.setupBody.isSome),
                      ("data", .bool fragments.dataBody.isSome),
                      ("methods", .ofTexts (sortedTexts fragments.entries.keys))] }]
  | _ => []

/-- What the host's part of a synthesis reports. -/
def hostRecords (k : Compiler) (template : String) (fragments : Script.Fragments) : List Record :=
  match k.failures.synthesis, synthesize k.settings k.host template fragments with
  | none, .error ⟨.hostFailed _, _⟩ =>
      [{ event := "Host rejected component definition", fields := causedByFailure }]
  | _, _ => []

/-- What a synthesis reports that ends the compile in good order. -/
def synthesisRecords (k : Compiler) (template : String) (fragments : Script.Fragments) :
    List Record :=
  match k.synthesis template fragments with
  | .ok _ => []
  | .error f =>
      if f.kind = .synthesis then
        [{ event := "Synthesis failed", fields := [("error", .text f.text)] }]
      else []

/-- What the compile of a template without fault reports. -/
def admittedRecords (k : Compiler) (template : String) (script : Value) : List Record :=
  k.extractionRecords (presentedScript script) ++
    match k.fragmentsAndWarnings (presentedScript script) with
    | .error _ => []
    | .ok (fragments, _) =>
        k.hostRecords template fragments ++ k.synthesisRecords template fragments

/-- What the compile of a template and a script reports before its boundary. -/
def scriptRecords (k : Compiler) (template script : Value) : List Record :=
  checkRecords template ++
    match template, Template.faults k.settings template with
    | .text t, [] => k.admittedRecords t script
    | _, faults =>
        [{ event := "Template rejected"
           fields := [("errors", .ofTexts (faults.map Template.Fault.message))] }]

/-- What the boundary reports of a failure that it catches. -/
def boundaryRecords (event : String) : Except Failure CompileResult → List Record
  | .ok _ => []
  | .error _ => [{ event := event, fields := causedByFailure }]

/-- What the compile of a template, a script and a style reports. -/
def compileRecords (k : Compiler) (template script style : Value) : List Record :=
  k.scriptRecords template script ++
    boundaryRecords "Unexpected SFC compilation failure"
      (match k.compileScript template script with
      | .error f => .error f
      | .ok r => withStyle style r)

/-- What the compile of a template and a script reports. -/
def compileTemplateRecords (k : Compiler) (template script : Value) : List Record :=
  k.scriptRecords template script ++
    boundaryRecords "Unexpected compilation failure" (k.compileScript template script)

/-! ## Severities -/

/-- Records that are all for debugging. -/
def AllDebug (rs : List Record) : Prop :=
  ∀ r ∈ rs, r.severity = .debug

/-- Records for debugging stay so when they are put together. -/
theorem AllDebug.append {rs ss : List Record} (hr : AllDebug rs) (hs : AllDebug ss) :
    AllDebug (rs ++ ss) := by
  intro r h
  rcases List.mem_append.mp h with h | h
  · exact hr r h
  · exact hs r h

theorem allDebug_nil : AllDebug [] := by
  intro r h
  cases h

theorem allDebug_singleton (event : String) (fields : Table String Value) :
    AllDebug [{ event, fields }] := by
  intro r h
  rw [List.mem_singleton.mp h]

theorem allDebug_boundaryRecords (event : String) (r : Except Failure CompileResult) :
    AllDebug (boundaryRecords event r) := by
  cases r with
  | ok _ => exact allDebug_nil
  | error _ => exact allDebug_singleton _ _

theorem allDebug_admittedRecords (k : Compiler) (template : String) (script : Value) :
    AllDebug (k.admittedRecords template script) := by
  have hextraction : AllDebug (k.extractionRecords (presentedScript script)) := by
    unfold extractionRecords
    split
    · split
      · exact allDebug_nil
      · split
        · exact allDebug_nil
        · split
          · exact allDebug_singleton _ _
          · exact allDebug_singleton _ _
    · exact allDebug_nil
  have hhost (fragments) : AllDebug (k.hostRecords template fragments) := by
    unfold hostRecords
    split
    · exact allDebug_singleton _ _
    · exact allDebug_nil
  have hsynthesis (fragments) : AllDebug (k.synthesisRecords template fragments) := by
    unfold synthesisRecords
    split
    · exact allDebug_nil
    · split
      · exact allDebug_singleton _ _
      · exact allDebug_nil
  unfold admittedRecords
  refine hextraction.append ?_
  split
  · exact allDebug_nil
  · exact (hhost _).append (hsynthesis _)

theorem allDebug_scriptRecords (k : Compiler) (template script : Value) :
    AllDebug (k.scriptRecords template script) := by
  have hcheck : AllDebug (checkRecords template) := by
    unfold checkRecords
    split
    · exact allDebug_nil
    · exact allDebug_singleton _ _
  unfold scriptRecords
  refine hcheck.append ?_
  split
  · exact k.allDebug_admittedRecords _ _
  · exact allDebug_singleton _ _

/-- Everything a compile reports is for debugging. -/
theorem compileRecords_severity (k : Compiler) (template script style : Value) {r : Record}
    (h : r ∈ k.compileRecords template script style) : r.severity = .debug :=
  ((k.allDebug_scriptRecords template script).append (allDebug_boundaryRecords _ _)) r h

end Compiler

end SingleFile
