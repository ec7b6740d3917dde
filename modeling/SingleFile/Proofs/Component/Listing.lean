import SingleFile.Proofs.Component.Rendering
import SingleFile.Proofs.Script.Listing

/-!
# Methods in a table

A method can be written as an entry of a table, and its rendered source is such an
entry as well, with one word before it and a body on lines of its own.  Both are
read back as what they were written from, so that rendering a table and reading
it again changes nothing that is rendered.

Main results:

- Theorem `ScriptFunction.FitsTable.entryParts_append`: a method that is written as
  an entry is read as this entry.
- Theorem `methodTable_of_entry`: the table that is read from written methods.
- Theorem `buildMethods_of_toSource`: rendered methods are built again, with the same
  parameters and the same sources.
-/

namespace SingleFile

open Script (EntryParts IsListed Lists entryParts methodTable splitParameters)
open Script.Source (check lines)
open Text (isBlankText isWord)

namespace ScriptFunction

/-! ## Methods as entries -/

/-- The method as it is written in a table. -/
def entry (f : ScriptFunction) : EntryParts where
  name := f.name.toList
  nameGap := []
  parameters := f.parameterList.toList
  headGap := " ".toList
  body := f.body.toList

/-- The function can be written in a table: nothing in it ends a part of its entry
before its place. -/
structure FitsTable (f : ScriptFunction) : Prop where
  kind : f.kind = .method
  name : ∀ c ∈ f.name.toList, isWord c = true
  listed : ∀ p ∈ f.parameters, IsListed p
  parameters : ∀ p ∈ f.parameters, ')' ∉ p.toList
  body : '}' ∉ f.body.toList

theorem Admitted.name_ne_nil {f : ScriptFunction} (h : f.Admitted) : f.name.toList ≠ [] := by
  intro hname
  have hshape := (Bool.and_eq_true_iff.mp h.2.1).1
  rw [hname] at hshape
  cases hshape

/-- The parameters of a function that fits a table hold no closing round
bracket. -/
theorem FitsTable.not_mem_parameterList {f : ScriptFunction} (h : f.FitsTable) :
    ')' ∉ f.parameterList.toList := by
  intro hmem
  rcases mem_parameterList hmem with (hc | hc) | ⟨p, hp, hc⟩
  · exact absurd hc (by decide)
  · exact absurd hc (by decide)
  · exact h.parameters p hp hc

/-- The entry of a function that fits a table can be told from its text. -/
theorem FitsTable.proper {f : ScriptFunction} (h : f.FitsTable) : f.entry.Proper where
  name := h.name
  nameGap := rfl
  parameters := h.not_mem_parameterList
  headGap := rfl
  body := h.body

/-- A method that is written as an entry is read as this entry. -/
theorem FitsTable.entryParts_append {f : ScriptFunction} (h : f.FitsTable)
    (hname : f.name.toList ≠ []) (rest : List Char) :
    entryParts (f.entry.source ++ rest) = f.entry :: entryParts rest :=
  Script.entryParts_source_append h.proper hname rest

/-- The method that is planned for a written one. -/
theorem FitsTable.planMethod_eq {f : ScriptFunction} (h : f.FitsTable) {settings : Settings}
    (htrust : f.trust = settings.trustLevel) :
    planMethod settings (f.name, f.entry.fragment) = (f.name, f) := by
  have hparameters : splitParameters f.entry.fragment.parameters = f.parameters := by
    simp only [EntryParts.fragment, entry, String.ofList_toList, parameterList]
    exact Script.splitParameters_intercalate h.listed
  have hbody : f.entry.fragment.body = f.body := by
    simp only [EntryParts.fragment, entry, String.ofList_toList]
  rw [planMethod, hparameters, hbody, ← htrust, ← h.kind]

/-- What is planned for an entry of a table can be written in one. -/
theorem fitsTable_planMethod (settings : Settings) {interior : List Char}
    {e : String × Script.MethodFragment} (h : e ∈ methodTable interior) :
    (planMethod settings e).2.FitsTable := by
  obtain ⟨parts, hparts, rfl⟩ := Script.exists_proper_of_mem_methodTable h
  have hname : parts.fragment.name.toList = parts.name := by
    simp only [EntryParts.fragment, String.toList_ofList]
  have hlist : parts.fragment.parameters.toList = parts.parameters := by
    simp only [EntryParts.fragment, String.toList_ofList]
  have hbody : parts.fragment.body.toList = parts.body := by
    simp only [EntryParts.fragment, String.toList_ofList]
  rw [planMethod]
  exact {
    kind := rfl
    name := by
      rw [hname]
      exact hparts.name
    listed := fun p hp => Script.isListed_of_mem_splitParameters hp
    parameters := by
      intro p hp
      have hclosed : ')' ∉ parts.fragment.parameters.toList := by
        rw [hlist]
        exact hparts.parameters
      exact Script.not_mem_of_mem_splitParameters hclosed hp
    body := by
      rw [hbody]
      exact hparts.body }

/-! ## Rendered methods -/

/-- The function as it is read back from its source. -/
def reread (f : ScriptFunction) : ScriptFunction :=
  { f with body := String.ofList ('\n' :: lines (f.innerLines.map String.toList)) }

@[simp]
theorem name_reread (f : ScriptFunction) : f.reread.name = f.name := by
  simp only [reread]

@[simp]
theorem kind_reread (f : ScriptFunction) : f.reread.kind = f.kind := by
  simp only [reread]

@[simp]
theorem parameters_reread (f : ScriptFunction) : f.reread.parameters = f.parameters := by
  simp only [reread]

@[simp]
theorem trust_reread (f : ScriptFunction) : f.reread.trust = f.trust := by
  simp only [reread]

@[simp]
theorem toList_body_reread (f : ScriptFunction) :
    f.reread.body.toList = '\n' :: lines (f.innerLines.map String.toList) := by
  simp only [reread, String.toList_ofList]

@[simp]
theorem parameterList_reread (f : ScriptFunction) : f.reread.parameterList = f.parameterList := by
  simp only [parameterList, parameters_reread]

@[simp]
theorem headerLine_reread (f : ScriptFunction) : f.reread.headerLine = f.headerLine := by
  simp only [headerLine, name_reread, parameterList_reread]

/-- The source of a function is an entry behind the word for functions. -/
theorem toList_toSource_eq_entry (f : ScriptFunction) :
    f.toSource.toList = "function".toList ++ (" ".toList ++ f.reread.entry.source) := by
  have hword : "function ".toList = "function".toList ++ " ".toList := by decide
  have hbrace : " \x7b".toList = " ".toList ++ ['{'] := by decide
  rw [toList_toSource]
  unfold Script.Source.wrapped Script.Source.header front EntryParts.source entry
  rw [name_reread, parameterList_reread, toList_body_reread, hword, hbrace]
  simp only [List.append_assoc, List.cons_append, List.nil_append]

/-- The lines of a method are its trimmed body, if that is not empty. -/
theorem innerLines_of_method {f : ScriptFunction} (h : f.kind = .method) :
    f.innerLines = if Text.trimmed f.body = "" then [] else [Text.trimmed f.body] := by
  have hkind : f.kind ≠ .setup := by
    rw [h]
    decide
  rw [innerLines, if_neg hkind, List.append_nil]

/-- A blank body is read again as a line feed. -/
theorem body_reread_of_blank {f : ScriptFunction} (h : f.kind = .method)
    (hbody : Text.trimmed f.body = "") : f.reread.body.toList = ['\n'] := by
  rw [toList_body_reread, innerLines_of_method h, if_pos hbody]
  rfl

/-- A body is read again trimmed, on lines of its own. -/
theorem body_reread_of_filled {f : ScriptFunction} (h : f.kind = .method)
    (hbody : Text.trimmed f.body ≠ "") :
    f.reread.body.toList = ['\n'] ++ (Text.trim f.body.toList ++ ['\n']) := by
  rw [toList_body_reread, innerLines_of_method h, if_neg hbody]
  simp [lines, Text.toList_trimmed]

/-- Reading a method back keeps its trimmed body. -/
theorem trimmed_body_reread {f : ScriptFunction} (h : f.kind = .method) :
    Text.trimmed f.reread.body = Text.trimmed f.body := by
  have hfeed : isBlankText ['\n'] = true := by decide
  rw [← String.toList_inj, Text.toList_trimmed, Text.toList_trimmed]
  by_cases hbody : Text.trimmed f.body = ""
  · have hnil : Text.trim f.body.toList = [] := by
      rw [← Text.toList_trimmed, hbody, String.toList_empty]
    rw [body_reread_of_blank h hbody, hnil]
    exact (Text.trim_eq_nil_iff _).mpr hfeed
  · rw [body_reread_of_filled h hbody, Text.trim_blank_append_blank hfeed hfeed, Text.trim_trim]

/-- A method that is read back from its source has the same source. -/
theorem toSource_reread {f : ScriptFunction} (h : f.kind = .method) :
    f.reread.toSource = f.toSource := by
  have hreread : f.reread.kind = .method := by rw [kind_reread, h]
  have hinner : f.reread.innerLines = f.innerLines := by
    rw [innerLines_of_method h, innerLines_of_method hreread, trimmed_body_reread h]
  rw [toSource, sourceLines_eq, hinner, headerLine_reread, ← sourceLines_eq, ← toSource]

/-- Accepted lines behind a line feed are accepted. -/
theorem check_body_reread {f : ScriptFunction} (h : f.Admitted) :
    check f.reread.body = .ok () := by
  have hline : 1 ≤ 2 := by omega
  obtain ⟨line, hlines⟩ := Script.Source.run_lines (checkChars_innerLines h) hline []
  have hfeed : Script.Source.State.step {} '\n' = .ok ⟨.code, 2, []⟩ := rfl
  rw [check, toList_body_reread, Script.Source.checkChars_eq_ok_iff]
  refine ⟨⟨.code, line, []⟩, ?_, trivial, rfl⟩
  rw [Script.Source.run_cons, hfeed]
  exact hlines

/-- An admitted function is admitted when it is read again. -/
theorem Admitted.reread {f : ScriptFunction} (h : f.Admitted) : f.reread.Admitted := by
  rw [Admitted, name_reread, parameters_reread]
  exact ⟨check_body_reread h, h.2⟩

/-- A function that fits a table does so when it is read again. -/
theorem FitsTable.reread {f : ScriptFunction} (h : f.FitsTable) : f.reread.FitsTable where
  kind := by rw [kind_reread, h.kind]
  name := by
    rw [name_reread]
    exact h.name
  listed := by
    rw [parameters_reread]
    exact h.listed
  parameters := by
    rw [parameters_reread]
    exact h.parameters
  body := by
    intro hc
    by_cases hbody : Text.trimmed f.body = ""
    · rw [body_reread_of_blank h.kind hbody] at hc
      exact absurd hc (by decide)
    · rw [body_reread_of_filled h.kind hbody] at hc
      have htrim : '}' ∈ Text.trim f.body.toList := by simpa using hc
      exact h.body (Text.mem_of_mem_trim htrim)

/-- The source of a method is read as the entry of the method that is read back
from it. -/
theorem FitsTable.entryParts_toSource {f : ScriptFunction} (h : f.FitsTable)
    (hname : f.name.toList ≠ []) (rest : List Char) :
    entryParts (f.toSource.toList ++ rest) = f.reread.entry :: entryParts rest := by
  obtain ⟨c, name, hcons⟩ := List.exists_cons_of_ne_nil hname
  have hfirst : isWord c = true := h.name c (by rw [hcons]; exact List.mem_cons_self)
  have hword : "function".toList.all isWord = true := by decide
  have hread := h.reread.entryParts_append (by rwa [name_reread]) rest
  obtain ⟨s, hs⟩ : ∃ s, f.reread.entry.source ++ rest = c :: s := by
    rw [EntryParts.source, entry, name_reread, hcons]
    exact ⟨_, rfl⟩
  have hgap : " ".toList ≠ [] := by decide
  rw [toList_toSource_eq_entry, List.append_assoc, List.append_assoc, hs,
    Script.entryParts_append_of_words (List.all_eq_true.mp hword) rfl hgap hfirst, ← hs, hread]

end ScriptFunction

/-! ## Tables -/

/-- The table that is read from written methods holds them in order. -/
theorem methodTable_of_entry {fs : List ScriptFunction} {interior : List Char}
    (h : entryParts interior = fs.map ScriptFunction.entry)
    (hnames : (fs.map ScriptFunction.name).Nodup) :
    methodTable interior = fs.map fun f => (f.name, f.entry.fragment) := by
  have hname : ∀ f : ScriptFunction, f.entry.fragment.name = f.name := by
    intro f
    simp only [EntryParts.fragment, ScriptFunction.entry, String.ofList_toList]
  have hnodup : ((fs.map ScriptFunction.entry).map fun e => e.fragment.name).Nodup := by
    simpa [List.map_map, Function.comp_def, hname] using hnames
  rw [Script.methodTable_of_entryParts h hnodup]
  simp [List.map_map, Function.comp_def, hname]

/-- Written methods are planned as what they are. -/
theorem map_planMethod_entry {settings : Settings} {fs : List ScriptFunction}
    (hfits : ∀ f ∈ fs, f.FitsTable) (htrust : ∀ f ∈ fs, f.trust = settings.trustLevel) :
    (fs.map fun f => (f.name, f.entry.fragment)).map (planMethod settings) =
      fs.map fun f => (f.name, f) := by
  rw [List.map_map]
  exact List.map_congr_left fun f hf => (hfits f hf).planMethod_eq (htrust f hf)

/-- Methods that are built from an interior are admitted and can be written in a
table. -/
theorem fitsTable_of_buildMethods {settings : Settings} {interior : List Char}
    {fs : Table String ScriptFunction}
    (h : buildMethods settings (methodTable interior) = .ok fs) :
    ∀ f ∈ fs, f.2.Admitted ∧ f.2.FitsTable ∧ f.2.trust = settings.trustLevel := by
  obtain ⟨hfs, hadmitted⟩ := buildMethods_eq_ok_iff.mp h
  intro f hf
  refine ⟨hadmitted f hf, ?_⟩
  rw [hfs] at hf
  obtain ⟨e, he, rfl⟩ := List.mem_map.mp hf
  exact ⟨ScriptFunction.fitsTable_planMethod settings he, rfl⟩

/-- Methods that are built from an interior have different names. -/
theorem nodup_of_buildMethods {settings : Settings} {interior : List Char}
    {fs : Table String ScriptFunction}
    (h : buildMethods settings (methodTable interior) = .ok fs) :
    (fs.map fun f => f.2.name).Nodup := by
  have hkeys := Table.nodup_keys_ofEntries ((Script.entries interior).map fun f => (f.name, f))
  rw [(buildMethods_eq_ok_iff.mp h).1, List.map_map]
  exact hkeys

/-- The sources of built methods, listed in order, are a table of the same names,
whose methods are built again with the same parameters and the same sources. -/
theorem buildMethods_of_toSource {settings : Settings} {interior text : List Char}
    {fs : Table String ScriptFunction}
    (hbuilt : buildMethods settings (methodTable interior) = .ok fs)
    (htext : Lists (fs.map fun f => f.2.toSource.toList) text) :
    (methodTable text).keys = fs.map (fun f => f.2.name) ∧
      ∃ gs, buildMethods settings (methodTable text) = .ok gs ∧
        gs.map (fun g => g.2.name) = fs.map (fun f => f.2.name) ∧
        gs.map (fun g => g.2.parameters) = fs.map (fun f => f.2.parameters) ∧
        gs.map (fun g => g.2.toSource) = fs.map (fun f => f.2.toSource) := by
  have hmem := fitsTable_of_buildMethods hbuilt
  have hentries : entryParts text = fs.map fun f => f.2.reread.entry :=
    htext.entryParts_eq fun f hf rest =>
      (hmem f hf).2.1.entryParts_toSource (hmem f hf).1.name_ne_nil rest
  have hread : methodTable text =
      (fs.map fun f => f.2.reread).map fun g => (g.name, g.entry.fragment) := by
    refine methodTable_of_entry ?_ ?_
    · rw [hentries, List.map_map]
      rfl
    · simpa [List.map_map, Function.comp_def] using nodup_of_buildMethods hbuilt
  have hplan : (methodTable text).map (planMethod settings) =
      (fs.map fun f => f.2.reread).map fun g => (g.name, g) := by
    rw [hread]
    refine map_planMethod_entry ?_ ?_
    · rw [List.forall_mem_map]
      exact fun f hf => (hmem f hf).2.1.reread
    · rw [List.forall_mem_map]
      intro f hf
      rw [ScriptFunction.trust_reread]
      exact (hmem f hf).2.2
  constructor
  · rw [hread, Table.keys]
    simp [List.map_map, Function.comp_def]
  · refine ⟨_, buildMethods_eq_ok_iff.mpr ⟨rfl, ?_⟩, ?_⟩
    · rw [hplan, List.map_map, List.forall_mem_map]
      exact fun f hf => (hmem f hf).1.reread
    · have hsource : ∀ f ∈ fs, f.2.reread.toSource = f.2.toSource := fun f hf =>
        ScriptFunction.toSource_reread (hmem f hf).2.1.kind
      rw [hplan]
      simpa [List.map_map, Function.comp_def] using hsource

/-- Two methods are rendered, joined, and built again. -/
theorem buildMethods_of_toSource_two :
    ∃ fs gs, buildMethods {} (methodTable "go(a, b = 1) \x7b a++ \x7d stop() \x7b\x7d".toList) =
        .ok fs ∧
      fs.keys = ["go", "stop"] ∧
      buildMethods {} (methodTable
        (", ".toList.intercalate (fs.map fun f => f.2.toSource.toList))) = .ok gs ∧
      gs.map (fun g => g.2.toSource) = fs.map (fun f => f.2.toSource) := by
  have hbuilt : buildMethods {}
      (methodTable "go(a, b = 1) \x7b a++ \x7d stop() \x7b\x7d".toList) =
        .ok [("go", ⟨"go", .method, ["a", "b = 1"], " a++ ", .untrusted⟩),
          ("stop", ⟨"stop", .method, [], "", .untrusted⟩)] := by
    have htable : methodTable "go(a, b = 1) \x7b a++ \x7d stop() \x7b\x7d".toList =
        [("go", ⟨"go", "a, b = 1", " a++ ", "go(a, b = 1) \x7b a++ \x7d"⟩),
          ("stop", ⟨"stop", "", "", "stop() \x7b\x7d"⟩)] := by
      decide +kernel
    rw [htable]
    rfl
  obtain ⟨_, gs, hgs, _, _, hsource⟩ :=
    buildMethods_of_toSource hbuilt (Script.lists_intercalate _)
  exact ⟨_, gs, hbuilt, rfl, hgs, hsource⟩

end SingleFile
