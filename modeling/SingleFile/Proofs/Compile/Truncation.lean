import SingleFile.Proofs.Compile.Gates
import SingleFile.Proofs.Script.Capture
import SingleFile.Proofs.Source.Cut

/-!
# Truncated bodies

A body that is written around an accepted text is captured up to the first
closing brace of that text.  Most captures that come out too short are rejected
when the function is built, because the text before the brace leaves something
open.  Two things get through: a closing brace in a line comment outside all
brackets, behind which the captured part is complete, and text after the brace
that is read as another entry of the same name.

Main results:

- Theorem `compile_truncation`: what a compiled body is in terms of the text that
  was written.
- Theorem `compile_truncates`: both ways in which a text is lost.
-/

namespace SingleFile

open Script (methodsInterior? methodTable)
open Script.Source (check checkChars EndsInLineComment)

/-! ## Scripts around a body -/

/-- The script of a `setup` function with the given body. -/
def setupScript (body : String) : String :=
  "setup() \x7b" ++ body ++ "\x7d"

/-- The script of a method `go` with the given body. -/
def goScript (body : String) : String :=
  "methods: \x7b go() \x7b" ++ body ++ "\x7d \x7d"

theorem toList_setupScript (body : String) :
    (setupScript body).toList = "setup() \x7b".toList ++ (body.toList ++ '}' :: []) := by
  unfold setupScript
  rw [String.toList_append, String.toList_append, List.append_assoc]
  simp

theorem toList_goScript (body : String) :
    (goScript body).toList =
      "methods: \x7b go() \x7b".toList ++ (body.toList ++ '}' :: " \x7d".toList) := by
  unfold goScript
  rw [String.toList_append, String.toList_append, List.append_assoc]
  simp

/-! ## What is captured -/

/-- The captured body is the text that was written, or the part of it before
its first closing brace, and then that brace is hidden in a line comment outside
all brackets, literals and block comments. -/
def CapturedFrom (text body : String) : Prop :=
  (body = text ∧ '}' ∉ text.toList) ∨
    ∃ rest, text.toList = body.toList ++ '}' :: rest ∧ '}' ∉ body.toList ∧
      EndsInLineComment body.toList

/-- A text in front of a closing brace is the part before the first closing
brace, or that part is shorter. -/
theorem first_closing_brace (b rest : List Char) :
    ∃ p s, b ++ '}' :: rest = p ++ '}' :: s ∧ '}' ∉ p ∧
      ((p = b ∧ s = rest) ∨ ∃ r, b = p ++ '}' :: r) := by
  cases hcut : Text.cutAt '}' b with
  | none =>
      rw [Text.cutAt_eq_none_iff] at hcut
      exact ⟨b, rest, rfl, hcut, .inl ⟨rfl, rfl⟩⟩
  | some cut =>
      obtain ⟨p, r⟩ := cut
      obtain ⟨rfl, hp⟩ := Text.cutAt_eq_some_iff.mp hcut
      exact ⟨p, r ++ '}' :: rest, by simp, hp, .inr ⟨r, rfl⟩⟩

/-- A capture that is accepted is the whole text, or it ends in a line comment. -/
theorem capturedFrom_of_check {text : String} {p : List Char} (htext : check text = .ok ())
    (hbody : check (String.ofList p) = .ok ()) (hp : '}' ∉ p)
    (h : p = text.toList ∨ ∃ r, text.toList = p ++ '}' :: r) :
    CapturedFrom text (String.ofList p) := by
  rcases h with rfl | ⟨r, hr⟩
  · exact .inl ⟨String.ofList_toList, hp⟩
  · have hwhole : checkChars (p ++ Script.Source.Bracket.curly.closer :: r) = .ok () := by
      rw [Script.Source.check, hr] at htext
      exact htext
    have hpart : checkChars p = .ok () := by
      rwa [Script.Source.check, String.toList_ofList] at hbody
    have hcomment := (Script.Source.checkChars_cut_iff hwhole).mp hpart
    refine .inr ⟨r, ?_, ?_, ?_⟩ <;> rwa [String.toList_ofList]

/-- Behind a text with a closing brace missing, the brace of the method ends the
table only when nothing is left open. -/
theorem eq_blank_of_balanced {depth : Nat} {tail : List Char}
    (h : Script.balanced depth " \x7d".toList = some tail) : tail = " ".toList := by
  cases depth with
  | zero =>
      have hend : Script.balanced 0 " \x7d".toList = some " ".toList := rfl
      rw [hend, Option.some.injEq] at h
      exact h.symm
  | succ depth =>
      have hopen : Script.balanced (depth + 1) " \x7d".toList = none := by
        cases depth <;> rfl
      rw [hopen] at h
      cases h

namespace Compiler

/-! ## Compiled bodies -/

/-- The `setup` function that is compiled from an accepted text. -/
theorem setup_of_setupScript {settings : Settings} {template text style : String}
    (htext : check text = .ok ()) {c : Component}
    (h : ((standard settings).compile (.text template) (.text (setupScript text))
      (.text style)).component? = some c) :
    ∃ f, c.setup = some f ∧ CapturedFrom text f.body := by
  obtain ⟨p, s, hs, hp, hcapture⟩ := first_closing_brace text.toList []
  have hcut : Text.cutAt '}' (p ++ '}' :: s) = some (p, s) :=
    Text.cutAt_eq_some_iff.mpr ⟨rfl, hp⟩
  have hbody : (Script.Fragments.ofScript (setupScript text).toList).setupBody =
      some (String.ofList p) := by
    rw [toList_setupScript, Script.setupBody_of_opening, hs, hcut]
    rfl
  have hc := ((component?_eq_some_iff settings template (setupScript text) style c).mp h).2.2
  have hsetup : c.setup = some ⟨"setup", .setup, settings.setupBindings, String.ofList p,
      settings.trustLevel⟩ := by
    rw [hc, plan_setup, hbody]
    rfl
  have hadmitted := admitted_of_component? h ((c.mem_functions_iff _).mpr (.inl hsetup))
  exact ⟨_, hsetup, capturedFrom_of_check htext hadmitted.1 hp (hcapture.imp_left And.left)⟩

/-- A method `go` that is compiled from an accepted text, unless a later entry
of that name replaces it. -/
theorem go_of_goScript {settings : Settings} {template text style : String}
    (htext : check text = .ok ()) {c : Component} {f : ScriptFunction}
    (h : ((standard settings).compile (.text template) (.text (goScript text))
      (.text style)).component? = some c) (hf : c.methodTable.get? "go" = some f) :
    CapturedFrom text f.body ∨
      ∃ p r tail m, text.toList = p ++ '}' :: r ∧ '}' ∉ p ∧
        methodsInterior? (goScript text).toList = some (" go() \x7b".toList ++ (p ++ '}' :: tail)) ∧
        (methodTable tail).get? "go" = some m ∧ f.body = m.body := by
  obtain ⟨p, s, hs, hp, hcapture⟩ := first_closing_brace text.toList " \x7d".toList
  have hinterior : methodsInterior? (goScript text).toList =
      (Script.balanced (p.count '{') s).map fun tail =>
        " go() \x7b".toList ++ (p ++ '}' :: tail) := by
    rw [toList_goScript, hs, Script.methodsInterior?_of_opening hp]
  have hc := ((component?_eq_some_iff settings template (goScript text) style c).mp h).2.2
  have hmem := (c.mem_functions_iff f).mpr (.inr (.inr ⟨"go", Table.mem_of_get? hf⟩))
  have hbody := (admitted_of_component? h hmem).1
  rw [hc, get?_methodTable_plan, Script.Fragments.entries_ofScript, hinterior,
    Option.map_eq_some_iff] at hf
  obtain ⟨m, hm, rfl⟩ := hf
  cases htail : Script.balanced (p.count '{') s with
  | none => simp [htail] at hm
  | some tail =>
      simp only [htail, Option.map_some, Option.getD_some,
        Script.get?_methodTable_of_opening hp] at hm
      cases hlater : (methodTable tail).get? "go" with
      | none =>
          rw [hlater, Option.none_or, Option.some.injEq] at hm
          subst hm
          have hcaptured : (planMethod settings ("go", (Script.goParts p).fragment)).2.body =
              String.ofList p := rfl
          rw [hcaptured] at hbody ⊢
          exact .inl (capturedFrom_of_check htext hbody hp (hcapture.imp_left And.left))
      | some later =>
          rw [hlater, Option.some_or, Option.some.injEq] at hm
          subst hm
          rw [htail] at hinterior
          rcases hcapture with ⟨rfl, rfl⟩ | ⟨r, hr⟩
          · have hblank := eq_blank_of_balanced htail
            have hnone : (methodTable tail).get? "go" = none := by
              rw [hblank, Script.methodTable_blank]
              rfl
            rw [hnone] at hlater
            cases hlater
          · exact .inr ⟨p, r, tail, later, hr, hp, hinterior, hlater, rfl⟩

/-- What is compiled from an accepted text: its `setup` function holds the text,
or the part of it that ends in a line comment; and so does its method `go`, if
there is one and no later entry of that name replaces it. -/
theorem compile_truncation (settings : Settings) (template text style : String)
    (htext : check text = .ok ()) :
    (∀ c, ((standard settings).compile (.text template) (.text (setupScript text))
        (.text style)).component? = some c →
      ∃ f, c.setup = some f ∧ CapturedFrom text f.body) ∧
    (∀ c f, ((standard settings).compile (.text template) (.text (goScript text))
        (.text style)).component? = some c → c.methodTable.get? "go" = some f →
      CapturedFrom text f.body ∨
        ∃ p r tail m, text.toList = p ++ '}' :: r ∧ '}' ∉ p ∧
          methodsInterior? (goScript text).toList =
            some (" go() \x7b".toList ++ (p ++ '}' :: tail)) ∧
          (methodTable tail).get? "go" = some m ∧ f.body = m.body) :=
  ⟨fun _ h => setup_of_setupScript htext h, fun _ _ h hf => go_of_goScript htext h hf⟩

/-- A text with a brace in a line comment is accepted and compiled. -/
theorem compile_truncation_comment :
    check "// \x7d\n" = .ok () ∧
      ∃ c f, ((standard {}).compile (.text "<p></p>") (.text (setupScript "// \x7d\n"))
        (.text "")).component? = some c ∧ c.setup = some f ∧
          CapturedFrom "// \x7d\n" f.body := by
  have htext : check "// \x7d\n" = .ok () := by decide +kernel
  have hmade : ((standard {}).compile (.text "<p></p>") (.text (setupScript "// \x7d\n"))
      (.text "")).isSuccess = true := by decide +kernel
  obtain ⟨c, hc⟩ := Option.isSome_iff_exists.mp hmade
  obtain ⟨f, hf, hcaptured⟩ := (compile_truncation {} "<p></p>" "// \x7d\n" "" htext).1 c hc
  exact ⟨htext, c, f, hc, hf, hcaptured⟩

/-- The body that is compiled for `setup` from a text. -/
def compiledSetup? (text : String) : Option String :=
  (((standard {}).compile (.text "<p></p>") (.text (setupScript text))
    (.text "")).component?.bind Component.setup).map ScriptFunction.body

/-- The body that is compiled for the method `go` from a text. -/
def compiledGo? (text : String) : Option String :=
  (((standard {}).compile (.text "<p></p>") (.text (goScript text))
    (.text "")).component?.bind fun c => c.methodTable.get? "go").map ScriptFunction.body

/-- Accepted texts of which a part is lost without an error: behind a line
comment, and by a later entry that is written inside a string. -/
theorem compile_truncates :
    check "// \x7d\n" = .ok () ∧ check "'\x7dgo()\x7b\x7d'" = .ok () ∧
      compiledSetup? "// \x7d\n" = some "// " ∧ compiledGo? "// \x7d\n" = some "// " ∧
      compiledGo? "'\x7dgo()\x7b\x7d'" = some "" := by
  decide +kernel

end Compiler

end SingleFile
