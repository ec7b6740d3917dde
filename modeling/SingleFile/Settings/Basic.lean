import SingleFile.Component.Function

/-!
# Settings

What an embedding editor may choose: the marker of directives, the directives
that need no value, the names that `setup` is given, the trust of scripts, and
whether an unrecognised script is reported.

Main results:

- `dedup_nodup`: collapsing repeated names leaves no repetition.
-/

namespace SingleFile

/-- The choices of an embedding editor. -/
structure Settings where
  directivePrefix : String := "v-"
  valuelessDirectives : List String := ["v-else", "v-cloak", "v-pre", "v-once", "v-slot"]
  setupBindings : List String := ["ref", "computed", "watch", "onMounted"]
  trustLevel : TrustLevel := .untrusted
  warnOnUnrecognizedScript : Bool := true
deriving DecidableEq, Repr

namespace Settings

/-- Each name at its first place only. -/
def dedup (names : List String) : List String :=
  names.foldl (fun kept n => if kept.contains n then kept else kept ++ [n]) []

/-- Why a choice is refused. -/
inductive Fault where
  /-- The directive prefix is empty or holds a blank. -/
  | badPrefix
  /-- Some setup bindings are no identifiers. -/
  | badBindings (names : List String)
deriving DecidableEq, Repr

/-- The words for a fault. -/
def Fault.message : Fault → String
  | badPrefix => "directive_prefix must be a non-empty token without whitespace"
  | badBindings names => "Invalid setup binding names: " ++ ", ".intercalate names

/-- A directive prefix, when it may be one. -/
def checkPrefix (s : String) : Except Fault String :=
  if s = "" ∨ s.toList.any Text.isBlank then .error .badPrefix else .ok s

/-- Setup bindings without repetitions, when all of them are identifiers. -/
def checkBindings (names : List String) : Except Fault (List String) :=
  match names.filter fun n => !Script.isIdentifier n with
  | [] => .ok (dedup names)
  | bad => .error (.badBindings bad)

/-- Collapsing repeated names leaves no repetition. -/
theorem dedup_nodup (names : List String) : (dedup names).Nodup := by
  suffices h : ∀ kept : List String, kept.Nodup →
      (names.foldl (fun kept n => if kept.contains n then kept else kept ++ [n]) kept).Nodup from
    h [] List.nodup_nil
  induction names with
  | nil => exact fun _ h => h
  | cons n names ih =>
      intro kept h
      apply ih
      show (if kept.contains n then kept else kept ++ [n]).Nodup
      split
      · exact h
      · rename_i hn
        rw [List.nodup_append]
        refine ⟨h, by simp, ?_⟩
        intro a ha b hb
        simp only [List.mem_singleton] at hb
        subst hb
        simp only [List.contains_eq_mem, decide_eq_true_eq] at hn
        exact fun e => hn (e ▸ ha)

end Settings

end SingleFile
