import SingleFile.Proofs.Script.Entries
import SingleFile.Proofs.Script.Recognition

/-!
# Captured bodies

A body is captured up to the first closing brace, wherever that brace stands,
while the interior of a method table is found by the depth of its braces.  This
file follows a text through both: what is left of it as the body of `setup` or
of the only method written, and which entry counts when the text that was cut
off is read as entries once more.

Main results:

- Theorem `setupBody?_of_opening`: the body that is captured for `setup`.
- Theorem `balanced_append`: text without a closing brace opens its braces for
  the text after it.
- Theorem `get?_methodTable_of_opening`: the method `go` of a table that begins with
  it is the last entry of that name.
-/

namespace SingleFile

namespace Script

open SingleFile.Text (cutAt)

/-! ## The body of setup -/

/-- The body that is captured for `setup` ends before the first closing brace. -/
theorem setupBody?_of_opening (s : List Char) :
    setupBody? ("setup() \x7b".toList ++ s) = (cutAt '}' s).map Prod.fst := by
  have hcut : setupHeader.cut ("setup() \x7b".toList ++ s) = some ([], s) :=
    Phrase.cut_of_after? rfl
  simp only [setupBody?, hcut, Option.bind_eq_bind, Option.bind_some]
  cases cutAt '}' s <;> rfl

/-- Behind its header, the body of `setup` is what stands before the first closing brace.
-/
theorem setupBody_of_opening (s : List Char) :
    (Fragments.ofScript ("setup() \x7b".toList ++ s)).setupBody =
      (cutAt '}' s).map fun cut => String.ofList cut.1 := by
  rw [Fragments.setupBody_ofScript, setupBody?_of_opening, Option.map_map]
  rfl

/-! ## The depth of braces -/

/-- Text without a closing brace opens its braces for the text after it. -/
theorem balanced_append {p : List Char} (hp : '}' ∉ p) (s : List Char) (depth : Nat) :
    balanced depth (p ++ s) = (balanced (depth + p.count '{') s).map (p ++ ·) := by
  induction p generalizing depth with
  | nil => simp
  | cons c p ih =>
      simp only [List.mem_cons, not_or] at hp
      obtain ⟨hc, hp⟩ := hp
      by_cases hopen : c = '{'
      · have hdepth : depth + 1 + p.count '{' = depth + (p.count '{' + 1) := by omega
        simp only [List.cons_append, balanced, hopen, if_true, ih hp, List.count_cons_self, hdepth]
        cases balanced (depth + (p.count '{' + 1)) s <;> rfl
      · have hcount : (c :: p).count '{' = p.count '{' := List.count_cons_of_ne hopen
        simp only [List.cons_append, balanced, hopen, Ne.symm hc, if_false, ih hp, hcount]
        cases balanced (depth + p.count '{') s <;> rfl

/-- A closing brace closes the innermost open one. -/
theorem balanced_closer (depth : Nat) (s : List Char) :
    balanced (depth + 1) ('}' :: s) = (balanced depth s).map ('}' :: ·) := by
  have hne : '}' ≠ '{' := by decide
  simp [balanced, hne]

/-! ## A table that begins with the method go -/

/-- The interior of the table is the captured body with its brace, and the text
up to the brace that matches the table's own. -/
theorem methodsInterior?_of_opening {p : List Char} (hp : '}' ∉ p) (s : List Char) :
    methodsInterior? ("methods: \x7b go() \x7b".toList ++ (p ++ '}' :: s)) =
      (balanced (p.count '{') s).map fun tail => " go() \x7b".toList ++ (p ++ '}' :: tail) := by
  have hcut : methodsHeader.cut ("methods: \x7b go() \x7b".toList ++ (p ++ '}' :: s)) =
      some ([], " go() \x7b".toList ++ (p ++ '}' :: s)) := Phrase.cut_of_after? rfl
  have hgo : '}' ∉ " go() \x7b".toList := by decide
  have hdepth : 0 + " go() \x7b".toList.count '{' + p.count '{' = p.count '{' + 1 := by
    have hcount : " go() \x7b".toList.count '{' = 1 := by decide
    omega
  simp only [methodsInterior?, hcut, Option.bind_eq_bind, Option.bind_some]
  rw [balanced_append hgo, balanced_append hp, hdepth, balanced_closer]
  cases balanced (p.count '{') s <;> rfl

/-- The entry that the captured body makes. -/
def goParts (p : List Char) : EntryParts where
  name := "go".toList
  nameGap := []
  parameters := []
  headGap := " ".toList
  body := p

/-- The captured body is the first entry of the interior. -/
theorem entryParts_of_opening {p : List Char} (hp : '}' ∉ p) (tail : List Char) :
    entryParts (" go() \x7b".toList ++ (p ++ '}' :: tail)) = goParts p :: entryParts tail := by
  have hname : "go".toList.all Text.isWord = true := by decide
  have hproper : (goParts p).Proper := {
    name := List.all_eq_true.mp hname
    nameGap := rfl
    parameters := List.not_mem_nil
    headGap := rfl
    body := hp }
  have hsource : " go() \x7b".toList ++ (p ++ '}' :: tail) =
      ' ' :: ((goParts p).source ++ tail) := by
    simp [EntryParts.source, goParts]
  rw [hsource, entryParts_of_not_isWord (by decide)]
  exact entryParts_source_append hproper (List.cons_ne_nil 'g' ['o']) tail

/-- The method `go` of the table is the last entry of that name. -/
theorem get?_methodTable_of_opening {p : List Char} (hp : '}' ∉ p) (tail : List Char) :
    (methodTable (" go() \x7b".toList ++ (p ++ '}' :: tail))).get? "go" =
      ((methodTable tail).get? "go").or (some (goParts p).fragment) := by
  have hname : (goParts p).fragment.name = "go" := rfl
  unfold methodTable entries
  rw [entryParts_of_opening hp, List.map_cons, List.map_cons, Table.get?_ofEntries_cons, hname,
    if_pos rfl]

end Script

end SingleFile
