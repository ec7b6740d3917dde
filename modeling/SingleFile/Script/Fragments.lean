import SingleFile.Initializer
import SingleFile.Script.Phrase
import SingleFile.Table
import SingleFile.Text.Word

/-!
# Script fragments

Three shapes are recognised in a script, by text alone: the body of the first
`setup()` function, the object that the first `data()` function returns, and
the entries of the first `methods` table.  A body ends at the first closing
brace, so a nested block cuts it short; only the interior of the method table
is read by brace depth.  When `setup` is recognised, `data` is not looked for.

Main results:

- `eq_append_of_entryAt?`: the parts of an entry make up the text that it was read from.
-/

namespace SingleFile.Script

open SingleFile.Text (isBlank isWord dropBlank cutAt)

/-! ## Fragments -/

/-- One entry of a method table as it was written. -/
structure MethodFragment where
  name : String
  parameters : String
  body : String
  source : String
deriving DecidableEq, Repr

/-- The pieces of a script that a component is made from. -/
structure Fragments where
  initializer : Option (Initializer String) := none
  methods : Option (Table String MethodFragment) := none
deriving DecidableEq, Repr

/-- The body of a recognised `setup` function. -/
def Fragments.setupBody (f : Fragments) : Option String :=
  Initializer.setup? f.initializer

/-- The interior of the object that a recognised `data` function returns. -/
def Fragments.dataBody (f : Fragments) : Option String :=
  Initializer.data? f.initializer

/-- The entries of the method table; none when there is no table. -/
def Fragments.entries (f : Fragments) : Table String MethodFragment :=
  f.methods.getD []

/-- Nothing was recognised, or an empty method table alone. -/
def Fragments.isEmpty (f : Fragments) : Bool :=
  f.initializer.isNone && f.entries.isEmpty

/-! ## Initializers -/

/-- What a `setup` function begins with. -/
def setupHeader : Phrase :=
  ["setup".toList, "(".toList, ")".toList, "\x7b".toList]

/-- What a `data` function begins with. -/
def dataHeader : Phrase :=
  ["data".toList, "(".toList, ")".toList, "\x7b".toList]

/-- What an object that is returned begins with. -/
def returnHeader : Phrase :=
  ["return".toList, "\x7b".toList]

/-- What ends the returned object and the function around it. -/
def returnCloser : Phrase :=
  ["\x7d".toList, "\x7d".toList]

/-- The text between the first `setup` header and the next closing brace. -/
def setupBody? (script : List Char) : Option (List Char) := do
  let (_, rest) ← setupHeader.cut script
  let (body, _) ← cutAt '}' rest
  return body

/-- The text between the first returned object's opening brace after the first
`data` header and the next pair of closing braces. -/
def dataBody? (script : List Char) : Option (List Char) := do
  let (_, rest) ← dataHeader.cut script
  let (_, object) ← returnHeader.cut rest
  let (body, _) ← returnCloser.cut object
  return body

/-! ## The method table -/

/-- What a method table begins with. -/
def methodsHeader : Phrase :=
  ["methods".toList, ":".toList, "\x7b".toList]

/-- The text up to the closing brace that matches an opening brace before the
text, given how many braces inside it are open. -/
def balanced (depth : Nat) : List Char → Option (List Char)
  | [] => none
  | c :: s =>
      if c = '{' then (balanced (depth + 1) s).map (c :: ·)
      else if c = '}' then
        match depth with
        | 0 => some []
        | depth + 1 => (balanced depth s).map (c :: ·)
      else (balanced depth s).map (c :: ·)

/-- The interior of the first method table. -/
def methodsInterior? (script : List Char) : Option (List Char) := do
  let (_, rest) ← methodsHeader.cut script
  balanced 0 rest

/-- The parts of an entry, from its name to its closing brace. -/
structure EntryParts where
  name : List Char
  nameGap : List Char
  parameters : List Char
  headGap : List Char
  body : List Char

/-- The text that the parts were read from. -/
def EntryParts.source (e : EntryParts) : List Char :=
  e.name ++ (e.nameGap ++ ('(' :: (e.parameters ++ (')' ::
    (e.headGap ++ ('{' :: (e.body ++ ['}'])))))))

/-- The fragment that the parts make. -/
def EntryParts.fragment (e : EntryParts) : MethodFragment where
  name := String.ofList e.name
  parameters := String.ofList e.parameters
  body := String.ofList e.body
  source := String.ofList e.source

/-- The blanks that a text begins with, and the text after the given character
that follows them. -/
def afterBlanks? (c : Char) (s : List Char) : Option (List Char × List Char) :=
  match dropBlank s with
  | d :: rest => if d = c then some (s.takeWhile isBlank, rest) else none
  | [] => none

/-- The entry that a text begins with: a word, parameters between parentheses,
and a body between braces. -/
def entryAt? (s : List Char) : Option (EntryParts × List Char) := do
  let (nameGap, s₁) ← afterBlanks? '(' (s.dropWhile isWord)
  let (parameters, s₂) ← cutAt ')' s₁
  let (headGap, s₃) ← afterBlanks? '{' s₂
  let (body, rest) ← cutAt '}' s₃
  return (⟨s.takeWhile isWord, nameGap, parameters, headGap, body⟩, rest)

theorem eq_append_of_afterBlanks? {c : Char} {s gap rest : List Char}
    (h : afterBlanks? c s = some (gap, rest)) : s = gap ++ c :: rest := by
  simp only [afterBlanks?] at h
  split at h
  · rename_i d r hd
    split at h
    · rename_i hc
      simp only [Option.some.injEq, Prod.mk.injEq] at h
      obtain ⟨rfl, rfl⟩ := h
      subst hc
      rw [← hd]
      exact (List.takeWhile_append_dropWhile).symm
    · simp at h
  · simp at h

/-- An entry's parts make up the text that it was read from. -/
theorem eq_append_of_entryAt? {s rest : List Char} {e : EntryParts}
    (h : entryAt? s = some (e, rest)) : s = e.source ++ rest := by
  simp only [entryAt?, Option.bind_eq_bind, Option.bind_eq_some_iff] at h
  obtain ⟨⟨g₁, s₁⟩, h₁, ⟨ps, s₂⟩, h₂, ⟨g₂, s₃⟩, h₃, ⟨b, r⟩, h₄, h₅⟩ := h
  simp only [Option.some.injEq, Prod.mk.injEq, pure] at h₅
  obtain ⟨rfl, rfl⟩ := h₅
  have e₁ := eq_append_of_afterBlanks? h₁
  have e₂ : s₁ = ps ++ ')' :: s₂ := (Text.cutAt_eq_some_iff.mp h₂).1
  have e₃ : s₂ = g₂ ++ '{' :: s₃ := eq_append_of_afterBlanks? h₃
  have e₄ : s₃ = b ++ '}' :: r := (Text.cutAt_eq_some_iff.mp h₄).1
  conv => lhs; rw [← List.takeWhile_append_dropWhile (p := isWord) (l := s), e₁, e₂, e₃, e₄]
  simp [EntryParts.source]

theorem length_lt_of_entryAt? {s rest : List Char} {e : EntryParts}
    (h : entryAt? s = some (e, rest)) : rest.length < s.length := by
  have hs := congrArg List.length (eq_append_of_entryAt? h)
  simp only [EntryParts.source, List.length_append, List.length_cons] at hs
  omega

/-- The entries of a method table's interior, from left to right.  A word that
begins no entry is passed over whole. -/
def entryParts (interior : List Char) : List EntryParts :=
  match interior with
  | [] => []
  | c :: s =>
      if isWord c then
        match _h : entryAt? (c :: s) with
        | some (e, rest) => e :: entryParts rest
        | none => entryParts (s.dropWhile isWord)
      else entryParts s
termination_by interior.length
decreasing_by
  · exact length_lt_of_entryAt? _h
  · exact Nat.lt_succ_of_le (List.dropWhile_sublist isWord).length_le
  · simp

/-- The entries of an interior as fragments. -/
def entries (interior : List Char) : List MethodFragment :=
  (entryParts interior).map EntryParts.fragment

/-- The method table of an interior: the last entry of a name counts, at the
place of the first. -/
def methodTable (interior : List Char) : Table String MethodFragment :=
  Table.ofEntries ((entries interior).map fun f => (f.name, f))

/-! ## Recognition -/

/-- The initializer of a script. -/
def initializer? (script : List Char) : Option (Initializer String) :=
  match setupBody? script with
  | some body => some (.setup (String.ofList body))
  | none => (dataBody? script).map fun body => .data (String.ofList body)

/-- The methods of a script; a table without entries counts as none. -/
def methods? (script : List Char) : Option (Table String MethodFragment) :=
  match methodsInterior? script with
  | none => none
  | some interior =>
      match methodTable interior with
      | [] => none
      | table => some table

/-- Everything that is recognised in a script. -/
def Fragments.ofScript (script : List Char) : Fragments where
  initializer := initializer? script
  methods := methods? script

end SingleFile.Script
