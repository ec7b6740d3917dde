import SingleFile.Decimal.Binary
import SingleFile.Table
import SingleFile.Value.Basic
import SingleFile.Value.Issue

/-!
# Reading records from values

A reading takes a value to something of a domain type, or to all of its issues.
Readings are combined so that the issues of every part are kept, in the order
of the parts.

Main results:

- `both_eq_ok_iff`: two parts are read exactly when each of them is.
- `readList_ofTexts`: a list of texts is read back from its value.
-/

namespace SingleFile

/-- What is read, or its issues. -/
abbrev Reading (α : Type) := Except (List Issue) α

namespace Reading

variable {α β γ : Type}

/-- A reading with one issue at the value itself. -/
def fail (cause : IssueCause) : Reading α :=
  .error [{ cause }]

/-- The reading of a part one step into the value. -/
def within (step : PathStep) : Reading α → Reading α
  | .ok a => .ok a
  | .error issues => .error (issues.map (Issue.within step))

/-- Two parts together; both are read even when one has issues. -/
def both : Reading α → Reading β → Reading (α × β)
  | .ok a, .ok b => .ok (a, b)
  | .ok _, .error e => .error e
  | .error e, .ok _ => .error e
  | .error e, .error e' => .error (e ++ e')

/-- What is read is passed on to a later rule. -/
def andThen : Reading α → (α → Reading β) → Reading β
  | .ok a, f => f a
  | .error e, _ => .error e

/-- What is read under a map. -/
def mapRead (f : α → β) : Reading α → Reading β
  | .ok a => .ok (f a)
  | .error e => .error e

/-- Parts of one kind together. -/
def all : List (Reading α) → Reading (List α)
  | [] => .ok []
  | r :: rs => (r.both (all rs)).mapRead fun (a, as) => a :: as

/-- Two parts are read exactly when each of them is. -/
theorem both_eq_ok_iff (r : Reading α) (s : Reading β) (a : α) (b : β) :
    r.both s = .ok (a, b) ↔ r = .ok a ∧ s = .ok b := by
  cases r <;> cases s <;> simp [both]

/-- A part is read exactly when it is read on its own. -/
@[simp]
theorem within_eq_ok_iff (step : PathStep) (r : Reading α) (a : α) :
    r.within step = .ok a ↔ r = .ok a := by
  cases r <;> simp [within]

/-- Something is read under a later rule exactly when the rule takes what is read
before it. -/
theorem andThen_eq_ok_iff (r : Reading α) (f : α → Reading β) (b : β) :
    r.andThen f = .ok b ↔ ∃ a, r = .ok a ∧ f a = .ok b := by
  cases r <;> simp [andThen]

/-- What is read under a map is the image of what is read. -/
theorem mapRead_eq_ok_iff (f : α → β) (r : Reading α) (b : β) :
    r.mapRead f = .ok b ↔ ∃ a, r = .ok a ∧ f a = b := by
  cases r <;> simp [mapRead]

/-- Parts that are all read are read together. -/
theorem all_map_ok (as : List α) : all (as.map Except.ok) = .ok as := by
  induction as with
  | nil => rfl
  | cons a as ih => simp [all, ih, both, mapRead]

end Reading

namespace Value

variable {α : Type}

/-- The value as a text. -/
def readText : Value → Reading String
  | text s => .ok s
  | _ => Reading.fail .notText

/-- The items of a list, each read in its place. -/
def readItems (readItem : Value → Reading α) (items : List Value) : Reading (List α) :=
  Reading.all (items.mapIdx fun i v => (readItem v).within (.item i))

/-- The value as a list. -/
def readList (readItem : Value → Reading α) : Value → Reading (List α)
  | list items => readItems readItem items
  | _ => Reading.fail .notList

/-- The value as a tuple of any length. -/
def readTuple (readItem : Value → Reading α) : Value → Reading (List α)
  | list items => readItems readItem items
  | _ => Reading.fail .notTuple

/-- The value as a dictionary, each entry read under its key. -/
def readDictionary (readEntry : Value → Reading α) : Value → Reading (Table String α)
  | object fields =>
      Reading.all (fields.map fun (k, v) =>
        ((readEntry v).within (.field k)).mapRead fun a => (k, a))
  | _ => Reading.fail .notDictionary

/-- The value, or null. -/
def readOptional (read : Value → Reading α) : Value → Reading (Option α)
  | null => .ok none
  | v => (read v).mapRead some

/-- The value as one of the words that name the members of a type. -/
def readWord (ofName? : String → Option α) (words : List String) : Value → Reading α
  | text s =>
      match ofName? s with
      | some a => .ok a
      | none => Reading.fail (.notOneOf words)
  | _ => Reading.fail (.notOneOf words)

/-- The words that stand for false. -/
def falseWords : List String :=
  ["0", "off", "f", "false", "n", "no"]

/-- The words that stand for true. -/
def trueWords : List String :=
  ["1", "on", "t", "true", "y", "yes"]

/-- A whole number as a boolean; one that takes more than 64 bits is of no kind
that reads as a boolean. -/
def readWholeBoolean (n : Int) : Reading Bool :=
  if n = 0 then .ok false
  else if n = 1 then .ok true
  else if -Int.pow 2 63 ≤ n ∧ n < Int.pow 2 63 then Reading.fail .unreadableBoolean
  else Reading.fail .notBoolean

/-- The value as a boolean: a boolean, zero or one, or one of the words in
capital or small letters. -/
def readBoolean : Value → Reading Bool
  | bool b => .ok b
  | int n => readWholeBoolean n
  | float x =>
      match Decimal.wholeNumber? x with
      | some n => if n = -Int.pow 2 63 then Reading.fail .notBoolean else readWholeBoolean n
      | none => Reading.fail .notBoolean
  | text s =>
      if falseWords.contains s.toLower then .ok false
      else if trueWords.contains s.toLower then .ok true
      else Reading.fail .unreadableBoolean
  | _ => Reading.fail .notBoolean

/-- The fields of a record of the named kind. -/
def readRecord (name : String) : Value → Reading (Table String Value)
  | object fields => .ok fields
  | _ => Reading.fail (.notRecord name)

/-- A field that has to be present. -/
def required (fields : Table String Value) (name : String) (read : Value → Reading α) :
    Reading α :=
  match fields.get? name with
  | some v => (read v).within (.field name)
  | none => (Reading.fail .missing).within (.field name)

/-- A field with a value of its own when it is absent. -/
def defaulted (fields : Table String Value) (name : String) (absent : α)
    (read : Value → Reading α) : Reading α :=
  match fields.get? name with
  | some v => (read v).within (.field name)
  | none => .ok absent

/-- A list of texts is read back from its value. -/
theorem readList_ofTexts (ss : List String) : readList readText (ofTexts ss) = .ok ss := by
  have hitems : (ss.map text).mapIdx (fun i v => (readText v).within (.item i)) =
      ss.map Except.ok := by
    apply List.ext_getElem (by simp)
    intro i _ _
    simp [readText, Reading.within]
  simp only [ofTexts, readList, readItems, hitems, Reading.all_map_ok]

end Value

end SingleFile
