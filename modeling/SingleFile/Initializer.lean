/-!
# Initializers

A component starts its state in one of two ways: by a `setup` function, or by
a `data` function.  It never has both.
-/

namespace SingleFile

/-- What a component is initialised by, whatever stands for the function. -/
inductive Initializer (α : Type) where
  | setup (function : α)
  | data (function : α)
deriving DecidableEq, Repr

namespace Initializer

variable {α β : Type}

/-- The function, in either role. -/
def function : Initializer α → α
  | setup f => f
  | data f => f

/-- The function in the role of `setup`. -/
def setup? : Option (Initializer α) → Option α
  | some (setup f) => some f
  | _ => none

/-- The function in the role of `data`. -/
def data? : Option (Initializer α) → Option α
  | some (data f) => some f
  | _ => none

/-- The initializer that two optional functions make; `none` when both are
given. -/
def ofRoles? : Option α → Option α → Option (Option (Initializer α))
  | none, none => some none
  | some f, none => some (some (setup f))
  | none, some f => some (some (data f))
  | some _, some _ => none

/-- Two roles make an initializer unless both are filled. -/
theorem ofRoles?_eq_none_iff (s d : Option α) :
    ofRoles? s d = none ↔ s.isSome = true ∧ d.isSome = true := by
  cases s <;> cases d <;> simp [ofRoles?]

/-- The roles of an initializer make it again. -/
@[simp]
theorem ofRoles?_roles (i : Option (Initializer α)) : ofRoles? (setup? i) (data? i) = some i := by
  rcases i with _ | (f | f) <;> rfl

end Initializer

end SingleFile
