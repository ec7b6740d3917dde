import SingleFile.Table
import SingleFile.Text.Blank

/-!
# Paths and files

A path is a row of names with slashes between them.  Empty names and single dots
lead nowhere and are left out where a path is shown.  Files are found by a path
from the working directory.
-/

namespace SingleFile.Files

/-! ## Paths -/

/-- The name leads nowhere. -/
def isIdle (name : String) : Bool :=
  name == "" || name == "."

/-- All names of a path. -/
def allNames (path : String) : List String :=
  (Text.pieces '/' path.toList).map String.ofList

/-- The names of a path that lead somewhere. -/
def names (path : String) : List String :=
  (allNames path).filter fun n => !isIdle n

/-- The path of names. -/
def ofNames (names : List String) : String :=
  "/".intercalate names

/-- The path starts at the root. -/
def isRooted (path : String) : Bool :=
  path.startsWith "/"

/-- The path as messages show it. -/
def shown (path : String) : String :=
  let names := ofNames (names path)
  if isRooted path then "/" ++ names else if names = "" then "." else names

/-! ## Files -/

/-- What is found at a path. -/
inductive Entry where
  | directory
  | file (content : List UInt8)
deriving DecidableEq, Repr

/-- What paths lead to. -/
abbrev Lookup := String → Option Entry

/-- The content of a file. -/
def content? (files : Lookup) (path : String) : Option (List UInt8) :=
  match files path with
  | some (.file content) => some content
  | _ => none

/-- What names lead to from a directory, by a table of the paths below it. -/
def walk (t : Table String Entry) (here : List String) : List String → Option Entry
  | [] => some .directory
  | n :: ns =>
      if isIdle n then walk t here ns
      else if n = ".." then if here = [] then none else walk t here.dropLast ns
      else
        match t.get? (ofNames (here ++ [n])) with
        | none => none
        | some .directory => walk t (here ++ [n]) ns
        | some (.file content) => if ns = [] then some (.file content) else none

/-- What a path leads to from the working directory. -/
def find? (t : Table String Entry) (path : String) : Option Entry :=
  if path = "" ∨ isRooted path then none else walk t [] (allNames path)

end SingleFile.Files
