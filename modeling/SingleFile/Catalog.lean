import SingleFile.Text.Quoted

/-!
# The names of the packages

Two packages give out parts of the library by name: one the parts of the
compiler, the other the command line.  Beside these public names, the modules of
a package, the tables that it keeps and what every package has may be looked up.

Main results:

- `lookup_eq_ok_iff`: exactly the names of a package are found.
- `lookup_of_isPublic`: every public name is found.
-/

namespace SingleFile.Catalog

/-- The public names of a package. -/
def publicNames : String → List String
  | "sfcplay.compiler" =>
      ["ComponentCompiler", "ComponentHost", "DescriptorHost", "DescriptorSynthesizer",
        "ScriptExtractor", "TemplateValidator"]
  | "sfcplay.cli" => ["app"]
  | _ => []

/-- The modules of a package. -/
def moduleNames : String → List String
  | "sfcplay.compiler" =>
      ["component_compiler", "extractor", "host", "source_check", "synthesizer",
        "template_validator"]
  | "sfcplay.cli" => ["commands"]
  | _ => []

/-- The tables that a package keeps for its look-up. -/
def tableNames : String → List String
  | "sfcplay.compiler" => ["__all__", "__getattr__", "_EXPORTS"]
  | "sfcplay.cli" => ["__all__", "__getattr__"]
  | _ => []

/-- The names that every package has. -/
def commonNames : List String :=
  ["__annotations__", "__builtins__", "__cached__", "__class__", "__delattr__", "__dict__",
    "__dir__", "__doc__", "__eq__", "__file__", "__format__", "__ge__", "__getattribute__",
    "__getstate__", "__gt__", "__hash__", "__init__", "__init_subclass__", "__le__", "__loader__",
    "__lt__", "__name__", "__ne__", "__new__", "__package__", "__path__", "__reduce__",
    "__reduce_ex__", "__repr__", "__setattr__", "__sizeof__", "__spec__", "__str__",
    "__subclasshook__"]

/-- The names of a package. -/
def names (package : String) : List String :=
  publicNames package ++ moduleNames package ++ tableNames package ++ commonNames

/-- A name that a package does not have. -/
structure NotFound where
  package : String
  name : String
deriving DecidableEq, Repr

/-- The words for a name that is not found. -/
def NotFound.message (e : NotFound) : String :=
  "module " ++ Text.quoted e.package ++ " has no attribute " ++ Text.quoted e.name

/-- Looks a name up in a package. -/
def lookup (package name : String) : Except NotFound Unit :=
  if name ∈ names package then .ok () else .error ⟨package, name⟩

/-- Exactly the names of a package are found. -/
theorem lookup_eq_ok_iff (package name : String) :
    lookup package name = .ok () ↔ name ∈ names package := by
  unfold lookup
  split <;> simp_all

/-- Every public name is found. -/
theorem lookup_of_isPublic {package name : String} (h : name ∈ publicNames package) :
    lookup package name = .ok () := by
  rw [lookup_eq_ok_iff, names]
  simp [h]

end SingleFile.Catalog
