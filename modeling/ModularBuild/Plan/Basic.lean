import ModularBuild.Module.Contribution
import ModularBuild.Module.Path

/-!
# The plan of a project

The declarations of every module, merged: each name is qualified by its module, and every collection
is sorted, so a plan does not remember the order in which its modules were declared.
-/

namespace ModularBuild

/-- A library of one module: an archive, and a shared object if `shared`. -/
structure Library where
  module : ModulePath
  name : String
  shared : Bool
deriving DecidableEq, Repr, Inhabited

structure Plan where
  project : String
  modules : SortedSet ModulePath := ∅
  headers : SortedSet QualifiedName := ∅
  /-- Compiled units, each with whether it has a header. -/
  units : SortedMap QualifiedName Bool := ∅
  fortranUnits : SortedSet QualifiedName := ∅
  programs : SortedSet QualifiedName := ∅
  testPrograms : SortedSet QualifiedName := ∅
  fortranPrograms : SortedSet QualifiedName := ∅
  generated : SortedMap QualifiedName (Option GeneratedRule) := ∅
  libraries : SortedMap ModulePath Library := ∅
deriving DecidableEq, Inhabited

namespace Plan

def qualify {ν : Type} (module : ModulePath) (m : SortedMap String ν) :
    List (QualifiedName × ν) :=
  m.entries.map fun (name, v) => (⟨module, name⟩, v)

/-- Adds what a module has declared, library requests apart. -/
def merge (plan : Plan) (module : ModulePath) (c : Contribution) : Plan :=
  { plan with
    modules := plan.modules.insert module ()
    headers := plan.headers.insertAll (qualify module c.headers)
    units := plan.units.insertAll (qualify module c.units)
    fortranUnits := plan.fortranUnits.insertAll (qualify module c.fortranUnits)
    programs := plan.programs.insertAll (qualify module c.programs)
    testPrograms := plan.testPrograms.insertAll (qualify module c.testPrograms)
    fortranPrograms := plan.fortranPrograms.insertAll (qualify module c.fortranPrograms)
    generated := plan.generated.insertAll (qualify module c.generated) }

def addLibrary (plan : Plan) (library : Library) : Plan :=
  { plan with libraries := plan.libraries.insert library.module library }

/-- The compiled units a module owns, in name order. -/
def unitsOf (plan : Plan) (module : ModulePath) : List QualifiedName :=
  plan.units.keys.filter (·.module = module)

/-- The Fortran units a module owns, in name order. -/
def fortranUnitsOf (plan : Plan) (module : ModulePath) : List QualifiedName :=
  plan.fortranUnits.keys.filter (·.module = module)

/-- What a library is made of: its module's compiled units, then its Fortran units. -/
def libraryUnits (plan : Plan) (library : Library) : List QualifiedName :=
  plan.unitsOf library.module ++ plan.fortranUnitsOf library.module

/-- The programs that are not tests, C-family programs first. -/
def installedPrograms (plan : Plan) : List QualifiedName :=
  plan.programs.keys ++ plan.fortranPrograms.keys

/-! ## Written form -/

def libraryToJson (l : Library) : Json :=
  .obj [("module", .str l.module.text), ("name", .str l.name), ("shared", .bool l.shared)]

def namesToJson (names : SortedSet QualifiedName) : Json :=
  .strings (names.keys.map (·.toString))

def toJson (plan : Plan) : Json :=
  .obj [
    ("project", .str plan.project),
    ("modules", .strings (plan.modules.keys.map (·.text))),
    ("headers", namesToJson plan.headers),
    ("units", .obj (plan.units.entries.map fun (q, header) => (q.toString, .bool header))),
    ("fortran_units", namesToJson plan.fortranUnits),
    ("programs", namesToJson plan.programs),
    ("test_programs", namesToJson plan.testPrograms),
    ("fortran_programs", namesToJson plan.fortranPrograms),
    ("generated", .obj (plan.generated.entries.map fun (q, rule) => (q.toString, ruleToJson rule))),
    ("libraries", .obj (plan.libraries.entries.map fun (m, l) => (m.text, libraryToJson l)))]

end Plan

end ModularBuild
