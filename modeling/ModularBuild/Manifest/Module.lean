import ModularBuild.Plan.Registry
import ModularBuild.Toml.Document
import ModularBuild.Toml.Value

/-!
# Module manifests

Each module's directory holds a `module.toml` with its declarations. A manifest is plain data; what
it asks of the registry is one run of calls from opening the module to closing it.
-/

namespace ModularBuild

/-- An entry of the compiled units. -/
structure UnitEntry where
  name : String
  header : Bool := true
deriving DecidableEq, Repr, Inhabited

/-- An entry of the generated files. -/
structure GeneratedEntry where
  path : String
  command : List String := []
  inputs : List String := []
deriving DecidableEq, Repr, Inhabited

structure ModuleManifest where
  headers : List String := []
  units : List UnitEntry := []
  fortranUnits : List String := []
  programs : List String := []
  testPrograms : List String := []
  fortranPrograms : List String := []
  library : Bool := false
  sharedLibrary : Bool := false
  generated : List GeneratedEntry := []
deriving DecidableEq, Inhabited

namespace ModuleManifest

open Toml

def fileName : String := "module.toml"

/-! ## Reading -/

/-- A unit is its name, or a table that may deny it a header. -/
def unitEntry : Decoder UnitEntry
  | .str name => some { name }
  | .table entries => do
    let r : Record := entries
    return ⟨← r.required "name" .string, ← r.get "header" .bool true⟩
  | _ => none

def generatedEntry : Decoder GeneratedEntry := fun v => do
  let r ← Record.ofValue? .strict ["path", "command", "inputs"] v
  return ⟨← r.required "path" .string, ← r.get "command" .strings [],
    ← r.get "inputs" .strings []⟩

def decode : Decoder ModuleManifest := fun v => do
  let r ← Record.ofValue? .strict
    ["headers", "units", "fortran_units", "programs", "test_programs", "fortran_programs",
      "library", "shared_library", "generated"] v
  return {
    headers := ← r.get "headers" .strings []
    units := ← r.get "units" (.list unitEntry) []
    fortranUnits := ← r.get "fortran_units" .strings []
    programs := ← r.get "programs" .strings []
    testPrograms := ← r.get "test_programs" .strings []
    fortranPrograms := ← r.get "fortran_programs" .strings []
    library := ← r.get "library" .bool false
    sharedLibrary := ← r.get "shared_library" .bool false
    generated := ← r.get "generated" (.list generatedEntry) [] }

/-- The manifest a text holds; none if it holds none. -/
def parse? (text : String) : Option ModuleManifest := (Toml.parse? text).bind decode

/-! ## Declaring -/

def unitCall (u : UnitEntry) : Registry.Call := .declareUnit u.name u.header

/-- A generated file with a command or inputs has a rule. -/
def generatedCall (g : GeneratedEntry) : Registry.Call :=
  if g.command.isEmpty && g.inputs.isEmpty then .declare .generated [g.path]
  else .declareRule g.path ⟨g.command, g.inputs⟩

/-- The request for a library, if there is one. -/
def libraryCalls (m : ModuleManifest) : List Registry.Call :=
  if m.library || m.sharedLibrary then [.requestLibrary m.sharedLibrary] else []

/-- What the manifest asks of the registry. -/
def calls (m : ModuleManifest) : List Registry.Call :=
  [.beginModule, .declare .headerUnit m.headers]
    ++ m.units.map unitCall
    ++ [.declare .fortranUnit m.fortranUnits, .declare .program m.programs,
      .declare .testProgram m.testPrograms, .declare .fortranProgram m.fortranPrograms]
    ++ m.generated.map generatedCall
    ++ m.libraryCalls
    ++ [.endModule]

/-- Feeds the manifest into a registry, up to the first call that fails. -/
def declareInto (m : ModuleManifest) (r : Registry) (module : ModulePath) : Registry.Step :=
  r.stepAll module m.calls

end ModuleManifest

end ModularBuild
