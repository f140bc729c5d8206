import ModularBuild.SortedMap
import ModularBuild.Text.Json

/-!
# What a module declares

A module declares names of seven kinds and may ask for a library. Declarations accumulate: a name
declared twice counts once, and of two header flags or rules of one name the later one holds.
-/

namespace ModularBuild

/-- The seven kinds of declaration. -/
inductive DeclKind where
  | headerUnit
  | compiledUnit
  | fortranUnit
  | program
  | testProgram
  | fortranProgram
  | generated
deriving DecidableEq, Repr

namespace DeclKind

/-- Every kind, in the order clashes are looked for. -/
def all : List DeclKind :=
  [headerUnit, compiledUnit, fortranUnit, program, testProgram, fortranProgram, generated]

def description : DeclKind → String
  | headerUnit => "header unit"
  | compiledUnit => "compiled unit"
  | fortranUnit => "Fortran unit"
  | program => "program"
  | testProgram => "test program"
  | fortranProgram => "Fortran program"
  | generated => "generated file"

/-- Whether a name of this kind is compiled to an object of that name. -/
def producesObject : DeclKind → Bool
  | headerUnit | generated => false
  | compiledUnit | fortranUnit | program | testProgram | fortranProgram => true

end DeclKind

/-- How a generated file is made: a command run in the module's directory, and the files it reads,
named relative to the module. -/
structure GeneratedRule where
  command : List String := []
  inputs : List String := []
deriving DecidableEq, Repr, Inhabited

/-- Everything a module has declared so far. -/
structure Contribution where
  headers : SortedSet String := ∅
  /-- Compiled units, each with whether it has a header. -/
  units : SortedMap String Bool := ∅
  fortranUnits : SortedSet String := ∅
  programs : SortedSet String := ∅
  testPrograms : SortedSet String := ∅
  fortranPrograms : SortedSet String := ∅
  /-- Generated files, each with its rule if it has one. -/
  generated : SortedMap String (Option GeneratedRule) := ∅
  library : Bool := false
  sharedLibrary : Bool := false
deriving DecidableEq, Inhabited

namespace Contribution

/-- Declares a name. A unit declared by name alone has a header; a generated file keeps the rule it
may have. -/
def declare (c : Contribution) (kind : DeclKind) (name : String) : Contribution :=
  match kind with
  | .headerUnit => { c with headers := c.headers.insert name () }
  | .compiledUnit => { c with units := c.units.insert name true }
  | .fortranUnit => { c with fortranUnits := c.fortranUnits.insert name () }
  | .program => { c with programs := c.programs.insert name () }
  | .testProgram => { c with testPrograms := c.testPrograms.insert name () }
  | .fortranProgram => { c with fortranPrograms := c.fortranPrograms.insert name () }
  | .generated => { c with generated := c.generated.insertIfNew name none }

def declareAll (c : Contribution) (kind : DeclKind) (names : List String) : Contribution :=
  names.foldl (·.declare kind ·) c

def declareUnit (c : Contribution) (name : String) (header : Bool) : Contribution :=
  { c with units := c.units.insert name header }

def declareRule (c : Contribution) (file : String) (rule : GeneratedRule) : Contribution :=
  { c with generated := c.generated.insert file (some rule) }

/-- Asks for a library. Once shared, it stays shared. -/
def requestLibrary (c : Contribution) (shared : Bool) : Contribution :=
  { c with library := true, sharedLibrary := c.sharedLibrary || shared }

/-- The names of a kind, ascending. -/
def names (c : Contribution) : DeclKind → List String
  | .headerUnit => c.headers.keys
  | .compiledUnit => c.units.keys
  | .fortranUnit => c.fortranUnits.keys
  | .program => c.programs.keys
  | .testProgram => c.testPrograms.keys
  | .fortranProgram => c.fortranPrograms.keys
  | .generated => c.generated.keys

/-- Two kinds that want the object of one name. -/
structure ObjectClash where
  name : String
  first : DeclKind
  second : DeclKind
deriving DecidableEq, Repr

/-- The names that are compiled to objects, kind by kind. -/
def objectNames (c : Contribution) : List (String × DeclKind) :=
  (DeclKind.all.filter (·.producesObject)).flatMap fun kind => (c.names kind).map (·, kind)

/-- The first name that has been seen before, with the kind it was seen under. -/
def firstClash? (seen : SortedMap String DeclKind) : List (String × DeclKind) → Option ObjectClash
  | [] => none
  | (name, kind) :: rest =>
    match seen.find? name with
    | some first => some ⟨name, first, kind⟩
    | none => firstClash? (seen.insert name kind) rest

def objectClash? (c : Contribution) : Option ObjectClash := firstClash? ∅ c.objectNames

end Contribution

/-! ## Written form -/

def GeneratedRule.toJson (r : GeneratedRule) : Json :=
  .obj [("command", .strings r.command), ("inputs", .strings r.inputs)]

/-- A rule, or `null` where there is none. -/
def ruleToJson (r : Option GeneratedRule) : Json := (r.map (·.toJson)).getD .null

def Contribution.toJson (c : Contribution) : Json :=
  .obj [
    ("headers", .strings c.headers.keys),
    ("units", .obj (c.units.entries.map fun (name, header) => (name, .bool header))),
    ("fortran_units", .strings c.fortranUnits.keys),
    ("programs", .strings c.programs.keys),
    ("test_programs", .strings c.testPrograms.keys),
    ("fortran_programs", .strings c.fortranPrograms.keys),
    ("generated", .obj (c.generated.entries.map fun (file, rule) => (file, ruleToJson rule))),
    ("library", .bool c.library),
    ("shared_library", .bool c.sharedLibrary)]

end ModularBuild
