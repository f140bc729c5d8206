import ModularBuild.Naming
import ModularBuild.Plan.Basic

/-!
# Describing a plan

The report lists a plan for a reader, one item a line under counted headings; the JSON report holds
the mode and the whole plan.
-/

namespace ModularBuild.Plan

def lines (ls : List String) : String := String.join (ls.map (· ++ "\n"))

/-- A counted heading with its items below it. -/
def reportSection (title : String) (items : List String) : String :=
  s!"{title} ({items.length}):\n" ++ lines (items.map ("  " ++ ·))

def reportLibrary (l : Library) : String :=
  s!"{l.name} [{l.module}]" ++ if l.shared then " (+shared)" else ""

/-- What a library is made of, by name. -/
def reportLibraryUnits (plan : Plan) (l : Library) : String :=
  match plan.libraryUnits l with
  | [] => s!"  {l.name}: (empty)"
  | units => s!"  {l.name}: " ++ " ".intercalate (units.map (·.name))

def report (plan : Plan) : String :=
  let names (s : List QualifiedName) := s.map (·.toString)
  s!"project: {plan.project}\n"
    ++ reportSection "modules" (plan.modules.keys.map (·.text))
    ++ reportSection "libraries" (plan.libraries.values.map reportLibrary)
    ++ reportSection "programs" (names plan.programs.keys)
    ++ reportSection "test programs" (names plan.testPrograms.keys)
    ++ reportSection "Fortran programs" (names plan.fortranPrograms.keys)
    ++ reportSection "generated files" (names plan.generated.keys)
    ++ "library units:\n"
    ++ lines (plan.libraries.values.map plan.reportLibraryUnits)

def reportJson (plan : Plan) (mode : BuildMode) : Json :=
  .obj [("mode", mode.toJson), ("plan", plan.toJson)]

end ModularBuild.Plan
