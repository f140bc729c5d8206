import ModularBuild.Module.Path
import ModularBuild.Text.Json

/-!
# Build mode and library names

A project is built whole, or one of its modules is built on its own. The mode is chosen once, before
the plan is finalized, and decides how libraries are named and whether shorthand names exist.
-/

namespace ModularBuild

inductive BuildMode where
  /-- Every module of the project. -/
  | project
  /-- One module on its own. -/
  | standalone (module : ModulePath)
deriving DecidableEq, Repr, Inhabited

/-- How a module's library gets its name. -/
inductive LibraryNaming where
  /-- After the module's directory; the root module's library takes the fallback. -/
  | moduleDirectory (fallback : String)
  /-- After the project. -/
  | projectName (project : String)
deriving DecidableEq, Repr

namespace BuildMode

def isStandalone : BuildMode → Bool
  | project => false
  | standalone _ => true

/-- Shorthand names would make the library of a module built on its own a prerequisite of itself, so
they exist for a whole project only. -/
def hasShorthands (mode : BuildMode) : Bool := !mode.isStandalone

def naming (mode : BuildMode) (projectName : String) : LibraryNaming :=
  match mode with
  | project => .moduleDirectory projectName
  | standalone _ => .projectName projectName

def toJson : BuildMode → Json
  | project => .obj [("mode", .str "project")]
  | standalone module => .obj [("mode", .str "standalone"), ("module", .str module.text)]

end BuildMode

def LibraryNaming.libraryName (naming : LibraryNaming) (module : ModulePath) : String :=
  match naming with
  | .moduleDirectory fallback => module.directoryName?.getD fallback
  | .projectName project => project

end ModularBuild
