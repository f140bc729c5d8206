import ModularBuild.Files.Resolve

/-!
# Commands, and where their programs are

A program whose path has more than one component is looked for under that path; any other is looked
for in the directories of the search path, from the first to the last.
-/

namespace ModularBuild

/-! ## Commands and invocations -/

structure Command where
  program : Path
  args : List String := []
deriving DecidableEq, Repr, Inhabited

def Command.display (c : Command) : String := " ".intercalate (c.program.text :: c.args)

/-- A command to start: in a directory, or in that of the one who starts it, and with variables on
top of the environment. -/
structure Invocation extends Command where
  env : List (String × String) := []
  cwd : Option Path := none
deriving DecidableEq, Repr, Inhabited

/-! ## Finding programs -/

def standardSearchPath : String := "/usr/local/sbin:/usr/local/bin:/usr/sbin:/usr/bin:/sbin:/bin"

def searchDirectories (searchPath : String) : List Path :=
  (pieces ':' searchPath.toList).map fun dir => ⟨String.ofList dir⟩

/-- The paths a program may be found under. A relative path counts by its components, so a slash or
a dot at its end makes no difference. -/
def programCandidates (searchPath : String) (p : Path) : List Path :=
  if 1 < p.components.length then
    if p.isAbsolute then [p] else [.ofComponents (p.components.dropWhile (· = .current))]
  else (searchDirectories searchPath).map (· / p)

/-- Whether a program can be found: a regular file that may be executed. -/
def FileSystem.hasProgram (fs : FileSystem) (cwd : Location) (searchPath : String) (p : Path) :
    Bool :=
  (programCandidates searchPath p).any (fs.isExecutable cwd ·)

end ModularBuild
