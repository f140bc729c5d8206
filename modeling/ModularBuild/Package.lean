import ModularBuild.Date
import ModularBuild.Files.Task
import ModularBuild.Host
import ModularBuild.Package.Tar
import ModularBuild.Workspace

/-!
# Packaging

A distribution holds what its recipient needs to build the project: every file that is declared and
written by hand, the manifests, and the extra files the project manifest lists. What a rule
generates stays out, whatever else names it.

A distribution is a compressed archive beside the project directory. Its names start with the name
of that directory, in the order of the constituents. Modes and times are the same on every machine.
An archive that could not be finished is removed.
-/

namespace ModularBuild

/-- A distribution that was written. -/
structure Distribution where
  archive : Path
  entries : List TarEntry

def archiveName (project tag : String) : String := s!"{project}-{tag}.tgz"

namespace Workspace

/-! ## What goes into a distribution -/

/-- The path of a declared name as an artifact of a kind. -/
def declaredPath (ws : Workspace) (kind : ArtifactKind) (q : QualifiedName) : Path :=
  ws.fileNames.path (.ofName kind q)

def headerPaths (ws : Workspace) : List Path := ws.plan.headers.keys.map (ws.declaredPath .header)

def unitPaths (ws : Workspace) : QualifiedName × Bool → List Path
  | (q, true) => [ws.declaredPath (.source .c) q, ws.declaredPath .header q]
  | (q, false) => [ws.declaredPath (.source .c) q]

/-- The sources that are no compiled units. -/
def otherSourcePaths (ws : Workspace) : List Path :=
  (ws.plan.fortranUnits.keys ++ ws.plan.fortranPrograms.keys).map
      (ws.declaredPath (.source .fortran))
    ++ (ws.plan.programs.keys ++ ws.plan.testPrograms.keys).map (ws.declaredPath (.source .c))

/-- The generated files that a rule makes, or that none makes. -/
def generatedPaths (ws : Workspace) (byRule : Bool) : List Path :=
  let names := (ws.plan.generated.filter fun _ rule => rule.isSome = byRule).keys
  names.map (ws.declaredPath .generated)

/-- What the manifests say is written by hand. -/
def authoredPaths (ws : Workspace) : List Path :=
  ws.headerPaths ++ ws.plan.units.entries.flatMap ws.unitPaths ++ ws.otherSourcePaths
    ++ ws.generatedPaths false ++ ws.controlFiles

/-- An extra entry as a path below the root; a backslash separates like a slash. -/
def extraPath (extra : String) : Except Failure Path :=
  match (⟨extra.map fun c => if c = '\\' then '/' else c⟩ : Path).normalizeInside? with
  | some p => .ok p
  | none =>
    .error (.ofBuild (.packaging ⟨extra⟩ "extra entry must name a path inside the project"))

/-- The files an extra entry stands for: a directory stands for all files at and below it. -/
def extraFiles (ws : Workspace) (files : FileSystem) (cwd : Location) (extra : String) :
    Except Failure (List Path) := do
  let p ← extraPath extra
  let located := ws.locate p
  if files.isDirectory cwd located then
    match files.walkFiles cwd ws.root located with
    | some found => return found
    | none => throw (.ofWalk located)
  else return [p]

/-- Everything that goes into the distribution, in path order. -/
def constituents (ws : Workspace) (files : FileSystem) (cwd : Location) :
    Except Failure (List Path) := do
  let extras ← ws.manifest.extra.mapM (ws.extraFiles files cwd)
  let generated := SortedSet.ofList (ws.generatedPaths true)
  return (sortedPaths (ws.authoredPaths ++ extras.flatten)).filter (!generated.contains ·)

/-! ## The archive -/

def distributionTime : Nat := 1153704088

/-- The permission bits of a file in a distribution: it can be executed if its owner could. -/
def distributionMode (mode : Nat) : Nat := if mode &&& 0o100 = 0 then 0o644 else 0o755

/-- A constituent as an entry below the name of the project directory. -/
def packEntry (files : FileSystem) (cwd : Location) (root : Path) (directory : String) (p : Path) :
    Except BuildError TarEntry :=
  let failed (reason : String) : Except BuildError TarEntry := .error (.packaging p reason)
  match TarEntry.nameOf ⟨directory ++ "/" ++ p.toSlash⟩, files.lookup cwd (root / p),
      files.read cwd (root / p) with
  | .error reason, _, _ => failed reason
  | _, .error e, _ | _, _, .error e => failed e.message
  | .ok name, .ok (_, e), .ok bytes => .ok ⟨name, distributionMode e.mode, distributionTime, bytes⟩

def writeArchive (h : Host) (root : Path) (directory : String) (constituents : List Path)
    (output : Path) : Operation (List TarEntry) := do
  let write (bytes : List UInt8) : FileTask Unit := FileTask.change (·.write h.cwd output bytes)
  Operation.onFiles s!"failed to create {output.text}" (write [])
  match constituents.mapM (packEntry (← get).files h.cwd root directory) with
  | .error e => throw (.ofBuild e)
  | .ok entries =>
    Operation.onFiles s!"failed to finish {output.text}" (write (Gzip.store (tarOf entries)))
    return entries

/-- The real path of the project directory, its name, and the directory it lies in. -/
def projectDirectory (ws : Workspace) (h : Host) : Operation (Path × String × Path) := do
  let root ← Operation.orFail s!"failed to resolve project root {ws.root.text}"
    ((← get).files.canonical h.cwd ws.root)
  match root.fileName?, root.parent? with
  | some name, some parent => return (root, name, parent)
  | none, _ => throw { cause := .other "project root has no directory name" }
  | _, none => throw { cause := .other "project root has no parent directory" }

/-- Writes the distribution. Its name ends in the tag, or in today's date. -/
def package (ws : Workspace) (h : Host) (tag : Option String) : Operation Distribution := do
  let (root, directory, parent) ← ws.projectDirectory h
  let files := (← get).files
  let tag := tag.getD (Date.ofTime files.clock).sixDigits
  let output := parent / ⟨archiveName ws.plan.project tag⟩
  let constituents ← MonadExcept.ofExcept (ws.constituents files h.cwd)
  match constituents.find? fun p => !files.isFile h.cwd (root / p) with
  | some missing => throw (.ofBuild (.packaging missing "declared file does not exist"))
  | none =>
    let removing := discard <| World.onFiles (FileTask.change (·.removeFile h.cwd output))
    let entries ← Operation.orElseDo removing (writeArchive h root directory constituents output)
    World.log .info s!"packaged {constituents.length} file(s) into {output.text}"
    return ⟨output, entries⟩

end Workspace

end ModularBuild
