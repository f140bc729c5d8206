import ModularBuild.Files.Operations
import ModularBuild.Path.Relative

/-!
# Tasks of several file operations

A task runs on a file system and may fail half way; what it has changed by then stays changed.
-/

namespace ModularBuild

/-- A run of file operations. -/
abbrev FileTask := ExceptT FileError (StateM FileSystem)

namespace FileTask

variable {α : Type}

/-- A question to the file system. -/
def ask (f : FileSystem → Except FileError α) : FileTask α := do
  match f (← get) with
  | .ok a => return a
  | .error e => throw e

def change (f : FileSystem → Except FileError FileSystem) : FileTask Unit := do
  match f (← get) with
  | .ok fs => set fs
  | .error e => throw e

/-- What a task answers and leaves behind. -/
def exec (task : FileTask α) (fs : FileSystem) : Except FileError α × FileSystem :=
  let (result, fs) := task.run fs
  (result, fs)

/-! ## Directories -/

/-- Makes the first directory of the list, and those after it, which lie above it, as far as they
are missing. -/
def makeDirectories (cwd : Location) : List Path → FileTask Unit
  | [] => throw .noWholeTree
  | p :: above => do
    if p.isEmpty then return ()
    let make : FileTask Unit := do
      try change (·.makeDirectory cwd p)
      catch e => if (← get).isDirectory cwd p then return () else throw e
    match (← get).makeDirectory cwd p with
    | .error .noEntry => makeDirectories cwd above; make
    | _ => make

/-- Makes a directory and all that are missing above it. -/
def makeDirectoryAll (cwd : Location) (p : Path) : FileTask Unit :=
  makeDirectories cwd p.ancestors

def ensureDirectory (cwd : Location) (p : Path) : FileTask Unit := do
  if (← get).pathExists cwd p then return () else makeDirectoryAll cwd p

/-- The directory a path lies in, if the path names one. -/
def directoryOf? (p : Path) : Option Path := p.parent?.filter (!·.isEmpty)

/-! ## Files -/

/-- Removes a file or a link if there is one, and tells whether there was. -/
def removeIfExists (cwd : Location) (p : Path) : FileTask Bool := do
  let fs ← get
  if fs.isFile cwd p || fs.isLink cwd p then
    change (·.removeFile cwd p)
    return true
  else return false

/-- Gives a file that has been emptied its mode and its bytes; a device takes the bytes alone. -/
def fill (cwd : Location) (p : Path) (mode : Nat) (bytes : List UInt8) : FileTask Unit := do
  let (_, e) ← ask (·.lookup cwd p)
  match e.content with
  | .file _ =>
    change fun fs => fs.setMode cwd p mode
    unless bytes.isEmpty do
      let (l, e) ← ask (·.lookup cwd p)
      change fun fs => .ok (fs.overwrite l e bytes)
  | .device .full => unless bytes.isEmpty do throw .noSpace
  | .directory | .link _ | .device _ => return ()

/-- Copies a file with its mode. The destination is emptied before the source is read, so that a
file copied onto itself is lost. -/
def copy (cwd : Location) (src dst : Path) : FileTask Unit := do
  let (_, e) ← ask (·.lookup cwd src)
  if !e.mayRead then throw .permission
  match e.content with
  | .file _ =>
    change fun fs => fs.write cwd dst [] e.mode
    let bytes := match (← get).lookup? cwd src with
      | some { content := .file bytes, .. } => bytes
      | _ => []
    fill cwd dst e.mode bytes
  | _ => throw .notRegular

end FileTask

/-! ## Walking a directory -/

namespace FileSystem

/-- What a walk finds for a name of a directory, whose path is `p`. The directory tells what is a file;
only links and other directories are looked up. -/
def entryBelow (fs : FileSystem) (l : Location) (name : String) (p : Path)
    (walk : Path → Option (List Path)) : Option (List Path) :=
  match (fs.at? (l ++ [name])).map FileEntry.content with
  | some (.file _) => some [p]
  | some (.device _) => some []
  | some .directory | some (.link _) | none => walk p

/-- The files at and below a path, links followed; none if a link leads nowhere or back to a
directory that is being walked. `depth` bounds the directories inside each other. -/
def filesBelow (fs : FileSystem) (cwd : Location) : Nat → List Location → Path → Option (List Path)
  | 0, _, _ => none
  | depth + 1, inside, p =>
    match fs.lookup cwd p with
    | .error _ => none
    | .ok (l, e) =>
      match e.content with
      | .file _ => some [p]
      | .directory =>
        if inside.contains l || !e.mayRead then none
        else do
          let found ← (fs.childNames l).mapM fun name =>
            fs.entryBelow l name (p / ⟨name⟩) (fs.filesBelow cwd depth (l :: inside))
          return found.flatten
      | .link _ | .device _ => some []

/-- The files at and below `dir` as paths relative to `base`, in path order; none if the walk
fails. -/
def walkFiles (fs : FileSystem) (cwd : Location) (base dir : Path) : Option (List Path) := do
  let found ← fs.filesBelow cwd (fs.entries.size + 2) [] dir
  return (found.map (Path.relativeTo base)).mergeSort fun a b => (compare a b).isLE

end FileSystem

end ModularBuild
