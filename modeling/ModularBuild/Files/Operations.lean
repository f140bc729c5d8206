import ModularBuild.Files.Resolve
import ModularBuild.Text.Utf8

/-!
# Operations on files

The single steps a program can ask of a file system. A step either succeeds or leaves everything as
it was. Relative paths are taken from the directory `cwd`.
-/

namespace ModularBuild.FileSystem

/-! ## Reading -/

/-- The bytes of a file. -/
def read (fs : FileSystem) (cwd : Location) (p : Path) : Except FileError (List UInt8) := do
  let (_, e) ← fs.lookup cwd p
  if !e.mayRead then throw .permission
  match e.content with
  | .file bytes => return bytes
  | .directory => throw .isDirectory
  | .link _ | .device _ => return []

def readText (fs : FileSystem) (cwd : Location) (p : Path) : Except FileError String := do
  let bytes ← fs.read cwd p
  let text := Text.ofBytes bytes
  if Text.toBytes text = bytes then return text else throw .notText

/-- The names in a directory, ascending. -/
def list (fs : FileSystem) (cwd : Location) (p : Path) : Except FileError (List String) := do
  let (l, e) ← fs.lookup cwd p
  if e.content ≠ .directory then throw .notDirectory
  else if !e.mayRead then throw .permission
  else return fs.childNames l

/-- The path of the same entry without links, `.` and `..`. -/
def canonical (fs : FileSystem) (cwd : Location) (p : Path) : Except FileError Path :=
  return pathOf (← fs.lookup cwd p).1

/-! ## Writing -/

/-- Makes an entry in a vacancy. -/
def createAt (fs : FileSystem) (l : Location) (content : Content) (mode : Nat) :
    Except FileError FileSystem :=
  if fs.mayChange l.dropLast then .ok (fs.create l content mode) else .error .permission

/-- Takes an entry out of its directory. -/
def deleteAt (fs : FileSystem) (l : Location) : Except FileError FileSystem :=
  if fs.mayChange l.dropLast then .ok (fs.delete l) else .error .permission

/-- Writes a whole file; what was there before is lost, its mode apart. -/
def write (fs : FileSystem) (cwd : Location) (p : Path) (bytes : List UInt8)
    (mode : Nat := fileMode) :
    Except FileError FileSystem := do
  match ← fs.resolve cwd true p with
  | .vacant l asDirectory =>
    if asDirectory then throw .isDirectory else fs.createAt l (.file bytes) mode
  | .found l e =>
    if e.content = .directory then throw .isDirectory
    else if !e.mayWrite then throw .permission
    else match e.content with
    | .file _ => return fs.overwrite l e bytes
    | .directory | .link _ | .device _ => return fs

def makeDirectory (fs : FileSystem) (cwd : Location) (p : Path) (mode : Nat := directoryMode) :
    Except FileError FileSystem := do
  match ← fs.resolveEntry cwd p with
  | .vacant l _ => fs.createAt l .directory mode
  | .found _ _ => throw .alreadyExists

def makeLink (fs : FileSystem) (cwd : Location) (target p : Path) :
    Except FileError FileSystem := do
  if target.isEmpty then throw .noEntry
  match ← fs.resolveEntry cwd p with
  | .vacant l asDirectory =>
    if asDirectory then throw .noEntry else fs.createAt l (.link target) 0o777
  | .found _ _ => throw .alreadyExists

def makeName (fs : FileSystem) (cwd : Location) (p q : Path) : Except FileError FileSystem := do
  let (l, e) ← fs.lookupLink cwd p
  if e.content = .directory then throw .notPermitted
  match ← fs.resolveEntry cwd q with
  | .vacant name asDirectory =>
    if asDirectory then throw .noEntry
    else if fs.mayChange name.dropLast then return fs.addName l e name
    else throw .permission
  | .found _ _ => throw .alreadyExists

def removeFile (fs : FileSystem) (cwd : Location) (p : Path) : Except FileError FileSystem := do
  match ← fs.resolveEntry cwd p with
  | .vacant _ _ => throw .noEntry
  | .found l e =>
    if e.content = .directory then throw .isDirectory
    else if endsInSlash p then throw .notDirectory
    else fs.deleteAt l

/-- Removes an empty directory, which is not called `.` or `..`. -/
def removeDirectory (fs : FileSystem) (cwd : Location) (p : Path) :
    Except FileError FileSystem := do
  match ← fs.resolveEntry cwd p, (steps p).filter (· ≠ "") with
  | .vacant _ _, _ => throw .noEntry
  | .found _ _, [] => throw .busy
  | .found l e, names =>
    if names.getLast? = some "." then throw .invalidArgument
    else if names.getLast? = some ".." then throw .notEmpty
    else if e.content ≠ .directory then throw .notDirectory
    else if !(fs.childNames l).isEmpty then throw .notEmpty
    else if l = [] then throw .busy
    else fs.deleteAt l

/-- Changes the permission bits of what a path leads to. -/
def setMode (fs : FileSystem) (cwd : Location) (p : Path) (mode : Nat) :
    Except FileError FileSystem := do
  let (l, e) ← fs.lookup cwd p
  if e.own then return fs.replace l { e with mode } else throw .notPermitted

/-- Changes the time of what a path leads to. -/
def setModified (fs : FileSystem) (cwd : Location) (p : Path) (time : Time) :
    Except FileError FileSystem := do
  let (l, e) ← fs.lookup cwd p
  if e.own then return fs.replace l { e with modified := time } else throw .notPermitted

/-- Moves everything at and below a location. -/
def relocate (fs : FileSystem) (src dst : Location) : FileSystem :=
  let moved := fs.entries.entries.filterMap fun (l, e) =>
    if src.isPrefixOf l then some (dst ++ l.drop src.length, e) else none
  let gone := { fs with entries := fs.entries.filter fun l _ => !src.isPrefixOf l }
  { gone with entries := gone.entries.insertAll moved }.tick

/-- Gives an entry a new path; a file or an empty directory in its place is lost. -/
def rename (fs : FileSystem) (cwd : Location) (p q : Path) : Except FileError FileSystem := do
  let last (p : Path) : Option String := ((steps p).filter (· ≠ "")).getLast?
  let special (p : Path) : Bool := [none, some ".", some ".."].contains (last p)
  match ← fs.resolveEntry cwd p with
  | .vacant _ _ => throw .noEntry
  | .found src e =>
    let place ← fs.resolveEntry cwd q
    if special p || special q then throw .busy
    let isDirectory := e.content = .directory
    if !isDirectory && (endsInSlash p || endsInSlash q) then throw .notDirectory
    match place with
    | .vacant dst _ =>
      if src.isPrefixOf dst then throw .invalidArgument
      else if !(fs.mayChange src.dropLast && fs.mayChange dst.dropLast) then throw .permission
      else return ((fs.relocate src dst).stamp src.dropLast).stamp dst.dropLast
    | .found dst old =>
      if dst = src || (e.twin.isSome && e.twin = old.twin) then return fs
      else if !(fs.mayChange src.dropLast && fs.mayChange dst.dropLast) then throw .permission
      else if src.isPrefixOf dst then throw .invalidArgument
      else if dst.isPrefixOf src then throw .notEmpty
      else if old.content = .directory then
        if !isDirectory then throw .isDirectory
        else if !(fs.childNames dst).isEmpty then throw .notEmpty
      else if isDirectory then throw .notDirectory
      return ((fs.relocate src dst).stamp src.dropLast).stamp dst.dropLast

end ModularBuild.FileSystem
