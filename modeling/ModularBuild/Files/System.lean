import ModularBuild.Path
import ModularBuild.SortedMap

/-!
# File systems

A file system maps locations, lists of names from the root, to entries: directories, files and
symbolic links. The root is a directory and has no entry of its own. Every change advances the clock
and stamps what it touches, so a later write always has a later time. There is one user, to whom an
entry belongs or not; which permission bits hold for the user depends on that.
-/

namespace ModularBuild

/-- Nanoseconds of the clock. -/
abbrev Time := Nat

/-- The names that lead from the root to an entry. -/
abbrev Location := List String

/-- A file that keeps nothing. -/
inductive Device where
  /-- Reads as empty and takes whatever is written. -/
  | null
  /-- Reads as zeros without end. -/
  | zero
  /-- Reads as `zero` and takes nothing. -/
  | full
  /-- What a descriptor of the process that opens it leads to. -/
  | descriptor (n : Nat)
deriving DecidableEq, Repr, Inhabited

/-- What an entry is. -/
inductive Content where
  | directory
  | file (bytes : List UInt8)
  | link (target : Path)
  | device (d : Device)
deriving DecidableEq, Repr, Inhabited

structure FileEntry where
  content : Content
  /-- The permission bits. -/
  mode : Nat
  modified : Time
  /-- Whether the entry belongs to the user. -/
  own : Bool := true
  /-- What the names of one file have in common, if the file has had several. -/
  twin : Option Nat := none
deriving DecidableEq, Repr, Inhabited

namespace FileEntry

/-- The three permission bits that hold for the user: the first of an entry that belongs to the
user, else the last. -/
def rights (e : FileEntry) : Nat := (if e.own then e.mode / 64 else e.mode) % 8

def mayRead (e : FileEntry) : Bool := e.rights &&& 4 ≠ 0

def mayWrite (e : FileEntry) : Bool := e.rights &&& 2 ≠ 0

/-- Whether the user may run a file, or look for names in a directory. -/
def mayExecute (e : FileEntry) : Bool := e.rights &&& 1 ≠ 0

def isFile (e : FileEntry) : Bool :=
  match e.content with
  | .file _ => true
  | _ => false

end FileEntry

structure FileSystem where
  entries : SortedMap Location FileEntry := ∅
  clock : Time := 0
deriving DecidableEq, Inhabited

namespace FileSystem

def fileMode : Nat := 0o644

def directoryMode : Nat := 0o755

def rootEntry : FileEntry :=
  { content := .directory, mode := directoryMode, modified := 0, own := false }

/-- The entry at a location. -/
def at? (fs : FileSystem) (l : Location) : Option FileEntry :=
  match l with
  | [] => some rootEntry
  | l => fs.entries.find? l

/-- The names in a directory, ascending. -/
def childNames (fs : FileSystem) (l : Location) : List String :=
  fs.entries.keys.filterMap fun k =>
    if k.dropLast = l then k.getLast? else none

def below (fs : FileSystem) (l : Location) : List Location :=
  fs.entries.keys.filter fun k => l.isPrefixOf k && l.length < k.length

/-! ## Changes -/

def tick (fs : FileSystem) : FileSystem := { fs with clock := fs.clock + 1 }

/-- Replaces an entry and leaves the clock alone. -/
def set (fs : FileSystem) (l : Location) (e : FileEntry) : FileSystem :=
  { fs with entries := fs.entries.insert l e }

def replace (fs : FileSystem) (l : Location) (e : FileEntry) : FileSystem :=
  match e.twin with
  | none => fs.set l e
  | some g => { fs with entries := fs.entries.mapValues fun d => if d.twin = some g then e else d }

def stamp (fs : FileSystem) (l : Location) : FileSystem :=
  match fs.entries.find? l with
  | some e => fs.set l { e with modified := fs.clock }
  | none => fs

/-- Puts a new entry into its directory. -/
def create (fs : FileSystem) (l : Location) (content : Content) (mode : Nat) : FileSystem :=
  let fs := fs.tick
  (fs.set l { content, mode, modified := fs.clock }).stamp l.dropLast

/-- The mode of a file after a write, which takes the rights of its owner and of its group from the
program that the file may be. -/
def writtenMode (mode : Nat) : Nat := mode &&& if mode &&& 0o010 ≠ 0 then 0o1777 else 0o3777

/-- Gives a file new content. -/
def overwrite (fs : FileSystem) (l : Location) (e : FileEntry) (bytes : List UInt8) : FileSystem :=
  let fs := fs.tick
  fs.replace l { e with content := .file bytes, mode := writtenMode e.mode, modified := fs.clock }

def addName (fs : FileSystem) (l : Location) (e : FileEntry) (name : Location) : FileSystem :=
  let fs := fs.tick
  let e := { e with twin := e.twin.getD fs.clock }
  ((fs.set l e).set name e).stamp name.dropLast

def nameCount (fs : FileSystem) (e : FileEntry) : Nat :=
  if e.twin.isNone then 1 else (fs.entries.values.filter (·.twin = e.twin)).length

/-- Takes an entry out of its directory. -/
def delete (fs : FileSystem) (l : Location) : FileSystem :=
  let fs := fs.tick
  { fs with entries := fs.entries.erase l }.stamp l.dropLast

end FileSystem

end ModularBuild
