import ModularBuild.Files.Error
import ModularBuild.Files.System

/-!
# Where a path leads

A path is followed name by name from a directory; symbolic links on the way are replaced by what
they point to, up to a limit. Names can be looked for only in directories where the user may do so.
The end of the walk is an entry, or a vacancy in a directory where an entry could be made.
-/

namespace ModularBuild.FileSystem

/-- The end of a walk along a path. -/
inductive Place where
  | found (l : Location) (entry : FileEntry)
  /-- Nothing is there, but its directory is; `asDirectory` if only a directory fits the path. -/
  | vacant (l : Location) (asDirectory : Bool)
deriving Repr

/-- The names of a path, `.` and empty names included. -/
def steps (p : Path) : List String := (pieces '/' p.text.toList).map String.ofList

def isStay (name : String) : Bool := name = "" || name = "."

def linkLimit : Nat := 40

def nameLimit : Nat := 255

def pathLimit : Nat := 4095

/-- Whether the user may look for names in a directory. -/
def maySearch (fs : FileSystem) (l : Location) : Bool := (fs.at? l).all (·.mayExecute)

/-- Whether the user may add names to a directory, and take them out. -/
def mayChange (fs : FileSystem) (l : Location) : Bool :=
  (fs.at? l).all fun e => e.mayWrite && e.mayExecute

/-- Goes on from a directory along the names still to come. A link at the very end is followed only
if `follow` says so. -/
def walk (fs : FileSystem) (follow : Bool) (links : Nat) (here : Location) :
    List String → Except FileError Place
  | [] =>
    match fs.at? here with
    | some e => .ok (.found here e)
    | none => .error .noEntry
  | name :: rest =>
    if name = "" then walk fs follow links here rest
    else if !fs.maySearch here then .error .permission
    else if isStay name then walk fs follow links here rest
    else if name = ".." then walk fs follow links here.dropLast rest
    else if nameLimit < name.utf8ByteSize then .error .nameTooLong
    else
      let l := here ++ [name]
      match fs.at? l with
      | none =>
        if rest.isEmpty then .ok (.vacant l false)
        else if rest.all (· = "") then .ok (.vacant l true)
        else .error .noEntry
      | some e =>
        match e.content with
        | .directory => walk fs follow links l rest
        | .link target =>
          if rest.isEmpty && !follow then .ok (.found l e)
          else match links with
            | 0 => .error .tooManyLinks
            | links + 1 =>
              walk fs follow links (if target.isAbsolute then [] else here) (steps target ++ rest)
        | .file _ | .device _ =>
          if rest.isEmpty then .ok (.found l e) else .error .notDirectory
termination_by names => (links, names.length)

/-- Where a path leads from the directory `cwd`. -/
def resolve (fs : FileSystem) (cwd : Location) (follow : Bool) (p : Path) :
    Except FileError Place :=
  if p.isEmpty then .error .noEntry
  else if p.text.toList.contains '\x00' then .error .nulInPath
  else if pathLimit < p.text.utf8ByteSize then .error .nameTooLong
  else fs.walk follow linkLimit (if p.isAbsolute then [] else cwd) (steps p)

/-- Whether a path says by slashes at its end that it means a directory. -/
def endsInSlash (p : Path) : Bool := p.text.toList.getLast? = some '/'

/-- The entry that a path names, or the vacancy where it could be. A link at its end is not followed
even if slashes come after it. -/
def resolveEntry (fs : FileSystem) (cwd : Location) (p : Path) : Except FileError Place := do
  let trimmed := (p.text.toList.reverse.dropWhile (· = '/')).reverse
  if trimmed.isEmpty then fs.resolve cwd false p
  else match ← fs.resolve cwd false ⟨String.ofList trimmed⟩ with
    | .vacant l _ => return .vacant l (endsInSlash p)
    | found => return found

/-- The entry a path leads to, links followed. -/
def lookup (fs : FileSystem) (cwd : Location) (p : Path) :
    Except FileError (Location × FileEntry) := do
  match ← fs.resolve cwd true p with
  | .found l e => return (l, e)
  | .vacant _ _ => throw .noEntry

/-- The entry a path leads to, a link at its end not followed. -/
def lookupLink (fs : FileSystem) (cwd : Location) (p : Path) :
    Except FileError (Location × FileEntry) := do
  match ← fs.resolve cwd false p with
  | .found l e => return (l, e)
  | .vacant _ _ => throw .noEntry

/-! ## Questions -/

def lookup? (fs : FileSystem) (cwd : Location) (p : Path) : Option FileEntry :=
  (fs.lookup cwd p).toOption.map (·.2)

def pathExists (fs : FileSystem) (cwd : Location) (p : Path) : Bool := (fs.lookup? cwd p).isSome

/-- When the entry a path leads to last changed. -/
def modified? (fs : FileSystem) (cwd : Location) (p : Path) : Option Time :=
  (fs.lookup? cwd p).map (·.modified)

def isDirectory (fs : FileSystem) (cwd : Location) (p : Path) : Bool :=
  match fs.lookup? cwd p with
  | some e => e.content = .directory
  | none => false

def isFile (fs : FileSystem) (cwd : Location) (p : Path) : Bool :=
  match fs.lookup? cwd p with
  | some { content := .file _, .. } => true
  | _ => false

def isLink (fs : FileSystem) (cwd : Location) (p : Path) : Bool :=
  match fs.lookupLink cwd p with
  | .ok (_, { content := .link _, .. }) => true
  | _ => false

/-- Whether a path leads to a regular file that the user may execute. -/
def isExecutable (fs : FileSystem) (cwd : Location) (p : Path) : Bool :=
  fs.isFile cwd p && (fs.lookup? cwd p).any (·.mayExecute)

def pathOf (l : Location) : Path := ⟨"/" ++ "/".intercalate l⟩

end ModularBuild.FileSystem
