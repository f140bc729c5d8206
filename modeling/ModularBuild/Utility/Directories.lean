import ModularBuild.Files.Mode
import ModularBuild.Utility.PathNames

/-!
# Making and removing directories

`mkdir` makes directories, if it is told to with those above them, and `rmdir` removes empty ones.
-/

namespace ModularBuild.Utility

open Text

/-! ## Making -/

/-- The paths above a path that have to be there first, from the top, without `.` and `..`. -/
def pathsAbove (path : String) : List String :=
  let cs := path.toList
  let isCut (i : Nat) : Bool := 0 < i && cs[i]? = some '/' && cs[i - 1]? ≠ some '/' &&
    (cs.drop i).any (· ≠ '/')
  let cuts := ((List.range cs.length).filter isCut).map fun i => String.ofList (cs.take i)
  cuts.filter fun p => lastName p ≠ "." && lastName p ≠ ".."

/-- How `mkdir` makes directories. -/
structure DirectoryMaking where
  verbose : Bool
  parents : Bool
  /-- The permissions that new directories get, whatever the mask is. -/
  mode : Option Nat

namespace DirectoryMaking

def announce (m : DirectoryMaking) (path : String) : UtilityM Unit := do
  if m.verbose then sayLine s!"{← programName}: created directory {shellQuoted path}"

/-- Makes the directories above a path; the answer is the one that cannot be made. -/
def makeAbove (m : DirectoryMaking) :
    List String → UtilityM (Option (String × FileError))
  | [] => return none
  | path :: rest => do
    let c ← context
    let mode := (0o777 &&& (0o777 ^^^ c.umask)) ||| 0o300
    match ← change (·.makeDirectory c.cwd (ByteText.path path) mode) with
    | .ok () =>
      m.announce path
      m.makeAbove rest
    | .error e =>
      match ← lookup path with
      | .ok (_, found) =>
        if found.content ≠ .directory then return some (path, .notDirectory)
        else if !found.mayExecute then return some (path, .permission)
        else m.makeAbove rest
      | .error _ => return some (path, e)

def make (m : DirectoryMaking) (path : String) : UtilityM Nat := do
  let c ← context
  let refused ← if m.parents then m.makeAbove (pathsAbove path) else pure none
  let complainOf (path : String) (e : FileError) : UtilityM Nat := do
    complain s!"cannot create directory {shellQuoted path}: {e.name}"
    return 1
  if let some (above, e) := refused then return ← complainOf above e
  let mode := m.mode.getD (0o777 &&& (0o777 ^^^ c.umask))
  match ← change (·.makeDirectory c.cwd (ByteText.path path) mode) with
  | .ok () =>
    m.announce path
    return 0
  | .error e =>
    if m.parents && (← isDirectory path) then return 0 else complainOf path e

end DirectoryMaking

def mkdir : Utility := fun args => do
  let a ← arguments [option 'm' "mode" .required, option 'p' "parents", option 'v' "verbose",
    letter 'Z', word "context" .optional] args
  if a.operands.isEmpty then refuse "missing operand"
  let mode ← match a.value? "mode" with
    | none => pure none
    | some s =>
      match FileMode.ofText? s with
      | some changes => pure (some (FileMode.apply changes (← context).umask true 0o777))
      | none => fail s!"invalid mode {inSingleQuotes s}"
  let making : DirectoryMaking := { verbose := a.has "verbose", parents := a.has "parents", mode }
  forEach a.operands making.make

/-! ## Removing -/

def isUnfollowedLink (path : String) : UtilityM Bool := do
  let fs ← files
  let cwd := (← context).cwd
  let trimmed := trimSlashes path
  return path.endsWith "/" && fs.isLink cwd (ByteText.path trimmed) &&
    (match fs.lookup cwd (ByteText.path path) with
      | .ok (_, e) => e.content = .directory
      | .error e => e ≠ .notDirectory)

/-- Removes directories, as long as that works; `what` is said before the name of one that stays. -/
def removeDirectories (verbose ignoring : Bool) (what : String) : List String → UtilityM Nat
  | [] => return 0
  | path :: rest => do
    let c ← context
    if verbose then sayLine s!"{← programName}: removing directory, {shellQuoted path}"
    match ← change (·.removeDirectory c.cwd (ByteText.path path)) with
    | .ok () => removeDirectories verbose ignoring "failed to remove directory" rest
    | .error e =>
      if ignoring && e = .notEmpty then return 0
      let reason ← if e = .notDirectory && (← isUnfollowedLink path) then
        pure "Symbolic link not followed" else pure e.name
      complain s!"{what} {shellQuoted path}: {reason}"
      return 1

def rmdir : Utility := fun args => do
  let a ← arguments [option 'p' "parents", option 'v' "verbose",
    word "ignore-fail-on-non-empty"] args
  if a.operands.isEmpty then refuse "missing operand"
  forEach a.operands fun path =>
    let above (p : String) : List String :=
      let p := trimSlashes p
      let cuts := (List.range p.length).filter fun i => p.toList[i]? = some '/'
      (cuts.reverse.map fun i => trimSlashes (String.ofList (p.toList.take i))).eraseDups.filter
        (!·.isEmpty)
    removeDirectories (a.has "verbose") (a.has "ignore-fail-on-non-empty") "failed to remove"
      (path :: if a.has "parents" then above path else [])

end ModularBuild.Utility
