import ModularBuild.Process.FileTest
import ModularBuild.Utility.PathNames

/-!
# Removing files

`rm` removes files, and directories with all that lies below them if it is told to; it can ask
first. `unlink` takes a single name away.
-/

namespace ModularBuild.Utility

open Text

/-! ## Questions -/

/-- Reads a line from standard input, byte by byte; `fuel` bounds its length. -/
def readAnswer : Nat → UtilityM String
  | 0 => return ""
  | fuel + 1 => do
    match ← onMachine ((← context).read 0 1) with
    | .ok "" | .ok "\n" | .error _ => return ""
    | .ok c => return c ++ (← readAnswer fuel)

/-- Asks a question; the answer is yes if it begins with a `y`. -/
def confirms (question : String) : UtilityM Bool := do
  flush
  writeError s!"{← programName}: {question}? "
  let answer ← readAnswer Machine.readLimit
  return answer.startsWith "y" || answer.startsWith "Y"

def kindOf (e : FileEntry) : String :=
  match e.content with
  | .directory => "directory"
  | .file [] => "regular empty file"
  | .file _ => "regular file"
  | .link _ => "symbolic link"
  | .device _ => "character special file"

/-! ## Removing -/

/-- How `rm` removes. -/
structure Removing where
  recursive : Bool
  /-- Whether empty directories are removed too. -/
  emptyOnes : Bool
  verbose : Bool
  force : Bool
  /-- Whether each removal is asked about. -/
  asks : Bool

namespace Removing

inductive Outcome where
  | done
  /-- Left because of an answer. -/
  | kept
  | failed
deriving DecidableEq

def Outcome.worse : Outcome → Outcome → Outcome
  | .failed, _ | _, .failed => .failed
  | .kept, _ | _, .kept => .kept
  | .done, .done => .done

def refused (path reason : String) : UtilityM Outcome := do
  complain s!"cannot remove {shellQuoted path}: {reason}"
  return .failed

def agreed (r : Removing) (verb path : String) (e : FileEntry) : UtilityM Bool := do
  if !r.asks then return true
  let guarded := if e.mayWrite || e.content matches .link _ then "" else "write-protected "
  confirms s!"{verb} {guarded}{kindOf e} {shellQuoted path}"

def removeFile (r : Removing) (path : String) (e : FileEntry) : UtilityM Outcome := do
  if !(← r.agreed "remove" path e) then return .kept
  match ← onMachine (Machine.unlink (← context).cwd (ByteText.path path)) with
  | .ok () =>
    if r.verbose then sayLine s!"removed {shellQuoted path}"
    return .done
  | .error e => refused path e.name

/-- Removes a directory that should be empty; `reason` is told if it is not. -/
def removeEmpty (r : Removing) (path : String) (reason : FileError) : UtilityM Outcome := do
  let cwd := (← context).cwd
  match ← change (·.removeDirectory cwd (ByteText.path path)) with
  | .ok () =>
    if r.verbose then sayLine s!"removed directory {shellQuoted path}"
    return .done
  | .error e => refused path (if e = .notEmpty then reason else e).name

/-- Removes an entry with what lies below it; `depth` bounds the directories inside each other. -/
def removeTree (r : Removing) : Nat → String → UtilityM Outcome
  | 0, path => refused path FileError.tooManyLinks.name
  | depth + 1, path => do
    match ← lookupLink path with
    | .error e =>
      if r.force && (e = .noEntry || e = .notDirectory) then return .done
      refused path e.name
    | .ok (l, e) =>
      if e.content ≠ .directory then return ← r.removeFile path e
      let names := (← files).childNames l
      if !r.recursive then
        if !r.emptyOnes then return ← refused path FileError.isDirectory.name
        if names.isEmpty then
          unless ← r.agreed "remove" path e do return .kept
        return ← r.removeEmpty path .notEmpty
      if !e.mayRead || !e.mayExecute then
        if !(← r.agreed "remove" path e) then return .kept
        return ← r.removeEmpty path .permission
      unless names.isEmpty do
        unless ← r.agreed "descend into" path e do return .kept
      let remove (o : Outcome) (name : String) : UtilityM Outcome := do
        return o.worse (← r.removeTree depth (pathIn path (ByteText.ofText name)))
      let below ← names.foldlM remove .done
      if below = .failed then return .failed
      if !(← r.agreed "remove" path e) then return .kept
      if below = .kept then return ← refused path FileError.notEmpty.name
      r.removeEmpty path .notEmpty

def remove (r : Removing) (guardsRoot : Bool) (path : String) : UtilityM Nat := do
  let last := lastName path
  let trimmed := trimSlashes path
  if r.recursive && (last = "." || last = "..") then
    complain (s!"refusing to remove '.' or '..' directory: skipping " ++ shellQuoted path)
    return 1
  if r.recursive && guardsRoot && trimmed.isEmpty && !path.isEmpty then
    let shown := if path = "/" then "'/'" else s!"{shellQuoted path} (same as '/')"
    complain s!"it is dangerous to operate recursively on {shown}"
    complain "use --no-preserve-root to override this failsafe"
    return 1
  let path := if r.recursive && path.endsWith "//" then trimmed ++ "/" else path
  let outcome ← r.removeTree ((← files).entries.size + 2) path
  return if outcome = .failed then 1 else 0

end Removing

def rm : Utility := fun args => do
  let a ← arguments [option 'f' "force", letter 'i', letter 'I', word "interactive" .optional,
    option 'r' "recursive", letter 'R', option 'd' "dir", option 'v' "verbose",
    word "one-file-system", word "preserve-root" .optional, word "no-preserve-root"] args
  let asking ← match a.last? ["force", "i", "I", "interactive"] with
    | some "i" => pure "always"
    | some "I" => pure "once"
    | some "interactive" =>
      match a.value? "interactive" with
      | none => pure "always"
      | some s =>
        let words := ["never", "no", "none", "once", "always", "yes"]
        match words.filter (·.startsWith s) with
        | [] =>
          refuse (s!"invalid argument {inSingleQuotes s} for '--interactive'\nValid arguments " ++
            "are:\n  - 'never', 'no', 'none'\n  - 'once'\n  - 'always', 'yes'")
        | w :: _ => pure w
    | _ => pure "never"
  let force := a.last? ["force", "i", "I", "interactive"] = some "force" || asking = "never" &&
    a.has "force"
  if a.operands.isEmpty then
    if force then return 0 else refuse "missing operand"
  let recursive := a.has "recursive" || a.has "R"
  if asking = "once" && (recursive || 3 < a.operands.length) then
    let n := a.operands.length
    let count := if n = 1 then "1 argument" else s!"{n} arguments"
    let agreed ← confirms (s!"remove {count}" ++ if recursive then " recursively" else "")
    if !agreed then return 0
  let removing : Removing := {
    recursive, emptyOnes := a.has "dir", verbose := a.has "verbose", force
    asks := asking = "always" || asking = "yes" }
  let guardsRoot := a.last? ["preserve-root", "no-preserve-root"] ≠ some "no-preserve-root"
  forEach a.operands (removing.remove guardsRoot)

def unlink : Utility := fun args => do
  let a ← arguments [] args
  match a.operands with
  | [] => refuse "missing operand"
  | [path] =>
    match ← onMachine (Machine.unlink (← context).cwd (ByteText.path path)) with
    | .ok () => return 0
    | .error e => fail s!"cannot unlink {shellQuoted path}: {e.name}"
  | _ :: extra :: _ => refuse s!"extra operand {inSingleQuotes extra}"

end ModularBuild.Utility
