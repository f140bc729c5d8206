import ModularBuild.Files.Mode
import ModularBuild.Shell.Builtin.Basic

/-!
# Builtins for the working directory and new files

The shell remembers the working directory by the path it was reached on, so that `..` leads back
through links.
-/

namespace ModularBuild.Shell

/-- Goes along names from a path that is known, `.` and `..` taken literally. -/
def followNames : List String → List String → List String
  | here, [] => here
  | here, name :: rest =>
    if name = "" || name = "." then followNames here rest
    else if name = ".." then followNames here.dropLast rest
    else followNames (here ++ [name]) rest

def namesOf (s : String) : List String :=
  ((pieces '/' s.toList).map String.ofList).filter (· ≠ "")

def startOf (s : String) : String :=
  match s.toList with
  | ['/', '/'] => "//"
  | '/' :: '/' :: c :: _ => if c = '/' then "/" else "//"
  | _ => "/"

/-- The path to a directory from one that is known; none if neither is. -/
def logicalPath? (here dest : String) : Option String :=
  if dest.startsWith "/" then
    some (startOf dest ++ "/".intercalate (followNames [] (namesOf dest)))
  else if here = "" then none
  else some (startOf here ++ "/".intercalate (followNames (namesOf here) (namesOf dest)))

def physicalDirectory : ShellM String := do
  return ByteText.ofText (FileSystem.pathOf (← memory).context.cwd).text

def setDirectory (path : Option String) (keepOld : Bool) : ShellM Unit := do
  if keepOld then assign "OLDPWD" (← memory).directory true
  let directory ← match path with
    | some p => pure p
    | none => physicalDirectory
  modifyMemory fun m => { m with directory }
  assign "PWD" directory true

/-- Changes the working directory; the answer tells whether that worked. -/
def changeDirectory (dest : String) (physical : Bool) : ShellM Bool := do
  let m ← memory
  let path := if physical then none else logicalPath? m.directory dest
  match (← get).machine.files.lookup m.context.cwd (ByteText.path (path.getD dest)) with
  | .error _ => return false
  | .ok (l, e) =>
    if e.content ≠ .directory || !e.mayExecute then return false
    modifyMemory fun m => { m with context := { m.context with cwd := l } }
    setDirectory path true
    return true

/-- Whether a directory is never looked for in a search path: it is absolute, or begins with a dot
component. -/
def isDirect (dest : String) : Bool :=
  dest.startsWith "/" ||
    match (pieces '/' dest.toList) with
    | name :: _ => name = ['.'] || name = ['.', '.']
    | [] => false

def cd (args : List String) : ShellM Nat := do
  let (given, args) ← takeOptions "LP" args
  let physical := given.getLast? = some ('P', "")
  let m ← memory
  let back := args.head? = some "-"
  let dest := match args with
    | [] => (m.value? "HOME").getD ""
    | "-" :: _ => (m.value? "OLDPWD").getD ""
    | d :: _ => d
  let go (path : String) (shown : Bool) : ShellM Nat := do
    unless ← changeDirectory path physical do fail s!"can't cd to {dest}"
    if shown then print ((← memory).directory ++ "\n")
    return 0
  if isDirect dest then go dest back
  else
    let dest := if dest = "" then "." else dest
    let files := (← get).machine.files
    let found? := (pieces ':' ((m.value? "CDPATH").getD "").toList).findSome? fun dir =>
      let path := if dir.isEmpty then dest else String.ofList dir ++ "/" ++ dest
      if files.isDirectory m.context.cwd (ByteText.path path) then some (path, !dir.isEmpty)
      else none
    match found? with
    | some (path, shown) => go path (back || shown)
    | none => go dest back

def pwd (args : List String) : ShellM Nat := do
  let (given, _) ← takeOptions "LP" args
  let directory ← if given.getLast? = some ('P', "") then physicalDirectory
    else pure (← memory).directory
  print (directory ++ "\n")
  return 0

def octal (n : Nat) : String := String.ofList (Nat.toDigits 8 n)

def rightLetters (mask shift : Nat) : String :=
  let left := (0o777 ^^^ mask) >>> shift
  String.ofList ((if left &&& 4 ≠ 0 then ['r'] else []) ++
    (if left &&& 2 ≠ 0 then ['w'] else []) ++ if left &&& 1 ≠ 0 then ['x'] else [])

def umask (args : List String) : ShellM Nat := do
  let (given, args) ← takeOptions "S" args
  let mask := (← memory).context.umask
  let setMask (n : Nat) : ShellM Unit :=
    modifyMemory fun m => { m with context := { m.context with umask := n &&& 0o777 } }
  match args with
  | [] =>
    if given.isEmpty then
      let digits := octal mask
      print (String.ofList (List.replicate (4 - digits.length) '0') ++ digits ++ "\n")
    else
      let (u, g, o) := (rightLetters mask 6, rightLetters mask 3, rightLetters mask 0)
      print s!"u={u},g={g},o={o}\n"
  | a :: _ =>
    if (a.toList.head?.map Char.isDigit).getD false then
      if a.toList.all fun c => '0' ≤ c && c ≤ '7' then
        setMask (a.toList.foldl (fun n c => n * 8 + (c.toNat - '0'.toNat)) 0)
      else fail s!"Illegal number: {a}"
    else match FileMode.changes? a with
      | some changes => setMask (0o777 ^^^ FileMode.apply changes 0 false (0o777 ^^^ mask))
      | none => fail s!"Illegal mode: {a}"
  return 0

end ModularBuild.Shell
