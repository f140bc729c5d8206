import ModularBuild.Utility.Input

/-!
# Names of paths

`basename` and `dirname` take a path apart as a text. `readlink` and `realpath` ask the files where
it leads, and `pwd` tells where the process is.
-/

namespace ModularBuild.Utility

open Text

/-! ## Paths as texts -/

def trimSlashes (path : String) : String :=
  String.ofList (path.toList.reverse.dropWhile (· = '/')).reverse

/-- The last name of a path, without slashes; that of the root is a slash. -/
def lastName (path : String) : String :=
  let trimmed := (trimSlashes path).toList
  if trimmed.isEmpty && !path.isEmpty then "/"
  else String.ofList (trimmed.reverse.takeWhile (· ≠ '/')).reverse

/-- What stands before the last name of a path, without slashes at its end. -/
def directoryPart (path : String) : String :=
  let before := ((trimSlashes path).toList.reverse.dropWhile (· ≠ '/')).reverse
  if before.isEmpty then (if path.startsWith "/" then "/" else ".")
  else
    let trimmed := trimSlashes (String.ofList before)
    if trimmed.isEmpty then "/" else trimmed

def pathIn (directory name : String) : String :=
  if directory.isEmpty || directory.endsWith "/" then directory ++ name
  else directory ++ "/" ++ name

def withoutSuffix (suffix name : String) : String :=
  if name.endsWith suffix && suffix.length < name.length then
    (name.dropEnd suffix.length).toString
  else name

def basename : Utility := fun args => do
  let a ← arguments [option 'a' "multiple", option 's' "suffix" .required, option 'z' "zero"]
    args true
  let ending := if a.has "zero" then "\x00" else "\n"
  let several := a.has "multiple" || a.has "suffix"
  if a.operands.isEmpty then refuse "missing operand"
  if !several then
    if let extra :: _ := a.operands.drop 2 then refuse s!"extra operand {inSingleQuotes extra}"
  let names := if several then a.operands else a.operands.take 1
  let suffix := if several then (a.value? "suffix").getD "" else (a.operands.drop 1).headD ""
  for name in names do
    let last := lastName name
    say ((if last.startsWith "/" then last else withoutSuffix suffix last) ++ ending)
  return 0

def dirname : Utility := fun args => do
  let a ← arguments [option 'z' "zero"] args
  if a.operands.isEmpty then refuse "missing operand"
  for name in a.operands do
    say (directoryPart name ++ if a.has "zero" then "\x00" else "\n")
  return 0

/-! ## Where paths lead -/

/-- How much of a path has to be there. -/
inductive PathNeed where
  | everything
  | allButLast
  | nothing
deriving DecidableEq

/-- Whether the end of a path says that what is before it is a directory. -/
def needsDirectory (rest : List String) : Bool :=
  !rest.isEmpty && rest.all fun s => s = "" || s = "." || s = ".."

/-- Follows names from a directory, through links if `follow` says so. -/
def canonicalFrom (fs : FileSystem) (need : PathNeed) (follow : Bool) (links : Nat)
    (here : Location) : List String → Except FileError Location
  | [] => .ok here
  | name :: rest =>
    if FileSystem.isStay name then canonicalFrom fs need follow links here rest
    else if name = ".." then canonicalFrom fs need follow links here.dropLast rest
    else
      let l := here ++ [name]
      match fs.at? here with
      | some { content := .file _, .. } | some { content := .device _, .. } =>
        if need = .nothing then canonicalFrom fs need follow links l rest else .error .notDirectory
      | _ =>
        if !fs.maySearch here && need ≠ .nothing then .error .permission
        else match fs.at? l with
        | none =>
          if need = .nothing || (need = .allButLast && rest.all (· = "")) then
            canonicalFrom fs need follow links l rest
          else .error .noEntry
        | some e =>
          match e.content, follow with
          | .link target, true =>
            match links with
            | 0 => if need = .nothing then canonicalFrom fs need follow 0 l rest
              else .error .tooManyLinks
            | links + 1 =>
              canonicalFrom fs need follow links (if target.isAbsolute then [] else here)
                (FileSystem.steps target ++ rest)
          | .file _, _ =>
            if needsDirectory rest && need ≠ .nothing then .error .notDirectory
            else canonicalFrom fs need follow links l rest
          | _, _ => canonicalFrom fs need follow links l rest
termination_by names => (links, names.length)

def canonical (need : PathNeed) (follow : Bool) (path : String) :
    UtilityM (Except FileError Location) := do
  if path.isEmpty then return .error .noEntry
  let p := ByteText.path path
  let cwd := (← context).cwd
  let start := if p.isAbsolute then [] else cwd
  return canonicalFrom (← files) need follow FileSystem.linkLimit start (FileSystem.steps p)

def locationText (l : Location) : String := ByteText.ofText (FileSystem.pathOf l).text

def linkTarget (path : String) : UtilityM (Except FileError String) := do
  match ← lookupLink path with
  | .error e => return .error e
  | .ok (_, { content := .link target, .. }) => return .ok (ByteText.ofText target.text)
  | .ok _ => return .error .invalidArgument

def readlink : Utility := fun args => do
  let a ← arguments [option 'f' "canonicalize", option 'e' "canonicalize-existing",
    option 'm' "canonicalize-missing", option 'n' "no-newline", option 'q' "quiet",
    option 's' "silent", option 'v' "verbose", option 'z' "zero"] args
  if a.operands.isEmpty then refuse "missing operand"
  let verbose := a.last? ["verbose", "quiet", "silent"] = some "verbose"
  let several := 1 < a.operands.length
  if several && a.has "no-newline" then
    complain "ignoring --no-newline with multiple arguments"
  let ending := if a.has "no-newline" && !several then ""
    else if a.has "zero" then "\x00" else "\n"
  let find (name : String) : UtilityM (Except FileError String) := do
    let whole (need : PathNeed) : UtilityM (Except FileError String) := do
      return (← canonical need true name).map locationText
    match a.last? ["canonicalize", "canonicalize-existing", "canonicalize-missing"] with
    | some "canonicalize" => whole .allButLast
    | some "canonicalize-existing" => whole .everything
    | some _ => whole .nothing
    | none => linkTarget name
  forEach a.operands fun name => do
    match ← find name with
    | .ok target =>
      say (target ++ ending)
      return 0
    | .error e =>
      if verbose then complainOf name e
      return 1

def pathBetween (origin goal : Location) : String :=
  let rec strip : Location → Location → Location × Location
    | a :: as, b :: bs => if a = b then strip as bs else (a :: as, b :: bs)
    | as, bs => (as, bs)
  let (up, down) := strip origin goal
  let names := up.map (fun _ => "..") ++ down.map ByteText.ofText
  if names.isEmpty then "." else "/".intercalate names

def realpath : Utility := fun args => do
  let a ← arguments [option 'e' "canonicalize-existing", option 'm' "canonicalize-missing",
    option 'L' "logical", option 'P' "physical", option 'q' "quiet", option 's' "strip",
    word "no-symlinks", option 'z' "zero", word "relative-to" .required,
    word "relative-base" .required] args
  if a.operands.isEmpty then refuse "missing operand"
  let need : PathNeed :=
    match a.last? ["canonicalize-existing", "canonicalize-missing"] with
    | some "canonicalize-existing" => .everything
    | some _ => .nothing
    | none => .allButLast
  let links := a.last? ["logical", "physical", "strip", "no-symlinks"]
  let find (name : String) : UtilityM (Except FileError Location) := do
    if links = some "logical" then
      match ← canonical need false name with
      | .error e => return .error e
      | .ok l => canonical need true (locationText l)
    else canonical need (links = none || links = some "physical") name
  let base (key : String) : UtilityM (Option Location) := do
    match a.value? key with
    | none => return none
    | some name =>
      match ← find name with
      | .error e => fail s!"{nameInMessage name}: {e.name}"
      | .ok l =>
        let isDirectory := (← files).isDirectory [] (FileSystem.pathOf l)
        if need = .everything && !isDirectory then
          fail s!"{nameInMessage name}: {FileError.notDirectory.name}"
        return some l
  let relativeTo ← base "relative-to"
  let relativeBase ← base "relative-base"
  let relativeTo := relativeTo <|> relativeBase
  let shown (l : Location) : String :=
    match relativeTo with
    | none => locationText l
    | some origin =>
      if relativeBase.all fun b => b.isPrefixOf l && b.isPrefixOf origin then pathBetween origin l
      else locationText l
  forEach a.operands fun name => do
    match ← find name with
    | .ok l =>
      say (shown l ++ if a.has "zero" then "\x00" else "\n")
      return 0
    | .error e =>
      unless a.has "quiet" do complainOf name e
      return 1

/-! ## The working directory -/

/-- Whether a text names the working directory without `.` and `..`. -/
def namesWorkingDirectory (path : String) : UtilityM Bool := do
  let p := ByteText.path path
  let plain := (FileSystem.steps p).all fun s => s ≠ "." && s ≠ ".."
  match ← lookup path with
  | .ok (l, _) => return p.isAbsolute && plain && l = (← context).cwd
  | .error _ => return false

def pwd : Utility := fun args => do
  let a ← arguments [option 'L' "logical", option 'P' "physical"] args
  unless a.operands.isEmpty do complain "ignoring non-option arguments"
  let named := ((← context).getEnv? "PWD").getD ""
  if a.last? ["logical", "physical"] = some "logical" && (← namesWorkingDirectory named) then
    sayLine named
  else sayLine (locationText (← context).cwd)
  return 0

end ModularBuild.Utility
