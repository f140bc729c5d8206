import ModularBuild.Utility.Removal

/-!
# Links

`ln` gives files more names, or makes links to paths; `link` gives a file one more name. A backup of
what was there before can be kept.
-/

namespace ModularBuild.Utility

open Text

/-! ## Destinations -/

structure Destination where
  sources : List String
  /-- The directory that the sources go into; none if `target` is the new path of the only source. -/
  directory : Option String := none
  target : String := ""

def Destination.pathOf (d : Destination) (source : String) : String :=
  match d.directory with
  | some directory => pathIn directory (lastName source)
  | none => d.target

def destinationOptions : List OptionSpec :=
  [option 't' "target-directory" .required, option 'T' "no-target-directory"]

def notTarget (path : String) : UtilityM FileError := do
  match ← lookup path with
  | .ok _ => return .notDirectory
  | .error e => return e

/-- Where the operands go; `follows` says whether the target may be a link to a directory. -/
def destinationOf (a : Arguments) (follows : Bool := true) : UtilityM Destination := do
  let isTarget (path : String) : UtilityM Bool := do
    let isLink := (← files).isLink (← context).cwd (ByteText.path path)
    return (follows || !isLink) && (← isDirectory path)
  if let some directory := a.value? "target-directory" then
    if a.has "no-target-directory" then
      fail "cannot combine --target-directory (-t) and --no-target-directory (-T)"
    if a.operands.isEmpty then refuse "missing file operand"
    if !(← isDirectory directory) then
      fail s!"target directory {shellQuoted directory}: {(← notTarget directory).name}"
    return { sources := a.operands, directory := some directory }
  let target := a.operands.getLastD ""
  match a.operands with
  | [] => refuse "missing file operand"
  | [only] => refuse s!"missing destination file operand after {inSingleQuotes only}"
  | [source, target] =>
    if !a.has "no-target-directory" && (← isTarget target) then
      return { sources := [source], directory := some target }
    return { sources := [source], target }
  | _ :: _ :: extra :: _ =>
    if a.has "no-target-directory" then refuse s!"extra operand {inSingleQuotes extra}"
    if !(← isDirectory target) then
      fail s!"target {shellQuoted target}: {(← notTarget target).name}"
    return { sources := a.operands.dropLast, directory := some target }

/-! ## Backups -/

inductive BackupStyle where
  | simple
  | numbered
  /-- Numbered if there are numbered ones already. -/
  | existing
deriving DecidableEq

structure Backups where
  style : BackupStyle
  suffix : String

def backupOptions : List OptionSpec :=
  [letter 'b', word "backup" .optional, option 'S' "suffix" .required]

def backupsOf (a : Arguments) : UtilityM (Option Backups) := do
  let suffix := (a.value? "suffix").getD "~"
  let given := ["b", "backup", "suffix"].any a.has
  let make (style : BackupStyle) : Option Backups := some { style, suffix }
  match a.value? "backup" with
  | none => return if given then make .existing else none
  | some s =>
    let words := ["none", "off", "simple", "never", "existing", "nil", "numbered", "t"]
    match words.filter (·.startsWith s) with
    | w :: _ =>
      if w = "none" || w = "off" then return none
      else if w = "simple" || w = "never" then return make .simple
      else if w = "existing" || w = "nil" then return make .existing
      else return make .numbered
    | [] =>
      refuse (s!"invalid argument {inSingleQuotes s} for 'backup type'\nValid arguments are:" ++
        "\n  - 'none', 'off'\n  - 'simple', 'never'\n  - 'existing', 'nil'\n  - 'numbered', 't'")

def Backups.pathFor (b : Backups) (path : String) : UtilityM String := do
  let directory := directoryPart path
  let name := lastName path
  let numberOf (other : String) : Nat :=
    let start := name ++ ".~"
    if other.startsWith start && other.endsWith "~" then
      (((other.drop start.length).dropEnd 1).toString.toNat?).getD 0
    else 0
  let cwd := (← context).cwd
  let names := ((← files).list cwd (ByteText.path directory)).toOption.getD []
  let highest := (names.map fun n => numberOf (ByteText.ofText n)).foldl max 0
  if b.style = .numbered || (b.style = .existing && 0 < highest) then
    return s!"{path}.~{highest + 1}~"
  return path ++ b.suffix

/-- Moves what is at a path out of the way; the answer is where it is now. -/
def Backups.keep (b : Backups) (path : String) : UtilityM (Except FileError String) := do
  let kept ← b.pathFor path
  let cwd := (← context).cwd
  return (← onMachine (Machine.rename cwd (ByteText.path path) (ByteText.path kept))).map
    fun () => kept

/-! ## Linking -/

/-- How `ln` works. -/
structure Linking where
  symbolic : Bool
  force : Bool
  asks : Bool
  verbose : Bool
  /-- Whether targets are written as seen from where the link is. -/
  relative : Bool
  /-- Whether a link to a file is followed before the file gets a name. -/
  logical : Bool
  backups : Option Backups

namespace Linking

def sameEntry (p q : String) : UtilityM Bool := do
  match ← lookupLink p, ← lookupLink q with
  | .ok (l, _), .ok (k, _) => return l = k
  | _, _ => return false

def targetText (k : Linking) (source path : String) : UtilityM String := do
  if !k.relative then return source
  match ← canonical .nothing true (directoryPart path), ← canonical .nothing true source with
  | .ok here, .ok there => return pathBetween here there
  | _, _ => return source

def clear (k : Linking) (path : String) : UtilityM (Except FileError (Option String)) := do
  if (← lookupLink path).toOption.isNone then return .ok none
  match k.backups with
  | some b => return (← b.keep path).map some
  | none =>
    if k.force || k.asks then
      let cwd := (← context).cwd
      match ← onMachine (Machine.unlink cwd (ByteText.path path)) with
      | .ok () => return .ok none
      | .error e => return .error e
    return .ok none

def link (k : Linking) (source path : String) : UtilityM Nat := do
  let c ← context
  let cwd := c.cwd
  let follow := k.logical && !k.symbolic
  let found ← if follow then lookup source else lookupLink source
  if !k.symbolic then
    match found with
    | .error e =>
      complain s!"failed to access {shellQuoted source}: {e.name}"
      return 1
    | .ok (_, e) =>
      if e.content = .directory then
        complain s!"{nameInMessage source}: hard link not allowed for directory"
        return 1
  let present := (← lookupLink path).toOption
  if let some (_, old) := present then
    let replaces := k.force || k.asks || k.backups.isSome
    if replaces && old.content = .directory then
      complain s!"{nameInMessage path}: cannot overwrite directory"
      return 1
    if (k.force || k.asks) && k.backups.isNone then
      let same ← sameEntry source path
      if same then
        complain s!"{shellQuoted source} and {shellQuoted path} are the same file"
        return 1
    if k.asks then
      unless ← confirms s!"replace {shellQuoted path}" do return 0
  let target ← k.targetText source path
  let what := if k.symbolic then "symbolic link" else "hard link"
  let arrow := if k.symbolic then "->" else "=>"
  let refused (e : FileError) : UtilityM Nat := do
    let short := if k.symbolic then e ≠ .nameTooLong && !target.isEmpty else e = .alreadyExists
    let shown := if short then shellQuoted path
      else s!"{shellQuoted path} {arrow} {shellQuoted target}"
    complain s!"failed to create {what} {shown}: {e.name}"
    return 1
  match ← k.clear path with
  | .error e =>
    complain s!"cannot remove {shellQuoted path}: {e.name}"
    return 1
  | .ok backup =>
    let made ← if k.symbolic then change (·.makeLink cwd (ByteText.path target) (ByteText.path path))
      else
        let whole ← canonical .everything true source
        let source := if follow then (whole.toOption.map locationText).getD source else source
        change (·.makeName cwd (ByteText.path source) (ByteText.path path))
    match made with
    | .error e => refused e
    | .ok () =>
      if k.verbose then
        let note := match backup with
          | some b => s!"{shellQuoted b} ~ "
          | none => ""
        sayLine s!"{note}{shellQuoted path} {arrow} {shellQuoted target}"
      return 0

end Linking

def ln : Utility := fun args => do
  let a ← arguments ([letter 'd', letter 'F', option 'f' "force", option 'i' "interactive",
    option 'L' "logical", option 'n' "no-dereference", option 'P' "physical",
    option 'r' "relative", option 's' "symbolic", option 'v' "verbose"] ++ destinationOptions ++
    backupOptions) args
  let linking : Linking := {
    symbolic := a.has "symbolic"
    force := a.last? ["force", "interactive"] = some "force"
    asks := a.last? ["force", "interactive"] = some "interactive"
    verbose := a.has "verbose", relative := a.has "relative"
    logical := a.last? ["logical", "physical"] = some "logical"
    backups := ← backupsOf a }
  if linking.relative && !linking.symbolic then fail "cannot do --relative without --symbolic"
  let d ← match a.operands, a.has "target-directory" || a.has "no-target-directory" with
    | [only], false => pure { sources := [only], directory := some "." : Destination }
    | _, _ => destinationOf a (!a.has "no-dereference")
  forEach d.sources fun source => linking.link source (d.pathOf source)

def link : Utility := fun args => do
  let a ← arguments [] args
  match a.operands with
  | [] => refuse "missing operand"
  | [only] => refuse s!"missing operand after {inSingleQuotes only}"
  | [source, path] =>
    let cwd := (← context).cwd
    match ← change (·.makeName cwd (ByteText.path source) (ByteText.path path)) with
    | .ok () => return 0
    | .error e =>
      fail s!"cannot create link {shellQuoted path} to {shellQuoted source}: {e.name}"
  | _ :: _ :: extra :: _ => refuse s!"extra operand {inSingleQuotes extra}"

end ModularBuild.Utility
