import ModularBuild.Files.Mode
import ModularBuild.Process.FileTest
import ModularBuild.Utility.Links

/-!
# Copying and moving

`cp` copies files, and directories with all that lies below them, `mv` gives them new paths, and
`install` copies programs and gives them their permissions. What is there already is kept, asked
about, moved aside or lost, as the options say.
-/

namespace ModularBuild.Utility

open Text

/-! ## What is asked for -/

/-- What becomes of a file that is in the way. -/
inductive Conflict where
  | replace
  | ask
  /-- Kept, and told of. -/
  | refuse
  /-- Kept. -/
  | keep
  /-- Kept unless it is older. -/
  | replaceOlder
deriving DecidableEq

/-- Which links are followed to what they lead to. -/
inductive LinkRule where
  | always
  | operands
  | never
deriving DecidableEq

inductive CopyKind where
  | content
  | name
  | link
deriving DecidableEq

structure Copying where
  recursive : Bool := false
  links : LinkRule := .always
  kind : CopyKind := .content
  conflict : Conflict := .replace
  /-- Whether files that cannot be written are removed first. -/
  force : Bool := false
  /-- Whether files in the way are removed in any case. -/
  removes : Bool := false
  keepsMode : Bool := false
  keepsTimes : Bool := false
  /-- Whether names of one file stay names of one file. -/
  keepsTwins : Bool := false
  verbose : Bool := false
  backups : Option Backups := none
  /-- The permissions that copies get. -/
  mode : Option Nat := none
  /-- What is said of directories that are left out. -/
  omission : String := "omitting directory"
  /-- Whether only attributes are copied. -/
  attributesOnly : Bool := false

structure CopyMemory where
  made : List Location := []
  /-- Where the first name of a file with several went. -/
  twins : List (Nat × String) := []

abbrev CopyM := StateT CopyMemory UtilityM

namespace Copying

/-- Complains; the exit code is 1. -/
def refused (s : String) : CopyM Nat := do
  complain s
  return 1

def remember (path : String) : CopyM Unit := do
  if let .ok (l, _) := ← lookupLink path then modify fun m => { m with made := l :: m.made }

def askOverwrite (path : String) (e : FileEntry) : UtilityM Bool :=
  if e.mayWrite then confirms s!"overwrite {shellQuoted path}"
  else confirms (s!"replace {shellQuoted path}, overriding mode {numeral 8 4 e.mode} (" ++
    FileMode.letters e.mode ++ ")")

def announce (c : Copying) (source path : String) (backup : Option String) : UtilityM Unit := do
  if c.verbose then
    let note := match backup with
      | some b => s!" (backup: {shellQuoted b})"
      | none => ""
    sayLine s!"{shellQuoted source} -> {shellQuoted path}{note}"

/-- Whether what is in the way may be replaced, else the exit code. -/
def settle (c : Copying) (source : FileEntry) (path : String) (old : FileEntry) :
    UtilityM (Option Nat) := do
  match c.conflict with
  | .replace => return none
  | .keep => return some 0
  | .refuse =>
    complain s!"not replacing {shellQuoted path}"
    return some 1
  | .replaceOlder => return if source.modified ≤ old.modified then some 0 else none
  | .ask => return if ← askOverwrite path old then none else some 1

def isSame (a b : Location × FileEntry) : Bool :=
  a.1 = b.1 || (a.2.twin.isSome && a.2.twin = b.2.twin)

/-! ## Files -/

def dress (c : Copying) (source : FileEntry) (path : String) : UtilityM Unit := do
  let cwd := (← context).cwd
  let p := ByteText.path path
  match c.mode with
  | some mode => discard <| change (·.setMode cwd p mode)
  | none =>
    if c.keepsMode then
      let kept := if source.own then source.mode else source.mode &&& 0o1777
      discard <| change (·.setMode cwd p kept)
  if c.keepsTimes then discard <| change (·.setModified cwd p source.modified)

def writeFile (c : Copying) (source : String) (e : FileEntry) (path : String) (isNew : Bool) :
    UtilityM Nat := do
  let context ← context
  let cwd := context.cwd
  let failed (what : String) (e : FileError) : UtilityM Nat := do
    complain s!"{what}: {e.name}"
    return 1
  match ← readNamed source with
  | .error error => failed s!"cannot open {shellQuoted source} for reading" error
  | .ok text =>
    let make : UtilityM (Except FileError Unit) := do
      let mode := (c.mode.getD e.mode) &&& (0o7777 ^^^ context.umask)
      match ← change (·.write cwd (ByteText.path path) [] mode) with
      | .error .isDirectory =>
        return .error (if path.endsWith "/" then .notDirectory else .isDirectory)
      | r => return r
    let write : UtilityM (Except FileError Unit) := do
      match ← openNamed path { writes := true, truncates := !c.attributesOnly } with
      | .error e => return .error e
      | .ok i => if c.attributesOnly then return .ok () else writeOpened i text
    let cannotCreate := s!"cannot create regular file {shellQuoted path}"
    let create : UtilityM Nat := do
      match ← make with
      | .error e => failed cannotCreate e
      | .ok () =>
        unless text.isEmpty do discard write
        c.dress e path
        return 0
    if isNew then
      if (← files).isLink cwd (ByteText.path path) then
        complain s!"not writing through dangling symlink {shellQuoted path}"
        return 1
      create
    else match ← write with
      | .ok () =>
        c.dress e path
        return 0
      | .error .noSpace =>
        failed s!"error writing {shellQuoted path}" .noSpace
      | .error error =>
        if !c.force then return ← failed cannotCreate error
        match ← onMachine (Machine.unlink cwd (ByteText.path path)) with
        | .error e => failed s!"cannot remove {shellQuoted path}" e
        | .ok () => create

def copyFile (c : Copying) (source : String) (e : FileEntry) (path : String) (isNew : Bool) :
    CopyM Nat := do
  let cwd := (← context).cwd
  let p := ByteText.path path
  let linkTo (target : String) (failure : String) : CopyM Nat := do
    match ← (change (·.makeLink cwd (ByteText.path target) p) : UtilityM _) with
    | .ok () => return 0
    | .error e => refused s!"{failure}: {e.name}"
  let nameOf (source failure : String) : CopyM Nat := do
    match ← (change (·.makeName cwd (ByteText.path source) p) : UtilityM _) with
    | .ok () => return 0
    | .error e => refused s!"{failure}: {e.name}"
  match c.kind, e.content with
  | .link, _ =>
    let failure := s!"cannot create symbolic link {shellQuoted path} to {shellQuoted source}"
    if source.startsWith "/" || directoryPart path = "." then linkTo source failure
    else refused (s!"{nameInMessage path}: can make relative symbolic links only in current " ++
      "directory")
  | .name, _ =>
    nameOf source s!"cannot create hard link {shellQuoted path} to {shellQuoted source}"
  | .content, .link target =>
    let text := ByteText.ofText target.text
    linkTo text s!"cannot create symbolic link {shellQuoted path}"
  | .content, _ =>
    match e.twin, c.keepsTwins with
    | some twin, true =>
      match (← get).twins.find? (·.1 = twin) with
      | some (_, first) =>
        nameOf first s!"cannot create hard link {shellQuoted path} to {shellQuoted first}"
      | none =>
        modify fun m => { m with twins := (twin, path) :: m.twins }
        c.writeFile source e path isNew
    | _, _ => c.writeFile source e path isNew

/-! ## Trees -/

def takesAway (c : Copying) (source old : FileEntry) : Bool :=
  old.content ≠ .directory && (c.removes || (c.kind ≠ .content && c.force) ||
    (c.keepsTwins && old.twin.isSome) ||
    (c.links = .never && !source.isFile && source.content ≠ .directory))

structure Route where
  source : String
  path : String

/-- Copies an entry with what lies below it; `depth` bounds the directories inside each other, and
`whole` is what the operand said. -/
def copyTree (c : Copying) (whole : Route) (top : Bool) : Nat → Route → CopyM Nat
  | 0, r => refused s!"cannot stat {shellQuoted r.source}: {FileError.tooManyLinks.name}"
  | depth + 1, ⟨source, path⟩ => do
    let cwd := (← context).cwd
    let follows := c.links = .always || (top && c.links = .operands)
    let found ← if follows then lookup source else lookupLink source
    match found with
    | .error e => refused s!"cannot stat {shellQuoted source}: {e.name}"
    | .ok (l, e) =>
      let isDirectory := e.content = .directory
      if isDirectory && !c.recursive then
        return ← refused s!"{c.omission} {shellQuoted source}"
      if isDirectory && (← get).made.contains l then
        return ← refused (s!"cannot copy a directory, {shellQuoted whole.source}, into itself, " ++
          shellQuoted whole.path)
      let followsOld := e.isFile && c.kind = .content && c.backups.isNone && !c.removes
      let old? ← if followsOld then lookup path else lookupLink path
      let mut backup : Option String := none
      let mut isNew := true
      match old? with
      | .error error =>
        if error ≠ .noEntry && error ≠ .tooManyLinks && !path.endsWith "/" && top then
          return ← refused s!"cannot stat {shellQuoted path}: {error.name}"
      | .ok (k, old) =>
        isNew := false
        if isSame (l, e) (k, old) && !(isDirectory && l ≠ k) then
          if c.kind = .name then return 0
          return ← refused s!"{shellQuoted source} and {shellQuoted path} are the same file"
        unless isDirectory do
          if let some code := ← c.settle e path old then return code
        if isDirectory && old.content ≠ .directory then
          return ← refused (s!"cannot overwrite non-directory {shellQuoted path} with directory " ++
            shellQuoted source)
        if !isDirectory && old.content = .directory then
          return ← refused s!"cannot overwrite directory {shellQuoted path} with non-directory"
        if !isDirectory && (← get).made.contains k && c.backups.isNone then
          return ← refused (s!"will not overwrite just-created {shellQuoted path} with " ++
            shellQuoted source)
        if !isDirectory then
          match c.backups with
          | some b =>
            match ← (b.keep path : UtilityM _) with
            | .ok kept =>
              backup := some kept
              isNew := true
            | .error error =>
              return ← refused s!"cannot backup {shellQuoted path}: {error.name}"
          | none =>
            if c.takesAway e old then
              match ← (onMachine (Machine.unlink cwd (ByteText.path path)) : UtilityM _) with
              | .ok () =>
                isNew := true
                if c.verbose then sayLine s!"removed {shellQuoted path}"
              | .error error =>
                return ← refused s!"cannot remove {shellQuoted path}: {error.name}"
      if !isDirectory || isNew then c.announce source path backup
      if !isDirectory then
        let code ← c.copyFile source e path isNew
        if code = 0 then remember path
        return code
      if isNew then
        let mode := (e.mode &&& (0o1777 ^^^ (← context).umask)) ||| 0o700
        match ← (change (·.makeDirectory cwd (ByteText.path path) mode) : UtilityM _) with
        | .error error =>
          return ← refused s!"cannot create directory {shellQuoted path}: {error.name}"
        | .ok () => remember path
      if !e.mayRead || !e.mayExecute then
        return ← refused s!"cannot access {shellQuoted source}: {FileError.permission.name}"
      let names := ((← files).childNames l).map ByteText.ofText
      let copyChild (code : Nat) (name : String) : CopyM Nat := do
        let child : Route := ⟨pathIn source name, pathIn path name⟩
        return max code (← c.copyTree whole false depth child)
      let code ← names.foldlM copyChild 0
      if isNew then
        let mode := e.mode &&& (0o1777 ^^^ (← context).umask)
        discard <| (change (·.setMode cwd (ByteText.path path) mode) : UtilityM _)
      if isNew || c.keepsMode then c.dress e path
      return code

def run (c : Copying) (routes : List Route) : UtilityM Nat := do
  let depth := (← files).entries.size + 2
  let step (code : Nat) (r : Route) : CopyM Nat := do
    return max code (← c.copyTree r true depth r)
  let (code, _) ← (routes.foldlM step 0).run {}
  return code

end Copying

/-- The new path of a source, `..` counting as `.`. -/
def routeOf (d : Destination) (source : String) : Copying.Route :=
  match d.directory with
  | some directory =>
    let last := lastName source
    ⟨source, pathIn directory (if last = ".." then "." else if last = "/" then "" else last)⟩
  | none => ⟨source, d.target⟩

def conflictOf (a : Arguments) (refusal : Conflict) : UtilityM Conflict := do
  let updates ← match a.options.reverse.find? (·.key = "update") with
    | none => pure Conflict.replace
    | some o =>
      match o.value with
      | none => pure .replaceOlder
      | some s =>
        match ← choiceOf "update" s ["all", "none", "none-fail", "older"] with
        | "all" => pure .replace
        | "older" => pure .replaceOlder
        | "none" => pure .keep
        | _ => pure .refuse
  return match a.last? ["interactive", "no-clobber", "force"] with
  | some "interactive" => .ask
  | some "no-clobber" => refusal
  | _ => updates

/-- Makes the directories of a path below another one, for a copy with all of its path. -/
def makeParents (verbose : Bool) (directory source : String) : UtilityM Unit := do
  let names := (FileSystem.steps (ByteText.path (directoryPart source))).filter fun s =>
    s ≠ "" && s ≠ "."
  let cwd := (← context).cwd
  let mut path := directory
  let mut origin := if source.startsWith "/" then "/" else ""
  for name in names do
    path := pathIn path (ByteText.ofText name)
    origin := pathIn origin (ByteText.ofText name)
    if !(← isDirectory path) then
      let mode := match ← lookup origin with
        | .ok (_, e) => e.mode
        | .error _ => 0o755
      discard <| change (·.makeDirectory cwd (ByteText.path path) mode)
      if verbose then sayLine s!"{origin} -> {path}"

def cpOptions : List OptionSpec :=
  [option 'a' "archive", word "attributes-only", letter 'd', option 'f' "force", letter 'H',
    option 'i' "interactive", option 'l' "link", option 'L' "dereference",
    option 'n' "no-clobber", option 'P' "no-dereference", letter 'p', word "preserve" .optional,
    word "no-preserve" .required, word "parents", option 'R' "recursive", letter 'r',
    word "reflink" .optional, word "remove-destination", word "sparse" .required,
    word "strip-trailing-slashes", option 's' "symbolic-link", option 'u' "update",
    option 'v' "verbose", option 'x' "one-file-system", letter 'Z', word "copy-contents"] ++
    destinationOptions ++ backupOptions

/-- An option `--update` may have a value, `-u` none. -/
def withUpdateWord (specs : List OptionSpec) : List OptionSpec :=
  (specs.filter (·.key ≠ "update")) ++
    [⟨some 'u', some "update", .none⟩]

/-- The arguments with `--update=…` set apart from `-u`. -/
def updateArguments (specs : List OptionSpec) (args : List String) : UtilityM Arguments := do
  let mark := "--update="
  let values := args.filter (·.startsWith mark)
  let a ← arguments (withUpdateWord specs) (args.filter (!·.startsWith mark))
  let given := values.map fun s => (⟨"update", some (s.drop mark.length).toString⟩ : GivenOption)
  return { a with options := a.options ++ given }

def cp : Utility := fun args => do
  let a ← updateArguments cpOptions args
  if a.has "no-clobber" then
    complain ("warning: behavior of -n is non-portable and may change in future; use " ++
      "--update=none instead")
  let archive := a.has "archive"
  let recursive := a.has "recursive" || a.has "r" || archive
  let kept := ((a.values "preserve").map fun s => s.splitOn ",").flatten
  let keeps (what : String) : Bool :=
    archive || (what ≠ "links" && (a.has "p" || (a.has "preserve" && kept.isEmpty))) ||
      kept.contains what || kept.contains "all"
  let dropped := ((a.values "no-preserve").map fun s => s.splitOn ",").flatten
  let links : LinkRule :=
    match a.last? ["dereference", "H", "no-dereference", "d", "archive"] with
    | some "dereference" => .always
    | some "H" => .operands
    | some _ => .never
    | none => if recursive then .never else .always
  let copying : Copying := {
    recursive, links
    kind := if a.has "link" then .name else if a.has "symbolic-link" then .link else .content
    conflict := ← conflictOf a .keep
    force := a.has "force", removes := a.has "remove-destination"
    keepsMode := keeps "mode" && !dropped.contains "mode"
    keepsTimes := keeps "timestamps" && !dropped.contains "timestamps"
    keepsTwins := keeps "links" || a.has "d"
    verbose := a.has "verbose", backups := ← backupsOf a
    omission := "-r not specified; omitting directory"
    attributesOnly := a.has "attributes-only" }
  let d ← destinationOf a
  if a.has "parents" then
    match d.directory with
    | none => refuse "with --parents, the destination must be a directory"
    | some directory =>
      for source in d.sources do
        if (← lookup source).toOption.isSome then makeParents copying.verbose directory source
      copying.run (d.sources.map fun s => ⟨s, pathIn directory (String.ofList
        (s.toList.dropWhile (· = '/')))⟩)
  else copying.run (d.sources.map (routeOf d))

/-! ## Moving -/

def moveEntry (c : Copying) (r : Copying.Route) : CopyM Nat := do
  let ⟨source, path⟩ := r
  let cwd := (← context).cwd
  match ← lookupLink source with
  | .error e => Copying.refused s!"cannot stat {shellQuoted source}: {e.name}"
  | .ok (l, e) =>
    let isDirectory := e.content = .directory
    let mut backup : Option String := none
    if let .ok (k, old) := ← lookupLink path then
      if l = k then
        if isDirectory && source ≠ path && lastName source = lastName path &&
            path.length > source.length then
          return ← Copying.refused (s!"cannot move {shellQuoted source} to a subdirectory of " ++
            s!"itself, {shellQuoted path}")
        return ← Copying.refused s!"{shellQuoted source} and {shellQuoted path} are the same file"
      if let some code := ← c.settle e path old then return code
      if isDirectory && old.content ≠ .directory then
        return ← Copying.refused (s!"cannot overwrite non-directory {shellQuoted path} with " ++
          s!"directory {shellQuoted source}")
      if !isDirectory && old.content = .directory then
        return ← Copying.refused
          s!"cannot overwrite directory {shellQuoted path} with non-directory"
      if !isDirectory && (← get).made.contains k && c.backups.isNone then
        return ← Copying.refused (s!"will not overwrite just-created {shellQuoted path} with " ++
          shellQuoted source)
      if Copying.isSame (l, e) (k, old) && c.backups.isNone then
        discard <| (onMachine (Machine.unlink cwd (ByteText.path source)) : UtilityM _)
        if c.verbose then sayLine s!"removed {shellQuoted source}"
        return 0
      if let some b := c.backups then
        match ← (b.keep path : UtilityM _) with
        | .ok kept => backup := some kept
        | .error error =>
          return ← Copying.refused s!"cannot backup {shellQuoted path}: {error.name}"
    let moving := Machine.rename cwd (ByteText.path source) (ByteText.path path)
    match ← (onMachine moving : UtilityM _) with
    | .ok () =>
      let note := match backup with
        | some b => s!" (backup: {shellQuoted b})"
        | none => ""
      if c.verbose then
        sayLine s!"renamed {shellQuoted source} -> {shellQuoted path}{note}"
      Copying.remember path
      return 0
    | .error .invalidArgument =>
      Copying.refused (s!"cannot move {shellQuoted source} to a subdirectory of itself, " ++
        shellQuoted path)
    | .error .notEmpty =>
      Copying.refused s!"cannot overwrite {shellQuoted path}: {FileError.notEmpty.name}"
    | .error error =>
      Copying.refused s!"cannot move {shellQuoted source} to {shellQuoted path}: {error.name}"

def mv : Utility := fun args => do
  let a ← updateArguments ([option 'f' "force", option 'i' "interactive", option 'n' "no-clobber",
    word "strip-trailing-slashes", option 'u' "update", option 'v' "verbose", letter 'Z',
    word "no-copy", word "debug"] ++ destinationOptions ++ backupOptions) args
  let copying : Copying := {
    conflict := ← conflictOf a .refuse, verbose := a.has "verbose", backups := ← backupsOf a }
  let d ← destinationOf a
  let sources := if a.has "strip-trailing-slashes" then d.sources.map trimSlashes else d.sources
  let step (code : Nat) (source : String) : CopyM Nat := do
    return max code (← moveEntry copying ⟨source, d.pathOf source⟩)
  let (code, _) ← (sources.foldlM step 0).run {}
  return code

/-! ## Installing -/

/-- Makes a directory and those above it, which are told of if that is asked for. -/
def installDirectory (verbose : Bool) (mode : Nat) (path : String) : UtilityM Nat := do
  let cwd := (← context).cwd
  let cs := path.toList
  let isCut (i : Nat) : Bool := 0 < i && cs[i]? = some '/' && cs[i - 1]? ≠ some '/'
  let above := ((List.range cs.length).filter isCut).map fun i => String.ofList (cs.take i)
  for p in above ++ [trimSlashes path] do
    if !p.isEmpty && !(← isDirectory p) then
      match ← change (·.makeDirectory cwd (ByteText.path p) 0o755) with
      | .ok () => if verbose then sayLine s!"{← programName}: creating directory {shellQuoted p}"
      | .error e =>
        complain s!"cannot create directory {shellQuoted p}: {e.name}"
        return 1
  match ← change (·.setMode cwd (ByteText.path path) mode) with
  | .ok () => return 0
  | .error e =>
    complain s!"cannot change permissions of {shellQuoted path}: {e.name}"
    return 1

def install : Utility := fun args => do
  let a ← arguments ([letter 'c', option 'C' "compare", option 'd' "directory", letter 'D',
    option 'g' "group" .required, option 'm' "mode" .required, option 'o' "owner" .required,
    option 'p' "preserve-timestamps", option 's' "strip", word "strip-program" .required,
    option 'v' "verbose", letter 'Z'] ++ destinationOptions ++ backupOptions) args
  let modeText := (a.value? "mode").getD "755"
  let mode (isDirectory : Bool) : UtilityM Nat := do
    match FileMode.ofText? modeText with
    | some changes => return FileMode.apply changes 0 isDirectory 0
    | none => fail s!"invalid mode {inSingleQuotes modeText}"
  let verbose := a.has "verbose"
  if a.has "directory" then
    if a.operands.isEmpty then refuse "missing file operand"
    let mode ← mode true
    forEach a.operands (installDirectory verbose mode)
  else
    let mode ← mode false
    let copying : Copying := {
      removes := true, mode := some mode, keepsTimes := a.has "preserve-timestamps"
      verbose, backups := ← backupsOf a }
    if a.has "D" then
      let directory := match a.value? "target-directory" with
        | some t => t
        | none => directoryPart (a.operands.getLastD ".")
      if 1 < a.operands.length || a.has "target-directory" then
        let code ← if ← isDirectory directory then pure 0 else installDirectory verbose 0o755 directory
        if code ≠ 0 then quit code
    let d ← destinationOf a
    copying.run (d.sources.map (routeOf d))

end ModularBuild.Utility
