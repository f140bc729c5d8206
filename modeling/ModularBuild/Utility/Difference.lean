import ModularBuild.Moment
import ModularBuild.Regex.Reader
import ModularBuild.Shell.Pattern
import ModularBuild.Utility.Comparison
import ModularBuild.Utility.Difference.Written
import ModularBuild.Utility.Removal

/-!
# Comparing files line by line

`diff` writes how the lines of one file become those of another one: as changes, in hunks with the
lines around them, as commands of an editor, or beside each other. Directories are compared file by
file.
-/

namespace ModularBuild.Utility

open Text

/-! ## Two files -/

structure DiffFile where
  /-- The path of the file. -/
  path : String
  /-- The entry; none if the file counts as empty. -/
  found : Option (Location × FileEntry)
  /-- What the file is called where it has a label. -/
  title : String

def quotedTitle (name : String) : String :=
  let needs (c : Char) : Bool := c = ' ' || c = '"' || c = '\\' || c.toNat < 32 || c.toNat = 127
  let escaped (c : Char) : List Char := match c with
    | '"' => ['\\', '"']
    | '\\' => ['\\', '\\']
    | '\n' => ['\\', 'n']
    | '\t' => ['\\', 't']
    | c => if c.toNat < 32 || c.toNat = 127 then '\\' :: (numeral 8 3 c.toNat).toList else [c]
  if name.toList.any needs then "\"" ++ String.ofList (name.toList.flatMap escaped) ++ "\""
  else name

def DiffMode.titleLine (m : DiffMode) (mark : String) (label : Option String) (f : DiffFile) :
    UtilityM String := do
  match label with
  | some label => return s!"{mark} {label}\n"
  | none =>
    let time ← if f.path = "-" then pure (← files).clock
      else pure ((f.found.map (·.2.modified)).getD 0)
    let format := if m.style = .unified then "%Y-%m-%d %H:%M:%S.%N %z" else "%a %b %e %T %Y"
    return s!"{mark} {quotedTitle f.path}\t{(Moment.ofTime time).format format}\n"

/-- Compares two texts; `nested` says that they were found in directories. -/
def DiffMode.compareTexts (m : DiffMode) (nested : Bool) (x y : DiffFile) (a b : String) :
    UtilityM Nat := do
  let isBinary (s : String) : Bool := !m.asText && (s.toList.take 4096).contains '\x00'
  let differ (what : String) : UtilityM Nat := do
    sayLine s!"{what} {x.title} and {y.title} differ"
    return 1
  if isBinary a || isBinary b then
    if a = b then return 0
    else differ (if m.brief then "Files" else "Binary files")
  else if a = b && m.marksEnds && m.style ≠ .columns then return 0
  else if m.brief && !m.ignoresSomething then
    if a = b then return 0 else differ "Files"
  else
    let plain (s : String) : String := if m.stripsReturns then s.replace "\r\n" "\n" else s
    let olds := (linesWithEnds '\n' (plain a)).toArray
    let news := (linesWithEnds '\n' (plain b)).toArray
    let cs := (m.changes olds news).map fun c => (c, !m.isTrivial olds news c)
    let code := if cs.any (·.2) then 1 else 0
    if m.brief then
      if code = 1 then discard <| differ "Files"
      return code
    let showsAll := m.style = .columns && !m.hidesSame
    if code = 1 || showsAll then
      if nested then
        let name (f : DiffFile) : String := quotedTitle f.title
        sayLine s!"diff{m.switches} {name x} {name y}"
      if m.style = .unified then
        say (← m.titleLine "---" m.labels[0]? x)
        say (← m.titleLine "+++" m.labels[1]? y)
      if m.style = .context then
        say (← m.titleLine "***" m.labels[0]? x)
        say (← m.titleLine "---" m.labels[1]? y)
      say (m.output olds news cs)
    if m.marksEnds then return code
    let tellEnd (f : DiffFile) (s : String) : UtilityM Nat := do
      if s.isEmpty || s.endsWith "\n" then return code
      complain s!"{f.title}: No newline at end of file\n"
      return 2
    let first ← tellEnd x a
    return max first (← tellEnd y b)

def DiffFile.text (f : DiffFile) : UtilityM (Option String) := do
  if f.path ≠ "-" && f.found.isNone then return some ""
  match ← readNamed f.path with
  | .ok s => return some s
  | .error e =>
    complain s!"{f.path}: {e.name}"
    return none

/-! ## Files and directories -/

def DiffMode.namesIn (m : DiffMode) (f : DiffFile) : UtilityM (Option (List String)) := do
  match f.found with
  | none => return some []
  | some (l, e) =>
    if !e.mayRead then
      complain s!"{f.path}: {FileError.name .permission}"
      return none
    let names := ((← files).childNames l).map ByteText.ofText
    return some (names.filter fun n => !m.excluded.any (Shell.textMatches false · n))

def DiffFile.isDirectory (f : DiffFile) : Bool :=
  f.found.any fun r => r.2.content matches .directory

def areSame (x y : DiffFile) : Bool :=
  if x.path = "-" || y.path = "-" then x.path = y.path
  else match x.found, y.found with
    | some (k, d), some (l, e) => k = l || (d.twin.isSome && d.twin = e.twin)
    | _, _ => false

def DiffMode.fileIn (m : DiffMode) (first : Bool) (directory : DiffFile) (name : String)
    (isThere : Bool) : UtilityM (Except FileError DiffFile) := do
  let path := pathIn directory.path name
  let title := (m.labels[if first then 0 else 1]?).getD path
  if !isThere then return .ok { path, found := none, title }
  match ← lookup path with
  | .ok r => return .ok { path, found := some r, title }
  | .error e => return .error e

mutual

/-- Compares two files, directories among them; `fuel` bounds how deep they are. -/
def DiffMode.compare (m : DiffMode) : Nat → Bool → DiffFile → DiffFile → UtilityM Nat
  | 0, _, _, _ => return 0
  | fuel + 1, nested, x, y => do
    let showsAll := m.style = .columns && !m.hidesSame
    let code ← if areSame x y && (x.isDirectory || !showsAll) then pure 0
      else if (x.isDirectory || x.found.isNone) && (y.isDirectory || y.found.isNone) &&
          x.path ≠ "-" && y.path ≠ "-" then
        if nested && !m.recursive then do
          sayLine s!"Common subdirectories: {x.path} and {y.path}"
          pure 0
        else m.compareDirectories fuel x y
      else if x.isDirectory || y.isDirectory then do
        let kind (f : DiffFile) : String := (f.found.map fun r => kindOf r.2).getD ""
        sayLine s!"File {x.title} is a {kind x} while file {y.title} is a {kind y}"
        pure 1
      else do
        let a ← x.text
        let b ← y.text
        match a, b with
        | some a, some b => m.compareTexts nested x y a b
        | _, _ => pure 2
    if code = 0 && m.tellsSame && !x.isDirectory then
      sayLine s!"Files {x.title} and {y.title} are identical"
    return code

def DiffMode.compareDirectories (m : DiffMode) : Nat → DiffFile → DiffFile → UtilityM Nat
  | 0, _, _ => return 0
  | fuel + 1, x, y => do
    let inFirst ← m.namesIn x
    let inSecond ← m.namesIn y
    match inFirst, inSecond with
    | some inFirst, some inSecond =>
      let names := (inFirst ++ inSecond.filter (!inFirst.contains ·)).mergeSort fun a b => a ≤ b
      names.foldlM (fun code name => do
        let here := inFirst.contains name
        let there := inSecond.contains name
        let counts := (here && there) || m.newFiles || (m.newFirst && there)
        if !counts then
          let directory := if here then x.path else y.path
          sayLine s!"Only in {directory}: {name}"
          return max code 1
        let a ← m.fileIn true x name here
        let b ← m.fileIn false y name there
        match a, b with
        | .ok a, .ok b =>
          let single := !(here && there) && (a.isDirectory || b.isDirectory)
          if single && !m.recursive then
            let directory := if here then x.path else y.path
            sayLine s!"Only in {directory}: {name}"
            return max code 1
          return max code (← m.compare fuel true a b)
        | a, b =>
          let tell (directory : DiffFile) : Except FileError DiffFile → UtilityM Unit
            | .ok _ => pure ()
            | .error e => complain s!"{pathIn directory.path name}: {e.name}"
          tell x a
          tell y b
          return 2) 0
    | _, _ => return 2

end

/-! ## The utility -/

def diffOptions : List OptionSpec :=
  [option 'a' "text", option 'b' "ignore-space-change", option 'B' "ignore-blank-lines",
    letter 'c', option 'C' "context" .optional, option 'd' "minimal", option 'e' "ed",
    option 'E' "ignore-tab-expansion", option 'f' "forward-ed", letter 'h',
    option 'F' "show-function-line" .required, option 'H' "speed-large-files",
    option 'i' "ignore-case", option 'I' "ignore-matching-lines" .required, option 'n' "rcs",
    option 'N' "new-file", option 'p' "show-c-function", option 'P' "unidirectional-new-file",
    option 'q' "brief", option 'r' "recursive", option 's' "report-identical-files",
    option 't' "expand-tabs", option 'T' "initial-tab", letter 'u',
    option 'U' "unified" .optional, option 'L' "label" .required,
    option 'w' "ignore-all-space", option 'W' "width" .required, option 'x' "exclude" .required,
    option 'y' "side-by-side", word "suppress-common-lines", word "left-column",
    option 'Z' "ignore-trailing-space", word "normal", word "strip-trailing-cr",
    word "color" .optional, word "binary", letter 'v'] ++
    "0123456789".toList.map fun c => letter c

/-- Options as they are given by letter: with a letter, the lengths of contexts are required. -/
def diffSpecs : List OptionSpec :=
  diffOptions.flatMap fun o =>
    if o.letter = some 'C' || o.letter = some 'U' then
      [{ o with letter := none }, { o with word := none, value := .required }]
    else [o]

/-- The arguments that are options or belong to them; `fuel` is the number of arguments. -/
def optionWords (specs : List OptionSpec) : Nat → List String → List String
  | 0, _ | _, [] => []
  | fuel + 1, a :: rest =>
    let taken (r : Except String (List String)) : List String := match r with
      | .ok more =>
        (a :: rest).take (rest.length + 1 - more.length) ++ optionWords specs fuel more
      | .error _ => []
    match a.toList with
    | ['-', '-'] => [a]
    | '-' :: '-' :: _ => taken ((takeWord specs a rest).map (·.2))
    | '-' :: c :: cs => taken ((takeLetters specs rest (c :: cs)).map (·.2))
    | _ => optionWords specs fuel rest

def diffStyleOf (a : Arguments) : UtilityM (DiffStyle × Nat) := do
  let styleOf (key : String) : Option DiffStyle := match key with
    | "c" | "C" | "context" => some .context
    | "u" | "U" | "unified" => some .unified
    | "e" | "ed" => some .script
    | "f" | "forward-ed" => some .forward
    | "n" | "rcs" => some .counted
    | "normal" => some .normal
    | "y" | "side-by-side" => some .columns
    | _ => none
  let styles := (a.options.filterMap fun o => styleOf o.key).eraseDups
  if 1 < styles.length then refuseNamed "conflicting output style options"
  let style := styles.headD .normal
  let lengths ← (a.options.filter fun o =>
      ["c", "C", "context", "u", "U", "unified"].contains o.key).mapM fun o =>
    match o.value with
    | none => pure 3
    | some s => match s.toNat? with
      | some n => pure n
      | none => refuseNamed s!"invalid context length '{s}'"
  let digits := a.options.filterMap fun o =>
    if o.key.length = 1 then o.key.toList.head?.filter Char.isDigit else none
  let explicit := a.options.any fun o =>
    ["C", "context", "U", "unified"].contains o.key && o.value.isSome
  let given := lengths.foldl max 0
  return match (String.ofList digits).toNat? with
    | some n => (style, if explicit then max given n else n)
    | none => (style, given)

/-- An expression of `diff`. -/
def diffRegex (s : String) : UtilityM Regex := do
  match Regex.compile { extended := false } s.toList with
  | .ok r => return r.regex
  | .error _ => fail s!"{s}: Invalid regular expression"

/-- What is known of an operand: its entry, or nothing of standard input. -/
abbrev FoundFile := Except FileError (Option (Location × FileEntry))

def diff : Utility := fun args => do
  let a ← argumentsNamed diffSpecs args
  let (style, around) ← diffStyleOf a
  let ignored ← (a.values "ignore-matching-lines").mapM diffRegex
  let headings ← (a.values "show-function-line").mapM diffRegex
  let headings := if a.has "show-c-function" then
      headings ++ ((Regex.compile { extended := false } "^[[:alpha:]$_]".toList).toOption.map
        (·.regex)).toList
    else headings
  if let some color := a.value? "color" then
    if !(["always", "never", "auto"].contains color) then refuseNamed s!"invalid color '{color}'"
  let width ← match a.value? "width" with
    | none => pure 130
    | some s => match s.toNat? with
      | some n => if n = 0 then refuseNamed s!"invalid width '{s}'" else pure n
      | none => refuseNamed s!"invalid width '{s}'"
  let labels := a.values "label"
  if 2 < labels.length then fail "too many file label options"
  let usesContext := style = .context || style = .unified
  let (style, around) := if a.has "show-c-function" && !usesContext &&
      style = .normal && !a.has "normal" then (.context, 3) else (style, around)
  let mode : DiffMode := {
    style, around, ignored, labels
    blanks := if a.has "ignore-all-space" then .all
      else if a.has "ignore-space-change" then .amount
      else if a.has "ignore-trailing-space" then .trailing
      else if a.has "ignore-tab-expansion" then .tabs else .none
    folds := a.has "ignore-case", ignoresEmpty := a.has "ignore-blank-lines"
    stripsReturns := a.has "strip-trailing-cr", asText := a.has "text", brief := a.has "brief"
    tellsSame := a.has "report-identical-files", recursive := a.has "recursive"
    newFiles := a.has "new-file", newFirst := a.has "unidirectional-new-file"
    excluded := a.values "exclude"
    switches := String.join
      ((optionWords diffSpecs args.length args).map fun w => " " ++ shellWord w)
    tabFirst := a.has "initial-tab", expandsTabs := a.has "expand-tabs"
    heading := headings.head?, width
    hidesSame := a.has "suppress-common-lines", firstOnly := a.has "left-column" }
  let (x, y) ← match a.operands with
    | [] | [_] => refuseNamed s!"missing operand after '{args.getLast?.getD (← programName)}'"
    | [x, y] => pure (x, y)
    | _ :: _ :: z :: _ => refuseNamed s!"extra operand '{z}'"
  let stateOf (path : String) : UtilityM FoundFile := do
    if path = "-" then return .ok none
    return (← lookup path).map some
  let first ← stateOf x
  let second ← stateOf y
  let excused (first : Bool) (own other : FoundFile) : Bool :=
    (mode.newFiles || (first && mode.newFirst)) && own matches .error .noEntry &&
      other matches .ok _
  let titled (i : Nat) (path : String) (found : Option (Location × FileEntry)) : DiffFile :=
    { path, found, title := (labels[i]?).getD path }
  let settle (i : Nat) (path : String) (own other : FoundFile) : UtilityM (Option DiffFile) := do
    match own with
    | .ok found => return some (titled i path found)
    | .error e =>
      if excused (i = 0) own other then return some (titled i path none)
      complain s!"{path}: {e.name}"
      return none
  let p ← settle 0 x first second
  let q ← settle 1 y second first
  let (p, q) ← match p, q with
    | some p, some q => pure (p, q)
    | _, _ => quit 2
  let inside (i : Nat) (directory file : DiffFile) : UtilityM DiffFile := do
    if file.path = "-" then fail "cannot compare '-' to a directory"
    let path := pathIn directory.path (lastName file.path)
    match ← lookup path with
    | .ok found => return titled i path (some found)
    | .error e => fail s!"{path}: {e.name}"
  let vanished (f : DiffFile) : Bool := f.path ≠ "-" && f.found.isNone
  let first ← if p.isDirectory && !q.isDirectory && !vanished q then inside 0 p q else pure p
  let second ← if q.isDirectory && !p.isDirectory && !vanished p then inside 1 q p else pure q
  let code ← mode.compare ((← files).entries.size + 4) false first second
  let called ← programName
  checkOutput fun e => s!"{called}: standard output: {e.name}\n"
  return code

end ModularBuild.Utility
