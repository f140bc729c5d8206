import ModularBuild.Files.Mode
import ModularBuild.Moment
import ModularBuild.Process.FileTest
import ModularBuild.Text.VersionOrder
import ModularBuild.Utility.Permissions

/-!
# Listing directories

`ls` lists files, and what is in directories, in an order and a layout that can be chosen. A long
listing shows the permissions, the owners, the sizes and the times too.
-/

namespace ModularBuild.Utility

open Text

/-! ## What is shown of a file -/

def blocksOf (e : FileEntry) : Nat :=
  match e.content with
  | .file bytes => (bytes.length + 4095) / 4096 * 4
  | .directory => 4
  | .link _ | .device _ => 0

def kindLetter (e : FileEntry) : Char :=
  match e.content with
  | .directory => 'd'
  | .file _ => '-'
  | .link _ => 'l'
  | .device _ => 'c'

def ownerName (e : FileEntry) : String := if e.own then "user" else "root"

def ownerNumber (e : FileEntry) : Nat := if e.own then userNumber else 0

/-- The number of names of a file; a directory has one more in each directory that is in it. -/
def linkCount (fs : FileSystem) (l : Location) (e : FileEntry) : Nat :=
  match e.content with
  | .directory =>
    let isBelow (name : String) : Bool := (fs.at? (l ++ [name])).any (·.content = .directory)
    2 + ((fs.childNames l).filter isBelow).length
  | _ => fs.nameCount e

def humanSize (base n : Nat) : String :=
  if n < base then toString n
  else
    let units := "KMGTPE".toList
    let rec go (unit scale : Nat) : Nat → Nat × Nat
      | 0 => (unit, scale)
      | fuel + 1 => if n < scale * base then (unit, scale) else go (unit + 1) (scale * base) fuel
    let (unit, scale) := go 0 base 5
    let tenths := (n * 10 + scale - 1) / scale
    let letter := (units.getD unit ' ').toString
    let letter := if base = 1000 && letter = "K" then "k" else letter
    if tenths < 100 then s!"{tenths / 10}.{tenths % 10}{letter}"
    else s!"{(n + scale - 1) / scale}{letter}"

/-! ## What is asked for -/

inductive ListLayout where
  | single
  | long
  | commas
  | columns
  | rows
deriving DecidableEq

/-- What is put behind names to show the kind. -/
inductive KindMark where
  | none
  | slash
  | fileType
  | classify
deriving DecidableEq

structure ListMode where
  arguments : Arguments
  layout : ListLayout
  mark : KindMark
  quoting : String
  width : Nat
  tabSize : Nat
  human : Option Nat
  ending : String

namespace ListMode

def has (m : ListMode) (key : String) : Bool := m.arguments.has key

end ListMode

structure Listed where
  name : String
  location : Location
  entry : FileEntry
  /-- What the name leads to, if it is a link that leads somewhere. -/
  target : Option FileEntry := none

namespace ListMode

def shownName (m : ListMode) (name : String) : String :=
  let unseen (c : Char) : Char := if isShown c then c else '?'
  let cText (alsoBlank quotes : Bool) : String :=
    String.ofList (name.toList.flatMap fun c =>
      if c = '\\' || (quotes && c = '"') || (alsoBlank && c = ' ') then ['\\', c]
      else if isShown c then [c] else escapeOf c)
  match m.quoting with
  | "c" => "\"" ++ cText false true ++ "\""
  | "escape" => cText true false
  | "shell" | "shell-escape" => shellWord name
  | "shell-always" | "shell-escape-always" => shellQuoted name
  | _ => if m.has "hide-control-chars" then String.ofList (name.toList.map unseen) else name

def sign (m : ListMode) (e : FileEntry) : String :=
  match m.mark, e.content with
  | .none, _ => ""
  | _, .directory => "/"
  | .slash, _ => ""
  | _, .link _ => "@"
  | .classify, .file _ => if e.mode &&& 0o111 ≠ 0 then "*" else ""
  | _, _ => ""

def marked (m : ListMode) (l : Listed) : String := m.shownName l.name ++ m.sign l.entry

def size (m : ListMode) (n : Nat) : String :=
  match m.human with
  | some base => humanSize base n
  | none => toString n

def blocks (m : ListMode) (n : Nat) : String :=
  match m.human with
  | some base => humanSize base (n * 1024)
  | none => toString n

/-! ## Order -/

def ending? (name : String) : String :=
  let cs := name.toList
  if cs.contains '.' then
    String.ofList ('.' :: (cs.reverse.takeWhile (· ≠ '.')).reverse)
  else ""

def before (m : ListMode) (a b : Listed) : Bool :=
  let byName := compare a.name b.name
  let chosen := m.arguments.last? ["S", "t", "X", "v", "U", "f", "sort"]
  let order := match chosen, m.arguments.value? "sort" with
    | some "S", _ | some "sort", some "size" =>
      (compare (FileTest.sizeOf b.entry) (FileTest.sizeOf a.entry)).then byName
    | some "t", _ | some "sort", some "time" =>
      (compare b.entry.modified a.entry.modified).then byName
    | some "X", _ | some "sort", some "extension" =>
      (compare (ending? a.name) (ending? b.name)).then byName
    | some "v", _ | some "sort", some "version" => (compareVersions a.name b.name).then byName
    | some "sort", some "width" =>
      (compare (m.shownName a.name).length (m.shownName b.name).length).then byName
    | _, _ => byName
  let order := if m.has "reverse" then order.swap else order
  let isDirectory (l : Listed) : Bool :=
    (l.target.getD l.entry).content = .directory
  if m.has "group-directories-first" && isDirectory a ≠ isDirectory b then isDirectory a
  else order.isLE

def isUnordered (m : ListMode) : Bool :=
  match m.arguments.last? ["S", "t", "X", "v", "U", "f", "sort"] with
  | some "U" | some "f" => true
  | some "sort" => m.arguments.value? "sort" = some "none"
  | _ => false

def sorted (m : ListMode) (ls : List Listed) : List Listed :=
  if m.isUnordered then ls else ls.mergeSort m.before

/-! ## Layouts -/

def gap (tabSize stop : Nat) : Nat → Nat → String
  | 0, _ => ""
  | fuel + 1, column =>
    if stop ≤ column then ""
    else if 0 < tabSize && stop / tabSize > (column + 1) / tabSize then
      "\t" ++ gap tabSize stop fuel (column + tabSize - column % tabSize)
    else " " ++ gap tabSize stop fuel (column + 1)

/-- The widths of the columns if there are so many; none if they do not fit. -/
def columnWidths? (widths : List Nat) (byRows : Bool) (line count : Nat) : Option (List Nat) :=
  let n := widths.length
  let rows := (n + count - 1) / count
  let columnOf (i : Nat) : Nat := if byRows then i % count else i / rows
  let width (k : Nat) : Nat :=
    let inside := widths.zipIdx.filterMap fun (w, i) => if columnOf i = k then some w else none
    let widest := inside.foldl max 0
    if k + 1 = count then widest else widest + 2
  let all := (List.range count).map width
  if (all.map (max 3 ·)).foldl (· + ·) 0 < line then some all else none

def inColumns (m : ListMode) (byRows : Bool) (texts : List String) : String :=
  let widths := texts.map (·.length)
  let most := min texts.length (max 1 (m.width / 3))
  let fitting := (List.range most).reverse.findSome? fun k =>
    (columnWidths? widths byRows m.width (k + 1)).map (k + 1, ·)
  let (count, columns) := fitting.getD (1, [widths.foldl max 0])
  let rows := (texts.length + count - 1) / count
  let line (r : Nat) : String :=
    let indices := (List.range count).map fun k => if byRows then r * count + k else k * rows + r
    let cells := (indices.zip columns).filterMap fun (i, w) => texts[i]?.map (·, w)
    let step (state : String × Nat × Nat) (cell : String × Nat) : String × Nat × Nat :=
      let (out, start, column) := state
      let (text, width) := cell
      let space := gap m.tabSize start (start + 1) column
      (out ++ space ++ text, start + width, start + text.length)
    (cells.foldl step ("", 0, 0)).1
  String.join ((List.range rows).map fun r => line r ++ m.ending)

def withCommas (m : ListMode) (texts : List String) : String :=
  let step (state : String × Nat) (t : String) : String × Nat :=
    let (out, column) := state
    if out.isEmpty then (t, t.length)
    else if column + t.length + 2 < m.width then (out ++ ", " ++ t, column + 2 + t.length)
    else (out ++ ",\n" ++ t, t.length)
  let (out, _) := texts.foldl step ("", 0)
  out ++ m.ending

def timeText (m : ListMode) (now : Time) (e : FileEntry) : String :=
  let moment := Moment.ofTime e.modified
  let halfYear := 31556952 / 2 * Moment.secondLength
  let recent := e.modified ≤ now && now < e.modified + halfYear
  let style := if m.has "full-time" then "full-iso" else (m.arguments.value? "time-style").getD ""
  match style with
  | "full-iso" => moment.format "%Y-%m-%d %H:%M:%S.%N %z"
  | "long-iso" => moment.format "%Y-%m-%d %H:%M"
  | "iso" => moment.format (if recent then "%m-%d %H:%M" else "%Y-%m-%d ")
  | _ =>
    if style.startsWith "+" then moment.format (style.drop 1).toString
    else moment.format (if recent then "%b %e %H:%M" else "%b %e  %Y")

def longLines (m : ListMode) (fs : FileSystem) (ls : List Listed) : List String :=
  let cells (l : Listed) : List (Bool × String) :=
    let e := l.entry
    let numeric := m.has "numeric-uid-gid"
    let owner := if numeric then toString (ownerNumber e) else ownerName e
    let size := match e.content with
      | .device .null => "1, 3"
      | .device .zero => "1, 5"
      | .device _ => "1, 7"
      | _ => m.size (FileTest.sizeOf e)
    (if m.has "inode" then [(true, "1")] else []) ++
    (if m.has "size" then [(true, m.blocks (blocksOf e))] else []) ++
    [(false, s!"{kindLetter e}{FileMode.letters e.mode}"),
      (true, toString (linkCount fs l.location e))] ++
    (if m.has "g" then [] else [(numeric, owner)]) ++
    (if m.has "o" || m.has "no-group" then [] else [(numeric, owner)]) ++
    (if m.has "author" then [(false, owner)] else []) ++
    [(true, size)]
  let table := ls.map cells
  let columns := (table.head?.map (·.length)).getD 0
  let widths := (List.range columns).map fun k =>
    (table.map fun row => ((row[k]?.map (·.2)).getD "").length).foldl max 0
  (ls.zip table).map fun (l, row) =>
    let aligned := (row.zip widths).map fun ((right, s), w) =>
      if right then String.ofList (List.replicate (w - s.length) ' ') ++ s
      else s ++ String.ofList (List.replicate (w - s.length) ' ')
    let name := match l.entry.content with
      | .link target =>
        let arrow := m.shownName l.name ++ " -> " ++ m.shownName (ByteText.ofText target.text)
        match l.target, m.mark with
        | some e, .classify | some e, .fileType => arrow ++ m.sign e
        | _, _ => arrow
      | _ => m.marked l
    " ".intercalate (aligned ++ [m.timeText fs.clock l.entry, name])

def listing (m : ListMode) (fs : FileSystem) (ls : List Listed) : String :=
  let width := (ls.map fun l => (m.blocks (blocksOf l.entry)).length).foldl max 0
  let text (l : Listed) : String :=
    let blocks := m.blocks (blocksOf l.entry)
    (if m.has "inode" then "1 " else "") ++
    (if m.has "size" then String.ofList (List.replicate (width - blocks.length) ' ') ++ blocks ++ " "
      else "") ++ m.marked l
  let lines (texts : List String) : String := String.join (texts.map (· ++ m.ending))
  if ls.isEmpty then ""
  else match m.layout with
  | .single => lines (ls.map text)
  | .long => lines (m.longLines fs ls)
  | .commas => m.withCommas (ls.map text)
  | .columns => m.inColumns false (ls.map text)
  | .rows => m.inColumns true (ls.map text)

end ListMode

/-! ## Finding what is listed -/

def isListed (m : ListMode) (name : String) : Bool :=
  let hidden := name.startsWith "."
  let fits (pattern : String) : Bool :=
    let rec go : List Char → List Char → Nat → Bool
      | _, _, 0 => false
      | [], cs, _ => cs.isEmpty
      | '*' :: ps, cs, fuel + 1 =>
        go ps cs fuel || (match cs with
          | [] => false
          | _ :: rest => go ('*' :: ps) rest fuel)
      | '?' :: ps, _ :: cs, fuel + 1 => go ps cs fuel
      | p :: ps, c :: cs, fuel + 1 => p = c && go ps cs fuel
      | _ :: _, [], _ => false
    go pattern.toList name.toList (4 * (pattern.length + name.length) + 4)
  let all := m.has "all" || m.has "f"
  (all || m.has "almost-all" || !hidden) &&
    !(m.has "ignore-backups" && name.endsWith "~") &&
    !((m.arguments.values "ignore").any fits) &&
    !(!(all || m.has "almost-all") && (m.arguments.values "hide").any fits)

def listedAt (m : ListMode) (follows : Bool) (path name : String) :
    UtilityM (Except FileError Listed) := do
  let target := (← lookup path).toOption
  match ← lookupLink path with
  | .error e => return .error e
  | .ok (l, e) =>
    if follows || m.has "dereference" then
      if let some (l, t) := target then return .ok ⟨name, l, t, some t⟩
    return .ok ⟨name, l, e, target.map (·.2)⟩

/-- What has been written and what is left to be said. -/
structure ListState where
  started : Bool := false
  code : Nat := 0

abbrev ListM := StateT ListState UtilityM

/-- Lists a directory, and those in it if that is asked for; `depth` bounds the directories inside
each other. -/
def listDirectory (m : ListMode) (header top : Bool) : Nat → String → ListM Unit
  | 0, _ => return ()
  | depth + 1, path => do
    let fail (e : FileError) : ListM Unit := do
      complain s!"cannot open directory {shellQuoted path}: {e.name}"
      modify fun s => { s with code := max s.code (if top then 2 else 1) }
    match ← lookup path with
    | .error e => fail e
    | .ok (l, e) =>
      if !e.mayRead then return ← fail .permission
      if header then
        if (← get).started then say "\n"
        say (m.shownName path ++ ":" ++ m.ending)
      modify fun s => { s with started := true }
      let names := ((← files).childNames l).map ByteText.ofText
      let dots := if m.has "all" || m.has "f" then [".", ".."] else []
      let mut found : List Listed := []
      for name in dots ++ names.filter (isListed m) do
        match ← (listedAt m false (pathIn path name) name : UtilityM _) with
        | .ok item => found := item :: found
        | .error e =>
          complain s!"cannot access {shellQuoted (pathIn path name)}: {e.name}"
          modify fun s => { s with code := max s.code 1 }
      let ls := m.sorted found.reverse
      let fs ← (files : UtilityM _)
      if m.layout = .long || m.has "size" then
        let total := (ls.map fun l => blocksOf l.entry).foldl (· + ·) 0
        say ("total " ++ m.blocks total ++ m.ending)
      say (m.listing fs ls)
      if m.has "recursive" then
        let inside := ls.filter fun l =>
          l.entry.content = .directory && l.name ≠ "." && l.name ≠ ".."
        for l in inside do listDirectory m true false depth (pathIn path l.name)

def lsOptions : List OptionSpec :=
  [option 'a' "all", option 'A' "almost-all", word "author", option 'b' "escape",
    word "block-size" .required, option 'B' "ignore-backups", letter 'c', letter 'C',
    word "color" .optional, option 'd' "directory", option 'D' "dired", letter 'f',
    ⟨some 'F', some "classify", .none⟩, word "file-type", word "format" .required,
    word "full-time", letter 'g', word "group-directories-first", option 'G' "no-group",
    option 'h' "human-readable", word "si", option 'H' "dereference-command-line",
    word "dereference-command-line-symlink-to-dir", word "hide" .required,
    word "hyperlink" .optional, word "indicator-style" .required, option 'i' "inode",
    option 'I' "ignore" .required, option 'k' "kibibytes", letter 'l', option 'L' "dereference",
    letter 'm', option 'n' "numeric-uid-gid", option 'N' "literal", letter 'o', letter 'p',
    option 'q' "hide-control-chars", word "show-control-chars", option 'Q' "quote-name",
    word "quoting-style" .required, option 'r' "reverse", option 'R' "recursive",
    option 's' "size", letter 'S', word "sort" .required, word "time" .required,
    word "time-style" .required, letter 't', option 'T' "tabsize" .required, letter 'u',
    letter 'U', letter 'v', option 'w' "width" .required, letter 'x', letter 'X',
    option 'Z' "context", letter '1', word "zero"]

def layoutOf (a : Arguments) : UtilityM ListLayout := do
  let format ← (a.value? "format").mapM fun s => choiceOf "format" s
    ["verbose", "long", "commas", "horizontal", "across", "vertical", "single-column"]
  let keys := ["l", "g", "o", "numeric-uid-gid", "full-time", "m", "C", "x", "1", "format", "zero"]
  let isLong := (a.last? ["l", "g", "o", "numeric-uid-gid", "full-time"]).isSome
  return match a.last? keys with
  | none | some "zero" => .single
  | some "m" => .commas
  | some "C" => .columns
  | some "x" => .rows
  | some "1" => if isLong then .long else .single
  | some "format" =>
    match format with
    | some "verbose" | some "long" => .long
    | some "commas" => .commas
    | some "horizontal" | some "across" => .rows
    | some "vertical" => .columns
    | _ => .single
  | some _ => .long

def markOf (a : Arguments) : UtilityM KindMark := do
  let style ← (a.value? "indicator-style").mapM fun s => choiceOf "indicator-style" s
    ["none", "slash", "file-type", "classify"]
  return match a.last? ["classify", "file-type", "p", "indicator-style"] with
  | none => .none
  | some "classify" => .classify
  | some "file-type" => .fileType
  | some "p" => .slash
  | some _ => match style with
    | some "slash" => .slash
    | some "file-type" => .fileType
    | some "classify" => .classify
    | _ => .none

def quotingOf (a : Arguments) : UtilityM String := do
  let style ← (a.value? "quoting-style").mapM fun s => choiceOf "quoting-style" s
    ["literal", "shell", "shell-always", "shell-escape", "shell-escape-always", "c", "c-maybe",
      "escape", "locale", "clocale"]
  return match a.last? ["escape", "literal", "quote-name", "quoting-style"] with
  | some "escape" => "escape"
  | some "quote-name" => "c"
  | some "quoting-style" => style.getD "literal"
  | _ => "literal"

def ls : Utility := fun args => do
  let isColored (s : String) : Bool := s.startsWith "--classify="
  let args := args.filter (!isColored ·)
  let a ← arguments lsOptions args
  if let some s := a.value? "color" then
    let words := ["always", "yes", "force", "never", "no", "none", "auto", "tty", "if-tty"]
    if !words.any (·.startsWith s) then
      refuse (s!"invalid argument {inSingleQuotes s} for '--color'\nValid arguments are:" ++
        "\n  - 'always', 'yes', 'force'\n  - 'never', 'no', 'none'\n  - 'auto', 'tty', 'if-tty'")
  if let some s := a.value? "sort" then
    discard <| choiceOf "sort" s ["none", "time", "size", "extension", "version", "width"]
  let number (key what : String) (usual : Nat) : UtilityM Nat := do
    match a.value? key with
    | none => return usual
    | some s =>
      match s.toNat? with
      | some n => return n
      | none => fail s!"invalid {what}: {inSingleQuotes s}"
  let width ← number "width" "line width" 80
  let m : ListMode := {
    arguments := a, layout := ← layoutOf a, mark := ← markOf a, quoting := ← quotingOf a
    width := if width = 0 then 1000000 else width
    tabSize := ← number "tabsize" "tab size" 8
    human := if a.last? ["human-readable", "si", "kibibytes"] = some "human-readable" then some 1024
      else if a.last? ["human-readable", "si", "kibibytes"] = some "si" then some 1000 else none
    ending := if a.has "zero" then "\x00" else "\n" }
  let follows := a.has "dereference-command-line" || a.has "dereference" ||
    (!a.has "directory" && m.layout ≠ .long && m.mark ≠ .classify)
  let operands := if a.operands.isEmpty then ["."] else a.operands
  let mut code := 0
  let mut found : List Listed := []
  for path in operands do
    let toDirectory := !a.has "directory" && follows && (← isDirectory path)
    match ← listedAt m (toDirectory || a.has "dereference-command-line") path path with
    | .ok item => found := item :: found
    | .error e =>
      complain s!"cannot access {shellQuoted path}: {e.name}"
      code := 2
  let all := m.sorted found.reverse
  let opens (l : Listed) : Bool := l.entry.content = .directory && !a.has "directory"
  let fs ← files
  let plain := all.filter (!opens ·)
  say (m.listing fs plain)
  let directories := all.filter opens
  let header := 1 < operands.length || a.has "recursive"
  let depth := fs.entries.size + 2
  let work : ListM Unit := for l in directories do listDirectory m header true depth l.name
  let (_, s) ← work.run { started := !plain.isEmpty }
  return max code s.code

/-- Lists like `ls` in columns. -/
def dir : Utility := fun args => ls ("-C" :: "-b" :: args)

end ModularBuild.Utility
