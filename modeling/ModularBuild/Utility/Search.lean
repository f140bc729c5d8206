import ModularBuild.Regex.Reader
import ModularBuild.Shell.Pattern
import ModularBuild.Utility.Input

/-!
# Searching

`grep` selects the lines of files that match one of some patterns, and writes them, the matches
themselves, their number, or the names of the files, with lines around them as context.
-/

namespace ModularBuild.Utility

open Text

/-! ## Patterns -/

inductive PatternKind where
  | basic
  | extended
  | fixed
deriving DecidableEq

inductive MatchExtent where
  | anything
  | words
  | wholeLine
deriving DecidableEq

structure LineSearch where
  regex : Regex
  folds : Bool
  extent : MatchExtent

namespace LineSearch

def subject (s : LineSearch) (line : String) : Regex.Subject :=
  { chars := line.toList.toArray, folds := s.folds }

def boundsWords (t : Regex.Subject) (i j : Nat) : Bool := !(t.wordAround i).1 && !(t.wordAround j).2

def stopAt? (s : LineSearch) (t : Regex.Subject) (i : Nat) : Option Nat :=
  let stops := (Regex.ends t s.regex i []).map (·.1)
  let stops := match s.extent with
    | .anything => stops
    | .words => stops.filter (boundsWords t i ·)
    | .wholeLine => stops.filter fun j =>
      Regex.holdsAt t i .lineStart && Regex.holdsAt t j .lineEnd
  stops.max?

/-- The first match from a place on; `fuel` is the number of places to try. -/
def findFrom (s : LineSearch) (t : Regex.Subject) : Nat → Nat → Option (Nat × Nat)
  | 0, _ => none
  | fuel + 1, i =>
    match s.stopAt? t i with
    | some j => some (i, j)
    | none => if i < t.size then s.findFrom t fuel (i + 1) else none

def find? (s : LineSearch) (t : Regex.Subject) (start : Nat) : Option (Nat × Nat) :=
  s.findFrom t (t.size + 1 - start) start

def selects (s : LineSearch) (line : String) : Bool := (s.find? (s.subject line) 0).isSome

/-- The matches of a line that are not empty; `fuel` is its length. -/
def allFrom (s : LineSearch) (t : Regex.Subject) : Nat → Nat → List (Nat × Nat)
  | 0, _ => []
  | fuel + 1, start =>
    match s.find? t start with
    | none => []
    | some (i, j) =>
      if i < j then (i, j) :: s.allFrom t fuel j
      else if i < t.size then s.allFrom t fuel (i + 1)
      else []

end LineSearch

def fixedRegex (p : List Char) : Regex :=
  p.foldr (fun c r => .sequence (.one (.only c)) r) .empty

def readPattern (kind : PatternKind) (p : List Char) : Except String (Regex × List String) :=
  match kind with
  | .fixed => .ok (fixedRegex p, [])
  | kind =>
    let style : RegexStyle := { extended := kind = .extended, plainBraces := kind = .extended }
    match Regex.compile style p with
    | .error e => .error e.message
    | .ok r =>
      let shown (c : Char) : String := if c = '\x7b' then "\x7b...\x7d" else String.ofList [c]
      .ok (r.regex, r.idle.map fun c => s!"warning: {shown c} at start of expression")

/-! ## What is written -/

inductive ReportKind where
  | lines
  | matched
  | count
  | filesWith
  | filesWithout
  | nothing
deriving DecidableEq

structure SearchMode where
  search : LineSearch
  inverted : Bool
  kind : ReportKind
  /-- Whether lines are numbered. -/
  numbers : Bool
  /-- Whether the place in the file is shown. -/
  offsets : Bool
  nulAfterName : Bool
  ending : Char
  most : Option Nat
  before : Nat
  after : Nat
  separator : Option String
  binaryAsText : Bool
  skipsBinary : Bool
  /-- Whether complaints about files are left out. -/
  silent : Bool

structure FileLine where
  text : String
  number : Nat
  offset : Nat

def numberedLines (ending : Char) (text : String) : List FileLine :=
  let step (state : List FileLine × Nat × Nat) (l : String) : List FileLine × Nat × Nat :=
    let (found, number, offset) := state
    (⟨withoutEnd ending l, number, offset⟩ :: found, number + 1, offset + l.length)
  ((linesWithEnds ending text).foldl step ([], 1, 0)).1.reverse

namespace SearchMode

def label (m : SearchMode) (title : Option String) (sign : Char) (number offset : Nat) : String :=
  let sign := String.ofList [sign]
  let name := match title with
    | some t => t ++ if m.nulAfterName then "\x00" else sign
    | none => ""
  name ++ (if m.numbers then toString number ++ sign else "") ++
    if m.offsets then toString offset ++ sign else ""

def sayRow (m : SearchMode) (title : Option String) (sign : Char) (l : FileLine) :
    UtilityM Unit :=
  say ((m.label title sign l.number l.offset ++ l.text).push m.ending)

def saySelected (m : SearchMode) (title : Option String) (l : FileLine) : UtilityM Unit := do
  if m.kind = .lines then m.sayRow title ':' l
  else if !m.inverted then
    let t := m.search.subject l.text
    for (i, j) in m.search.allFrom t (t.size + 1) 0 do
      say ((m.label title ':' l.number (l.offset + i) ++ t.slice i j).push m.ending)

structure Progress where
  /-- The lines that may become context, newest first. -/
  held : List FileLine := []
  /-- How many lines are still context. -/
  pending : Nat := 0
  count : Nat := 0
  /-- The number of the last line that was written. -/
  lastWritten : Nat := 0
  /-- Where what has been searched ends. -/
  searched : Nat := 0

def sayGap (m : SearchMode) (p : Progress) (number : Nat) : UtilityM Unit := do
  if (0 < m.before || 0 < m.after) && 0 < p.lastWritten && p.lastWritten + 1 < number then
    if let some s := m.separator then sayLine s

/-- Searches lines; `shows` says whether they are written. -/
def searchLines (m : SearchMode) (title : Option String) (shows : Bool) :
    List FileLine → Progress → UtilityM Progress
  | [], p => return p
  | l :: rest, p => do
    let selected := m.search.selects l.text != m.inverted
    let finished := m.most.any (· ≤ p.count)
    if selected && !finished then
      if shows then
        let context := (p.held.take m.before).reverse
        m.sayGap p ((context.head?.map (·.number)).getD l.number)
        if m.kind = .lines then
          for c in context do m.sayRow title '-' c
        m.saySelected title l
      let p : Progress := {
        pending := m.after, count := p.count + 1, lastWritten := l.number
        searched := l.offset + l.text.length + 1 }
      searchLines m title shows rest p
    else if finished && (selected || p.pending = 0) then return p
    else if 0 < p.pending then
      if shows && m.kind = .lines then m.sayRow title '-' l
      searchLines m title shows rest { p with pending := p.pending - 1, lastWritten := l.number }
    else searchLines m title shows rest { p with held := l :: p.held.take m.before }

/-- Searches the text of a file; the answer says whether a line was selected. -/
def searchText (m : SearchMode) (name title : String) (titled : Bool) (text : String) :
    UtilityM Bool := do
  let isBinary := !m.binaryAsText && m.ending ≠ '\x00' && text.toList.contains '\x00'
  if isBinary && m.skipsBinary then return false
  let shown := if titled then some title else none
  let showsLines := (m.kind = .lines || m.kind = .matched) && !isBinary
  let text := if isBinary then text.replace "\x00" "\n" else text
  let p ← m.searchLines shown showsLines (numberedLines m.ending text) {}
  if name = "-" && m.most.any (· ≤ p.count) then putBack (text.length - p.searched)
  let sayName : UtilityM Unit := say (title.push (if m.nulAfterName then '\x00' else '\n'))
  match m.kind with
  | .lines | .matched =>
    if isBinary && 0 < p.count then complain s!"{title}: binary file matches"
  | .count =>
    let label := match shown with
      | some t => t ++ if m.nulAfterName then "\x00" else ":"
      | none => ""
    sayLine (label ++ toString p.count)
  | .filesWith => if 0 < p.count then sayName
  | .filesWithout => if p.count = 0 then sayName
  | .nothing => pure ()
  return 0 < p.count

end SearchMode

/-! ## Files -/

structure FileChoice where
  recurses : Bool
  followsLinks : Bool
  skipsDirectories : Bool
  included : List (List Shell.MarkedChar)
  excluded : List (List Shell.MarkedChar)
  excludedDirectories : List (List Shell.MarkedChar)
  /-- Whether files are named: always, never, or where there can be several. -/
  titles : Option Bool
  label : String

/-- Whether a pattern matches a name or the end of a path from a slash on. -/
def matchesName (pattern : List Shell.MarkedChar) (path : String) : Bool :=
  let parts := pieces '/' path.toList
  (List.range parts.length).any fun i =>
    Shell.patternMatches pattern (['/'].intercalate (parts.drop i))

def FileChoice.takesFile (c : FileChoice) (path : String) : Bool :=
  !c.excluded.any (matchesName · path) &&
    (c.included.isEmpty || c.included.any (matchesName · path))

/-- The outcome of a search: whether a line was selected, and whether something failed. -/
structure SearchOutcome where
  selected : Bool := false
  failed : Bool := false

def SearchOutcome.join (a b : SearchOutcome) : SearchOutcome :=
  ⟨a.selected || b.selected, a.failed || b.failed⟩

def isOwnOutput (name : String) : UtilityM Bool := do
  let c ← context
  let m := (← get).machine
  let fileOf (d : Nat) : Option Location := do
    match (← (c.descriptors.find? d).bind (m.opened[·]?)).target with
    | .file l => some l
    | _ => none
  match fileOf 1 with
  | none => return false
  | some out =>
    if name = "-" then return fileOf 0 = some out
    else match ← lookup name with
      | .ok (l, _) => return l = out
      | .error _ => return false

def searchFile (m : SearchMode) (c : FileChoice) (titled : Bool) (name : String) :
    UtilityM SearchOutcome := do
  let title := if name = "-" then c.label else name
  let trouble (s : String) : UtilityM SearchOutcome := do
    unless m.silent do complain s!"{title}: {s}"
    return { failed := true }
  let quick := m.kind = .nothing || m.kind = .filesWith || m.kind = .filesWithout
  if !quick && m.kind ≠ .count && m.most.all (1 < ·) then
    if ← isOwnOutput name then
      complain s!"{title}: input file is also the output"
      return { failed := true }
  match ← readNamed name with
  | .error e => trouble e.name
  | .ok text =>
    let selected ← m.searchText name title titled text
    if m.kind = .nothing && selected then quit 0
    return { selected }

/-- Searches what is below a directory; `fuel` bounds how deep it is. -/
def searchBelow (m : SearchMode) (c : FileChoice) : Nat → String → UtilityM SearchOutcome
  | 0, _ => return {}
  | fuel + 1, path => do
    let here := if path = "" then "." else path
    match (← files).list (← context).cwd (ByteText.path here) with
    | .error e =>
      unless m.silent do complain s!"{here}: {e.name}"
      return { failed := true }
    | .ok names =>
      let mut outcome : SearchOutcome := {}
      for name in names do
        let name := ByteText.ofText name
        let inner := if path = "" then name else if path.endsWith "/" then path ++ name
          else s!"{path}/{name}"
        let found ← if c.followsLinks then lookup inner else lookupLink inner
        match found with
        | .error e =>
          unless m.silent do complain s!"{inner}: {e.name}"
          outcome := { outcome with failed := true }
        | .ok (_, e) =>
          match e.content with
          | .directory =>
            if !c.excludedDirectories.any (Shell.patternMatches · name.toList) then
              outcome := outcome.join (← searchBelow m c fuel inner)
          | .file _ =>
            if c.takesFile inner then
              outcome := outcome.join (← searchFile m c (c.titles.getD true) inner)
          | _ => pure ()
      return outcome

def searchOperand (m : SearchMode) (c : FileChoice) (several : Bool) (name : String) :
    UtilityM SearchOutcome := do
  let isDir ← if name = "-" then pure false else isDirectory name
  if isDir then
    if c.skipsDirectories then return {}
    else if c.recurses then searchBelow m c 64 name
    else
      unless m.silent do complain s!"{name}: {FileError.name .isDirectory}"
      return { failed := true }
  else if name ≠ "-" && !c.takesFile name then return {}
  else searchFile m c (c.titles.getD several) name

/-! ## The utility -/

def grepOptions : List OptionSpec :=
  [option 'E' "extended-regexp", option 'F' "fixed-strings", option 'G' "basic-regexp",
    option 'P' "perl-regexp", option 'e' "regexp" .required, option 'f' "file" .required,
    option 'i' "ignore-case", letter 'y', word "no-ignore-case", option 'w' "word-regexp",
    option 'x' "line-regexp", option 'z' "null-data", option 's' "no-messages",
    option 'v' "invert-match", letter 'V', option 'm' "max-count" .required,
    option 'b' "byte-offset", option 'n' "line-number", word "line-buffered",
    option 'H' "with-filename", option 'h' "no-filename", word "label" .required,
    option 'o' "only-matching", option 'q' "quiet", word "silent",
    word "binary-files" .required, option 'a' "text", letter 'I',
    option 'd' "directories" .required, option 'D' "devices" .required,
    option 'r' "recursive", option 'R' "dereference-recursive", word "include" .required,
    word "exclude" .required, word "exclude-from" .required, word "exclude-dir" .required,
    option 'L' "files-without-match", option 'l' "files-with-matches", option 'c' "count",
    option 'T' "initial-tab", option 'Z' "null", option 'A' "after-context" .required,
    option 'B' "before-context" .required, option 'C' "context" .required,
    word "group-separator" .required, word "no-group-separator", word "color" .optional,
    word "colour" .optional, option 'U' "binary"]

def grepUsage : UtilityM Nat := do
  flush
  writeError ("Usage: grep [OPTION]... PATTERNS [FILE]...\n" ++
    "Try 'grep --help' for more information.\n")
  quit 2

def contextNumbers (args : List String) : List String :=
  args.map fun a =>
    match a.toList with
    | '-' :: c :: cs =>
      if c.isDigit then
        let ds := (c :: cs).takeWhile Char.isDigit
        let rest := (c :: cs).drop ds.length
        if rest.isEmpty then "-C" ++ String.ofList ds else a
      else a
    | _ => a

def patternLines (a : Arguments) : UtilityM (List String × List String) := do
  let given := a.options.filter fun o => o.key = "regexp" || o.key = "file"
  if given.isEmpty then
    match a.operands with
    | [] =>
      discard grepUsage
      return ([], [])
    | p :: rest => return ((pieces '\n' p.toList).map String.ofList, rest)
  else
    let lists ← given.mapM fun o => do
      let value := o.value.getD ""
      if o.key = "regexp" then return (pieces '\n' value.toList).map String.ofList
      else match ← readNamed value with
        | .ok text => return linesOf text
        | .error e => fail s!"{value}: {e.name}"
    return (lists.flatten, a.operands)

def lineCount (a : Arguments) (key complaint : String) : UtilityM (Option Nat) := do
  match a.value? key with
  | none => return none
  | some s =>
    match s.toNat? with
    | some n => return some n
    | none => fail (complaint.replace "%" s)

def reportKind (a : Arguments) : ReportKind :=
  if a.has "quiet" || a.has "silent" then .nothing
  else match a.last? ["files-without-match", "files-with-matches"] with
    | some "files-with-matches" => .filesWith
    | some _ => .filesWithout
    | none => if a.has "count" then .count else if a.has "only-matching" then .matched else .lines

def searchMode (a : Arguments) (kind : PatternKind) (patterns : List String) :
    UtilityM SearchMode := do
  let regexes ← patterns.mapM fun p => do
    match readPattern kind p.toList with
    | .error e => fail e
    | .ok (r, warnings) =>
      for w in warnings do complain w
      return r
  let nothing : Regex := .one (.oneOf false [])
  let regex := match regexes with
    | [] => nothing
    | r :: rs => rs.foldl .either r
  let context ← lineCount a "context" "%: invalid context length argument"
  let before ← lineCount a "before-context" "%: invalid context length argument"
  let after ← lineCount a "after-context" "%: invalid context length argument"
  let isNegative (s : String) : Bool := s.startsWith "-" && (s.drop 1).toString.toNat?.isSome
  let most ← if (a.value? "max-count").any isNegative then pure none
    else lineCount a "max-count" "invalid max count"
  let binary := a.value? "binary-files"
  if binary.any fun s => !(["binary", "text", "without-match"].contains s) then
    fail "unknown binary-files type"
  let zero := a.has "null-data"
  return {
    search := {
      regex
      folds := match a.last? ["ignore-case", "y", "no-ignore-case"] with
        | some "no-ignore-case" | none => false
        | some _ => true
      extent := if a.has "line-regexp" then .wholeLine else if a.has "word-regexp" then .words
        else .anything }
    inverted := a.has "invert-match", kind := reportKind a, numbers := a.has "line-number"
    offsets := a.has "byte-offset", nulAfterName := a.has "null"
    ending := if zero then '\x00' else '\n', most
    before := (before <|> context).getD 0, after := (after <|> context).getD 0
    separator := if a.has "no-group-separator" then none
      else some ((a.value? "group-separator").getD "--")
    binaryAsText := a.has "text" || binary = some "text"
    skipsBinary := a.has "I" || binary = some "without-match", silent := a.has "no-messages" }

def grepWith (usual : PatternKind) : Utility := fun args => do
  let a ← match takeArguments (grepOptions ++ usualOptions) false (args.length + 1)
      (contextNumbers args) with
    | .ok a => pure a
    | .error e =>
      complain e
      discard grepUsage
      pure {}
  if a.has "help" || a.has "version" || a.has "V" then quit 0
  let directories ← match a.value? "directories" with
    | some s =>
      if ["read", "recurse", "skip"].contains s then pure s
      else
        complain (s!"invalid argument {inSingleQuotes s} for '--directories'\nValid arguments are:" ++
          "\n  - 'read'\n  - 'recurse'\n  - 'skip'")
        discard grepUsage
        pure s
    | none => pure "read"
  if (a.value? "devices").any fun s => s ≠ "read" && s ≠ "skip" then fail "unknown devices method"
  let kind := match a.last? ["extended-regexp", "fixed-strings", "basic-regexp", "perl-regexp"] with
    | some "fixed-strings" => .fixed
    | some "basic-regexp" => .basic
    | some _ => .extended
    | none => usual
  let (patterns, operands) ← patternLines a
  let m ← searchMode a kind patterns
  let globs (key : String) : List (List Shell.MarkedChar) :=
    (a.values key).map fun s => s.toList.map (·, false)
  let follows := a.has "dereference-recursive"
  let recurses := directories = "recurse" || a.has "recursive" || follows
  let choice : FileChoice := {
    recurses, followsLinks := follows, skipsDirectories := directories = "skip"
    included := globs "include", excluded := globs "exclude"
    excludedDirectories := globs "exclude-dir"
    titles := (a.last? ["with-filename", "no-filename"]).map (· = "with-filename")
    label := (a.value? "label").getD "(standard input)" }
  if m.most = some 0 then return 1
  let several := 1 < operands.length
  let inputs := if operands.isEmpty then ["-"] else operands
  let outcomes ← if operands.isEmpty && recurses then
      (fun o => [o]) <$> searchBelow m choice 64 ""
    else inputs.mapM (searchOperand m choice several)
  checkOutput fun e => s!"grep: write error: {e.name}\n"
  let outcome := outcomes.foldl SearchOutcome.join {}
  return if outcome.failed then 2 else if outcome.selected then 0 else 1

def grep : Utility := grepWith .basic

def egrep : Utility := grepWith .extended

def fgrep : Utility := grepWith .fixed

def rgrep : Utility := fun args => grep ("-r" :: args)

end ModularBuild.Utility
