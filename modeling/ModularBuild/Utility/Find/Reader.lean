import ModularBuild.Moment.Reader
import ModularBuild.Utility.Find.Query
import ModularBuild.Utility.Permissions
import ModularBuild.Utility.Times

/-!
# Reading queries

A query is given as arguments: conditions, each with its own arguments, and between them `!`, `-a`,
`-o`, `,` and brackets. Two conditions side by side have to hold both.
-/

namespace ModularBuild.Utility.Find

open Text

/-! ## Where queries begin -/

/-- Whether an argument belongs to a query; `leading` says that it could be the first one. -/
def isQueryPart (leading : Bool) (s : String) : Bool :=
  match s.toList with
  | '-' :: _ :: _ => true
  | [')'] | [','] => !leading
  | ['('] | ['!'] => true
  | _ => false

/-! ## The parts of a query -/

inductive Part where
  | condition (c : Condition)
  | opening
  | closing
  | not (name : String)
  | operator (name : String)

structure Scope where
  least : Nat := 0
  most : Option Nat := none
  /-- Whether what is in a directory comes before the directory itself. -/
  deep : Bool := false
  deletes : Bool := false
  prunes : Bool := false
  followsAll : Bool := false
  followsOperands : Bool := false
  extended : Option Bool := none
  /-- The number of programs that are run on many files at once. -/
  batches : Nat := 0
  /-- The name of the condition before. -/
  previous : String := ""

abbrev QueryReader := StateT Scope UtilityM

namespace QueryReader

variable {α : Type}

def inUtility (action : UtilityM α) : QueryReader α := liftM (m := UtilityM) action

def fail (s : String) : QueryReader α := inUtility (Utility.fail s)

def invalid (condition argument : String) : QueryReader α :=
  fail s!"invalid argument \x60{argument}' to \x60{condition}'"

def measure? (s : String) : Option Measure :=
  match s.toList with
  | '+' :: ds => (number? ds).map .above
  | '-' :: ds => (number? ds).map .below
  | ds => (number? ds).map .exactly
where
  number? (ds : List Char) : Option Nat :=
    if ds.isEmpty || !ds.all Char.isDigit then none else (String.ofList ds).toNat?

def measure (condition s : String) : QueryReader Measure := do
  match measure? s with
  | some m => return m
  | none => invalid condition s

def age (condition s : String) : QueryReader Measure := do
  let whole := String.ofList (s.toList.takeWhile (· ≠ '.'))
  let fraction := s.toList.drop (whole.length + 1)
  if fraction.all Char.isDigit then measure condition whole else invalid condition s

def unitSize? (c : Char) : Option Nat :=
  match c with
  | 'c' => some 1
  | 'w' => some 2
  | 'b' => some 512
  | 'k' => some 1024
  | 'M' => some 1048576
  | 'G' => some 1073741824
  | _ => none

def size (s : String) : QueryReader Condition := do
  if s.isEmpty then fail "invalid null argument to -size"
  let last := s.toList.getLastD ' '
  let (text, unit) ← if last.isDigit then pure (s, 512)
    else match unitSize? last with
    | some unit => pure ((s.dropEnd 1).toString, unit)
    | none => fail s!"invalid -size type \x60{String.singleton last}'"
  match measure? text with
  | some m => return .size m unit
  | none => fail s!"Invalid argument \x60{s}' to -size"

def kinds (name s : String) : QueryReader (List Char) := do
  if s.isEmpty then fail s!"Arguments to {name} should contain at least one letter"
  let rec go : List Char → QueryReader (List Char)
    | [] => return []
    | c :: rest => do
      unless "bcdpflsD".toList.contains c do
        fail s!"Unknown argument to {name}: {String.singleton c}"
      match rest with
      | [] => return [c]
      | [','] =>
        fail (s!"Last file type in list argument to {name} is missing, i.e., list is ending " ++
          "on: ','")
      | ',' :: rest => return c :: (← go rest)
      | _ => fail s!"Must separate multiple arguments to {name} using: ','"
  go s.toList

def permissionTest (s : String) : QueryReader PermissionTest := do
  let (kind, text) := match s.toList with
    | '-' :: cs => ('-', String.ofList cs)
    | '/' :: cs => ('/', String.ofList cs)
    | cs => ('=', String.ofList cs)
  let signed := text.startsWith "+" && (text.drop 1).any Char.isDigit
  let changes? := if text.isEmpty || signed then none else FileMode.ofText? text
  match changes? with
  | none => fail s!"invalid mode {inSingleQuotes s}"
  | some changes =>
    let bits := FileMode.apply changes 0 false 0
    return match kind with
      | '-' => .all bits
      | '/' => .any bits
      | _ => .exactly bits

/-- An expression in which plus and question mark repeat without a backslash, in the basic form. -/
def basicForm : Nat → List Char → List Char
  | 0, _ => []
  | _, [] => []
  | fuel + 1, '\\' :: c :: cs =>
    if c = '+' || c = '?' || c = '{' || c = '}' then c :: basicForm fuel cs
    else '\\' :: c :: basicForm fuel cs
  | fuel + 1, '[' :: cs =>
    let start := match cs with
      | '^' :: ']' :: _ => 2
      | '^' :: _ | ']' :: _ => 1
      | _ => 0
    let inside := (cs.drop start).takeWhile (· ≠ ']')
    let size := start + inside.length + 1
    '[' :: cs.take size ++ basicForm fuel (cs.drop size)
  | fuel + 1, c :: cs =>
    if c = '+' || c = '?' then '\\' :: c :: basicForm fuel cs else c :: basicForm fuel cs

def regexOf (pattern : String) : QueryReader Regex := do
  let cs := pattern.toList
  let compiled := match (← get).extended with
    | none => Regex.compile { extended := false } (basicForm cs.length cs)
    | some extended => Regex.compile { extended, strict := extended } cs
  match compiled with
  | .ok r => return r.regex
  | .error e =>
    fail s!"failed to compile regular expression '{pattern}': {e.message}"

def regexForms : List (String × Option Bool) := [
  ("findutils-default", none), ("ed", some false), ("emacs", none), ("gnu-awk", some true),
  ("grep", some false), ("posix-awk", some true), ("awk", some true),
  ("posix-basic", some false), ("posix-egrep", some true), ("egrep", some true),
  ("posix-extended", some true), ("posix-minimal-basic", some false), ("sed", some false)]

def setRegexForm (name : String) : QueryReader Unit := do
  match regexForms.lookup name with
  | some extended => modify fun s => { s with extended }
  | none =>
    let list := ", ".intercalate (regexForms.map fun (n, _) => inSingleQuotes n)
    fail (s!"Unknown regular expression type {inSingleQuotes name}; valid types are " ++ list ++
      ".")

def sinkOf (name : String) : Sink :=
  match name with
  | "/dev/stdout" => .output
  | "/dev/stderr" => .complaints
  | name => .file name

def timeOf (path : String) : QueryReader Time := do
  match ← inUtility (lookup path) with
  | .ok (_, e) => return e.modified
  | .error e => fail s!"{inSingleQuotes path}: {e.name}"

/-! ## Formats -/

def takeFilling (cs : List Char) : Filling × List Char :=
  let flags := cs.takeWhile ("-+ #0".toList.contains ·)
  let rest := cs.drop flags.length
  let width := rest.takeWhile Char.isDigit
  let rest := rest.drop width.length
  let number (ds : List Char) : Nat := (String.ofList ds).toNat?.getD 0
  let (precision, rest) := match rest with
    | '.' :: more =>
      let digits := more.takeWhile Char.isDigit
      (some (number digits), more.drop digits.length)
    | _ => (none, rest)
  ({ left := flags.contains '-', zeros := flags.contains '0', marked := flags.contains '#'
     sign := if flags.contains '+' then "+" else if flags.contains ' ' then " " else ""
     width := number width, precision }, rest)

/-- Reads a format; `fuel` bounds its length. -/
def format : Nat → List Char → QueryReader (List FormatPart)
  | 0, _ => return []
  | _, [] => return []
  | fuel + 1, '\\' :: cs => do
    let plain (s : String) (rest : List Char) : QueryReader (List FormatPart) := do
      return .text s :: (← format fuel rest)
    match cs with
    | [] =>
      inUtility (complain "warning: escape \x60\\' followed by nothing at all")
      plain "\\" []
    | 'c' :: _ => return [.stop]
    | c :: rest =>
      if isOctal c then
        let (d, rest) := takeCode 8 3 isOctal cs
        plain (String.singleton d) rest
      else if c = 'e' then unknown c rest plain
      else match escapeLetters.lookup c with
        | some d => plain (String.singleton d) rest
        | none => unknown c rest plain
  | fuel + 1, '%' :: cs => do
    match cs with
    | [] => fail "error: % at end of format string"
    | '%' :: rest => return .text "%" :: (← format fuel rest)
    | cs =>
      let (filling, rest) := takeFilling cs
      match rest with
      | [] => fail "error: % at end of format string"
      | c :: more =>
        if "ACTB".toList.contains c then
          match more with
          | d :: more => return .time filling d :: (← format fuel more)
          | [] => return [.text (String.ofList ['%', c])]
        else if "abcdDfFgGhHiklmMnpPstuUyYSZ".toList.contains c then
          return .field filling c :: (← format fuel more)
        else
          let shown := String.ofList ('%' :: cs.take (cs.length - more.length))
          let directive := String.ofList ['%', c]
          unless c = '%' do
            inUtility (complain s!"warning: unrecognized format directive \x60{directive}'")
          return .text shown :: (← format fuel more)
  | fuel + 1, c :: cs => return .text (String.singleton c) :: (← format fuel cs)
where
  unknown (c : Char) (rest : List Char)
      (plain : String → List Char → QueryReader (List FormatPart)) :
      QueryReader (List FormatPart) := do
    let text := String.ofList ['\\', c]
    inUtility (complain s!"warning: unrecognized escape \x60{text}'")
    plain text rest

/-! ## Conditions -/

/-- Takes the arguments of a program that is run, up to a semicolon, or to a plus after the place of
the files. -/
def takeRunning (name : String) (inDirectory asks : Bool) (args : List String) :
    QueryReader (Condition × List String) := do
  let missing : QueryReader (Condition × List String) := fail s!"missing argument to \x60{name}'"
  let rec stop? : Nat → Option String → List String → Option (Nat × Bool)
    | _, _, [] => none
    | n, before, a :: rest =>
      if a = ";" then some (n, false)
      else if a = "+" && !asks && before = some "\x7b\x7d" then some (n, true)
      else stop? (n + 1) (some a) rest
  match stop? 0 none args with
  | none =>
    if let some i := args.findIdx? (· = "+") then
      let before := ((args.take i).getLast?).getD ""
      if 1 < (before.splitOn "\x7b\x7d").length then
        fail (s!"In '{name} ... \x7b\x7d +' the '\x7b\x7d' must appear by itself, but you " ++
          s!"specified '{before}'")
    missing
  | some (0, _) => missing
  | some (n, many) =>
    let command := args.take n
    let rest := args.drop (n + 1)
    if many then
      let places := command.countP fun s => 1 < (s.splitOn "\x7b\x7d").length
      if 1 < places then
        fail s!"Only one instance of \x7b\x7d is supported with {name} ... +"
      let index := (← get).batches
      modify fun s => { s with batches := index + 1 }
      return (.runAll index { command := command.dropLast, inDirectory }, rest)
    else return (.run { command, inDirectory, asks }, rest)

def depth (name s : String) : QueryReader Nat := do
  let isNumber := !s.isEmpty && s.toList.all Char.isDigit
  match if isNumber then s.toNat? else none with
  | some n => return n
  | none =>
    fail s!"Expected a positive decimal integer argument to {name}, but got {inSingleQuotes s}"

def ownerOf (condition kind s : String) : QueryReader Condition := do
  if s.isEmpty then fail s!"The argument to {condition} should not be empty"
  match s with
  | "root" => return .owner (.exactly 0)
  | "user" => return .owner (.exactly userNumber)
  | s =>
    match if s.toList.all Char.isDigit then s.toNat? else none with
    | some n => return .owner (.exactly n)
    | none => fail s!"{inSingleQuotes s} is not the name of {kind}"

/-- A condition that compares a time, with a letter for what is compared and one for what with. -/
def newerThan (name : String) (args : List String) : QueryReader (Condition × List String) := do
  match (name.drop 6).toString.toList with
  | [x, y] =>
    if x = 'B' || y = 'B' then
      let reason := "This system does not provide a way to find the birth time of a file."
      inUtility (complain reason)
      fail s!"invalid predicate \x60{name}'"
    if !"acm".toList.contains x || !"acmt".toList.contains y then
      fail s!"invalid predicate \x60{name}'"
    match args with
    | [] => fail s!"The '{name}' test needs an argument"
    | a :: rest =>
      if y = 't' then
        match Moment.read? (← inUtility now) a with
        | some t => return (.newer t, rest)
        | none =>
          fail s!"I cannot figure out how to interpret {inSingleQuotes a} as a date or time"
      else return (.newer (← timeOf a), rest)
  | _ => fail s!"invalid predicate \x60{name}'"

def withArgument (name a : String) : QueryReader (Option Part) := do
  let condition (c : Condition) : QueryReader (Option Part) := return some (.condition c)
  let scope (f : Scope → Scope) : QueryReader (Option Part) := do
    modify f
    return some (.condition (.constant true))
  match name with
  | "-name" => condition (.name false a)
  | "-iname" => condition (.name true a)
  | "-path" | "-wholename" => pathTest false
  | "-ipath" | "-iwholename" => pathTest true
  | "-lname" => condition (.linksTo false a)
  | "-ilname" => condition (.linksTo true a)
  | "-regex" => condition (.matching (← regexOf a) false)
  | "-iregex" => condition (.matching (← regexOf a) true)
  | "-regextype" =>
    setRegexForm a
    condition (.constant true)
  | "-type" => condition (.kind (← kinds name a) false)
  | "-xtype" => condition (.kind (← kinds name a) true)
  | "-size" => condition (← size a)
  | "-perm" => condition (.permissions (← permissionTest a))
  | "-newer" | "-anewer" => condition (.newer (← timeOf a))
  | "-cnewer" =>
    discard <| timeOf a
    condition (.constant true)
  | "-mtime" | "-atime" => condition (.age .days (← age name a))
  | "-mmin" | "-amin" => condition (.age .minutes (← age name a))
  | "-ctime" => condition (.constant (AgeUnit.days.holds (← age name a) 1))
  | "-cmin" => condition (.constant (AgeUnit.minutes.holds (← age name a) 1))
  | "-used" =>
    discard <| age name a
    condition (.constant false)
  | "-links" => condition (.nameCount (← measure name a))
  | "-inum" => condition (.number (← measure name a))
  | "-uid" | "-gid" => condition (.owner (← measure name a))
  | "-user" => condition (← ownerOf name "a known user" a)
  | "-group" => condition (← ownerOf name "an existing group" a)
  | "-samefile" =>
    discard <| timeOf a
    condition (.sameAs a)
  | "-fstype" | "-context" => condition (.constant false)
  | "-maxdepth" =>
    let n ← depth name a
    scope fun s => { s with most := some n }
  | "-mindepth" =>
    let n ← depth name a
    scope fun s => { s with least := n }
  | "-printf" => condition (.printFormat .output (← format (a.length + 1) a.toList))
  | "-fprint" => condition (.print (sinkOf a) "\n")
  | "-fprint0" => condition (.print (sinkOf a) "\x00")
  | "-fls" => condition (.list (sinkOf a))
  | _ => return none
where
  pathTest (folds : Bool) : QueryReader (Option Part) := do
    if 1 < a.length && a.endsWith "/" then
      inUtility (complain s!"warning: {name} {a} will not match anything because it ends with /.")
    return some (.condition (.path folds a))

def withArgumentNames : List String := [
  "-name", "-iname", "-path", "-wholename", "-ipath", "-iwholename", "-lname", "-ilname", "-regex",
  "-iregex", "-regextype", "-type", "-xtype", "-size", "-perm", "-newer", "-anewer", "-cnewer",
  "-mtime", "-atime", "-ctime", "-mmin", "-amin", "-cmin", "-used", "-links", "-inum", "-uid",
  "-gid", "-user", "-group", "-samefile", "-fstype", "-context", "-maxdepth", "-mindepth",
  "-printf", "-fprint", "-fprint0", "-fls"]

/-- Takes a part of a query by its name; none if nothing has that name. -/
def takePart? (name : String) (args : List String) :
    QueryReader (Option (Part × List String)) := do
  let plain (p : Part) : QueryReader (Option (Part × List String)) := return some (p, args)
  let condition (c : Condition) : QueryReader (Option (Part × List String)) :=
    plain (.condition c)
  let always (f : Scope → Scope) : QueryReader (Option (Part × List String)) := do
    modify f
    condition (.constant true)
  let running (inDirectory asks : Bool) : QueryReader (Option (Part × List String)) := do
    let (c, rest) ← takeRunning name inDirectory asks args
    return some (.condition c, rest)
  if withArgumentNames.contains name then
    match args with
    | a :: rest => return (← withArgument name a).map (·, rest)
    | [] =>
      if name = "-inum" then invalid name name
      fail s!"missing argument to \x60{name}'"
  match name with
  | "(" => plain .opening
  | ")" => plain .closing
  | "!" | "-not" => plain (.not name)
  | "-a" | "-and" | "-o" | "-or" | "," => plain (.operator name)
  | "-true" | "-noleaf" | "-xdev" | "-mount" | "-warn" | "-nowarn" | "-ignore_readdir_race"
  | "-noignore_readdir_race" | "-daystart" => condition (.constant true)
  | "-false" | "-nouser" | "-nogroup" => condition (.constant false)
  | "-follow" => always fun s => { s with followsAll := true }
  | "-depth" | "-d" => always fun s => { s with deep := true }
  | "-empty" => condition .empty
  | "-readable" => condition .readable
  | "-writable" => condition .writable
  | "-executable" => condition .executable
  | "-print" => condition (.print .output "\n")
  | "-print0" => condition (.print .output "\x00")
  | "-ls" => condition (.list .output)
  | "-prune" =>
    modify fun s => { s with prunes := true }
    condition .prune
  | "-quit" => condition .quit
  | "-delete" =>
    modify fun s => { s with deletes := true }
    condition .delete
  | "-exec" => running false false
  | "-ok" => running false true
  | "-execdir" => running true false
  | "-okdir" => running true true
  | "-fprintf" =>
    match args with
    | [] => fail s!"missing argument to \x60{name}'"
    | [a] => invalid name a
    | file :: text :: rest =>
      let c := Condition.printFormat (sinkOf file) (← format (text.length + 1) text.toList)
      return some (.condition c, rest)
  | "-help" | "--help" | "-version" | "--version" => inUtility (quit 0)
  | _ =>
    if name.startsWith "-newer" then
      let (c, rest) ← newerThan name args
      return some (.condition c, rest)
    else return none

/-- Takes all parts of a query; `fuel` is the number of arguments. -/
def takeParts : Nat → List String → QueryReader (List Part)
  | 0, _ => return []
  | _, [] => return []
  | fuel + 1, name :: args => do
    unless isQueryPart false name do
      inUtility (complain s!"paths must precede expression: \x60{name}'")
      let previous := (← get).previous
      let isPattern := previous ≠ "" && (← inUtility (lookupLink name)) matches .ok _
      if isPattern then
        inUtility (complain s!"possible unquoted pattern after predicate \x60{previous}'?")
      inUtility (quit 1)
    match ← takePart? name args with
    | none => fail s!"unknown predicate \x60{name}'"
    | some (p, rest) =>
      modify fun s => { s with previous := name }
      return p :: (← takeParts fuel rest)

/-! ## Queries from parts -/

def strengthOf (name : String) : Nat :=
  match name with
  | "," => 1
  | "-o" | "-or" => 2
  | _ => 3

def combine (name : String) (p q : Query) : Query :=
  match name with
  | "," => .both p q
  | "-o" | "-or" => .or p q
  | _ => .and p q

mutual

/-- Reads what stands between two operators; `before` is the part in front of it. -/
def takeOne (before : Option String) : Nat → List Part → QueryReader (Query × List Part)
  | 0, _ => fail "invalid expression"
  | fuel + 1, parts => do
    match parts with
    | [] =>
      let name := before.getD "("
      fail s!"expected an expression after '{name}'"
    | .operator name :: _ =>
      fail (s!"invalid expression; you have used a binary operator '{name}' with nothing " ++
        "before it.")
    | .closing :: _ =>
      match before with
      | some name => fail s!"expected an expression between '{name}' and ')'"
      | none => fail "invalid expression; you have too many ')'"
    | .condition c :: rest => return (.condition c, rest)
    | .not name :: rest =>
      let (q, rest) ← takeOne (some name) fuel rest
      return (.not q, rest)
    | [.opening] =>
      fail ("invalid expression; expected to find a ')' but didn't see one. Perhaps you need an " ++
        "extra predicate after '('")
    | .opening :: .closing :: _ =>
      fail "invalid expression; empty parentheses are not allowed."
    | .opening :: rest =>
      match ← takeQuery 0 fuel rest with
      | (q, .closing :: rest) => return (q, rest)
      | _ =>
        fail ("invalid expression; I was expecting to find a ')' somewhere but did not see " ++
          "one.")

def takeQuery (strength : Nat) : Nat → List Part → QueryReader (Query × List Part)
  | 0, _ => fail "invalid expression"
  | fuel + 1, parts => do
    let (q, rest) ← takeOne none fuel parts
    takeRest strength q fuel rest

/-- Goes on after a query as long as operators bind it more tightly than the one before it. -/
def takeRest (strength : Nat) (p : Query) : Nat → List Part → QueryReader (Query × List Part)
  | 0, _ => fail "invalid expression"
  | fuel + 1, parts => do
    match parts with
    | [] | .closing :: _ => return (p, parts)
    | .operator name :: rest =>
      if strengthOf name ≤ strength then return (p, parts)
      let (q, rest) ← takeOne (some name) fuel rest
      let (q, rest) ← takeRest (strengthOf name) q fuel rest
      takeRest strength (combine name p q) fuel rest
    | _ =>
      if 3 ≤ strength then return (p, parts)
      let (q, rest) ← takeOne (some "-a") fuel parts
      let (q, rest) ← takeRest 3 q fuel rest
      takeRest strength (.and p q) fuel rest

end

/-- Reads a query; without actions, files are printed. -/
def query (args : List String) : QueryReader Query := do
  let parts ← takeParts (args.length + 1) args
  let print : Query := .condition (.print .output "\n")
  if parts.isEmpty then return print
  match ← takeQuery 0 (4 * parts.length + 8) parts with
  | (q, []) => return if q.acts then q else .and q print
  | (_, _ :: _) => fail "you have too many ')'"

end QueryReader

end ModularBuild.Utility.Find
