import ModularBuild.Utility.Find.Query
import ModularBuild.Utility.Find.Reader
import ModularBuild.Utility.Listing
import ModularBuild.Utility.Removal
import ModularBuild.Utility.Starting
import ModularBuild.Utility.Status

/-!
# Finding files

`find` walks the files at and below some paths and asks a query about each of them, one after the
other: a directory first and then what is in it, by name, or the other way round.
-/

namespace ModularBuild.Utility.Find

open Text

structure Search where
  query : Query
  least : Nat := 0
  most : Option Nat := none
  deep : Bool := false
  followsAll : Bool := false
  followsOperands : Bool := false
  /-- When the search began. -/
  start : Time
  sinks : List (String × Nat)

structure Item where
  path : String
  /-- The path that the search began at. -/
  top : String
  depth : Nat
  location : Location
  entry : FileEntry

structure State where
  code : Nat := 0
  /-- The files for programs that are run on many, newest first. -/
  batches : Array (Running × List Item)
  /-- Whether the directory in hand is kept out of. -/
  pruned : Bool := false

abbrev FindM := ReaderT Search (StateT State UtilityM)

namespace FindM

variable {α : Type}

def inUtility (action : UtilityM α) : FindM α := liftM (m := UtilityM) action

def search : FindM Search := read

def complainOf (path : String) (e : FileError) : FindM Unit := do
  inUtility (complain s!"{inSingleQuotes path}: {e.name}")
  modify fun st => { st with code := 1 }

/-- Looks up a path; a link at its end is followed if that leads somewhere. -/
def find (path : String) (follows : Bool) : FindM (Except FileError (Location × FileEntry)) := do
  let found ← inUtility (lookupLink path)
  if !follows then return found
  match ← inUtility (lookup path) with
  | .ok (l, e) => return .ok (l, e)
  | .error .tooManyLinks => return .error .tooManyLinks
  | .error _ => return found

/-! ## What files are like -/

def letterOf (e : FileEntry) : Char :=
  match e.content with
  | .file _ => 'f'
  | _ => kindLetter e

def otherLetter (i : Item) : FindM Char := do
  if (← search).followsAll then
    match ← inUtility (lookupLink i.path) with
    | .ok (_, e) => return letterOf e
    | .error _ => return letterOf i.entry
  else match ← inUtility (lookup i.path) with
  | .ok (_, e) => return letterOf e
  | .error .tooManyLinks => return 'L'
  | .error _ => return letterOf i.entry

/-- The name of a file, the slashes of the path that the search began at being part of it. -/
def shownName (i : Item) : String :=
  let trimmed := trimSlashes i.path
  let slashes := (i.path.drop trimmed.length).toString
  if trimmed.isEmpty then "/" else lastName i.path ++ slashes

def pathBelow (i : Item) : String :=
  String.ofList ((i.path.toList.drop i.top.length).dropWhile (· = '/'))

def directoryShown (i : Item) : String :=
  let before := (i.path.toList.reverse.dropWhile (· ≠ '/')).reverse
  if before.isEmpty then "." else String.ofList before.dropLast

/-! ## Formats -/

def Filling.fit (f : Filling) (isNumber : Bool) (text : String) : String :=
  let text := match f.precision with
    | none => text
    | some p => if isNumber then padLeft p text '0' else (text.take p).toString
  let text := if isNumber then f.sign ++ text else text
  if f.left then padRight f.width text
  else padLeft f.width text (if f.zeros && isNumber then '0' else ' ')

def fractionOf (t : Time) : String := "." ++ numeral 10 9 (t % Moment.secondLength) ++ "0"

def timeField (t : Time) (c : Char) : String :=
  let moment := Moment.ofTime t
  let fraction := fractionOf t
  match c with
  | '@' => s!"{moment.seconds}{fraction}"
  | '+' => moment.format "%Y-%m-%d+%H:%M:%S" ++ fraction
  | 'S' | 'T' | 'X' => moment.format s!"%{String.singleton c}" ++ fraction
  | c => moment.format s!"%{String.singleton c}"

def wholeTime (t : Time) : String :=
  let moment := Moment.ofTime t
  moment.format "%a %b %e %H:%M:%S" ++ fractionOf t ++ moment.format " %Y"

/-- What a letter stands for; the flag tells numbers from texts. -/
def field (i : Item) (f : Filling) (c : Char) : FindM (Bool × String) := do
  let e := i.entry
  let fs ← inUtility files
  let text (s : String) : FindM (Bool × String) := return (false, s)
  match c with
  | 'p' => text i.path
  | 'f' => text (shownName i)
  | 'h' => text (directoryShown i)
  | 'P' => text (pathBelow i)
  | 'H' => text i.top
  | 'd' => return (true, toString i.depth)
  | 's' => text (toString (FileTest.sizeOf e))
  | 'm' => return (true, (if f.marked then "0" else "") ++ numeral 8 1 e.mode)
  | 'M' => text s!"{kindLetter e}{FileMode.letters e.mode}"
  | 'y' => text (String.singleton (letterOf e))
  | 'Y' =>
    let behind ← inUtility (lookup i.path)
    let isLost := letterOf e = 'l' && !(behind matches .ok _)
    let loops := behind matches .error .tooManyLinks
    if isLost then text (if loops then "L" else "N")
    else match behind with
      | .ok (_, e) => text (String.singleton (letterOf e))
      | .error _ => text (String.singleton (letterOf e))
  | 'l' =>
    match e.content with
    | .link target => text (ByteText.ofText target.text)
    | _ => text ""
  | 'u' | 'g' => text (ownerName e)
  | 'U' | 'G' => text (toString (ownerNumber e))
  | 'n' => text (toString (linkCount fs i.location e))
  | 'i' => text (toString (fs.entries.keys.findIdx (· = i.location) + 1))
  | 'k' => text (toString (blocksOf e))
  | 'b' => text (toString (2 * blocksOf e))
  | 't' | 'a' | 'c' => text (wholeTime e.modified)
  | 'F' => text "ext4"
  | 'D' | 'S' => text "1"
  | _ => text ""

def formatted (i : Item) : List FormatPart → FindM String
  | [] | .stop :: _ => return ""
  | .text s :: rest => return s ++ (← formatted i rest)
  | .field f c :: rest => do
    let (isNumber, text) ← field i f c
    return Filling.fit f isNumber text ++ (← formatted i rest)
  | .time f c :: rest => do
    return Filling.fit f false (timeField i.entry.modified c) ++ (← formatted i rest)

def listLine (i : Item) : FindM String := do
  let e := i.entry
  let fs ← inUtility files
  let moment := Moment.ofTime e.modified
  let now ← inUtility now
  let recent := e.modified ≤ now && now - e.modified < 15552000 * Moment.secondLength
  let date := moment.format (if recent then "%b %e %H:%M" else "%b %e  %Y")
  let target := match e.content with
    | .link target => " -> " ++ ByteText.ofText target.text
    | _ => ""
  let number := fs.entries.keys.findIdx (· = i.location) + 1
  return padLeft 9 (toString number) ++ " " ++ padLeft 6 (toString (blocksOf e)) ++
    s!" {kindLetter e}{FileMode.letters e.mode} " ++
    padLeft 3 (toString (linkCount fs i.location e)) ++ " " ++ padRight 8 (ownerName e) ++ " " ++
    padRight 8 (ownerName e) ++ " " ++ padLeft 8 (toString (FileTest.sizeOf e)) ++
    s!" {date} {i.path}{target}\n"

def emit (sink : Sink) (s : String) : FindM Unit := do
  match sink with
  | .output => inUtility (say s)
  | .complaints => inUtility (writeError s)
  | .file name =>
    if let some k := (← search).sinks.lookup name then
      if let .error e := ← inUtility (writeOpened k s) then complainOf name e

/-! ## Programs -/

/-- The directory that a program is run in for a file, and what it is told. -/
def placeOf (r : Running) (i : Item) : FindM (Option Location × String) := do
  if !r.inDirectory then return (none, i.path)
  let name := lastName i.path
  let name := if name.startsWith "/" then name else "./" ++ name
  match ← inUtility (lookup (directoryPart i.path)) with
  | .ok (l, _) => return (some l, name)
  | .error _ => return (none, i.path)

def runProgram (args : List String) (cwd : Option Location) : FindM Bool := do
  match ← inUtility (runChild args fun c => { c with cwd := cwd.getD c.cwd }) with
  | .ok (.code 0) => return true
  | .ok _ => return false
  | .error e =>
    let program := args.headD ""
    inUtility (complain s!"{inSingleQuotes program}: {e.name}")
    return false

def agrees (r : Running) (path : String) : FindM Bool := inUtility do
  flush
  let program := r.command.headD ""
  writeError s!"< {program} ... {path} > ? "
  let answer ← readAnswer Machine.readLimit
  return answer.startsWith "y" || answer.startsWith "Y"

def runOn (r : Running) (i : Item) : FindM Bool := do
  let (cwd, name) ← placeOf r i
  if r.asks then
    if !(← agrees r i.path) then return false
  runProgram (r.command.map fun s => name.intercalate (s.splitOn "\x7b\x7d")) cwd

def runBatch (index : Nat) : FindM Unit := do
  match (← get).batches[index]? with
  | some (r, i :: items) =>
    modify fun st => { st with batches := st.batches.setIfInBounds index (r, []) }
    let places ← (i :: items).reverse.mapM (placeOf r)
    let ok ← runProgram (r.command ++ places.map (·.2)) ((places.head?.bind (·.1)))
    unless ok do modify fun st => { st with code := 1 }
  | _ => pure ()

def runBatches : FindM Unit := do
  for index in List.range (← get).batches.size do runBatch index

/-- Puts a file to those that a program is run on; one that is run in a directory does not wait for
files of another one. -/
def addToBatch (index : Nat) (r : Running) (i : Item) : FindM Unit := do
  match (← get).batches[index]? with
  | some (_, j :: _) =>
    if r.inDirectory && directoryPart i.path ≠ directoryPart j.path then runBatch index
  | _ => pure ()
  modify fun st =>
    let items := ((st.batches[index]?).map (·.2)).getD []
    { st with batches := st.batches.setIfInBounds index (r, i :: items) }

/-! ## Conditions -/

def remove (i : Item) : FindM Bool := do
  if i.path = "." then return true
  let cwd := (← inUtility context).cwd
  let path := ByteText.path i.path
  let result ← match i.entry.content with
    | .directory => inUtility (change (·.removeDirectory cwd path))
    | _ => inUtility (onMachine (Machine.unlink cwd path))
  match result with
  | .ok () => return true
  | .error e =>
    inUtility (complain s!"cannot delete {inSingleQuotes i.path}: {e.name}")
    modify fun st => { st with code := 1 }
    return false

def isEmpty (i : Item) : FindM Bool := do
  match i.entry.content with
  | .file bytes => return bytes.isEmpty
  | .directory => return ((← inUtility files).childNames i.location).isEmpty
  | _ => return false

def finish : FindM α := do
  runBatches
  let code := (← get).code
  inUtility (quit code)

def satisfies (i : Item) (c : Condition) : FindM Bool := do
  let e := i.entry
  let done (action : FindM Unit) : FindM Bool := do
    action
    return true
  match c with
  | .constant b => return b
  | .name folds pattern =>
    let name := if trimSlashes i.path = "" then "/" else lastName i.path
    return Shell.textMatches folds pattern name
  | .path folds pattern => return Shell.textMatches folds pattern i.path
  | .linksTo folds pattern =>
    match e.content with
    | .link target => return Shell.textMatches folds pattern (ByteText.ofText target.text)
    | _ => return false
  | .matching r folds =>
    let t : Regex.Subject := { chars := i.path.toList.toArray, folds }
    return (Regex.ends t r 0 []).any (·.1 = t.size)
  | .kind letters others =>
    if others then return letters.contains (← otherLetter i)
    else return letters.contains (letterOf e)
  | .empty => isEmpty i
  | .size m unit => return m.holds ((FileTest.sizeOf e + unit - 1) / unit)
  | .permissions t => return t.holds e.mode
  | .newer t => return t < e.modified
  | .age u m => return u.holds m ((← search).start - e.modified)
  | .nameCount m => return m.holds (linkCount (← inUtility files) i.location e)
  | .number m =>
    return m.holds ((← inUtility files).entries.keys.findIdx (· = i.location) + 1)
  | .owner m => return m.holds (ownerNumber e)
  | .readable => return e.mayRead
  | .writable => return e.mayWrite
  | .executable => return e.mayExecute
  | .sameAs path =>
    match ← find path (← search).followsAll with
    | .ok (l, d) => return l = i.location || (d.twin.isSome && d.twin = e.twin)
    | .error _ => return false
  | .print sink ending => done (emit sink (i.path ++ ending))
  | .printFormat sink parts => done do emit sink (← formatted i parts)
  | .list sink => done do emit sink (← listLine i)
  | .run r => runOn r i
  | .runAll index r => done (addToBatch index r i)
  | .delete => remove i
  | .prune => done (modify fun st => { st with pruned := true })
  | .quit => finish

def holds (i : Item) : Query → FindM Bool
  | .condition c => satisfies i c
  | .not q => return !(← holds i q)
  | .and p q => do if ← holds i p then holds i q else return false
  | .or p q => do if ← holds i p then return true else holds i q
  | .both p q => do
    discard (holds i p)
    holds i q

/-! ## The walk -/

def ask (i : Item) : FindM Unit := do
  let s ← search
  if s.least ≤ i.depth then discard (holds i s.query)

/-- Walks a file and all below it. `above` are the directories that it is in, with their paths. -/
def walk (top : String) : Nat → Nat → List (Location × String) → String → FindM Unit
  | 0, _, _, _ => return ()
  | fuel + 1, depth, above, path => do
    let s ← search
    match ← find path (s.followsAll || (depth = 0 && s.followsOperands)) with
    | .error e => complainOf path e
    | .ok (location, entry) =>
      let item : Item := { path, top, depth, location, entry }
      if let some (_, first) := above.find? (·.1 = location) then
        inUtility (complain (s!"File system loop detected; {inSingleQuotes path} is part of the " ++
          s!"same file system loop as {inSingleQuotes first}."))
        modify fun st => { st with code := 1 }
        return ()
      modify fun st => { st with pruned := false }
      unless s.deep do ask item
      let isDirectory := entry.content = .directory
      let pruned := (← get).pruned && !s.deep
      let goesOn := isDirectory && !pruned && s.most.all (depth < ·)
      if goesOn then
        match ← find path (s.followsAll || (depth = 0 && s.followsOperands)) with
        | .error e => complainOf path e
        | .ok (_, entry) =>
          if entry.mayRead then
            for name in (← inUtility files).childNames location do
              let name := ByteText.ofText name
              let below := if path.endsWith "/" then path ++ name else path ++ "/" ++ name
              if entry.mayExecute then
                let present := (← inUtility (lookupLink below)) matches .ok _
                if present then walk top fuel (depth + 1) ((location, path) :: above) below
              else complainOf below .permission
          else complainOf path .permission
      if s.deep then ask item

def depthLimit : Nat := 10000

/-- Searches below some paths; the exit code. -/
def searchAll (paths : List String) : FindM Nat := do
  for path in paths do walk path depthLimit 0 [] path
  runBatches
  return (← get).code

end FindM

end ModularBuild.Utility.Find

namespace ModularBuild.Utility

open Find Text

namespace Find

def takeLeading (s : Scope) : List String → UtilityM (Scope × List String)
  | "-L" :: rest => takeLeading { s with followsAll := true } rest
  | "-H" :: rest => takeLeading { s with followsAll := false, followsOperands := true } rest
  | "-P" :: rest => takeLeading { s with followsAll := false, followsOperands := false } rest
  | "--" :: rest => return (s, rest)
  | "-D" :: word :: rest => do
    complain s!"Ignoring unrecognised debug flag {inSingleQuotes word}"
    takeLeading s rest
  | a :: rest =>
    if a.startsWith "-O" then takeLeading s rest else return (s, a :: rest)
  | [] => return (s, [])

/-- The programs of a query that are run on many files at once, in the order they were given. -/
def batchesOf : Query → List Running
  | .condition (.runAll _ r) => [r]
  | .condition _ => []
  | .not q => batchesOf q
  | .and p q | .or p q | .both p q => batchesOf p ++ batchesOf q

def openSinks (q : Query) : UtilityM (List (String × Nat)) :=
  q.files.eraseDups.mapM fun name => do
    match ← openNamed name { writes := true, creates := true, truncates := true } with
    | .ok k => return (name, k)
    | .error e => fail s!"{inSingleQuotes name}: {e.name}"

/-- Tells that output was lost, in the words of `find`. -/
def checkLoss : UtilityM Unit := do
  if let some e ← lostOutput then
    let name ← programName
    writeError s!"{name}: 'standard output': {e.name}\n"
    let reason := if e = .badDescriptor then s!": {e.name}" else ""
    writeError s!"{name}: write error{reason}\n"
    quit 1

end Find

def find : Utility := fun args => do
  let (scope, args) ← Find.takeLeading {} args
  let paths := args.takeWhile (!isQueryPart true ·)
  let (query, scope) ← (QueryReader.query (args.drop paths.length)).run scope
  if scope.deletes && scope.prunes && !scope.deep then
    fail ("The -delete action automatically turns on -depth, but -prune does nothing when " ++
      "-depth is in effect.  If you want to carry on anyway, just explicitly use the -depth " ++
      "option.")
  let search : Search := {
    query, least := scope.least, most := scope.most, deep := scope.deep || scope.deletes
    followsAll := scope.followsAll, followsOperands := scope.followsOperands
    start := ← now, sinks := ← Find.openSinks query }
  let batches := ((Find.batchesOf query).map fun r => (r, [])).toArray
  let (code, _) ← ((FindM.searchAll (if paths.isEmpty then ["."] else paths)).run search).run
    { batches }
  Find.checkLoss
  return code

end ModularBuild.Utility
