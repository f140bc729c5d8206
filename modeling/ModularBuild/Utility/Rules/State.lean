import ModularBuild.Utility.Input
import ModularBuild.Utility.Rules.Association
import ModularBuild.Utility.Rules.Grammar
import ModularBuild.Utility.Starting

/-!
# The state of a run

Rules work on a record and its fields, on variables and arrays, and on streams, which are files and
commands. The record is cut into fields when a field is asked for, and put together from them again
when one has been changed.
-/

namespace ModularBuild.Utility.Rules

open Text

/-! ## Separators -/

inductive Separator where
  /-- Blanks, of which those around all fields count for nothing. -/
  | blanks
  /-- Nothing: each character is a field. -/
  | nothing
  | sign (c : Char)
  | fitting (r : Regex)
deriving Inhabited

inductive RecordEnd where
  | sign (c : Char)
  | blankLines
  | fitting (r : Regex)
deriving Inhabited

def isFieldBlank (c : Char) : Bool := c = ' ' || c = '\t' || c = '\n'

/-- The words of a text; `fuel` is its length. -/
def wordsFrom : Nat → List Char → List String
  | 0, _ => []
  | fuel + 1, cs =>
    let cs := cs.dropWhile isFieldBlank
    let w := cs.takeWhile (!isFieldBlank ·)
    if w.isEmpty then [] else String.ofList w :: wordsFrom fuel (cs.drop w.length)

/-- The first match from a place on that is not empty; `fuel` is the number of places. -/
def findFilled? (r : Regex) (t : Regex.Subject) : Nat → Nat → Option Regex.Match
  | 0, _ => none
  | fuel + 1, i =>
    match r.find? t i with
    | none => none
    | some m => if m.start < m.stop then some m else findFilled? r t fuel (m.start + 1)

def partsFrom (r : Regex) (t : Regex.Subject) : Nat → Nat → List String
  | 0, i => [t.slice i t.size]
  | fuel + 1, i =>
    match findFilled? r t (t.size + 1) i with
    | none => [t.slice i t.size]
    | some m => t.slice i m.start :: partsFrom r t fuel m.stop

def Separator.cut (s : Separator) (text : String) : List String :=
  if text.isEmpty then []
  else match s with
    | .blanks => wordsFrom (text.length + 1) text.toList
    | .nothing => text.toList.map String.singleton
    | .sign c => (pieces c text.toList).map String.ofList
    | .fitting r => partsFrom r (.ofList text.toList) (text.length + 1) 0

/-- Takes the first record off a text: the record, and what follows it. -/
def RecordEnd.take? (e : RecordEnd) (cs : List Char) : Option (List Char × List Char) :=
  if cs.isEmpty then none
  else match e with
    | .sign c =>
      let taken := cs.takeWhile (· ≠ c)
      some (taken, cs.drop (taken.length + 1))
    | .blankLines =>
      let cs := cs.dropWhile (· = '\n')
      if cs.isEmpty then none else some (paragraph cs.length [] cs)
    | .fitting r =>
      let t := Regex.Subject.ofList cs
      match findFilled? r t (t.size + 1) 0 with
      | none => some (cs, [])
      | some m => some (cs.take m.start, cs.drop m.stop)
where
  /-- Lines up to an empty one, which are gathered in reverse. -/
  paragraph : Nat → List Char → List Char → List Char × List Char
    | 0, taken, rest => (taken.reverse, rest)
    | _, taken, [] => (taken.reverse, [])
    | _, taken, '\n' :: [] => (taken.reverse, [])
    | _, taken, '\n' :: '\n' :: rest => (taken.reverse, rest.dropWhile (· = '\n'))
    | fuel + 1, taken, c :: rest => paragraph fuel (c :: taken) rest

/-! ## Streams -/

inductive StreamKind where
  | readFile
  | readCommand
  | writeFile
  | writeCommand
deriving DecidableEq

/-- A file or a command that is read from or written to. -/
structure Stream where
  name : String
  kind : StreamKind
  /-- The open file that is written to. -/
  opened : Option Nat := none
  /-- What has not been read. -/
  pending : List Char := []
  /-- What has been written, newest first. -/
  written : List String := []
  /-- The exit code of a command that is read from. -/
  code : Nat := 0

/-! ## The state -/

inductive Slot where
  | value (v : Value)
  | array (id : Nat)
deriving Inhabited

structure State where
  globals : Array Value
  /-- The arrays: those of the variables by their numbers, and those of functions behind them. -/
  arrays : Array Association
  parameters : Array Slot := #[]
  record : String := ""
  /-- Whether the record has to be put together from the fields. -/
  changed : Bool := false
  fields : Array Value := #[]
  /-- Whether the record has been cut into fields. -/
  cut : Bool := true
  separator : Separator := .blanks
  recordEnd : RecordEnd := .sign '\n'
  /-- What has not been read of the file in hand. -/
  input : Option (List Char) := none
  /-- The number of the argument that is looked at next. -/
  nextArgument : Nat := 1
  /-- Whether an argument was a file. -/
  anyFile : Bool := false
  /-- Whether there is no more input. -/
  finished : Bool := false
  /-- The streams, the one that was used last first. -/
  streams : List Stream := []
  /-- Whether each rule is in a range of records. -/
  ranges : Array Bool
  /-- Patterns that have been read. -/
  patterns : List (String × Regex) := []
  /-- How many characters have been printed and perhaps not been written. -/
  printed : Nat := 0
  /-- How many values wait in calls of functions. -/
  waiting : Nat := 0
  /-- How many calls of functions have not ended. -/
  calls : Nat := 0
  code : Nat := 0
  /-- What random numbers come from, and what was set last. -/
  random : Nat := 1
  seed : Float := 0

inductive Jump where
  | leaveLoop
  | nextRound
  | nextRecord
  | nextFile
  | leaveFunction (v : Value)
  | exit
  /-- A mistake that has been told of. -/
  | fatal

def complainShortly (s : String) : UtilityM Unit := do
  let name := ((← programName).splitOn "/").getLast?.getD ""
  writeError s!"{name}: {s}\n"

abbrev RulesM := ReaderT Program (ExceptT Jump (StateT State UtilityM))

namespace RulesM

variable {α : Type}

def inUtility (action : UtilityM α) : RulesM α := liftM (m := UtilityM) action

/-! ## Mistakes -/

def fail (s : String) : RulesM α := do
  inUtility (complainShortly s)
  modify fun s => { s with code := 2 }
  throw .fatal

def variableAt (i : Nat) : RulesM Value := return (← get).globals[i]?.getD .unset

def failInRecord (s : String) : RulesM α := do
  let file := (← variableAt fileName).toText "%.6g"
  let count (i : Nat) : RulesM String := return (← variableAt i).toText "%.6g"
  let n ← count fileRecordNumber
  let m ← count recordNumber
  fail s!"run time error: {s}\n\tFILENAME=\"{file}\" FNR={n} NR={m}"

/-! ## Formats -/

def formatAt (i : Nat) : RulesM String := return (← variableAt i).toText "%.6g"

def conversion : RulesM String := formatAt conversionFormat

def textOf (v : Value) : RulesM String := do
  match v with
  | .text s | .input s => return s
  | .unset => return ""
  | v => return v.toText (← conversion)

def patternFor (s : String) : RulesM Regex := do
  match (← get).patterns.lookup s with
  | some r => return r
  | none =>
    match patternOf s with
    | .ok r =>
      modify fun st => { st with patterns := (s, r) :: st.patterns }
      return r
    | .error e => failInRecord s!"regular expression compile failed ({e.message})\n{s}"

def separatorFor (s : String) : RulesM Separator := do
  match s.toList with
  | [' '] => return .blanks
  | [] => return .nothing
  | [c] => return .sign c
  | _ => return .fitting (← patternFor s)

/-! ## The record -/

def setRecord (s : String) : RulesM Unit :=
  modify fun st => { st with record := s, changed := false, cut := false, fields := #[] }

def cutRecord : RulesM Unit := do
  let s ← get
  unless s.cut do
    let fields := ((s.separator.cut s.record).map Value.input).toArray
    set { s with fields, cut := true }

def joinRecord : RulesM Unit := do
  let s ← get
  if s.changed then
    let format ← conversion
    let separator ← textOf (← variableAt outputFieldSeparator)
    let texts := s.fields.toList.map (·.toText format)
    set { s with record := separator.intercalate texts, changed := false }

def recordText : RulesM String := do
  joinRecord
  return (← get).record

def resized (fields : Array Value) (n : Nat) : Array Value :=
  if n ≤ fields.size then fields.extract 0 n
  else fields ++ Array.replicate (n - fields.size) (.input "")

def setFieldCount (n : Nat) : RulesM Unit := do
  cutRecord
  modify fun st => { st with fields := resized st.fields n, changed := true }

def fieldIndex (v : Value) : RulesM Nat := do
  let n := truncated v.toNumber
  if n < 0 then failInRecord s!"negative field index ${n}"
  else return n.toNat

def fieldAt (i : Nat) : RulesM Value := do
  if i = 0 then return .input (← recordText)
  else
    cutRecord
    return (← get).fields[i - 1]?.getD .unset

/-! ## Variables -/

def setVariable (i : Nat) (v : Value) : RulesM Unit := do
  let store : RulesM Unit := modify fun st => { st with globals := st.globals.setIfInBounds i v }
  if i = fieldCount then
    let n := truncated v.toNumber
    if n < 0 then failInRecord "negative value assigned to NF"
    setFieldCount n.toNat
  else if i = fieldSeparator then
    cutRecord
    store
    let separator ← separatorFor (← textOf v)
    modify fun st => { st with separator }
  else if i = outputFieldSeparator then
    joinRecord
    store
  else if i = recordSeparator then
    store
    let s ← textOf v
    match s.toList with
    | [] => modify fun st => { st with recordEnd := .blankLines }
    | [c] => modify fun st => { st with recordEnd := .sign c }
    | _ =>
      let r ← patternFor s
      modify fun st => { st with recordEnd := .fitting r }
  else store

def setField (i : Nat) (v : Value) : RulesM Unit := do
  if i = 0 then setRecord (← textOf v)
  else
    cutRecord
    modify fun st =>
      let fields := if st.fields.size < i then resized st.fields i else st.fields
      { st with fields := fields.setIfInBounds (i - 1) v, changed := true }

def getVariable (i : Nat) : RulesM Value := do
  if i = fieldCount then
    cutRecord
    return .ofNat (← get).fields.size
  else variableAt i

def count (i : Nat) : RulesM Unit := do
  let v ← variableAt i
  modify fun st => { st with globals := st.globals.setIfInBounds i (.number (v.toNumber + 1)) }

/-! ## Arrays -/

def onArray (id : Nat) (f : Association → α × Association) : RulesM α := do
  let a ← modifyGet fun st =>
    (st.arrays[id]?.getD .empty, { st with arrays := st.arrays.setIfInBounds id .empty })
  let (result, a) := f a
  modify fun st => { st with arrays := st.arrays.setIfInBounds id a }
  return result

def setElement (id : Nat) (k : Key) (v : Value) : RulesM Unit :=
  onArray id fun a => ((), a.insert k v)

/-! ## Output -/

def isStandardOutput (name : String) : Bool := name = "/dev/stdout" || name = "-"

def findStream? (name : String) (kind : StreamKind) : RulesM (Option Stream) := do
  let isMeant (t : Stream) : Bool := t.name = name && t.kind = kind
  let s ← get
  match s.streams.find? isMeant with
  | none => return none
  | some t =>
    set { s with streams := t :: s.streams.filter (!isMeant ·) }
    return some t

def putStream (t : Stream) : RulesM Unit :=
  modify fun st => { st with streams := t :: st.streams.drop 1 }

def addStream (t : Stream) : RulesM Unit :=
  modify fun st => { st with streams := t :: st.streams }

def failToClose (name : String) (e : FileError) : RulesM α :=
  fail s!"close failed on file \"{name}\" ({e.name})"

def flushStream (t : Stream) : RulesM Stream := do
  match t.opened with
  | some i =>
    match ← inUtility (writeOpened i (String.join t.written.reverse)) with
    | .ok () => return { t with written := [] }
    | .error e => failToClose t.name e
  | none => return t

def flushFiles : RulesM Unit := do
  inUtility flush
  let streams ← (← get).streams.mapM fun t =>
    if t.kind = .writeFile then flushStream t else return t
  modify fun st => { st with streams }

def codeOf (status : Except FileError ExitStatus) : Nat :=
  match status with
  | .ok (.code n) => n
  | .ok (.signal s) => 256 + s.number
  | .error _ => 127

def runCommand (command : String) (adjust : ProcessContext → ProcessContext := fun c => c) :
    RulesM Nat := do
  return codeOf (← inUtility (runChild ["/bin/sh", "-c", command] adjust))

def withheld (action : RulesM α) : RulesM α := do
  let waiting := (← inUtility get).output
  inUtility (modify fun s => { s with output := [] })
  let a ← action
  inUtility (modify fun s => { s with output := s.output ++ waiting })
  return a

/-- Ends a stream; the answer is what closing it gives. -/
def endStream (t : Stream) : RulesM Nat := do
  match t.kind with
  | .readFile => return 0
  | .readCommand => return t.code
  | .writeFile =>
    discard (flushStream t)
    return 0
  | .writeCommand =>
    let reader ← inUtility (onMachine (Machine.holdText (String.join t.written.reverse)))
    withheld <| runCommand t.name fun c =>
      { c with descriptors := c.descriptors.insert 0 reader }

def outputBlock : Nat := 4096

def print (text : String) : RulesM Unit := do
  inUtility (say text)
  let n := (← get).printed + text.length
  if n < outputBlock then modify fun st => { st with printed := n }
  else
    modify fun st => { st with printed := 0 }
    inUtility flush

def emitTo (kind : OutputKind) (name text : String) : RulesM Unit := do
  if kind ≠ .command && isStandardOutput name then print text
  else if kind ≠ .command && name = "/dev/stderr" then inUtility (writeError text)
  else
    let streamKind : StreamKind := if kind = .command then .writeCommand else .writeFile
    match ← findStream? name streamKind with
    | some t => putStream { t with written := text :: t.written }
    | none =>
      if kind = .command then
        inUtility flush
        addStream { name, kind := streamKind, written := [text] }
      else
        let access : Machine.Access := if kind = .append then .append else .write
        match ← inUtility (openNamed name access) with
        | .error e => fail s!"cannot open \"{name}\" for output ({e.name})"
        | .ok i => addStream { name, kind := streamKind, opened := some i, written := [text] }

/-- Ends all streams with a name; the answer is that of the last one, or `-1`. -/
def closeNamed (name : String) : RulesM Int := do
  let (meant, others) := (← get).streams.partition fun t => t.name = name
  modify fun st => { st with streams := others }
  meant.foldlM (fun _ t => return (← endStream t : Int)) (-1)

def closeCommands : RulesM Unit := do
  let (meant, others) := (← get).streams.partition fun t => t.kind = .writeCommand
  modify fun st => { st with streams := others }
  for t in meant do discard (endStream t)

/-! ## Input -/

def failToRead (e : FileError) : RulesM α := fail s!"read error ({e.name})"

/-- What is in a file, or in standard input; none if it cannot be opened. -/
def readWhole (name : String) : RulesM (Except FileError (List Char)) := do
  if name = "-" || name = "/dev/stdin" then
    match ← inUtility (readDescriptor 0) with
    | .ok text => return .ok text.toList
    | .error e => failToRead e
  else match ← inUtility (openNamed name .read) with
    | .error e => return .error e
    | .ok i =>
      match ← inUtility (onMachine (Machine.readAll i)) with
      | .ok bytes => return .ok (ByteText.ofBytes bytes).toList
      | .error e => failToRead e

/-- An argument that gives a variable a value, after the name of the variable. -/
def assignment? (argument : String) : Option (String × String) :=
  let cs := argument.toList
  let w := cs.takeWhile Token.isNamePart
  match cs.drop w.length with
  | '=' :: value =>
    if w.head?.any Token.isNameStart then
      some (String.ofList w, Token.unescaped (String.ofList value))
    else none
  | _ => none

def assignNamed (name text : String) : RulesM Unit := do
  if let some i := (← read).names.findIdx? (· = name) then setVariable i (.input text)

/-- Opens the next file that is named as an argument; the answer says whether there is one, and
`fuel` is the number of arguments. -/
def openNext : Nat → RulesM Bool
  | 0 => return false
  | fuel + 1 => do
    let s ← get
    let last := truncated (← variableAt argumentCount).toNumber
    let start (name : String) : RulesM Bool := do
      match ← readWhole name with
      | .error e => fail s!"cannot open \"{name}\" ({e.name})"
      | .ok cs =>
        modify fun st => { st with
          input := some cs, anyFile := true
          globals := (st.globals.setIfInBounds fileName (.input name)).setIfInBounds
            fileRecordNumber (.number 0) }
        return true
    if last ≤ s.nextArgument then
      if s.anyFile then
        modify fun st => { st with finished := true }
        return false
      else start "-"
    else
      let n := s.nextArgument
      set { s with nextArgument := n + 1 }
      match ← onArray argumentArray (·.find? (.whole n)) with
      | none => openNext fuel
      | some v =>
        let argument ← textOf v
        match assignment? argument with
        | some (name, text) =>
          assignNamed name text
          openNext fuel
        | none => if argument = "" then openNext fuel else start argument

/-- Takes the next record of the input; `fuel` is the number of arguments. -/
def takeRecord : Nat → RulesM (Option String)
  | 0 => return none
  | fuel + 1 => do
    let s ← get
    if s.finished then return none
    match s.input.bind s.recordEnd.take? with
    | some (taken, rest) =>
      set { s with input := some rest }
      return some (String.ofList taken)
    | none =>
      if ← openNext (fuel + 1) then takeRecord fuel else return none

def argumentFuel : RulesM Nat := do
  return (truncated (← variableAt argumentCount).toNumber).toNat + 4

def nextRecord : RulesM (Option String) := do
  let found ← takeRecord (← argumentFuel)
  if found.isSome then
    count recordNumber
    count fileRecordNumber
  return found

/-- The next record of a stream; `start` begins the stream. None if that fails. -/
def nextOf (name : String) (kind : StreamKind) (start : RulesM (Option Stream)) :
    RulesM (Option (Option String)) := do
  let found ← match ← findStream? name kind with
    | some t => pure (some t)
    | none =>
      match ← start with
      | some t =>
        addStream t
        pure (some t)
      | none => pure none
  match found with
  | none => return none
  | some t =>
    match (← get).recordEnd.take? t.pending with
    | some (taken, rest) =>
      putStream { t with pending := rest }
      return some (some (String.ofList taken))
    | none => return some none

def nextOfFile (name : String) : RulesM (Option (Option String)) :=
  nextOf name .readFile do
    match ← readWhole name with
    | .ok pending => return some { name, kind := .readFile, pending }
    | .error _ => return none

def nextOfCommand (command : String) : RulesM (Option (Option String)) :=
  nextOf command .readCommand do
    let (reader, writer) ← inUtility (onMachine Machine.newPipe)
    let code ← runCommand command fun c =>
      { c with descriptors := c.descriptors.insert 1 writer }
    match ← inUtility (onMachine (Machine.readAll reader)) with
    | .ok bytes =>
      let pending := (ByteText.ofBytes bytes).toList
      return some { name := command, kind := .readCommand, pending, code }
    | .error _ => return none

end RulesM

end ModularBuild.Utility.Rules
