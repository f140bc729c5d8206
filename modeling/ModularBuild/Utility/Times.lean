import ModularBuild.Moment.Reader
import ModularBuild.Utility.PathNames

/-!
# Times

`touch` gives files new times, `date` shows a moment, and `sleep` lets time pass.
-/

namespace ModularBuild.Utility

open Text

def now : UtilityM Time := return (← files).clock

def timeOfFile (path : String) : UtilityM Time := do
  match ← lookup path with
  | .ok (_, e) => return e.modified
  | .error e => fail s!"failed to get attributes of {shellQuoted path}: {e.name}"

/-! ## Changing the times of files -/

/-- What `touch` gives to files: the time, or none for the time of the machine. -/
structure Touching where
  time : Option Time
  creates : Bool
  /-- Whether links are followed. -/
  follows : Bool
  /-- Whether the time of the last change is meant. -/
  changes : Bool

namespace Touching

def stamp (t : Touching) (path : String) : UtilityM (Except FileError Unit) := do
  let cwd := (← context).cwd
  let p := ByteText.path path
  change fun fs => do
    let (l, e) ← if t.follows then fs.lookup cwd p else fs.lookupLink cwd p
    if t.time.isNone && !e.own && !e.mayWrite then throw .permission
    if t.time.isSome && !e.own then throw .notPermitted
    if !t.changes then return fs
    let fs := fs.tick
    return fs.replace l { e with modified := t.time.getD fs.clock }

def touch (t : Touching) (path : String) : UtilityM Nat := do
  let opened ← if t.creates then openNamed path { writes := true, creates := true }
    else pure (.error .isDirectory)
  match ← t.stamp path, opened with
  | .ok (), _ => return 0
  | .error e, .error opening =>
    if opening ≠ .isDirectory then complain s!"cannot touch {shellQuoted path}: {opening.name}"
    else
      if !t.creates && e = .noEntry then return 0
      complain s!"setting times of {shellQuoted path}: {e.name}"
    return 1
  | .error e, .ok _ =>
    complain s!"setting times of {shellQuoted path}: {e.name}"
    return 1

end Touching

def touch : Utility := fun args => do
  let a ← arguments [letter 'a', option 'c' "no-create", option 'd' "date" .required, letter 'f',
    option 'h' "no-dereference", letter 'm', option 'r' "reference" .required,
    letter 't' .required, word "time" .required] args
  let which ← (a.values "time").mapM fun s => do
    let choices := ["access", "atime", "use", "mtime", "modify"]
    match choices.find? (·.startsWith s) with
    | some w => pure w
    | none =>
      refuse (s!"invalid argument {inSingleQuotes s} for '--time'\nValid arguments are:\n" ++
        "  - 'access', 'atime', 'use'\n  - 'mtime', 'modify'")
  let accessOnly := (a.has "a" || which.any ["access", "atime", "use"].contains) && !a.has "m" &&
    !which.any ["mtime", "modify"].contains
  let sources := [a.has "reference" && !a.has "date", a.has "t", a.has "date" && a.has "t"]
  if 1 < sources.count true then refuse "cannot specify times from more than one source"
  let reference ← (a.value? "reference").mapM timeOfFile
  let start ← now
  let time ← match a.value? "date", a.value? "t" with
    | some s, _ =>
      match Moment.read? (reference.getD start) s with
      | some t => pure (if s = "now" then none else some t)
      | none => fail s!"invalid date format {inSingleQuotes s}"
    | none, some s =>
      match Moment.readDigits? start s with
      | some t => pure (some t)
      | none => fail s!"invalid date format {inSingleQuotes s}"
    | none, none => pure reference
  if a.operands.isEmpty then refuse "missing file operand"
  let touching : Touching := {
    time, creates := !a.has "no-create" && !a.has "no-dereference"
    follows := !a.has "no-dereference", changes := !accessOnly }
  forEach a.operands touching.touch

/-! ## Showing a moment -/

def usualDateFormat : String := "%a %b %e %H:%M:%S %Z %Y"

/-- The format of a date and a time that are joined in one of the usual ways. -/
def isoFormat (separator precision : String) : Option String :=
  let day := "%Y-%m-%d"
  match precision with
  | "date" => some day
  | "hours" => some (day ++ separator ++ "%H%:z")
  | "minutes" => some (day ++ separator ++ "%H:%M%:z")
  | "seconds" => some (day ++ separator ++ "%H:%M:%S%:z")
  | "ns" => some (day ++ separator ++ "%H:%M:%S,%N%:z")
  | _ => none

def date : Utility := fun args => do
  let a ← arguments [option 'd' "date" .required, option 'f' "file" .required,
    option 'I' "iso-8601" .optional, option 'R' "rfc-email", option 'r' "reference" .required,
    option 's' "set" .required, option 'u' "utc", word "universal", word "rfc-3339" .required,
    word "debug"] args
  if let extra :: _ := a.operands.drop 1 then refuse s!"extra operand {inSingleQuotes extra}"
  let operand := a.operands.head?
  let given := ["date", "file", "reference", "set"].any a.has
  if let some s := operand then
    if given && !s.startsWith "+" then
      refuse (s!"the argument {inSingleQuotes s} lacks a leading '+';\nwhen using an option to " ++
        "specify date(s), any non-option\nargument must be a format string beginning with '+'")
    if !s.startsWith "+" then fail s!"invalid date {inSingleQuotes s}"
  let named := a.last? ["iso-8601", "rfc-email", "rfc-3339"]
  let format ← match operand, named with
    | some s, none => pure (s.drop 1).toString
    | some _, some _ => fail "multiple output formats specified"
    | none, some "rfc-email" => pure "%a, %d %b %Y %H:%M:%S %z"
    | none, some "iso-8601" =>
      let given := (a.value? "iso-8601").getD "date"
      let how ← choiceOf "iso-8601" given ["hours", "minutes", "date", "seconds", "ns"]
      pure ((isoFormat "T" how).getD "")
    | none, some _ =>
      let how ← choiceOf "rfc-3339" ((a.value? "rfc-3339").getD "") ["date", "seconds", "ns"]
      pure (((isoFormat " " how).getD "").replace "," ".")
    | none, none => pure usualDateFormat
  let start ← now
  let time ← match a.value? "reference", a.value? "date" <|> a.value? "set" with
    | some path, _ =>
      match ← lookup path with
      | .ok (_, e) => pure e.modified
      | .error e => fail s!"{nameInMessage path}: {e.name}"
    | none, some s =>
      match Moment.read? start s with
      | some t => pure t
      | none => fail s!"invalid date {inSingleQuotes s}"
    | none, none => pure start
  if a.has "set" then complain s!"cannot set date: {FileError.notPermitted.name}"
  sayLine ((Moment.ofTime time).format format)
  return if a.has "set" then 1 else 0

/-! ## Waiting -/

def interval? (s : String) : Option Nat := do
  let (number, unit) := match s.toList.getLast? with
    | some 's' => ((s.dropEnd 1).toString, 1)
    | some 'm' => ((s.dropEnd 1).toString, 60)
    | some 'h' => ((s.dropEnd 1).toString, 3600)
    | some 'd' => ((s.dropEnd 1).toString, 86400)
    | _ => (s, 1)
  match number.splitOn "." with
  | [whole] => return (← whole.toNat?) * unit * Moment.secondLength
  | [whole, part] =>
    if whole.isEmpty && part.isEmpty then none
    else
      let n ← if whole.isEmpty then some 0 else whole.toNat?
      let f ← (((part ++ "000000000").take 9).toString).toNat?
      return (n * Moment.secondLength + f) * unit
  | _ => none

def sleep : Utility := fun args => do
  let a ← arguments [] args
  if a.operands.isEmpty then refuse "missing operand"
  let bad := a.operands.filter fun s => (interval? s).isNone
  for s in bad do complain s!"invalid time interval {inSingleQuotes s}"
  unless bad.isEmpty do
    writeError s!"Try '{← programName} --help' for more information.\n"
    quit 1
  let total := (a.operands.filterMap interval?).foldl (· + ·) 0
  onMachine (Machine.pass total)
  return 0

end ModularBuild.Utility
