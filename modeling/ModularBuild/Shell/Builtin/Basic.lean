import ModularBuild.Shell.State
import ModularBuild.Text.Format

/-!
# Options of builtins, and builtins that print

One-letter options in front of the operands. A letter that takes a value is followed by a colon in
the list of what is allowed.
-/

namespace ModularBuild.Shell

open Text

/-! ## Options -/

abbrev GivenOption := Char × String

/-- What the list of allowed options says of a letter: whether it takes a value. -/
def takesValue? (allowed : List Char) (c : Char) : Option Bool :=
  match allowed with
  | [] => none
  | a :: ':' :: rest => if a = c then some true else takesValue? rest c
  | a :: rest => if a = c then some false else takesValue? rest c

def lettersOf (allowed : List Char) (args : List String) :
    List Char → ShellM (List GivenOption × List String)
  | [] => return ([], args)
  | c :: cs => do
    match takesValue? allowed c with
    | none => fail s!"Illegal option -{c}"
    | some false =>
      let (more, args) ← lettersOf allowed args cs
      return ((c, "") :: more, args)
    | some true =>
      if !cs.isEmpty then return ([(c, String.ofList cs)], args)
      match args with
      | value :: args => return ([(c, value)], args)
      | [] => fail s!"No arg for -{c} option"

/-- Splits arguments into options and operands; `fuel` is the number of arguments. -/
def takeOptionsFor (allowed : List Char) :
    Nat → List String → ShellM (List GivenOption × List String)
  | 0, args => return ([], args)
  | _, [] => return ([], [])
  | _, "--" :: args => return ([], args)
  | fuel + 1, a :: args => do
    match a.toList with
    | '-' :: c :: cs =>
      let (given, args) ← lettersOf allowed args (c :: cs)
      let (more, args) ← takeOptionsFor allowed fuel args
      return (given ++ more, args)
    | _ => return ([], a :: args)

def takeOptions (allowed : String) (args : List String) :
    ShellM (List GivenOption × List String) :=
  takeOptionsFor allowed.toList (args.length + 1) args

def greatestNumber : Nat := 2147483647

def wholeNumber (s : String) : ShellM Nat := do
  match s.toNat? with
  | some n =>
    if s.toList.all Char.isDigit && n ≤ greatestNumber then return n
    else fail s!"Illegal number: {s}"
  | none => fail s!"Illegal number: {s}"

/-! ## Printing -/

def formatEscapes : EscapeStyle :=
  { longOctal := false, hexadecimal := false, stops := false, quote := false }

def argumentEscapes : EscapeStyle :=
  { longOctal := true, hexadecimal := false, stops := true, quote := false }

/-- Prints arguments; all escapes count, and `-n` in front leaves the newline out. -/
def echo (args : List String) : ShellM Nat := do
  let (newline, args) := match args with
    | "-n" :: args => (false, args)
    | args => (true, args)
  let rec write : List String → ShellM Unit
    | [] => if newline then print "\n" else return ()
    | a :: rest => do
      let (text, stop) := argumentEscapes.expand a
      print text
      if stop then return ()
      if !rest.isEmpty then print " "
      write rest
  write args
  return 0

def printfDialect : FormatDialect where
  escapes := formatEscapes
  argumentEscapes := argumentEscapes
  precision := .double
  notNumber s := s!"{s}: expected numeric value"
  notWhole s := s!"{s}: not completely converted"
  outOfRange s := s!"{s}: Numerical result out of range"
  missing _ := "missing format character"
  invalid s := s!"{s}: invalid directive"

def printf (args : List String) : ShellM Nat := do
  let (_, args) ← takeOptions "" args
  match args with
  | [] => fail "usage: printf format [arg ...]"
  | format :: args =>
    let r := printfDialect.run format args
    for event in r.events.reverse do
      match event with
      | .output s => print s
      | .complaint s => complain s
    if r.broken then
      setStatus 2
      throw .failure
    return if r.failed then 1 else 0

end ModularBuild.Shell
