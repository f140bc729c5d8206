import ModularBuild.Text.Format
import ModularBuild.Utility.Options

/-!
# Writing arguments

`echo` writes its arguments on a line, `printf` fits them into a format, and `yes` repeats them.
-/

namespace ModularBuild.Utility

open Text

/-! ## Lines of arguments -/

def echoEscapes : EscapeStyle :=
  { longOctal := true, hexadecimal := true, stops := true, quote := false }

/-- Whether an argument is made of options of `echo`. -/
def isEchoOption (s : String) : Bool :=
  match s.toList with
  | '-' :: c :: cs => (c :: cs).all fun c => c = 'n' || c = 'e' || c = 'E'
  | _ => false

/-- Writes arguments with blanks between them; the answer says whether output ends within one. -/
def echoAll (escapes : Bool) : List String → UtilityM Bool
  | [] => return false
  | a :: rest => do
    let (text, stop) := if escapes then echoEscapes.expand a else (a, false)
    say text
    if stop then return true
    unless rest.isEmpty do say " "
    echoAll escapes rest

def echo : Utility := fun args => do
  let given := args.takeWhile isEchoOption
  let letters := given.flatMap fun a => a.toList.drop 1
  let escapes := (letters.filter (· ≠ 'n')).getLast? = some 'e'
  let stopped ← echoAll escapes (args.drop given.length)
  unless stopped || letters.contains 'n' do say "\n"
  return 0

/-! ## Formats -/

def printfDialect : FormatDialect where
  escapes := { longOctal := false, hexadecimal := true, stops := true, quote := true }
  argumentEscapes := { longOctal := true, hexadecimal := true, stops := true, quote := true }
  precision := .extended
  sizes := "hlLjzt".toList
  quote := some shellWord
  notNumber s := s!"{inSingleQuotes s}: expected a numeric value"
  notWhole s := s!"{inSingleQuotes s}: value not completely converted"
  outOfRange s := s!"{inSingleQuotes s}: Numerical result out of range"
  missing s := s!"{s}: invalid conversion specification"
  invalid s := s!"{s}: invalid conversion specification"
  strict := true

def printf : Utility := fun args => do
  let args := if args.head? = some "--" then args.drop 1 else args
  match args with
  | [] => refuse "missing operand"
  | format :: args =>
    let r := printfDialect.run format args
    for event in r.events.reverse do
      match event with
      | .output s => say s
      | .complaint s => complain s
    if !r.broken && !r.stopped then
      if let a :: _ := r.args then
        complain s!"warning: ignoring excess arguments, starting with {inSingleQuotes a}"
    return if r.failed || r.broken then 1 else 0

/-! ## Without end -/

def repeatText (text : String) : Nat → UtilityM Unit
  | 0 => return ()
  | fuel + 1 => do
    say text
    flush
    if (← get).broken.isNone then repeatText text fuel

/-- The number of bytes that `yes` writes at least, which is more than any reader waits for. -/
def endlessSize : Nat := 1 <<< 21

def yes : Utility := fun args => do
  let a ← arguments [] args
  let line := (if a.operands.isEmpty then "y" else " ".intercalate a.operands) ++ "\n"
  let block := String.join (List.replicate (8192 / line.length + 1) line)
  repeatText block (endlessSize / block.length + 1)
  match (← get).broken with
  | some e =>
    writeError s!"{← programName}: standard output: {e.name}\n"
    quit 1
  | none => return 1

end ModularBuild.Utility
