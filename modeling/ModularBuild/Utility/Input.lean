import ModularBuild.Utility.Options

/-!
# Reading the files that a utility is given

Files are read one after the other, `-` being standard input. One that cannot be read is complained
about, and the rest is read all the same.
-/

namespace ModularBuild.Utility

open Text

/-! ## Texts -/

/-- The lines of a text with their ends; the last one may lack it. -/
def linesWithEnds (ending : Char) (s : String) : List String :=
  let step (c : Char) : List (List Char) → List (List Char)
    | [] => [[c]]
    | l :: ls => if c = ending then [c] :: l :: ls else (c :: l) :: ls
  (s.toList.foldr step []).map String.ofList

def withoutEnd (ending : Char) (line : String) : String :=
  if line.toList.getLast? = some ending then (line.dropEnd 1).toString else line

def linesOf (s : String) (ending : Char := '\n') : List String :=
  (linesWithEnds ending s).map (withoutEnd ending)

/-- A text with blanks in front of it up to a width. -/
def padLeft (width : Nat) (s : String) (fill : Char := ' ') : String :=
  String.ofList (List.replicate (width - s.length) fill) ++ s

def padRight (width : Nat) (s : String) : String :=
  s ++ String.ofList (List.replicate (width - s.length) ' ')

/-! ## Numbers with units -/

/-- What an argument that has to be a number is instead. -/
inductive NotNumber where
  | invalid
  | tooLarge
deriving DecidableEq

/-- The numbers that the letters of units stand for, as powers of 1024 or of 1000. -/
def unitPower? (c : Char) : Option Nat :=
  match c with
  | 'k' | 'K' => some 1
  | 'm' | 'M' => some 2
  | 'G' => some 3
  | 'T' => some 4
  | 'P' => some 5
  | 'E' => some 6
  | 'Z' => some 7
  | 'Y' => some 8
  | _ => none

def unitFactor? (cs : List Char) : Option Nat :=
  match cs with
  | [] => some 1
  | ['b'] => some 512
  | [c] | [c, 'i', 'B'] => (unitPower? c).map (Nat.pow 1024)
  | [c, 'B'] => (unitPower? c).map (Nat.pow 1000)
  | _ => none

def greatestSize : Nat := UInt64.size - 1

def sizeOf (s : String) : Except NotNumber Nat :=
  let digits := s.toList.takeWhile Char.isDigit
  let rest := s.toList.drop digits.length
  let n := digits.foldl (fun n c => n * 10 + (c.toNat - '0'.toNat)) 0
  let factor? := if digits.isEmpty then (if rest.isEmpty then none else unitFactor? rest)
    else unitFactor? rest
  match factor? with
  | none => .error .invalid
  | some f =>
    let n := if digits.isEmpty then f else n * f
    if greatestSize < n then .error .tooLarge else .ok n

/-! ## Files -/

abbrev Input := Except FileError String

/-- Whether an error stands for a file that was opened and could not be read. -/
def isReadError (name : String) (e : FileError) : Bool := e = .isDirectory || name = "-"

def titleOf (name : String) : String := if name = "-" then "standard input" else name

def complainOf (name : String) (e : FileError) : UtilityM Unit :=
  complain s!"{nameInMessage name}: {e.name}"

def complainAbout (name : String) (e : FileError) : UtilityM Unit := do
  let shown := shellQuoted (titleOf name)
  if isReadError name e then complain s!"error reading {shown}: {e.name}"
  else complain s!"cannot open {shown} for reading: {e.name}"

/-- Complains about standard input a second time if it could not even be closed. -/
def complainOfClosed (name : String) (e : FileError) : UtilityM Unit := do
  if name = "-" && e = .badDescriptor then complainOf name e

/-- Works on each file that can be read; the exit code is the greatest. -/
def eachInput (names : List String) (work : String → String → UtilityM Nat)
    (complaint : String → FileError → UtilityM Unit := complainOf) : UtilityM Nat :=
  forEach names fun name => do
    match ← readNamed name with
    | .ok text => work name text
    | .error e =>
      complaint name e
      complainOfClosed name e
      return (← read).failure

def readInputs (names : List String)
    (complaint : String → FileError → UtilityM Unit := complainOf) :
    UtilityM (List (String × String) × Nat) := do
  let collect (found : List (String × String) × Nat) (name : String) :
      UtilityM (List (String × String) × Nat) := do
    match ← readNamed name with
    | .ok text => return ((name, text) :: found.1, found.2)
    | .error e =>
      complaint name e
      complainOfClosed name e
      return (found.1, (← read).failure)
  let (found, code) ← names.foldlM collect ([], 0)
  return (found.reverse, code)

end ModularBuild.Utility
