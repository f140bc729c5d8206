import ModularBuild.Process.FileTest
import ModularBuild.Utility.Basic

/-!
# Conditions

`test` answers questions about files, texts and numbers with its exit code. Up to four arguments are
understood by their number; more of them are read from left to right, joined by `-a`, `-o`, `!` and
brackets.
-/

namespace ModularBuild.Utility

open Text

namespace Condition

/-- The arguments, and the number of those that have been used. -/
structure State where
  args : Array String
  position : Nat := 0

abbrev ConditionM := StateT State UtilityM

variable {α : Type}

def reject (message : String) : ConditionM α := show UtilityM α from fail message

def peek (n : Nat) : ConditionM (Option String) := do
  let s ← get
  return s.args[s.position + n]?

def left : ConditionM Nat := do
  let s ← get
  return s.args.size - s.position

def skip (n : Nat) : ConditionM Unit := modify fun s => { s with position := s.position + n }

def beyond : ConditionM α := do
  let last := (← get).args.back?.getD ""
  reject s!"missing argument after {inSingleQuotes last}"

def binaryOperators : List String :=
  ["=", "==", "!=", "-nt", "-ot", "-ef", "-eq", "-ne", "-lt", "-le", "-gt", "-ge"]

def isBinary (s : Option String) : Bool := s.any binaryOperators.contains

def unaryLetter? (s : String) : Option Char :=
  match s.toList with
  | ['-', c] => some c
  | _ => none

def numberOf (s : String) : ConditionM Int := do
  let cs := s.toList.dropWhile isSpace
  let (negative, ds) := match cs with
    | '-' :: ds => (true, ds)
    | '+' :: ds => (false, ds)
    | ds => (false, ds)
  let digits := ds.takeWhile Char.isDigit
  if digits.isEmpty || !(ds.drop digits.length).all isSpace then
    reject s!"invalid integer {inSingleQuotes s}"
  let n := digits.foldl (fun n c => n * 10 + (c.toNat - '0'.toNat)) 0
  return if negative then -n else n

def unary : ConditionM Bool := do
  let op := (← peek 0).getD ""
  let letter := (unaryLetter? op).getD ' '
  if !("ertfdcbpsSLhugkwxONGnz".toList.contains letter) then
    reject s!"{inSingleQuotes op}: unary operator expected"
  match ← peek 1 with
  | none => beyond
  | some operand =>
    skip 2
    match letter with
    | 'n' => return operand ≠ ""
    | 'z' => return operand = ""
    | 't' =>
      discard <| numberOf operand
      return false
    | 'N' => return false
    | _ => return FileTest.holds (← files) (← context).cwd letter operand

/-- Compares two operands; `-l` before one stands for its length. -/
def binary (measured : Bool) : ConditionM Bool := do
  if measured then skip 1
  let a := (← peek 0).getD ""
  let op := (← peek 1).getD ""
  let measuresRight := (← peek 2) = some "-l" && 4 ≤ (← left)
  if measuresRight then skip 1
  match ← peek 2 with
  | none => beyond
  | some b =>
    skip 3
    let fs ← files
    let cwd := (← context).cwd
    let number (measured : Bool) (s : String) : ConditionM Int :=
      if measured then return s.length else numberOf s
    let numbers (p : Int → Int → Bool) : ConditionM Bool := do
      let x ← number measured a
      let y ← number measuresRight b
      return p x y
    let times (p : Time → Time → Bool) : Bool :=
      match FileTest.modified? fs cwd a, FileTest.modified? fs cwd b with
      | some s, some t => p s t
      | some _, none => p 1 0
      | none, some _ => p 0 1
      | none, none => false
    match op with
    | "=" | "==" => return a = b
    | "!=" => return a ≠ b
    | "-nt" => return times (· > ·)
    | "-ot" => return times (· < ·)
    | "-ef" => return FileTest.same fs cwd a b
    | "-eq" => numbers (· = ·)
    | "-ne" => numbers (· ≠ ·)
    | "-lt" => numbers (· < ·)
    | "-le" => numbers (· ≤ ·)
    | "-gt" => numbers (· > ·)
    | _ => numbers (· ≥ ·)

def one : ConditionM Bool := do
  let a := (← peek 0).getD ""
  skip 1
  return a ≠ ""

def two : ConditionM Bool := do
  let a := (← peek 0).getD ""
  if a = "!" then
    skip 1
    return !(← one)
  else if (unaryLetter? a).isSome then unary
  else beyond

mutual

def three : Nat → ConditionM Bool
  | 0 => return false
  | fuel + 1 => do
    let a := (← peek 0).getD ""
    let b := (← peek 1).getD ""
    if isBinary (some b) then binary false
    else if a = "!" then
      skip 1
      return !(← two)
    else if a = "(" && (← peek 2) = some ")" then
      skip 1
      let r ← one
      skip 1
      return r
    else if b = "-a" || b = "-o" then disjunction fuel
    else reject s!"{inSingleQuotes b}: binary operator expected"

def condition : Nat → Nat → ConditionM Bool
  | 0, _ => return false
  | fuel + 1, count => do
    match count with
    | 1 => one
    | 2 => two
    | 3 => three fuel
    | 4 =>
      if (← peek 0) = some "!" then
        skip 1
        return !(← three fuel)
      else if (← peek 0) = some "(" && (← peek 3) = some ")" then
        skip 1
        let r ← two
        skip 1
        return r
      else disjunction fuel
    | _ => disjunction fuel

def disjunction : Nat → ConditionM Bool
  | 0 => return false
  | fuel + 1 => do
    if (← left) = 0 then beyond
    let a ← conjunction fuel
    if (← peek 0) = some "-o" then
      skip 1
      let b ← disjunction fuel
      return a || b
    else return a

def conjunction : Nat → ConditionM Bool
  | 0 => return false
  | fuel + 1 => do
    let a ← term fuel
    if (← peek 0) = some "-a" then
      skip 1
      let b ← conjunction fuel
      return a && b
    else return a

def term : Nat → ConditionM Bool
  | 0 => return false
  | fuel + 1 => do
    let n ← left
    match ← peek 0 with
    | none => beyond
    | some "!" =>
      skip 1
      return !(← term fuel)
    | some "(" =>
      skip 1
      let s ← get
      let inside := (s.args.toList.drop s.position)
      if inside.isEmpty then beyond
      let upTo := ((inside.drop 1).takeWhile (· ≠ ")")).length + 1
      let count := if 4 < upTo then inside.length else upTo
      let r ← condition fuel count
      match ← peek 0 with
      | some ")" =>
        skip 1
        return r
      | some other => reject s!"')' expected, found {other}"
      | none => reject "')' expected"
    | some a =>
      if 4 ≤ n && a = "-l" && isBinary (← peek 2) then binary true
      else if 3 ≤ n && isBinary (← peek 1) then binary false
      else if (unaryLetter? a).isSome then unary
      else one

end

def answer (args : List String) : UtilityM Nat := do
  if args.isEmpty then return 1
  let (r, s) ← (condition (8 * args.length + 8) args.length).run { args := args.toArray }
  if let some extra := s.args[s.position]? then fail s!"extra argument {inSingleQuotes extra}"
  return if r then 0 else 1

end Condition

def test : Utility := Condition.answer

/-- `test` by the name of an opening bracket, with a closing one at the end. -/
def bracket : Utility := fun args => do
  if args = ["--help"] || args = ["--version"] then return 0
  if args.getLast? = some "]" then Condition.answer args.dropLast
  else fail "missing ']'"

end ModularBuild.Utility
