import ModularBuild.Regex.Reader
import ModularBuild.Utility.Basic

/-!
# Expressions

`expr` works out an expression of numbers and texts, each argument being a number, a text or an
operator, and writes its value. The exit code tells whether the value is empty or zero.
-/

namespace ModularBuild.Utility

open Text

namespace Expression

/-- The arguments that are left, and the last that has been used. -/
structure State where
  rest : List String
  last : String := ""

abbrev ExprM := StateT State UtilityM

variable {α : Type}

def reject (message : String) : ExprM α := show UtilityM α from fail message

def takeIf (s : String) : ExprM Bool := do
  match (← get).rest with
  | a :: rest =>
    if a = s then
      set ({ rest, last := a } : State)
      return true
    else return false
  | [] => return false

def takeOne (options : List String) : ExprM (Option String) := do
  match (← get).rest with
  | a :: rest =>
    if options.contains a then
      set ({ rest, last := a } : State)
      return some a
    else return none
  | [] => return none

def takeAny : ExprM String := do
  let s ← get
  match s.rest with
  | a :: rest =>
    set ({ rest, last := a } : State)
    return a
  | [] => reject s!"syntax error: missing argument after {inSingleQuotes s.last}"

def number? (s : String) : Option Int :=
  let (negative, digits) := match s.toList with
    | '-' :: ds => (true, ds)
    | ds => (false, ds)
  if digits.isEmpty || !digits.all Char.isDigit then none
  else
    let n : Int := digits.foldl (fun n c => n * 10 + (c.toNat - '0'.toNat)) 0
    some (if negative then -n else n)

def isNull (s : String) : Bool :=
  match s.toList with
  | [] => true
  | '-' :: cs => !cs.isEmpty && cs.all (· = '0')
  | cs => cs.all (· = '0')

def truth (b : Bool) : String := if b then "1" else "0"

/-- What a pattern matches at the start of a text: the first group, else the length. -/
def matchStart (text pattern : String) : ExprM String := do
  match Regex.compile { extended := false } pattern.toList with
  | .error .openBracket => reject "Invalid regular expression"
  | .error e => reject e.message
  | .ok compiled =>
    let subject := Regex.Subject.ofList text.toList
    match compiled.regex.matchAt? subject 0 with
    | none => return if 0 < compiled.groups then "" else "0"
    | some m =>
      return if 0 < compiled.groups then (m.group? subject 1).getD "" else toString m.stop

def compareBy (op a b : String) : Bool :=
  let order := match number? a, number? b with
    | some x, some y => compare x y
    | _, _ => compare a b
  match op with
  | "<" => order.isLT
  | "<=" => order.isLE
  | "=" | "==" => order.isEq
  | "!=" => order.isNe
  | ">" => order.isGT
  | _ => order.isGE

/-- Reckons with two numbers; only values that count are looked at. -/
def reckon (counts : Bool) (op a b : String) : ExprM String := do
  if !counts then return a
  match number? a, number? b with
  | some x, some y =>
    match op with
    | "+" => return toString (x + y)
    | "-" => return toString (x - y)
    | "*" => return toString (x * y)
    | _ =>
      if y = 0 then reject "division by zero"
      return toString (if op = "/" then x.tdiv y else x.tmod y)
  | _, _ => reject "non-integer argument"

def substring (text start size : String) : String :=
  match number? start, number? size with
  | some i, some n =>
    if i ≤ 0 || n ≤ 0 then ""
    else String.ofList ((text.toList.drop (i.toNat - 1)).take n.toNat)
  | _, _ => ""

def firstPlace (text chars : String) : Nat :=
  match text.toList.findIdx? chars.toList.contains with
  | some i => i + 1
  | none => 0

def levels : List (List String) :=
  [["|"], ["&"], ["<", "<=", "=", "==", "!=", ">=", ">"], ["+", "-"], ["*", "/", "%"], [":"]]

mutual

/-- An expression of the operators of some levels; `counts` says whether its value matters. -/
def expression : Nat → Bool → List (List String) → ExprM String
  | 0, _, _ => return ""
  | fuel + 1, counts, [] => prefixed fuel counts
  | fuel + 1, counts, ops :: tighter => do
    let a ← expression fuel counts tighter
    continued fuel counts ops tighter a

def continued : Nat → Bool → List String → List (List String) → String → ExprM String
  | 0, _, _, _, a => return a
  | fuel + 1, counts, ops, tighter, a => do
    match ← takeOne ops with
    | none => return a
    | some op =>
      let value ← match op with
        | "|" => do
          let b ← expression fuel (counts && isNull a) tighter
          pure (if !isNull a then a else if isNull b then "0" else b)
        | "&" => do
          let b ← expression fuel (counts && !isNull a) tighter
          pure (if isNull a || isNull b then "0" else a)
        | ":" => do
          let b ← expression fuel counts tighter
          if counts then matchStart a b else pure a
        | _ => do
          let b ← expression fuel counts tighter
          if ops.contains "=" then pure (truth (compareBy op a b)) else reckon counts op a b
      continued fuel counts ops tighter value

def prefixed : Nat → Bool → ExprM String
  | 0, _ => return ""
  | fuel + 1, counts => do
    match ← takeOne ["+", "length", "match", "index", "substr"] with
    | some "+" => takeAny
    | some "length" => return toString (← prefixed fuel counts).length
    | some "match" =>
      let text ← prefixed fuel counts
      let pattern ← prefixed fuel counts
      if counts then matchStart text pattern else return text
    | some "index" =>
      let text ← prefixed fuel counts
      let chars ← prefixed fuel counts
      return toString (firstPlace text chars)
    | some _ =>
      let text ← prefixed fuel counts
      let start ← prefixed fuel counts
      let size ← prefixed fuel counts
      return substring text start size
    | none =>
      if ← takeIf "(" then
        let value ← expression fuel counts levels
        let s ← get
        if ← takeIf ")" then return value
        match s.rest with
        | [] => reject s!"syntax error: expecting ')' after {inSingleQuotes s.last}"
        | a :: _ => reject s!"syntax error: expecting ')' instead of {inSingleQuotes a}"
      else if ← takeIf ")" then reject "syntax error: unexpected ')'"
      else takeAny

end

end Expression

def expr : Utility := fun args => do
  let args := if args.head? = some "--" then args.drop 1 else args
  if args.isEmpty then
    complain "missing operand"
    writeError s!"Try '{← programName} --help' for more information.\n"
    quit 2
  if args = ["--help"] || args = ["--version"] then return 0
  let size := 16 * args.length + 16
  let (value, s) ← (Expression.expression size true Expression.levels).run { rest := args }
  if let extra :: _ := s.rest then
    fail s!"syntax error: unexpected argument {inSingleQuotes extra}"
  sayLine value
  return if Expression.isNull value then 1 else 0

end ModularBuild.Utility
