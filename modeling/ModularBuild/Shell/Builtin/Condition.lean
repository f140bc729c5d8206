import ModularBuild.Process.FileTest
import ModularBuild.Shell.Arithmetic

/-!
# Conditions

The builtin `test`: questions about files, texts and numbers, joined by `-a`, `-o`, `!` and
brackets. The arguments are read from left to right; what an argument is depends on those after it.
-/

namespace ModularBuild.Shell.Condition

/-- What an argument is where an expression is read. -/
inductive Symbol where
  | unary (op : String)
  | binary (op : String)
  | not
  | and
  | or
  | leftParen
  | rightParen
  | operand
  | finish
deriving DecidableEq, Inhabited

def binaryOperators : List String :=
  ["=", "!=", "<", ">", "-eq", "-ne", "-ge", "-gt", "-le", "-lt", "-nt", "-ot", "-ef"]

def unaryOperators : List String :=
  ["-r", "-w", "-x", "-e", "-f", "-d", "-c", "-b", "-p", "-u", "-g", "-k", "-s", "-t", "-z", "-n",
    "-h", "-O", "-G", "-L", "-S"]

def operator? (s : String) : Option Symbol :=
  if unaryOperators.contains s then some (.unary s)
  else if binaryOperators.contains s then some (.binary s)
  else match s with
    | "!" => some .not
    | "-a" => some .and
    | "-o" => some .or
    | "(" => some .leftParen
    | ")" => some .rightParen
    | _ => none

def isBinary (s : String) : Bool := binaryOperators.contains s

/-- What the first of some arguments is. A question without an argument after it, or with an
operator between it and another, is a plain text. -/
def symbol : List String → Symbol
  | [] => .finish
  | s :: rest =>
    match operator? s with
    | some (.unary op) =>
      let plain := match rest with
        | [] => true
        | [_] => false
        | next :: _ => isBinary next
      if plain then .operand else .unary op
    | some .leftParen => if rest.isEmpty then .operand else .leftParen
    | some sym => sym
    | none => .operand

abbrev ConditionM := StateT (List String) ShellM

variable {α : Type}

def refuse (message : String) : ConditionM α := show ShellM α from fail message

def next : ConditionM Unit := modify (·.drop 1)

def numberOf (s : String) : ShellM Int := do
  let cs := s.toList.dropWhile Text.isSpace
  let (negative, ds) := match cs with
    | '-' :: ds => (true, ds)
    | '+' :: ds => (false, ds)
    | ds => (false, ds)
  let (n, rest) := Arithmetic.takeDigits 10 ds
  let value : Int := if negative then -n else n
  if rest.length = ds.length || !rest.all Text.isSpace || Arithmetic.saturate value ≠ value then
    fail s!"Illegal number: {s}"
  else return value

def askFile (letter : Char) (path : String) : ShellM Bool := do
  let s ← get
  return FileTest.holds s.machine.files s.memory.context.cwd letter path

def compare (a op b : String) : ShellM Bool := do
  let s ← get
  let files := s.machine.files
  let cwd := s.memory.context.cwd
  let numbers (p : Int → Int → Bool) : ShellM Bool := return p (← numberOf a) (← numberOf b)
  let times (p : Time → Time → Bool) : Bool :=
    match FileTest.modified? files cwd a, FileTest.modified? files cwd b with
    | some s, some t => p s t
    | _, _ => false
  match op with
  | "=" => return a = b
  | "!=" => return a ≠ b
  | "<" => return decide (a < b)
  | ">" => return decide (b < a)
  | "-eq" => numbers (· = ·)
  | "-ne" => numbers (· ≠ ·)
  | "-ge" => numbers (· ≥ ·)
  | "-gt" => numbers (· > ·)
  | "-le" => numbers (· ≤ ·)
  | "-lt" => numbers (· < ·)
  | "-nt" => return times (· > ·)
  | "-ot" => return times (· < ·)
  | _ => return FileTest.same files cwd a b

mutual

def orExpression : Nat → Symbol → ConditionM Bool
  | 0, _ => return false
  | fuel + 1, s => do
    let a ← andExpression fuel s
    if symbol ((← get).drop 1) = .or then
      modify (·.drop 2)
      let b ← orExpression fuel (symbol (← get))
      return a || b
    else return a

def andExpression : Nat → Symbol → ConditionM Bool
  | 0, _ => return false
  | fuel + 1, s => do
    let a ← notExpression fuel s
    if symbol ((← get).drop 1) = .and then
      modify (·.drop 2)
      let b ← andExpression fuel (symbol (← get))
      return a && b
    else return a

def notExpression : Nat → Symbol → ConditionM Bool
  | 0, _ => return false
  | fuel + 1, s => do
    if s ≠ .not then primary fuel s
    else
      let s := symbol ((← get).drop 1)
      if s ≠ .finish then next
      return !(← notExpression fuel s)

def primary : Nat → Symbol → ConditionM Bool
  | 0, _ => return false
  | fuel + 1, s => do
    match s with
    | .finish => return false
    | .leftParen =>
      next
      let s := symbol (← get)
      if s = .rightParen then return false
      let a ← orExpression fuel s
      next
      if symbol (← get) ≠ .rightParen then refuse "closing paren expected"
      return a
    | .unary op =>
      next
      match (← get).head? with
      | none => refuse s!"{op}: argument expected"
      | some operand =>
        match op.toList with
        | ['-', 'z'] => return operand = ""
        | ['-', 'n'] => return operand ≠ ""
        | ['-', 't'] =>
          discard <| show ShellM Int from numberOf operand
          return false
        | ['-', letter] => show ShellM Bool from askFile letter operand
        | _ => return false
    | _ =>
      let a := (← get).headD ""
      match symbol ((← get).drop 1) with
      | .binary op =>
        match (← get).drop 2 with
        | [] => refuse s!"{op}: argument expected"
        | b :: _ =>
          modify (·.drop 2)
          show ShellM Bool from compare a op b
      | _ => return a ≠ ""

end

/-- The condition that arguments stand for; `negated` is turned around by each `!` in front of at
most four. -/
def conditionFor : Nat → Bool → List String → ShellM Bool
  | 0, negated, _ => return negated
  | fuel + 1, negated, args => do
    let whole (first : Symbol) (args : List String) : ShellM Bool := do
      let (a, rest) ← (orExpression (4 * args.length + 8) first).run args
      match rest with
      | op :: _ :: _ => fail (if op = "" then "unexpected operator" else s!"{op}: unexpected operator")
      | _ => return negated != a
    match args with
    | [] => return negated
    | [a, op, b] =>
      if isBinary op then whole .operand args
      else if a = "(" && b = ")" then whole (symbol [op]) [op]
      else if a = "!" then conditionFor fuel (!negated) [op, b]
      else whole (symbol args) args
    | [a, b, c, d] =>
      if a = "(" && d = ")" then whole (symbol [b, c]) [b, c]
      else if a = "!" then conditionFor fuel (!negated) [b, c, d]
      else whole (symbol args) args
    | args => whole (symbol args) args

/-- The builtins `test` and `[`. -/
def test (name : String) (args : List String) : ShellM Nat := do
  let args ← if name = "[" then
      if args.getLast? = some "]" then pure args.dropLast else fail "missing ]"
    else pure args
  return if ← conditionFor 5 false args then 0 else 1

end ModularBuild.Shell.Condition
