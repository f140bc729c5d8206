import ModularBuild.Shell.State
import ModularBuild.Text.CharClass

/-!
# Arithmetic

Expressions over whole numbers of 64 bits, with the operators of the language C and its precedence.
An expression is evaluated as it is read; a part that does not count is only read. Variables are
read as numbers, unset ones as zero, and can be assigned.
-/

namespace ModularBuild.Shell.Arithmetic

/-! ## Numbers -/

def wrap (n : Int) : Int := n.bmod UInt64.size

def greatest : Int := UInt64.size / 2 - 1

def saturate (n : Int) : Int := max (-greatest - 1) (min greatest n)

def ofBool (b : Bool) : Int := if b then 1 else 0

def digitValue (c : Char) : Nat :=
  if c.isDigit then c.toNat - '0'.toNat
  else if c.isAlpha then c.toLower.toNat - 'a'.toNat + 10
  else 99

/-- The digits of a base at the front of a text, as a number, and what follows them. -/
def takeDigits (base : Nat) (cs : List Char) : Nat × List Char :=
  let ds := cs.takeWhile fun c => digitValue c < base
  (ds.foldl (fun n c => n * base + digitValue c) 0, cs.drop ds.length)

/-- The number at the front of a text and what follows it: after `0x` in base 16, after `0` in base
8. -/
def takeNumber (cs : List Char) : Nat × List Char :=
  match cs with
  | '0' :: x :: d :: ds =>
    if (x = 'x' || x = 'X') && digitValue d < 16 then takeDigits 16 (d :: ds) else takeDigits 8 cs
  | '0' :: _ => takeDigits 8 cs
  | cs => takeDigits 10 cs

/-- The number that a text is, blanks around it apart; none if it is no number or too great. -/
def numberOf? (s : String) : Option Int :=
  let cs := s.toList.dropWhile Text.isSpace
  let (negative, ds) := match cs with
    | '-' :: ds => (true, ds)
    | '+' :: ds => (false, ds)
    | ds => (false, ds)
  let (n, rest) := takeNumber ds
  let value : Int := if negative then -n else n
  if ds.isEmpty || (ds.head?.all fun c => !c.isDigit) then
    if cs.isEmpty then some 0 else none
  else if rest.all Text.isSpace && saturate value = value then some value
  else none

def bitwise (f : Nat → Nat → Nat) (a b : Int) : Int :=
  wrap (f (a % UInt64.size).toNat (b % UInt64.size).toNat)

/-- What an operator makes of two numbers; none on a division by zero. -/
def combined? (op : String) (a b : Int) : Option Int :=
  match op with
  | "+" => some (wrap (a + b))
  | "-" => some (wrap (a - b))
  | "*" => some (wrap (a * b))
  | "/" => if b = 0 then none else some (wrap (a.tdiv b))
  | "%" => if b = 0 then none else some (a.tmod b)
  | "==" => some (ofBool (a = b))
  | "!=" => some (ofBool (a ≠ b))
  | "<=" => some (ofBool (a ≤ b))
  | ">=" => some (ofBool (b ≤ a))
  | "<" => some (ofBool (a < b))
  | ">" => some (ofBool (b < a))
  | "<<" => some (wrap (a <<< (b % 64).toNat))
  | ">>" => some (a >>> (b % 64).toNat)
  | "&" => some (bitwise Nat.land a b)
  | "^" => some (bitwise Nat.xor a b)
  | "|" => some (bitwise Nat.lor a b)
  | _ => none

/-! ## Tokens -/

inductive Symbol where
  | finish
  | number (n : Int)
  | name (s : String)
  | sign (s : String)
  | unknown
deriving DecidableEq, Inhabited

def signs : List String :=
  ["<<=", ">>=", "&&", "||", "==", "!=", "<=", ">=", "<<", ">>", "*=", "/=", "%=", "+=", "-=",
    "&=", "^=", "|=", "=", "<", ">", "!", "~", "?", ":", "(", ")", "*", "/", "%", "+", "-", "&",
    "^", "|"]

def nextSymbol (cs : List Char) : Symbol × List Char :=
  let cs := cs.dropWhile Text.isSpace
  match cs with
  | [] => (.finish, [])
  | c :: _ =>
    if c.isDigit then
      let (n, rest) := takeNumber cs
      (.number (saturate n), rest)
    else if isNameStart c then
      let name := cs.takeWhile isNameChar
      (.name (String.ofList name), cs.drop name.length)
    else match signs.find? fun s => s.toList.isPrefixOf cs with
      | some s => (.sign s, cs.drop s.length)
      | none => (.unknown, cs)

/-- The expression as a whole, for complaints, what is still to be read of it, and the symbol in
front of that. -/
structure Place where
  whole : String
  rest : List Char
  symbol : Symbol

abbrev Calculation := StateT Place ShellM

variable {α : Type}

def refuse (message : String) : Calculation α := do
  let place ← get
  show ShellM α from fail s!"arithmetic expression: {message}: \"{place.whole}\""

def advance : Calculation Unit := modify fun p =>
  let (symbol, rest) := nextSymbol p.rest
  { p with symbol, rest }

def pass (s : String) : Calculation Bool := do
  if (← get).symbol = .sign s then
    advance
    return true
  else return false

def valueOf (name : String) : ShellM Int := do
  let text := ((← memory).value? name).getD ""
  match numberOf? text with
  | some n => return n
  | none => fail s!"Illegal number: {text}"

def combine (op : String) (a b : Int) : Calculation Int := do
  match combined? op a b with
  | some n => return n
  | none => refuse "division by zero"

/-! ## Expressions -/

/-- The operators on two operands, a list for each level of precedence, loosest first. -/
def levels : List (List String) :=
  [["|"], ["^"], ["&"], ["==", "!="], ["<=", ">=", "<", ">"], ["<<", ">>"], ["+", "-"],
    ["*", "/", "%"]]

def assigning : List String :=
  ["=", "*=", "/=", "%=", "+=", "-=", "<<=", ">>=", "&=", "^=", "|="]

/-- An operand. `whole` reads what stands in brackets, `operand` what a sign is put to. -/
def primary (whole operand : Calculation Int) (counts : Bool) : Calculation Int := do
  match (← get).symbol with
  | .number n =>
    advance
    return n
  | .name s =>
    advance
    if counts then show ShellM Int from valueOf s else return 0
  | .sign "(" =>
    advance
    let n ← whole
    if !(← pass ")") then refuse "expecting ')'"
    return n
  | .sign "+" =>
    advance
    operand
  | .sign "-" =>
    advance
    return wrap (-(← operand))
  | .sign "!" =>
    advance
    return ofBool ((← operand) = 0)
  | .sign "~" =>
    advance
    return wrap (-(← operand) - 1)
  | _ => refuse "expecting primary"

def chainFor (operand : Calculation Int) (ops : List String) (counts : Bool) :
    Nat → Int → Calculation Int
  | 0, a => return a
  | fuel + 1, a => do
    match (← get).symbol with
    | .sign op =>
      if ops.contains op then
        advance
        let b ← operand
        chainFor operand ops counts fuel (← if counts then combine op a b else pure b)
      else return a
    | _ => return a

def binary (operand : Calculation Int) (counts : Bool) : List (List String) → Calculation Int
  | [] => operand
  | ops :: tighter => do
    let operand := binary operand counts tighter
    let a ← operand
    chainFor operand ops counts ((← get).rest.length + 1) a

mutual

/-- An expression, read with `fuel` steps inside each other. -/
def expression (counts : Bool) : Nat → Calculation Int
  | 0 => refuse "expecting primary"
  | fuel + 1 => do
    match (← get).symbol with
    | .name s =>
      let before ← get
      advance
      match (← get).symbol with
      | .sign op =>
        if assigning.contains op then
          advance
          let n ← expression counts fuel
          if !counts then return n
          let n ← if op = "=" then pure n
            else combine (op.dropEnd 1).toString (← show ShellM Int from valueOf s) n
          show ShellM Unit from assign s (toString n)
          return n
        else
          set before
          conditional counts fuel
      | _ =>
        set before
        conditional counts fuel
    | _ => conditional counts fuel

def conditional (counts : Bool) : Nat → Calculation Int
  | 0 => refuse "expecting primary"
  | fuel + 1 => do
    let c ← disjunction counts fuel
    if !(← pass "?") then return c
    let a ← expression (counts && c ≠ 0) fuel
    if !(← pass ":") then refuse "expecting ':'"
    let b ← conditional (counts && c = 0) fuel
    return if c ≠ 0 then a else b

def disjunction (counts : Bool) : Nat → Calculation Int
  | 0 => refuse "expecting primary"
  | fuel + 1 => do
    let a ← conjunction counts fuel
    if !(← pass "||") then return a
    let b ← disjunction (counts && a = 0) fuel
    return ofBool (a ≠ 0 || b ≠ 0)

def conjunction (counts : Bool) : Nat → Calculation Int
  | 0 => refuse "expecting primary"
  | fuel + 1 => do
    let a ← binary (operand counts fuel) counts levels
    if !(← pass "&&") then return a
    let b ← conjunction (counts && a ≠ 0) fuel
    return ofBool (a ≠ 0 && b ≠ 0)

def operand (counts : Bool) : Nat → Calculation Int
  | 0 => refuse "expecting primary"
  | fuel + 1 => primary (expression counts fuel) (operand counts fuel) counts

end

def evaluate (s : String) : ShellM Int := do
  let steps := 5 * (s.length + 2)
  let calculation : Calculation Int := do
    advance
    let n ← expression true steps
    if (← get).symbol ≠ .finish then refuse "expecting EOF"
    return n
  calculation.run' ⟨s, s.toList, .finish⟩

end ModularBuild.Shell.Arithmetic
