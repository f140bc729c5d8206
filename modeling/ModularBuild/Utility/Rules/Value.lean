import ModularBuild.Number.Fraction
import ModularBuild.Number.Layout
import ModularBuild.Text.CharClass
import ModularBuild.Utility.Rules.Syntax

/-!
# Values

A value is a number or a text. Text that comes from outside counts as a number where it reads as one.
Numbers are written as whole numbers if they are, and by a format otherwise.
-/

namespace ModularBuild.Utility.Rules

open Text

inductive Value where
  /-- Both zero and the empty text. -/
  | unset
  | number (x : Float)
  | text (s : String)
  /-- A text from outside. -/
  | input (s : String)
deriving Inhabited

/-! ## Numbers -/

/-- The number at the front of a text; no number counts as zero. -/
def numberOf (s : String) : Float :=
  let cs := s.toList.dropWhile isSpace
  let digits := cs.takeWhile Char.isDigit
  if digits.length = cs.length && digits.length < 16 then
    Float.ofNat (digits.foldl (fun n c => n * 10 + (c.toNat - '0'.toNat)) 0)
  else match Real.read? cs with
    | some (x, _) => x.toFloat
    | none => 0

def isNumber (s : String) : Bool :=
  let cs := s.toList.dropWhile isSpace
  let begins := cs.head?.any fun c => c.isDigit || c = '.' || c = '+' || c = '-'
  begins && match Real.read? cs with
    | some (_, rest) => rest.all isSpace
    | none => false

def wordCount : Nat := Nat.pow 2 64

def wholeLimit : Float := 9223372036854775808

/-- The whole number that is written for a number, if it is one: below `2 ^ 64`, and not below
`-2 ^ 63`. -/
def wholeOf? (x : Float) : Option Int :=
  if x.floor != x then none
  else if -wholeLimit <= x && x < wholeLimit then some x.toInt64.toInt
  else if x < wholeLimit || 2 * wholeLimit < x then none
  else match Real.ofFloat x with
    | .finite f => some (min (f.num / f.den) (wordCount - 1) : Nat)
    | _ => none

/-! ## Formats -/

inductive FormatError where
  | missingArgument
  /-- The number of the conversion that is wrong. -/
  | improper (n : Nat)

/-- A number as a whole one for a conversion, cut off after the point. -/
def truncated (x : Float) : Int :=
  if x.isNaN then -9223372036854775808
  else if x < wholeLimit then max x.toInt64.toInt (-9223372036854775807)
  else match Real.ofFloat x with
    | .finite f => (min (f.num / f.den) (wordCount - 1) : Nat)
    | _ => (wordCount - 1 : Nat)

/-- The text of a number, which `write` writes if it is not whole. -/
def numberText (write : Float → String) (x : Float) : String :=
  match wholeOf? x with
  | some n => toString n
  | none => write x

def formatNumber (format : String) (x : Float) : String :=
  let cs := format.toList
  let before := cs.takeWhile (· ≠ '%')
  match cs.drop before.length with
  | '%' :: rest =>
    let (c, after) := Conversion.read ['l', 'h'] rest
    let body := match c.letter with
      | some letter =>
        if "eEfFgG".toList.contains letter then c.layout.real letter (Real.ofFloat x)
        else if letter = 'd' || letter = 'i' then c.layout.integer (truncated x)
        else c.source
      | none => c.source
    String.ofList before ++ body ++ String.ofList after
  | _ => format

def textOfNumber (format : String) (x : Float) : String := numberText (formatNumber format) x

namespace Value

def ofNat (n : Nat) : Value := .number (Float.ofNat n)

def ofBool (b : Bool) : Value := .number (if b then 1 else 0)

def toNumber : Value → Float
  | unset => 0
  | number x => x
  | text s | input s => numberOf s

def toText (format : String) : Value → String
  | unset => ""
  | number x => textOfNumber format x
  | text s | input s => s

def holds : Value → Bool
  | unset => false
  | number x => x != 0
  | text s => s ≠ ""
  | input s => if isNumber s then numberOf s != 0 else s ≠ ""

def asNumber? : Value → Option Float
  | unset => some 0
  | number x => some x
  | text _ => none
  | input s => if isNumber s then some (numberOf s) else none

def compare (format : String) (o : Comparison) (a b : Value) : Bool :=
  match a.asNumber?, b.asNumber? with
  | some x, some y =>
    match o with
    | .equal => x == y
    | .unequal => x != y
    | .less => x < y
    | .lessOrEqual => x <= y
    | .greater => y < x
    | .greaterOrEqual => y <= x
  | _, _ =>
    let s := a.toText format
    let t := b.toText format
    match o with
    | .equal => s = t
    | .unequal => s ≠ t
    | .less => s < t
    | .lessOrEqual => !(t < s)
    | .greater => t < s
    | .greaterOrEqual => !(s < t)

end Value

/-! ## Writing values out -/

def firstCharacter (v : Value) : Char :=
  match v.asNumber?, v with
  | _, .unset => '\x00'
  | some x, _ => Char.ofNat ((truncated x) % 256).toNat
  | none, .text s | none, .input s => s.toList.head?.getD '\x00'
  | none, .number _ => '\x00'

def writeConversion (format : String) (l : Layout) (letter : Char) (v : Value) : Option String :=
  if letter = 'd' || letter = 'i' then some (l.integer (truncated v.toNumber))
  else if letter = 'u' || letter = 'o' || letter = 'x' || letter = 'X' then
    let base := if letter = 'u' then 10 else if letter = 'o' then 8 else 16
    let n := (truncated v.toNumber % wordCount).toNat
    some (l.natural base (letter = 'X') n)
  else if "eEfFgG".toList.contains letter then
    some (l.real letter (Real.ofFloat v.toNumber))
  else if letter = 's' then some (l.text (v.toText format))
  else if letter = 'c' then some (l.text (String.singleton (firstCharacter v)))
  else none

/-- Writes values as a format says, from the `n`th conversion on: what is written, newest first, and
why it ends early. `fuel` is the number of characters. -/
def writeValues (format : String) :
    Nat → Nat → List Char → List Value → List String → List String × Option FormatError
  | 0, _, _, _, out => (out, none)
  | _, _, [], _, out => (out, none)
  | fuel + 1, n, '%' :: '%' :: cs, vs, out => writeValues format fuel n cs vs ("%" :: out)
  | fuel + 1, n, '%' :: cs, vs, out =>
    let (c, rest) := Conversion.read ['l', 'h'] cs
    let takeNumber (given : Bool) (vs : List Value) : Option (Option Int × List Value) :=
      match given, vs with
      | false, vs => some (none, vs)
      | true, [] => none
      | true, v :: vs => some (some (truncated v.toNumber), vs)
    if vs.isEmpty then (out, some .missingArgument)
    else match takeNumber c.widthGiven vs with
      | none => (out, some .missingArgument)
      | some (width, vs) =>
        match takeNumber c.precisionGiven vs with
        | none => (out, some .missingArgument)
        | some (precision, vs) =>
          let l := match width with
            | some w => c.layout.setWidth w
            | none => c.layout
          let l := match precision with
            | some p => { l with precision := if p < 0 then none else some p.toNat }
            | none => l
          match c.letter, vs with
          | some letter, v :: vs =>
            match writeConversion format l letter v with
            | some s => writeValues format fuel (n + 1) rest vs (s :: out)
            | none => (out, some (.improper n))
          | none, _ => (out, some (.improper n))
          | _, [] => (out, some .missingArgument)
  | fuel + 1, n, c :: cs, vs, out =>
    let plain := c :: cs.takeWhile (· ≠ '%')
    writeValues format fuel n ((c :: cs).drop plain.length) vs (String.ofList plain :: out)

end ModularBuild.Utility.Rules
