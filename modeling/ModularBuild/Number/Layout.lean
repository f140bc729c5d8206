import ModularBuild.Number.Fraction

/-!
# Layouts

How a value is laid out in a field: the flags, the width and the precision of a conversion, as the
formats of `printf` write them.
-/

namespace ModularBuild

structure Layout where
  left : Bool := false
  plus : Bool := false
  blank : Bool := false
  /-- Whether the base of a number is shown, and its point. -/
  alternate : Bool := false
  zero : Bool := false
  width : Nat := 0
  precision : Option Nat := none
deriving Repr, Inhabited

namespace Layout

def isFlag (c : Char) : Bool := "#-+ 0".toList.contains c

def addFlag (l : Layout) (c : Char) : Layout :=
  match c with
  | '-' => { l with left := true }
  | '+' => { l with plus := true }
  | ' ' => { l with blank := true }
  | '#' => { l with alternate := true }
  | '0' => { l with zero := true }
  | _ => l

def setWidth (l : Layout) (n : Int) : Layout :=
  { l with width := n.natAbs, left := l.left || n < 0 }

/-- Fills a field, with zeros after the sign or the base if they are asked for. -/
def fill (l : Layout) (start body : String) (zeros : Bool) : String :=
  let missing := l.width - (start.length + body.length)
  let pad (c : Char) : String := String.ofList (List.replicate missing c)
  if l.left then start ++ body ++ pad ' '
  else if zeros then start ++ pad '0' ++ body
  else pad ' ' ++ start ++ body

def text (l : Layout) (s : String) : String :=
  l.fill "" (match l.precision with
    | some n => (s.take n).toString
    | none => s) false

def sign (l : Layout) (negative : Bool) : String :=
  if negative then "-" else if l.plus then "+" else if l.blank then " " else ""

/-- Digits with zeros in front up to the precision. A zero of no precision has no digits. -/
def digits (l : Layout) (ds : String) : String :=
  match l.precision with
  | some 0 => if ds = "0" then "" else ds
  | some p => String.ofList (List.replicate (p - ds.length) '0') ++ ds
  | none => ds

def integer (l : Layout) (n : Int) : String :=
  l.fill (l.sign (n < 0)) (l.digits (toString n.natAbs)) (l.zero && l.precision.isNone)

def natural (l : Layout) (base : Nat) (capital : Bool) (n : Nat) : String :=
  let ds := String.ofList (Nat.toDigits base n)
  let ds := l.digits (if capital then ds.toUpper else ds)
  let zeros := l.zero && l.precision.isNone
  if !l.alternate then l.fill "" ds zeros
  else if base = 8 then l.fill "" (if ds.startsWith "0" then ds else "0" ++ ds) zeros
  else if base = 16 && n ≠ 0 then l.fill (if capital then "0X" else "0x") ds zeros
  else l.fill "" ds zeros

/-- A number with a fraction, as the letter of a conversion says. -/
def real (l : Layout) (letter : Char) (r : Real) : String :=
  let capital := letter.isUpper
  let cased (s : String) : String := if capital then s.toUpper else s
  let start := l.sign r.isNegative
  match r with
  | .infinite _ => l.fill start (cased "inf") false
  | .undefined _ => l.fill start (cased "nan") false
  | .finite f =>
    let places := l.precision.getD 6
    let body := match letter.toLower with
      | 'f' => Real.fixedText f places l.alternate
      | 'e' => Real.scientificText f places l.alternate capital
      | _ => Real.generalText f places l.alternate capital
    l.fill start body l.zero

end Layout

/-- A conversion of a format: its layout, with widths that are taken from the arguments, and its
letter. -/
structure Conversion where
  layout : Layout := {}
  widthGiven : Bool := false
  precisionGiven : Bool := false
  /-- Whether there is a precision. -/
  hasPrecision : Bool := false
  /-- The sizes between the layout and the letter. -/
  sizes : String := ""
  letter : Option Char := none
  /-- How it is written. -/
  source : String := ""

namespace Conversion

def number (ds : List Char) : Nat := ds.foldl (fun n c => n * 10 + (c.toNat - '0'.toNat)) 0

/-- Reads a conversion after its percent sign, and what follows it; `sized` are the letters that
may stand before the last one. -/
def read (sized : List Char) (cs : List Char) : Conversion × List Char :=
  let flags := cs.takeWhile Layout.isFlag
  let rest := cs.drop flags.length
  let layout := flags.foldl Layout.addFlag {}
  let (layout, widthGiven, rest) := match rest with
    | '*' :: rest => (layout, true, rest)
    | rest =>
      let ds := rest.takeWhile Char.isDigit
      ({ layout with width := number ds }, false, rest.drop ds.length)
  let (layout, hasPrecision, precisionGiven, rest) := match rest with
    | '.' :: '*' :: rest => (layout, true, true, rest)
    | '.' :: rest =>
      let ds := rest.takeWhile Char.isDigit
      ({ layout with precision := some (number ds) }, true, false, rest.drop ds.length)
    | rest => (layout, false, false, rest)
  let sizes := rest.takeWhile sized.contains
  let rest := rest.drop sizes.length
  let after := rest.drop 1
  ({ layout, widthGiven, precisionGiven, hasPrecision, sizes := String.ofList sizes
     letter := rest.head?
     source := String.ofList ('%' :: cs.take (cs.length - after.length)) }, after)

end Conversion

/-! ## Numerals of a fixed width -/

/-- A number in a base of at most sixteen, with leading zeros up to a width. -/
def Text.numeral (base width n : Nat) : String :=
  let digits := Nat.toDigits base n
  String.ofList (List.replicate (width - digits.length) '0' ++ digits)

end ModularBuild
