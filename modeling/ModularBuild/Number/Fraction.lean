/-!
# Numbers with a fraction

Numbers are read from text exactly, as a quotient, and rounded to a binary format of a given
precision: to the nearest number of the format, an exact tie to the even one. They are written with
a number of decimal places, or of digits, from the exact value.

A number of double precision is a sign, an exponent and a fraction of 52 bits. Going over to the
exact value loses nothing; going back takes the nearest number.
-/

namespace ModularBuild

/-- A number that is not negative, and a sign. The denominator is positive. -/
structure Fraction where
  negative : Bool := false
  num : Nat
  den : Nat := 1
deriving Repr, Inhabited

inductive Real where
  | finite (f : Fraction)
  | infinite (negative : Bool)
  | undefined (negative : Bool)
deriving Repr, Inhabited

namespace Fraction

def tenTo (n : Nat) : Nat := Nat.pow 10 n

def ofInt (n : Int) : Fraction := { negative := n < 0, num := n.natAbs }

def signed (f : Fraction) : Int := if f.negative then -f.num else f.num

def ofQuotient (n : Int) (d : Nat) : Fraction := { ofInt n with den := d }

def add (a b : Fraction) : Fraction :=
  ofQuotient (a.signed * b.den + b.signed * a.den) (a.den * b.den)

def mul (a b : Fraction) : Fraction := ofQuotient (a.signed * b.signed) (a.den * b.den)

def lessThan (a b : Fraction) : Bool := a.signed * b.den < b.signed * a.den

/-- A quotient rounded to the nearest whole number, an exact tie to the even one. -/
def divideRound (n d : Nat) : Nat :=
  let q := n / d
  let r := n % d
  if d < 2 * r || (2 * r = d && q % 2 = 1) then q + 1 else q

/-- The greatest `k` with `10 ^ k ≤ num / den`, for a positive number, starting from a guess. -/
def decimalExponent (f : Fraction) : Int :=
  let size (n : Nat) : Nat := (Nat.toDigits 10 n).length
  let guess : Int := size f.num - size f.den
  if f.num = 0 then 0
  else if 0 ≤ guess then
    if f.den * tenTo guess.toNat ≤ f.num then guess else guess - 1
  else if f.den ≤ f.num * tenTo (-guess).toNat then guess else guess - 1

def scaledRound (f : Fraction) (k : Int) : Nat :=
  if 0 ≤ k then divideRound (f.num * tenTo k.toNat) f.den
  else divideRound f.num (f.den * tenTo (-k).toNat)

def shifted (f : Fraction) (k : Int) : Fraction :=
  if 0 ≤ k then { f with num := f.num <<< k.toNat } else { f with den := f.den <<< (-k).toNat }

end Fraction

/-- A binary format: the bits of a number, the exponent of its last bit at the least, and the
exponent of the first number that is too great. -/
structure BinaryFormat where
  bits : Nat
  least : Int
  limit : Nat

namespace BinaryFormat

def double : BinaryFormat := ⟨53, -1074, 1024⟩

def extended : BinaryFormat := ⟨64, -16445, 16384⟩

/-- The nearest number of a format; infinite if the number is too great. -/
def round (b : BinaryFormat) (f : Fraction) : Real :=
  if f.num = 0 then .finite f
  else
    let exponent : Int := Nat.log2 f.num - Nat.log2 f.den - b.bits
    let exponent := max b.least exponent
    let scaled := f.shifted (-exponent)
    let exponent := if scaled.num / scaled.den < 1 <<< b.bits then exponent else exponent + 1
    let scaled := f.shifted (-exponent)
    let m := Fraction.divideRound scaled.num scaled.den
    let r := Fraction.shifted { negative := f.negative, num := m } exponent
    if r.den <<< b.limit ≤ r.num then .infinite f.negative else .finite r

end BinaryFormat

namespace Real

open Fraction (tenTo)

/-! ## Reading -/

def digitOf (c : Char) : Nat :=
  if c.isDigit then c.toNat - '0'.toNat
  else if c.isAlpha then c.toLower.toNat - 'a'.toNat + 10
  else 99

/-- The digits of a base at the front of a text with a point among them: their value, the number of
them, how many stand after the point, and what follows. -/
def takeDigits (base : Nat) (cs : List Char) : Nat × Nat × Nat × List Char :=
  let isDigit (c : Char) : Bool := digitOf c < base
  let whole := cs.takeWhile isDigit
  let rest := cs.drop whole.length
  let (places, rest) := match rest with
    | '.' :: more =>
      let places := more.takeWhile isDigit
      if whole.isEmpty && places.isEmpty then ([], rest) else (places, more.drop places.length)
    | rest => ([], rest)
  ((whole ++ places).foldl (fun n c => n * base + digitOf c) 0, whole.length + places.length,
    places.length, rest)

/-- An exponent after one of its letters, and what follows; no exponent counts as 0. -/
def takeExponent (letter : Char) (cs : List Char) : Int × List Char :=
  match cs with
  | c :: rest =>
    if c.toLower ≠ letter then (0, cs)
    else
      let (negative, ds) := match rest with
        | '-' :: ds => (true, ds)
        | '+' :: ds => (false, ds)
        | ds => (false, ds)
      let digits := ds.takeWhile Char.isDigit
      if digits.isEmpty then (0, cs)
      else
        let n : Nat := digits.foldl (fun n c => min (n * 10 + digitOf c) 100000) 0
        (if negative then -n else n, ds.drop digits.length)
  | [] => (0, cs)

/-- The number at the front of a text, and what follows it. -/
def read? (cs : List Char) : Option (Real × List Char) :=
  let (negative, body) := match cs with
    | '-' :: rest => (true, rest)
    | '+' :: rest => (false, rest)
    | rest => (false, rest)
  let word (n : Nat) : String := String.ofList ((body.take n).map Char.toLower)
  let hexadecimal : Option (Real × List Char) :=
    match body with
    | '0' :: x :: rest =>
      if x.toLower ≠ 'x' then none
      else
        let (n, count, places, rest) := takeDigits 16 rest
        if count = 0 then none
        else
          let (e, rest) := takeExponent 'p' rest
          some (.finite (Fraction.shifted { negative, num := n } (e - 4 * places)), rest)
    | _ => none
  let decimal : Option (Real × List Char) :=
    let (n, count, places, rest) := takeDigits 10 body
    if count = 0 then none
    else
      let (e, rest) := takeExponent 'e' rest
      let e := e - places
      let f : Fraction := if n = 0 then { negative, num := 0 }
        else if 0 ≤ e then { negative, num := n * tenTo e.toNat }
        else { negative, num := n, den := tenTo (-e).toNat }
      some (.finite f, rest)
  if word 8 = "infinity" then some (.infinite negative, body.drop 8)
  else if word 3 = "inf" then some (.infinite negative, body.drop 3)
  else if word 3 = "nan" then some (.undefined negative, body.drop 3)
  else hexadecimal <|> decimal

def rounded (r : Real) (b : BinaryFormat) : Real :=
  match r with
  | .finite f => b.round f
  | r => r

def isNegative : Real → Bool
  | finite f => f.negative
  | infinite n | undefined n => n

/-! ## Writing -/

/-- The digits of a number, at least so many, with a point before the last of them. -/
def placed (n places : Nat) (keepPoint : Bool) : String :=
  let ds := Nat.toDigits 10 n
  let ds := List.replicate (places + 1 - ds.length) '0' ++ ds
  let whole := ds.take (ds.length - places)
  let rest := ds.drop (ds.length - places)
  String.ofList (whole ++ if rest.isEmpty && !keepPoint then [] else '.' :: rest)

def fixedText (f : Fraction) (places : Nat) (keepPoint : Bool) : String :=
  placed (f.scaledRound places) places keepPoint

/-- The number as digits, one of them before the point, and an exponent, without its sign. -/
def scientificText (f : Fraction) (places : Nat) (keepPoint capital : Bool) : String :=
  let e := f.decimalExponent
  let m := f.scaledRound (places - e)
  let (m, e) := if m < tenTo (places + 1) then (m, e) else (f.scaledRound (places - e - 1), e + 1)
  let digits := toString e.natAbs
  let sign := if e < 0 then "-" else "+"
  let exponent := if digits.length < 2 then "0" ++ digits else digits
  placed m places keepPoint ++ (if capital then "E" else "e") ++ sign ++ exponent

def stripped (s : String) : String :=
  let mantissa := s.toList.takeWhile fun c => c ≠ 'e' && c ≠ 'E'
  let exponent := s.toList.drop mantissa.length
  if mantissa.contains '.' then
    let kept := mantissa.reverse.dropWhile (· = '0')
    let kept := match kept with
      | '.' :: rest => rest
      | kept => kept
    String.ofList (kept.reverse ++ exponent)
  else s

/-- The number with a number of digits, with an exponent if it is far from 1, without its sign. -/
def generalText (f : Fraction) (digits : Nat) (keepZeros capital : Bool) : String :=
  let p := max digits 1
  let e := f.decimalExponent
  let m := f.scaledRound (p - 1 - e)
  let e := if m < tenTo p then e else e + 1
  let s :=
    if e < -4 || p ≤ e then scientificText f (p - 1) keepZeros capital
    else fixedText f (p - 1 - e).toNat keepZeros
  if keepZeros then s else stripped s

/-! ## Double precision -/

/-- The exponent of the last bit of the least numbers, as it is written, is this much less. -/
def exponentBias : Nat := 1075

def hiddenBit : Nat := Nat.pow 2 52

def ofFloat (x : Float) : Real :=
  let bits := x.toBits.toNat
  let negative := bits / Nat.pow 2 63 = 1
  let exponent := bits / hiddenBit % 2048
  let fraction := bits % hiddenBit
  if exponent = 2047 then
    if fraction = 0 then .infinite negative else .undefined true
  else
    let (m, e) := if exponent = 0 then (fraction, 1) else (fraction + hiddenBit, exponent)
    .finite (Fraction.shifted { negative, num := m } ((e : Int) - exponentBias))

def bitsOf (f : Fraction) : Nat :=
  if f.num = 0 then 0
  else
    let e : Int := (Nat.log2 f.num : Int) - Nat.log2 f.den
    let last : Int := max (e - 52) BinaryFormat.double.least
    let scaled := f.shifted (-last)
    let m := scaled.num / scaled.den
    if m < hiddenBit then m
    else (last + exponentBias).toNat * hiddenBit + (m - hiddenBit)

def toFloat (r : Real) : Float :=
  let signed (negative : Bool) (x : Float) : Float := if negative then -x else x
  match r.rounded BinaryFormat.double with
  | .finite f => signed f.negative (Float.ofBits (UInt64.ofNat (bitsOf f)))
  | .infinite negative => signed negative (1.0 / 0.0)
  | .undefined _ => 0.0 / 0.0

end Real

end ModularBuild
