import ModularBuild.Toml.Quoted
import ModularBuild.Toml.Value

/-!
# Numbers, dates and times

A whole number has 64 bits with its sign. A number with a fraction or an exponent has to be below
what a double can hold, unless it is negative. Dates are those of the calendar, with a leap second
allowed in every minute.
-/

namespace ModularBuild.Toml

open Text Text.Reader

/-! ## Digits -/

def digits (isDigit : Char → Bool) : Reader (List Char) := do
  let first ← satisfy isDigit
  let rest ← many (do
    match ← peek? with
    | some '_' => skip 1; some <$> satisfy isDigit
    | some c => if isDigit c then skip 1; return some c else return none
    | none => return none)
  return first :: rest

def digitsValue (base : Nat) (ds : List Char) : Nat :=
  ds.foldl (fun n d => n * base + (hexValue? d).getD 0) 0

def sign : Reader (Option Char) := attempt (satisfy fun c => c = '+' || c = '-')

/-- Decimal digits that begin with a zero only if it stands alone. -/
def wholeDigits : Reader (List Char) := do
  match ← peek? with
  | some '0' => skip 1; return ['0']
  | _ => digits Char.isDigit

/-! ## Whole numbers -/

def inRange (n : Int) : Bool := Int64.minValue.toInt ≤ n && n ≤ Int64.maxValue.toInt

def checkedInt (n : Int) : Reader Int := if inRange n then return n else failure

def decimalInt : Reader Int := do
  let s ← sign
  let n := digitsValue 10 (← wholeDigits)
  checkedInt (if s = some '-' then -n else n)

/-- Digits of another base after the letters that announce it. -/
def basedInt (mark : String) (base : Nat) (isDigit : Char → Bool) : Reader Int := do
  text mark
  checkedInt (digitsValue base (← digits isDigit))

def int : Reader Int := do
  if ← startsWith "0x" then basedInt "0x" 16 fun c => (hexValue? c).isSome
  else if ← startsWith "0o" then basedInt "0o" 8 fun c => '0' ≤ c && c ≤ '7'
  else if ← startsWith "0b" then basedInt "0b" 2 fun c => c = '0' || c = '1'
  else decimalInt

/-! ## Numbers with a fraction or an exponent -/

/-- Whether digits, taken as a whole number and scaled by a power of ten, round to a double that is
no longer finite: they reach the middle between the greatest double and the next power of two. -/
def overflows (ds : List Char) (exponent : Int) : Bool :=
  let ds := ds.dropWhile (· = '0')
  let magnitude : Int := ds.length + exponent
  if ds.isEmpty || magnitude < 300 then false
  else if 320 < magnitude then true
  else
    let whole :=
      if 0 ≤ exponent then ds ++ List.replicate exponent.toNat '0' else ds.take magnitude.toNat
    (1 <<< 1024) - (1 <<< 970) ≤ digitsValue 10 whole

def exponentPart : Reader Int := do
  discard <| satisfy fun c => c = 'e' || c = 'E'
  let s ← sign
  let n := digitsValue 10 (← digits Char.isDigit)
  return if s = some '-' then -n else n

def fractionPart : Reader (List Char) := do
  char '.'
  digits Char.isDigit

def finiteFloat : Reader Unit := do
  let s ← sign
  let whole ← wholeDigits
  let fraction ← attempt fractionPart
  let exponent ← if fraction.isSome then attempt exponentPart else some <$> exponentPart
  let places := (fraction.getD []).length
  if s ≠ some '-' && overflows (whole ++ fraction.getD []) (exponent.getD 0 - places) then failure

def specialFloat : Reader Unit := do
  discard sign
  text "inf" <|> text "nan"

/-- A number with a fraction, an exponent or both, or one that is no finite number. -/
def float : Reader String := do
  return String.ofList (← taken (finiteFloat <|> specialFloat))

/-! ## Dates and times -/

/-- A number of exactly so many digits, in a range. -/
def fixedDigits (width low high : Nat) : Reader Nat := do
  let ds := (← get).take width
  skip width
  let n := digitsValue 10 ds
  if ds.length = width && ds.all Char.isDigit && low ≤ n && n ≤ high then return n else failure

def daysInMonth (year month : Nat) : Nat :=
  if month = 2 then
    if year % 4 = 0 && (year % 100 ≠ 0 || year % 400 = 0) then 29 else 28
  else if month = 4 || month = 6 || month = 9 || month = 11 then 30
  else 31

def date : Reader Unit := do
  let year ← fixedDigits 4 0 9999
  char '-'
  let month ← fixedDigits 2 1 12
  char '-'
  discard <| fixedDigits 2 1 (daysInMonth year month)

def hourMinute : Reader Unit := do
  discard <| fixedDigits 2 0 23
  char ':'
  discard <| fixedDigits 2 0 59

def time : Reader Unit := do
  hourMinute
  char ':'
  discard <| fixedDigits 2 0 60
  if (← peek?) = some '.' then
    skip 1
    discard <| satisfy Char.isDigit
    discard <| takeWhile Char.isDigit

def offset : Reader Unit :=
  discard (satisfy fun c => c = 'Z' || c = 'z')
    <|> (do discard <| satisfy fun c => c = '+' || c = '-'; hourMinute)

/-- A date, which a time and an offset may follow, or a time. -/
def moment : Reader String := do
  let dated := do
    date
    discard <| attempt (do
      discard <| satisfy fun c => c = 'T' || c = 't' || c = ' '
      time
      discard <| attempt offset)
  return String.ofList (← taken (dated <|> time))

/-- A value that begins with a digit or a sign. -/
def number : Reader Literal :=
  .moment <$> moment <|> .float <$> float <|> .int <$> int

end ModularBuild.Toml
