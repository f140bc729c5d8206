import ModularBuild.Number.Layout
import ModularBuild.Utility.Printing

/-!
# Sequences of numbers

`seq` counts from one number to another by a step. The numbers are written with as many decimal
places as the first one and the step were given with.
-/

namespace ModularBuild.Utility

open Text

/-- A number with the form it was given in. -/
structure GivenNumber where
  value : Real
  /-- How wide it is, written without an exponent. -/
  width : Nat := 0
  /-- The number of decimal places; none if they are not known. -/
  places : Option Nat := none

/-- The width and the places of a number from the text it was given as. -/
def formOf (cs : List Char) : Nat × Option Nat :=
  let cs := cs.dropWhile fun c => isSpace c || c = '+'
  let before := cs.takeWhile (· ≠ '.')
  let hasPoint := before.length < cs.length
  let isPlain := !cs.any fun c => c = 'x' || c = 'X'
  if !isPlain then (0, if hasPoint || cs.contains 'p' then none else some 0)
  else
    let fraction := (cs.drop (before.length + 1)).takeWhile fun c => c ≠ 'e' && c ≠ 'E'
    let places : Int := if hasPoint then fraction.length else 0
    let width : Int := cs.length
    let width := if !hasPoint then width
      else if fraction.isEmpty then width - 1
      else if before.getLast?.any Char.isDigit then width else width + 1
    let mantissa := cs.takeWhile fun c => c ≠ 'e' && c ≠ 'E'
    let exponentText := cs.drop mantissa.length
    if exponentText.isEmpty then (width.toNat, some places.toNat)
    else
      let digits := exponentText.drop 1
      let negative := digits.head? = some '-'
      let digits := if negative || digits.head? = some '+' then digits.drop 1 else digits
      let e : Nat := digits.foldl (fun n c => n * 10 + Real.digitOf c) 0
      let placesNow := if negative then places + e else places - min places e
      let width := width - exponentText.length
      if negative then
        let width := if !hasPoint || fraction.isEmpty then width + 1 else width
        ((width + e).toNat, some placesNow.toNat)
      else
        let width := if hasPoint && placesNow = 0 && !fraction.isEmpty then width - 1 else width
        ((width + (e - min fraction.length e)).toNat, some placesNow.toNat)

def givenNumber (s : String) : UtilityM GivenNumber := do
  match Real.read? (s.toList.dropWhile isSpace) with
  | some (.undefined _, []) =>
    refuse s!"invalid 'not-a-number' argument: {inSingleQuotes s}"
  | some (.finite f, []) =>
    let (width, places) := formOf s.toList
    return { value := (Real.finite f).rounded .extended, width, places }
  | some (value, []) => return { value, places := if s.toList.contains '.' then none else some 0 }
  | _ => refuse s!"invalid floating point argument: {inSingleQuotes s}"

/-- A format with its one conversion between two texts. -/
structure NumberFormat where
  before : String := ""
  layout : Layout
  letter : Char
  after : String := ""

def NumberFormat.write (f : NumberFormat) (r : Real) : String :=
  f.before ++ f.layout.real f.letter r ++ f.after

/-- The text up to a percent sign that is not doubled, and what follows it; `fuel` is the length. -/
def plainPart : Nat → List Char → List Char × Option (List Char)
  | 0, _ => ([], none)
  | fuel + 1, '%' :: '%' :: cs =>
    let (text, rest) := plainPart fuel cs
    ('%' :: text, rest)
  | _, '%' :: cs => ([], some cs)
  | fuel + 1, c :: cs =>
    let (text, rest) := plainPart fuel cs
    (c :: text, rest)
  | _, [] => ([], none)

def numberFormat (s : String) : UtilityM NumberFormat := do
  let shown := inSingleQuotes s
  let (before, rest?) := plainPart (s.length + 1) s.toList
  match rest? with
  | none => fail s!"format {shown} has no % directive"
  | some rest =>
    let (c, after) := Conversion.read ['L'] rest
    let letter ← match c.letter with
      | none => fail s!"format {shown} ends in %"
      | some letter => pure letter
    if !("efgaEFGA".toList.contains letter) then
      fail s!"format {shown} has unknown %{String.ofList [letter]} directive"
    let (after, more?) := plainPart (s.length + 1) after
    if more?.isSome then fail s!"format {shown} has too many % directives"
    return ⟨String.ofList before, c.layout, letter, String.ofList after⟩

def usualFormat (first step last : GivenNumber) (equalWidth : Bool) : NumberFormat :=
  match first.places, step.places, last.places with
  | some a, some b, some c =>
    let places := max a b
    if equalWidth then
      let firstWidth := first.width + (places - a) + (if a = 0 && 0 < places then 1 else 0)
      let lastWidth := last.width + places - c
      let lastWidth := if 0 < c && places = 0 then lastWidth - 1 else lastWidth
      let lastWidth := if c = 0 && 0 < places then lastWidth + 1 else lastWidth
      { layout := { zero := true, width := max firstWidth lastWidth, precision := some places }
        letter := 'f' }
    else { layout := { precision := some places }, letter := 'f' }
  | some a, some b, none => { layout := { precision := some (max a b) }, letter := 'f' }
  | _, _, _ => { layout := {}, letter := 'g' }

def extended (f : Fraction) : Fraction :=
  match BinaryFormat.extended.round f with
  | .finite f => f
  | _ => f

structure SequenceStyle where
  format : NumberFormat
  separator : String

/-- Writes the numbers of a sequence from number `i` on; `fuel` bounds how many they are. What is
written is sent on now and then, so that a sequence without end comes to one when nobody reads it. -/
def writeSequence (style : SequenceStyle) (first step : Fraction) (isPast : Fraction → Bool)
    (isLast : Real → Bool) : Nat → Nat → UtilityM Unit
  | 0, _ => return ()
  | fuel + 1, i => do
    let value (i : Nat) : Fraction :=
      extended (first.add (extended (step.mul { num := i })))
    let x := Real.finite (value i)
    say (style.format.write x)
    let next := value (i + 1)
    if isPast next then
      let text := style.format.write (.finite next)
      let digits := (text.toList.drop style.format.before.length).take
        (text.length - style.format.before.length - style.format.after.length)
      let goesOn := match Real.read? (digits.dropWhile isSpace) with
        | some (r, []) => isLast r && text ≠ style.format.write x
        | _ => false
      if goesOn then say (style.separator ++ text)
    else
      say style.separator
      if i % 512 = 511 then flush
      if (← get).broken.isNone then writeSequence style first step isPast isLast fuel (i + 1)

/-- How many numbers there are at most; those of a sequence without end are more than anybody reads. -/
def sequenceFuel (first step : Fraction) (last : Real) : Nat :=
  match last with
  | .finite l =>
    let span := (l.add { first with negative := !first.negative })
    span.num * step.den / (span.den * step.num) + 3
  | _ => endlessSize

/-- Separates options from operands: a number that is negative is an operand. -/
def sequenceArguments (args : List String) : List String :=
  let isNumber (s : String) : Bool := match s.toList with
    | '-' :: c :: _ => c = '.' || c.isDigit
    | _ => false
  match args.findIdx? isNumber with
  | some i =>
    let takesValue (s : String) : Bool := s = "-f" || s = "-s"
    if (args.take i).any (fun a => !a.startsWith "-") && !(args.take i).any takesValue then args
    else if (args.take i).contains "--" then args
    else if (args.take i).getLast?.any takesValue then args
    else args.take i ++ "--" :: args.drop i
  | none => args

def seq : Utility := fun args => do
  let a ← arguments
    [option 'f' "format" .required, option 's' "separator" .required, option 'w' "equal-width"]
    (sequenceArguments args) true
  if let extra :: _ := a.operands.drop 3 then refuse s!"extra operand {inSingleQuotes extra}"
  if a.operands.isEmpty then refuse "missing operand"
  let format? ← (a.value? "format").mapM numberFormat
  if format?.isSome && a.has "equal-width" then
    refuse "format string may not be specified when printing equal width strings"
  let one : GivenNumber := { value := .finite { num := 1 }, width := 1, places := some 0 }
  let numbers ← a.operands.mapM givenNumber
  let (first, step, last) := match numbers with
    | [last] => (one, one, last)
    | [first, last] => (first, one, last)
    | [first, step, last] => (first, step, last)
    | _ => (one, one, one)
  let separator := (a.value? "separator").getD "\n"
  let style : SequenceStyle :=
    { format := format?.getD (usualFormat first step last (a.has "equal-width")), separator }
  match first.value, step.value with
  | .finite x, .finite d =>
    if d.num = 0 then
      refuse ("invalid Zero increment value: " ++ inSingleQuotes (a.operands.getD 1 ""))
    let isPast (y : Fraction) : Bool := match last.value with
      | .finite l => if d.negative then y.lessThan l else l.lessThan y
      | .infinite negative => negative != d.negative
      | .undefined _ => true
    let isLast (r : Real) : Bool := match r, last.value with
      | .finite y, .finite l =>
        match BinaryFormat.extended.round y with
        | .finite y => !y.lessThan l && !l.lessThan y
        | _ => false
      | _, _ => false
    if !isPast x then
      writeSequence style x d isPast isLast (sequenceFuel x d last.value) 0
      say "\n"
  | _, _ => pure ()
  return 0

end ModularBuild.Utility
