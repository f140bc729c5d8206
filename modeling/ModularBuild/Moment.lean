import ModularBuild.Date

/-!
# Moments

A moment is a date and a time of day, and can be shown by a format: a percent sign and a letter
stand for a part of it. Flags between them say how a number is filled up.
-/

namespace ModularBuild

structure Moment where
  date : Date
  hour : Nat := 0
  minute : Nat := 0
  second : Nat := 0
  nanosecond : Nat := 0
deriving DecidableEq, Repr

namespace Moment

def secondLength : Nat := 1000000000

def ofTime (t : Time) : Moment :=
  let seconds := t / secondLength
  { date := Date.ofTime t
    hour := seconds / 3600 % 24
    minute := seconds / 60 % 60
    second := seconds % 60
    nanosecond := t % secondLength }

def seconds (m : Moment) : Nat :=
  ((m.date.days * 24 + m.hour) * 60 + m.minute) * 60 + m.second

def monthNames : List String :=
  ["January", "February", "March", "April", "May", "June", "July", "August", "September",
    "October", "November", "December"]

def weekdayNames : List String :=
  ["Sunday", "Monday", "Tuesday", "Wednesday", "Thursday", "Friday", "Saturday"]

def monthName (m : Moment) : String := monthNames.getD (m.date.month - 1) ""

def weekdayName (m : Moment) : String := weekdayNames.getD m.date.weekday ""

def clockHour (m : Moment) : Nat := if m.hour % 12 = 0 then 12 else m.hour % 12

/-! ## Weeks -/

def weekFrom (m : Moment) (start : Nat) : Nat :=
  (m.date.dayOfYear + 6 - (m.date.weekday + 7 - start) % 7) / 7

/-- The year and the week by the rule that the first week has the first Thursday of the year. -/
def isoWeek (m : Moment) : Nat × Nat :=
  let fromMonday := (m.date.weekday + 6) % 7
  let thursday := Date.ofDays (m.date.days + 3 - fromMonday)
  (thursday.year, (thursday.dayOfYear - 1) / 7 + 1)

/-! ## Formats -/

/-- A part of a moment: a number with its width and what fills it up, or a text. -/
inductive Part where
  | number (n width : Nat) (fill : Char)
  | text (s : String)

def abbreviation? (c : Char) : Option String :=
  match c with
  | 'F' => some "%Y-%m-%d"
  | 'T' | 'X' => some "%H:%M:%S"
  | 'D' | 'x' => some "%m/%d/%y"
  | 'R' => some "%H:%M"
  | 'c' => some "%a %b %e %H:%M:%S %Y"
  | 'r' => some "%I:%M:%S %p"
  | _ => none

def part? (m : Moment) (c : Char) : Option Part :=
  let two (n : Nat) : Option Part := some (.number n 2 '0')
  match c with
  | 'Y' => some (.number m.date.year 1 '0')
  | 'C' => two (m.date.year / 100)
  | 'y' => two (m.date.year % 100)
  | 'm' => two m.date.month
  | 'd' => two m.date.day
  | 'e' => some (.number m.date.day 2 ' ')
  | 'H' => two m.hour
  | 'k' => some (.number m.hour 2 ' ')
  | 'I' => two m.clockHour
  | 'l' => some (.number m.clockHour 2 ' ')
  | 'M' => two m.minute
  | 'S' => two m.second
  | 's' => some (.number m.seconds 1 '0')
  | 'j' => some (.number m.date.dayOfYear 3 '0')
  | 'q' => some (.number ((m.date.month + 2) / 3) 1 '0')
  | 'u' => some (.number (if m.date.weekday = 0 then 7 else m.date.weekday) 1 '0')
  | 'w' => some (.number m.date.weekday 1 '0')
  | 'U' => two (m.weekFrom 0)
  | 'W' => two (m.weekFrom 1)
  | 'V' => two m.isoWeek.2
  | 'G' => some (.number m.isoWeek.1 1 '0')
  | 'g' => two (m.isoWeek.1 % 100)
  | 'a' => some (.text (m.weekdayName.take 3).toString)
  | 'A' => some (.text m.weekdayName)
  | 'b' | 'h' => some (.text (m.monthName.take 3).toString)
  | 'B' => some (.text m.monthName)
  | 'p' => some (.text (if m.hour < 12 then "AM" else "PM"))
  | 'P' => some (.text (if m.hour < 12 then "am" else "pm"))
  | 'Z' => some (.text "UTC")
  | 'z' => some (.text "+0000")
  | 'n' => some (.text "\n")
  | 't' => some (.text "\t")
  | '%' => some (.text "%")
  | _ => none

/-- Flags and the least width between a percent sign and a letter. -/
structure Adjustment where
  fill : Option Char := none
  /-- Whether nothing is filled up. -/
  plain : Bool := false
  upper : Bool := false
  width : Option Nat := none

def Part.render (a : Adjustment) : Part → String
  | .number n width fill =>
    let digits := toString n
    let fill := a.fill.getD fill
    let width := if a.plain then 0 else a.width.getD width
    String.ofList (List.replicate (width - digits.length) fill) ++ digits
  | .text s =>
    let s := if a.upper then s.toUpper else s
    String.ofList (List.replicate (a.width.getD 0 - s.length) (a.fill.getD ' ')) ++ s

def fraction (m : Moment) (a : Adjustment) : String :=
  let digits := Text.numeral 10 9 m.nanosecond
  if a.plain then
    String.ofList (digits.toList.reverse.dropWhile (· = '0')).reverse
  else (digits.take (a.width.getD 9)).toString

def takeFlags (a : Adjustment) : List Char → Adjustment × List Char
  | [] => (a, [])
  | c :: cs =>
    match c with
    | '-' => takeFlags { a with plain := true } cs
    | '_' => takeFlags { a with fill := some ' ' } cs
    | '0' => takeFlags { a with fill := some '0' } cs
    | '^' | '#' => takeFlags { a with upper := true } cs
    | _ => (a, c :: cs)

/-- Shows a moment in a format; `fuel` bounds its length, that of abbreviations included. -/
def formatFrom (m : Moment) : Nat → List Char → String
  | 0, _ => ""
  | _, [] => ""
  | fuel + 1, '%' :: cs =>
    let (a, rest) := takeFlags {} cs
    let digits := rest.takeWhile Char.isDigit
    let a := if digits.isEmpty then a else { a with width := (String.ofList digits).toNat? }
    let rest := rest.drop digits.length
    let unknown := String.ofList ('%' :: cs.take (cs.length - rest.length))
    match rest with
    | [] => unknown
    | ':' :: 'z' :: rest => "+00:00" ++ m.formatFrom fuel rest
    | ':' :: ':' :: 'z' :: rest => "+00:00:00" ++ m.formatFrom fuel rest
    | 'N' :: rest => m.fraction a ++ m.formatFrom fuel rest
    | c :: rest =>
      match m.part? c, abbreviation? c with
      | some part, _ => part.render a ++ m.formatFrom fuel rest
      | none, some format =>
        let text := m.formatFrom fuel format.toList
        (Part.text text).render a ++ m.formatFrom fuel rest
      | none, none => unknown ++ m.formatFrom fuel (c :: rest)
  | fuel + 1, c :: cs => String.singleton c ++ m.formatFrom fuel cs

def format (m : Moment) (s : String) : String := m.formatFrom (s.length + 32) s.toList

end Moment

end ModularBuild
