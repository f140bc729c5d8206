import ModularBuild.Moment

/-!
# Reading moments

A moment is written as a date, a time of day, steps from there such as `3 days ago`, or several of
these; what is missing is taken from the moment of reading. An `@` begins a number of seconds.
-/

namespace ModularBuild.Moment

inductive Token where
  /-- A number with the count of its digits. -/
  | number (n digits : Nat)
  | word (s : String)
  | sign (c : Char)
deriving DecidableEq, Repr

/-- Takes a text apart; `fuel` bounds its length. -/
def tokens : Nat → List Char → List Token
  | 0, _ => []
  | _, [] => []
  | fuel + 1, c :: cs =>
    if c.isWhitespace then tokens fuel cs
    else if c.isDigit then
      let digits := (c :: cs).takeWhile Char.isDigit
      .number ((String.ofList digits).toNat?.getD 0) digits.length ::
        tokens fuel ((c :: cs).drop digits.length)
    else if c.isAlpha then
      let letters := (c :: cs).takeWhile Char.isAlpha
      .word (String.ofList letters).toLower :: tokens fuel ((c :: cs).drop letters.length)
    else .sign c :: tokens fuel cs

structure Draft where
  date : Option Date := none
  time : Option (Nat × Nat × Nat × Nat) := none
  /-- Seconds east. -/
  zone : Option Int := none
  seconds : Int := 0
  days : Int := 0
  months : Int := 0

/-- The number that a word stands for in a list of names, of which three letters are enough. -/
def numberOf? (names : List String) (word : String) : Option Nat :=
  if word.length < 3 then none
  else names.findIdx? fun name =>
    let name := name.toLower
    name = word || (name.take 3).toString = word || (word = "sept" && name = "september")

def yearOf (n digits : Nat) : Nat :=
  if digits ≤ 2 then (if n < 69 then n + 2000 else n + 1900) else n

def Draft.step (d : Draft) (n : Int) (unit : String) : Option Draft :=
  match unit with
  | "sec" | "secs" | "second" | "seconds" => some { d with seconds := d.seconds + n }
  | "min" | "mins" | "minute" | "minutes" => some { d with seconds := d.seconds + 60 * n }
  | "hour" | "hours" => some { d with seconds := d.seconds + 3600 * n }
  | "day" | "days" => some { d with days := d.days + n }
  | "week" | "weeks" => some { d with days := d.days + 7 * n }
  | "fortnight" | "fortnights" => some { d with days := d.days + 14 * n }
  | "month" | "months" => some { d with months := d.months + n }
  | "year" | "years" => some { d with months := d.months + 12 * n }
  | _ => none

def Draft.setDate (d : Draft) (year month day : Nat) : Option Draft :=
  let date : Date := ⟨year, month, day⟩
  if d.date.isSome || !date.isValid then none else some { d with date := some date }

def Draft.setTime (d : Draft) (hour minute second nanosecond : Nat) : Option Draft :=
  if d.time.isSome || 23 < hour || 59 < minute || 60 < second then none
  else some { d with time := some (hour, minute, second, nanosecond) }

def hourOf? (hour : Nat) (half : String) : Option Nat :=
  if hour = 0 || 12 < hour then none
  else match half with
    | "am" => some (hour % 12)
    | "pm" => some (hour % 12 + 12)
    | _ => none

def takeClock (d : Draft) (hour : Nat) : List Token → Option (Draft × List Token)
  | .number minute _ :: .sign ':' :: .number second _ :: .sign '.' :: .number n digits :: rest =>
    let scaled := if digits ≤ 9 then n * Nat.pow 10 (9 - digits) else n / Nat.pow 10 (digits - 9)
    (d.setTime hour minute second scaled).map (·, rest)
  | .number minute _ :: .sign ':' :: .number second _ :: .word half :: rest =>
    match hourOf? hour half with
    | some hour => (d.setTime hour minute second 0).map (·, rest)
    | none => (d.setTime hour minute second 0).map (·, .word half :: rest)
  | .number minute _ :: .sign ':' :: .number second _ :: rest =>
    (d.setTime hour minute second 0).map (·, rest)
  | .number minute _ :: .word half :: rest =>
    match hourOf? hour half with
    | some hour => (d.setTime hour minute 0 0).map (·, rest)
    | none => (d.setTime hour minute 0 0).map (·, .word half :: rest)
  | .number minute _ :: rest => (d.setTime hour minute 0 0).map (·, rest)
  | _ => none

def zoneOf (n digits : Nat) (minutes : Nat) : Int :=
  if digits ≤ 2 then (n * 60 + minutes) * 60 else ((n / 100) * 60 + n % 100) * 60

def takePart (d : Draft) : List Token → Option (Draft × List Token)
  | .number y yd :: .sign '-' :: .number m _ :: .sign '-' :: .number day _ :: .word "t" :: rest
  | .number y yd :: .sign '-' :: .number m _ :: .sign '-' :: .number day _ :: rest =>
    (d.setDate (yearOf y yd) m day).map (·, rest)
  | .number m _ :: .sign '/' :: .number day _ :: .sign '/' :: .number y yd :: rest =>
    (d.setDate (yearOf y yd) m day).map (·, rest)
  | .number hour _ :: .sign ':' :: rest => takeClock d hour rest
  | .sign '+' :: .number n nd :: .word unit :: .word "ago" :: rest =>
    if nd = 0 then none else (d.step (-n) unit).map (·, rest)
  | .number n _ :: .word unit :: .word "ago" :: rest => (d.step (-n) unit).map (·, rest)
  | .word unit :: .word "ago" :: rest => (d.step (-1) unit).map (·, rest)
  | .sign sign :: .number n digits :: rest =>
    let signed : Int := if sign = '-' then -n else n
    if sign ≠ '-' && sign ≠ '+' then if sign = ',' then some (d, .number n digits :: rest) else none
    else match rest with
    | .word unit :: rest' =>
      match d.step signed unit with
      | some d => some (d, rest')
      | none => none
    | .sign ':' :: .number minutes _ :: rest' =>
      let zone := zoneOf n digits minutes
      if d.time.isNone || d.zone.isSome then none
      else some ({ d with zone := some (if sign = '-' then -zone else zone) }, rest')
    | _ =>
      let zone := zoneOf n digits 0
      if d.time.isNone || d.zone.isSome then none
      else some ({ d with zone := some (if sign = '-' then -zone else zone) }, rest)
  | .number n digits :: .word w :: rest =>
    match hourOf? n w, d.step n w, numberOf? monthNames w, rest with
    | some hour, _, _, _ => (d.setTime hour 0 0 0).map (·, rest)
    | none, some d, _, _ => some (d, rest)
    | none, none, some month, .number y yd :: .sign ':' :: rest' =>
      (d.date.map fun _ => (d, rest')) <|>
        (takeClock d y rest').bind fun (d, rest) => (d.setDate 1970 (month + 1) n).map (·, rest)
        |>.filter fun _ => yd ≠ 0
    | none, none, some month, .number y yd :: rest' =>
      (d.setDate (yearOf y yd) (month + 1) n).map (·, rest')
    | _, _, _, _ => if digits = 8 then
        (d.setDate (n / 10000) (n / 100 % 100) (n % 100)).map (·, .word w :: rest)
      else none
  | .number n 8 :: rest => (d.setDate (n / 10000) (n / 100 % 100) (n % 100)).map (·, rest)
  | .word w :: rest =>
    match numberOf? monthNames w, rest with
    | some month, .number day _ :: .sign ',' :: .number y yd :: rest'
    | some month, .number day _ :: .number y yd :: rest' =>
      (d.setDate (yearOf y yd) (month + 1) day).map (·, rest')
    | _, _ =>
      match w, rest with
      | "now", _ | "today", _ => some (d, rest)
      | "yesterday", _ => some ({ d with days := d.days - 1 }, rest)
      | "tomorrow", _ => some ({ d with days := d.days + 1 }, rest)
      | "next", .word unit :: rest' => (d.step 1 unit).map (·, rest')
      | "last", .word unit :: rest' => (d.step (-1) unit).map (·, rest')
      | "utc", _ | "gmt", _ | "z", _ =>
        if d.zone.isSome then none else some ({ d with zone := some 0 }, rest)
      | _, _ => if (numberOf? weekdayNames w).isSome then some (d, rest) else (d.step 1 w).map (·, rest)
  | .sign ',' :: rest => some (d, rest)
  | _ => none

/-- All parts of a moment; `fuel` is their number. -/
def takeParts : Nat → Draft → List Token → Option Draft
  | _, d, [] => some d
  | 0, _, _ => none
  | fuel + 1, d, ts => do
    let (d, rest) ← takePart d ts
    takeParts fuel d rest

/-- The moment that is meant, as nanoseconds; those before 1970 count as its beginning. -/
def Draft.resolve (d : Draft) (now : Time) : Time :=
  let m := ofTime now
  let date := d.date.getD m.date
  let relative := d.seconds ≠ 0 || d.days ≠ 0 || d.months ≠ 0
  let (hour, minute, second, nanosecond) := d.time.getD
    (if d.date.isSome || !relative then (0, 0, 0, 0) else (m.hour, m.minute, m.second, m.nanosecond))
  let months := (date.year * 12 + (date.month - 1) : Int) + d.months
  let shifted : Date := ⟨(months / 12).toNat, (months % 12).toNat + 1, 1⟩
  let days : Int := shifted.days + (date.day - 1 : Nat) + d.days
  let seconds := ((days * 24 + hour) * 60 + minute) * 60 + second + d.seconds - d.zone.getD 0
  if seconds < 0 then 0 else seconds.toNat * secondLength + nanosecond

def stamp? (s : String) : Option Time :=
  let (minus, digits) := if s.startsWith "-" then (true, s.drop 1) else (false, s.drop 0)
  match (digits.toString.splitOn ".") with
  | [whole] => whole.toNat?.map fun n => if minus then 0 else n * secondLength
  | [whole, part] => do
    let n ← whole.toNat?
    let padded := ((part ++ "000000000").take 9).toString
    let f ← padded.toNat?
    return if minus then 0 else n * secondLength + f
  | _ => none

def read? (now : Time) (s : String) : Option Time :=
  let text := (s.trimAscii).toString
  if text.startsWith "@" then stamp? (text.drop 1).toString
  else if text = "now" then some now
  else
    let ts := tokens (s.length + 1) s.toList
    (takeParts (ts.length + 1) {} ts).map (·.resolve now)

/-- Reads the digits that `touch` takes: month, day, hour and minute, a year before them and seconds
after a point. -/
def readDigits? (now : Time) (s : String) : Option Time := do
  let (digits, seconds) ← match s.splitOn "." with
    | [digits] => some (digits, "00")
    | [digits, seconds] => some (digits, seconds)
    | _ => none
  let cs := digits.toList
  if !cs.all Char.isDigit || seconds.length ≠ 2 then none
  else
    let number (cs : List Char) : Nat := (String.ofList cs).toNat?.getD 0
    let rest := cs.drop (cs.length - 8)
    let year ← match cs.length with
      | 8 => some (ofTime now).date.year
      | 10 => some (yearOf (number (cs.take 2)) 2)
      | 12 => some (number (cs.take 4))
      | _ => none
    let second ← seconds.toNat?
    let part (i : Nat) : Nat := number ((rest.drop i).take 2)
    let date : Date := ⟨year, part 0, part 2⟩
    if !date.isValid || 23 < part 4 || 59 < part 6 || 60 < second then none
    else some (({ date, hour := part 4, minute := part 6, second } : Moment).seconds * secondLength)

end ModularBuild.Moment
