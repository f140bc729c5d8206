import ModularBuild.Number.Layout
import ModularBuild.Text.CharClass
import ModularBuild.Text.Escape

/-!
# Formats

A format is written out with arguments: text with escapes as it is, conversions with the next
argument each. It is used again as long as arguments are left. What is printed and what is
complained about come in order.
-/

namespace ModularBuild.Text

/-- What differs between the programs that write formats out. -/
structure FormatDialect where
  /-- The escapes of formats. -/
  escapes : EscapeStyle
  /-- The escapes of arguments that are written with `%b`. -/
  argumentEscapes : EscapeStyle
  /-- The precision of numbers with a fraction. -/
  precision : BinaryFormat
  /-- The letters that may stand before that of a conversion. -/
  sizes : List Char := []
  /-- Whether `%q` writes an argument in quotes. -/
  quote : Option (String → String) := none
  notNumber : String → String
  notWhole : String → String
  outOfRange : String → String
  /-- A conversion without a letter. -/
  missing : String → String
  invalid : String → String
  /-- Whether flags that a conversion has no use for are refused. -/
  strict : Bool := false

inductive FormatEvent where
  | output (s : String)
  | complaint (s : String)

/-- A format in the course of being written out. -/
structure FormatRun where
  args : List String
  /-- Newest first. -/
  events : List FormatEvent := []
  failed : Bool := false
  /-- Whether nothing more is written. -/
  stopped : Bool := false
  /-- Whether the format is a mistake. -/
  broken : Bool := false
  /-- Whether an argument was asked for. -/
  asked : Bool := false

namespace FormatRun

def write (r : FormatRun) (s : String) : FormatRun :=
  { r with events := .output s :: r.events }

def complain (r : FormatRun) (s : String) : FormatRun :=
  { r with events := .complaint s :: r.events, failed := true }

def next (r : FormatRun) : Option String × FormatRun :=
  match r.args with
  | [] => (none, { r with asked := true })
  | a :: rest => (some a, { r with args := rest, asked := true })

def refuse (r : FormatRun) (s : String) : FormatRun :=
  { r.complain s with stopped := true, broken := true }

end FormatRun

/-! ## Arguments as numbers -/

/-- The whole number at the front of a text, and what follows it: after `0x` in base 16, after `0`
in base 8. No number reads as zero with everything following. -/
def readWhole (s : String) : Int × List Char :=
  let cs := s.toList.dropWhile isSpace
  let (negative, ds) := match cs with
    | '-' :: ds => (true, ds)
    | '+' :: ds => (false, ds)
    | ds => (false, ds)
  let digitsIn (base : Nat) (ds : List Char) : Nat × List Char :=
    let taken := ds.takeWhile fun c => Real.digitOf c < base
    (taken.foldl (fun n c => n * base + Real.digitOf c) 0, ds.drop taken.length)
  let (n, rest) := match ds with
    | '0' :: x :: d :: more =>
      if (x = 'x' || x = 'X') && isHexadecimal d then digitsIn 16 (d :: more) else digitsIn 8 ds
    | '0' :: _ => digitsIn 8 ds
    | ds => digitsIn 10 ds
  if ds.length = rest.length then (0, s.toList)
  else (if negative then -n else n, rest)

/-- The number that the next argument stands for: a quotation mark and a character stand for the
code of the character. -/
def nextNumber {α : Type} [Inhabited α] (d : FormatDialect) (read : String → α × List Char × Bool)
    (ofCode : Nat → α) (r : FormatRun) : α × FormatRun :=
  match r.next with
  | (none, r) => (ofCode 0, r)
  | (some s, r) =>
    match s.toList with
    | '"' :: c :: _ | '\'' :: c :: _ => (ofCode c.toNat, r)
    | _ =>
      if s = "" || (!d.strict && (s = "'" || s = "\"")) then (ofCode 0, r)
      else
        let (n, rest, inRange) := read s
        if !rest.isEmpty then
          (n, r.complain (if rest.length = s.length then d.notNumber s else d.notWhole s))
        else if !inRange then (n, r.complain (d.outOfRange s))
        else (n, r)

def greatestSigned : Int := UInt64.size / 2 - 1

def nextSigned (d : FormatDialect) (r : FormatRun) : Int × FormatRun :=
  nextNumber d (fun s =>
    let (n, rest) := readWhole s
    let m := max (-greatestSigned - 1) (min greatestSigned n)
    (m, rest, m = n)) (fun c => (c : Int)) r

/-- A number of 64 bits without a sign; negative ones are counted down from the end. -/
def nextUnsigned (d : FormatDialect) (r : FormatRun) : Nat × FormatRun :=
  nextNumber d (fun s =>
    let (n, rest) := readWhole s
    if (UInt64.size : Int) ≤ n.natAbs then (UInt64.size - 1, rest, false)
    else ((n % UInt64.size).toNat, rest, true)) (fun c => c) r

def nextReal (d : FormatDialect) (r : FormatRun) : Real × FormatRun :=
  nextNumber d (fun s =>
    match Real.read? (s.toList.dropWhile isSpace) with
    | some (x, rest) =>
      let rounded := x.rounded d.precision
      let inRange := match x, rounded with
        | .finite _, .infinite _ => false
        | _, _ => true
      (rounded, rest, inRange)
    | none => (.finite { num := 0 }, s.toList, true)) (fun c => .finite { num := c }) r

/-! ## Conversions -/

def takeLayout (d : FormatDialect) (c : Conversion) (r : FormatRun) : Layout × FormatRun :=
  let (layout, r) :=
    if c.widthGiven then
      let (n, r) := nextSigned d r
      (c.layout.setWidth n, r)
    else (c.layout, r)
  if c.precisionGiven then
    let (n, r) := nextSigned d r
    ({ layout with precision := if n < 0 then none else some n.toNat }, r)
  else (layout, r)

def hasUselessFlags (c : Conversion) (letter : Char) : Bool :=
  let l := c.layout
  if letter = 's' || letter = 'c' || letter = 'b' || letter = 'q' then
    l.zero || l.alternate || (letter = 'c' && c.hasPrecision)
  else if letter = 'd' || letter = 'i' || letter = 'u' then l.alternate
  else false

def convert (d : FormatDialect) (c : Conversion) (r : FormatRun) : FormatRun :=
  let (l, r) := takeLayout d c r
  match c.letter with
  | none => r.refuse (d.missing c.source)
  | some letter =>
    if d.strict && hasUselessFlags c letter then r.refuse (d.invalid c.source)
    else if letter = 's' then
      let (s, r) := r.next
      r.write (l.text (s.getD ""))
    else if letter = 'b' then
      let (s, r) := r.next
      let (text, stop) := d.argumentEscapes.expand (s.getD "")
      { r.write (l.text text) with stopped := stop }
    else if letter = 'c' then
      let (s, r) := r.next
      r.write ({ l with precision := none }.text (String.ofList [((s.getD "").toList.head?.getD '\x00')]))
    else if letter = 'd' || letter = 'i' then
      let (n, r) := nextSigned d r
      r.write (l.integer n)
    else if letter = 'u' || letter = 'o' || letter = 'x' || letter = 'X' then
      let base := if letter = 'u' then 10 else if letter = 'o' then 8 else 16
      let (n, r) := nextUnsigned d r
      r.write (l.natural base (letter = 'X') n)
    else if "eEfFgG".toList.contains letter then
      let (x, r) := nextReal d r
      r.write (l.real letter x)
    else match d.quote, letter with
      | some quote, 'q' =>
        let (s, r) := r.next
        r.write (l.text (quote (s.getD "")))
      | _, _ => r.refuse (d.invalid c.source)

/-- Writes a format once; `fuel` is its length. -/
def writeFormat (d : FormatDialect) : Nat → List Char → FormatRun → FormatRun
  | 0, _, r => r
  | _, [], r => r
  | fuel + 1, '\\' :: cs, r =>
    match d.escapes.read cs with
    | .stop => { r with stopped := true }
    | .char c rest => writeFormat d fuel rest (r.write (String.ofList [c]))
    | .plain => writeFormat d fuel cs (r.write "\\")
  | fuel + 1, '%' :: '%' :: cs, r => writeFormat d fuel cs (r.write "%")
  | fuel + 1, '%' :: cs, r =>
    let (c, rest) := Conversion.read d.sizes cs
    let r := convert d c r
    if r.stopped then r else writeFormat d fuel rest r
  | fuel + 1, c :: cs, r => writeFormat d fuel cs (r.write (String.ofList [c]))

/-- Writes a format until no argument is left; each round but the first takes an argument. -/
def writeRounds (d : FormatDialect) (format : List Char) : Nat → FormatRun → FormatRun
  | 0, r => r
  | rounds + 1, r =>
    let before := r.args.length
    let r := writeFormat d format.length format r
    if r.stopped || r.args.isEmpty || r.args.length = before then r
    else writeRounds d format rounds r

def FormatDialect.run (d : FormatDialect) (format : String) (args : List String) : FormatRun :=
  writeRounds d format.toList (args.length + 1) { args }

end ModularBuild.Text
