import ModularBuild.Number.Layout
import ModularBuild.Utility.Input

/-!
# Dumps

`od` shows the bytes of files in rows: as numbers of some size and base, or as characters. Several
ways of showing them stand below each other, with fields that line up.
-/

namespace ModularBuild.Utility

open Text

inductive DumpKind where
  | named
  | character
  | signed
  | unsigned
  | octal
  | hexadecimal
  | real
deriving DecidableEq

structure DumpFormat where
  kind : DumpKind
  /-- The number of bytes of a field. -/
  size : Nat := 1
  /-- Whether the row ends with its characters. -/
  trailer : Bool := false

namespace DumpFormat

def width (f : DumpFormat) : Nat :=
  let bits := 8 * f.size
  match f.kind with
  | .named | .character => 3
  | .signed => (toString (Nat.pow 2 (bits - 1))).length + 1
  | .unsigned => (toString (Nat.pow 2 bits - 1)).length
  | .octal => (bits + 2) / 3
  | .hexadecimal => bits / 4
  | .real => if f.size = 4 then 15 else 24

def controlNames : List String :=
  ["nul", "soh", "stx", "etx", "eot", "enq", "ack", "bel", "bs", "ht", "nl", "vt", "ff", "cr",
    "so", "si", "dle", "dc1", "dc2", "dc3", "dc4", "nak", "syn", "etb", "can", "em", "sub", "esc",
    "fs", "gs", "rs", "us", "sp"]

def characterText (c : Char) : String :=
  if c = '\x00' then "\\0"
  else match escapeLetter? c with
    | some e => String.ofList ['\\', e]
    | none => if isShown c then String.ofList [c] else numeral 8 3 c.toNat

def realOf (b : BinaryFormat) (bits : Nat) (n : Nat) : Real :=
  let mantissaBits := b.bits - 1
  let mantissa := n % Nat.pow 2 mantissaBits
  let exponent := n / Nat.pow 2 mantissaBits % Nat.pow 2 (bits - b.bits)
  let negative := n / Nat.pow 2 (bits - 1) = 1
  if exponent = Nat.pow 2 (bits - b.bits) - 1 then
    if mantissa = 0 then .infinite negative else .undefined negative
  else
    let m := if exponent = 0 then mantissa else mantissa + Nat.pow 2 mantissaBits
    .finite (Fraction.shifted { negative, num := m } (b.least + (max exponent 1 - 1 : Nat)))

/-- The fewest digits that read back as the number, at least so many. -/
def shortest (b : BinaryFormat) (f : Fraction) (most : Nat) : Nat → Nat → String
  | 0, digits => Real.generalText f digits false false
  | fuel + 1, digits =>
    let text := Real.generalText f digits false false
    let back := match (Real.read? text.toList).map fun r => r.1.rounded b with
      | some (.finite g) => g.num * f.den = f.num * g.den
      | _ => false
    if back || most ≤ digits then text else shortest b f most fuel (digits + 1)

def field (f : DumpFormat) (n : Nat) : String :=
  match f.kind with
  | .named =>
    let n := n % 128
    if n = 127 then "del" else controlNames.getD n (String.ofList [Char.ofNat n])
  | .character => characterText (Char.ofNat n)
  | .signed =>
    let all := Nat.pow 2 (8 * f.size)
    toString (if n < all / 2 then (n : Int) else (n : Int) - all)
  | .unsigned => toString n
  | .octal => numeral 8 f.width n
  | .hexadecimal => numeral 16 f.width n
  | .real =>
    let single := f.size = 4
    let b : BinaryFormat := if single then ⟨24, -149, 128⟩ else .double
    match realOf b (8 * f.size) n with
    | .finite x =>
      let normal := Nat.pow 2 (b.bits - 1) ≤ (x.shifted (-b.least)).num / (x.shifted (-b.least)).den
      let most := if single then 9 else 17
      let start := if !normal then 1 else if single then 6 else 15
      (if x.negative then "-" else "") ++ shortest b x most most start
    | r => ({} : Layout).real 'g' r

def valueOf (cs : List Char) : Nat := cs.foldr (fun c n => c.toNat + 256 * n) 0

/-- The fields of a row, made wider by so many blanks in all. -/
def row (f : DumpFormat) (perRow pad : Nat) (cs : List Char) : String :=
  let fields := perRow / f.size
  let given := (cs.length + f.size - 1) / f.size
  let padBefore (i : Nat) : Nat := pad * (fields - i) / fields
  let shown := (List.range given).map fun i =>
    let width := 1 + f.width + (padBefore i - padBefore (i + 1))
    padLeft width (f.field (valueOf ((cs.drop (i * f.size)).take f.size)))
  let trailer := if f.trailer then
      let missing := (perRow - cs.length) / f.size * (f.width + 1)
      padLeft missing "" ++ "  >" ++ String.ofList (cs.map fun c => if isShown c then c else '.') ++ "<"
    else ""
  String.join shown ++ trailer

def sizeLetter? (real : Bool) (c : Char) : Option Nat :=
  if real then (match c with
    | 'F' => some 4
    | 'D' => some 8
    | _ => none)
  else match c with
    | 'C' => some 1
    | 'S' => some 2
    | 'I' => some 4
    | 'L' => some 8
    | _ => none

/-- Reads the formats of a type; `fuel` is its length. -/
def readTypes (whole : String) : Nat → List Char → Except String (List DumpFormat)
  | 0, _ => return []
  | _, [] => return []
  | fuel + 1, c :: cs => do
    let kind ← match c with
      | 'a' => pure DumpKind.named
      | 'c' => pure .character
      | 'd' => pure .signed
      | 'u' => pure .unsigned
      | 'o' => pure .octal
      | 'x' => pure .hexadecimal
      | 'f' => pure .real
      | c =>
        throw s!"invalid character '{String.ofList [c]}' in type string {inSingleQuotes whole}"
    let (size, rest) ←
      if kind = .named || kind = .character then pure (1, cs)
      else
        let digits := cs.takeWhile Char.isDigit
        let letter? := cs.head?.bind (sizeLetter? (kind = .real))
        if let some n := letter? then pure (n, cs.drop 1)
        else if digits.isEmpty then pure (if kind = .real then 8 else 4, cs)
        else
          let n := (String.ofList digits).toNat?.getD 0
          let known := if kind = .real then [4, 8] else [1, 2, 4, 8]
          if !known.contains n then
            throw (s!"invalid type string {inSingleQuotes whole};\nthis system doesn't provide a " ++
              s!"{n}-byte " ++ (if kind = .real then "floating point" else "integral") ++ " type")
          pure (n, cs.drop digits.length)
    let (trailer, rest) := match rest with
      | 'z' :: rest => (true, rest)
      | rest => (false, rest)
    return { kind, size, trailer } :: (← readTypes whole fuel rest)

end DumpFormat

def dumpLetters : List (Char × String) :=
  [('a', "a"), ('b', "o1"), ('c', "c"), ('d', "u2"), ('f', "fF"), ('h', "x2"), ('i', "dI"),
    ('l', "dL"), ('o', "o2"), ('s', "d2"), ('x', "x2"), ('e', "fD"), ('B', "o2"), ('D', "u4"),
    ('F', "fD"), ('H', "x4"), ('I', "dL"), ('L', "dL"), ('O', "o4"), ('X', "x4")]

def odOptions : List OptionSpec :=
  [option 'A' "address-radix" .required, option 'j' "skip-bytes" .required,
    option 'N' "read-bytes" .required, option 't' "format" .required,
    option 'v' "output-duplicates", option 'w' "width" .optional, word "endian" .required]
    ++ dumpLetters.map fun (c, _) => letter c

def addressText (radix : String) (n : Nat) : UtilityM String :=
  match radix with
  | "d" => return padLeft 7 (toString n) '0'
  | "o" => return numeral 8 7 n
  | "x" => return numeral 16 6 n
  | "n" => return ""
  | _ => fail (s!"invalid output address radix {inSingleQuotes radix}; " ++
      "it must be one character from [doxn]")

/-- Writes the rows; one that is the same as the one before it becomes a star, once. -/
def dumpRows (formats : List DumpFormat) (radix : String) (perRow : Nat) (all : Bool) :
    Nat → Nat → List Char → List Char → Bool → UtilityM Unit
  | 0, _, _, _, _ => return ()
  | fuel + 1, place, before, cs, starred => do
    let now := cs.take perRow
    if now.isEmpty then
      if radix ≠ "n" then sayLine (← addressText radix place)
    else if !all && now.length = perRow && now = before then
      if !starred then sayLine "*"
      dumpRows formats radix perRow all fuel (place + perRow) before (cs.drop perRow) true
    else
      let widest := formats.foldl (fun n f => max n ((f.width + 1) * (perRow / f.size))) 0
      let address ← addressText radix place
      for (f, i) in formats.zipIdx do
        let pad := widest - (f.width + 1) * (perRow / f.size)
        let start := if i = 0 then address else padLeft address.length ""
        sayLine (start ++ f.row perRow pad now)
      dumpRows formats radix perRow all fuel (place + now.length) now (cs.drop perRow) false

def od : Utility := fun args => do
  let a ← arguments odOptions args
  let number (key letter : String) : UtilityM (Option Nat) := do
    match a.value? key with
    | none => return none
    | some s =>
      match sizeOf s with
      | .ok n => return some n
      | .error .invalid => fail s!"invalid -{letter} argument {inSingleQuotes s}"
      | .error .tooLarge => fail s!"-{letter} argument {inSingleQuotes s} too large"
  let radix := String.ofList (((a.value? "address-radix").getD "o").toList.take 1)
  discard <| addressText radix 0
  let skipped ← number "skip-bytes" "j"
  let limit ← number "read-bytes" "N"
  let types := a.options.filterMap fun o =>
    if o.key = "format" then o.value
    else match o.key.toList with
      | [c] => dumpLetters.lookup c
      | _ => none
  let formats ← (if types.isEmpty then ["o2"] else types).mapM fun s => do
    match DumpFormat.readTypes s (s.length + 1) s.toList with
    | .ok fs => return fs
    | .error e => fail e
  let formats := formats.flatten
  let unit := formats.foldl (fun n f => max n f.size) 1
  let perRow ← match a.options.find? (·.key = "width") with
    | none => pure 16
    | some { value := none, .. } => pure 32
    | some { value := some s, .. } =>
      let n := s.toNat?.getD 0
      if n = 0 || n % unit ≠ 0 then
        complain s!"warning: invalid width {n}; using {unit} instead"
        pure unit
      else pure n
  let complaint (name : String) (e : FileError) : UtilityM Unit := do
    if name ≠ "-" then complainOf name e
    else
      complain s!"'standard input': {e.name}"
      if e = .badDescriptor then complain s!"standard input: {e.name}"
  let (texts, code) ← readInputs a.inputs complaint
  let cs := (String.join (texts.map (·.2))).toList
  let skip := skipped.getD 0
  if code ≠ 0 && texts.isEmpty && !a.inputs.contains "-" then
    unless ← a.inputs.anyM isDirectory do return code
  if cs.length < skip then fail "cannot skip past end of combined input"
  let cs := cs.drop skip
  let cs := match limit with
    | some n => cs.take n
    | none => cs
  dumpRows formats radix perRow (a.has "output-duplicates") (cs.length + 1) skip [] cs false
  return code

end ModularBuild.Utility
