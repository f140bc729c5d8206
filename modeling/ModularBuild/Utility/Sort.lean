import ModularBuild.Number.Fraction
import ModularBuild.Text.VersionOrder
import ModularBuild.Utility.Input

/-!
# Sorting

Lines are put in order by keys, which are stretches of them: as text, as numbers of several kinds, as
months, or as versions. Lines whose keys are all the same come in the order of their bytes.
-/

namespace ModularBuild.Utility

open Text

/-! ## Keys -/

structure KeyOrder where
  numeric : Bool := false
  general : Bool := false
  human : Bool := false
  month : Bool := false
  version : Bool := false
  random : Bool := false
  /-- Whether only letters, digits and blanks count. -/
  dictionary : Bool := false
  /-- Whether only characters that are shown count. -/
  shown : Bool := false
  folds : Bool := false
  skipsStart : Bool := false
  skipsEnd : Bool := false
  reversed : Bool := false
deriving DecidableEq

/-- A key: where it begins and where it ends, in fields and in characters. -/
structure SortKey where
  /-- The number of fields before the key, and of characters; none if the key is the whole line. -/
  start : Option (Nat × Nat) := none
  /-- The number of fields before the end, and the number of characters of the last field that belong
  to the key, zero meaning all of them; none if the key goes on to the end of the line. -/
  stop : Option (Nat × Nat) := none
  order : KeyOrder := {}

/-- Adds what a letter says; none if it says nothing. -/
def KeyOrder.add? (o : KeyOrder) (c : Char) (atStart : Bool := true) (atEnd : Bool := true) :
    Option KeyOrder :=
  match c with
  | 'b' => some { o with skipsStart := o.skipsStart || atStart, skipsEnd := o.skipsEnd || atEnd }
  | 'd' => some { o with dictionary := true, shown := false }
  | 'f' => some { o with folds := true }
  | 'g' => some { o with general := true }
  | 'h' => some { o with human := true }
  | 'i' => some (if o.dictionary then o else { o with shown := true })
  | 'M' => some { o with month := true }
  | 'n' => some { o with numeric := true }
  | 'R' => some { o with random := true }
  | 'r' => some { o with reversed := true }
  | 'V' => some { o with version := true }
  | _ => none

def KeyOrder.isPlain (o : KeyOrder) : Bool := { o with reversed := false } = {}

def KeyOrder.takeLetters (o : KeyOrder) (atStart : Bool) : List Char → KeyOrder × List Char
  | [] => (o, [])
  | c :: cs =>
    match o.add? c atStart (!atStart) with
    | some o => o.takeLetters atStart cs
    | none => (o, c :: cs)

/-- The letters of kinds that do not go together; none if all do. -/
def KeyOrder.conflict? (o : KeyOrder) : Option String :=
  let mixed := o.version || o.random || o.dictionary || o.shown
  let kinds := [o.numeric, o.general, o.human, o.month, mixed].filter fun given => given
  if kinds.length ≤ 1 then none
  else
    let letters := [('d', o.dictionary), ('f', o.folds), ('g', o.general), ('h', o.human),
      ('i', o.shown), ('M', o.month), ('n', o.numeric), ('R', o.random), ('V', o.version)]
    some (String.ofList ((letters.filter (·.2)).map (·.1)))

def readKey (s : String) : Except String SortKey := do
  let bad (what : String) : String := s!"{what}: invalid field specification {inSingleQuotes s}"
  let number (what : String) (cs : List Char) : Except String (Nat × List Char) :=
    let ds := cs.takeWhile Char.isDigit
    if ds.isEmpty then
      throw s!"{what}: invalid count at start of {inSingleQuotes (String.ofList cs)}"
    else return ((String.ofList ds).toNat?.getD 0, cs.drop ds.length)
  let (field, rest) ← number "invalid number at field start" s.toList
  if field = 0 then throw (bad "field number is zero")
  let (char, rest) ← match rest with
    | '.' :: rest =>
      let (n, rest) ← number "invalid number after '.'" rest
      if n = 0 then throw (bad "character offset is zero")
      pure (n, rest)
    | rest => pure (1, rest)
  let start := if field = 1 && char = 1 then none else some (field - 1, char - 1)
  let (order, rest) := ({} : KeyOrder).takeLetters true rest
  match rest with
  | ',' :: rest =>
    let (last, rest) ← number "invalid number after ','" rest
    if last = 0 then throw (bad "field number is zero")
    let (chars, rest) ← match rest with
      | '.' :: rest => number "invalid number after '.'" rest
      | rest => pure (0, rest)
    let (order, rest) := order.takeLetters false rest
    if !rest.isEmpty then throw (bad "stray character in field spec")
    return { start, stop := some (last - 1, chars), order }
  | [] => return { start, order }
  | _ => throw (bad "stray character in field spec")

def isBlankChar (c : Char) : Bool := c = ' ' || c = '\t' || c = '\n'

/-- A line without some fields at its front, the blanks before the next one included. -/
def dropFields (tab : Option Char) : Nat → List Char → List Char
  | 0, cs => cs
  | n + 1, cs =>
    match tab with
    | some t => dropFields tab n ((cs.dropWhile (· ≠ t)).drop 1)
    | none => dropFields tab n ((cs.dropWhile isBlankChar).dropWhile (!isBlankChar ·))

def dropField (tab : Option Char) (cs : List Char) : List Char :=
  match tab with
  | some t => cs.dropWhile (· ≠ t)
  | none => (cs.dropWhile isBlankChar).dropWhile (!isBlankChar ·)

def SortKey.stretch (k : SortKey) (tab : Option Char) (line : List Char) : List Char :=
  let begun := match k.start with
    | none => if k.order.skipsStart then line.dropWhile isBlankChar else line
    | some (fields, chars) =>
      let rest := dropFields tab fields line
      (if k.order.skipsStart then rest.dropWhile isBlankChar else rest).drop chars
  match k.stop with
  | none => begun
  | some (fields, chars) =>
    let rest := dropFields tab fields line
    let after :=
      if chars = 0 then dropField tab rest
      else (if k.order.skipsEnd then rest.dropWhile isBlankChar else rest).drop chars
    begun.take (begun.length - after.length)

/-! ## Values of keys -/

inductive KeyValue where
  | text (s : String)
  /-- A rank, and a number among those of the same rank. -/
  | number (rank : Int) (f : Fraction)
  | version (s : String)

def KeyValue.compare (a b : KeyValue) : Ordering :=
  match a, b with
  | .text s, .text t => Ord.compare s t
  | .number r f, .number q g =>
    (Ord.compare r q).then (Ord.compare (f.signed * g.den) (g.signed * f.den))
  | .version s, .version t => compareVersions s t
  | _, _ => .eq

/-- A number with decimal places at the front of a text, and what follows it. -/
def takeDecimal (cs : List Char) : Fraction × List Char :=
  let cs := cs.dropWhile isBlankChar
  let (negative, cs) := match cs with
    | '-' :: rest => (true, rest)
    | cs => (false, cs)
  let whole := cs.takeWhile Char.isDigit
  let rest := cs.drop whole.length
  let (places, rest) := match rest with
    | '.' :: more =>
      let places := more.takeWhile Char.isDigit
      (places, more.drop places.length)
    | rest => ([], rest)
  let num := (whole ++ places).foldl (fun n c => n * 10 + Real.digitOf c) 0
  ({ negative, num, den := Fraction.tenTo places.length }, rest)

def monthNames : List String :=
  ["JAN", "FEB", "MAR", "APR", "MAY", "JUN", "JUL", "AUG", "SEP", "OCT", "NOV", "DEC"]

def KeyOrder.valueOf (o : KeyOrder) (cs : List Char) : KeyValue :=
  let kept := if o.dictionary then cs.filter fun c => c.isAlphanum || isBlankChar c
    else if o.shown then cs.filter isShown
    else cs
  let kept := if o.folds then kept.map Char.toUpper else kept
  if o.numeric then .number 0 (takeDecimal kept).1
  else if o.general then
    match Real.read? (kept.dropWhile isSpace) with
    | none => .number (-3) { num := 0 }
    | some (.undefined _, _) => .number (-2) { num := 0 }
    | some (.infinite negative, _) => .number (if negative then -1 else 1) { num := 0 }
    | some (.finite f, _) => .number 0 f
  else if o.human then
    let (f, rest) := takeDecimal kept
    let units := "KMGTPEZYRQ".toList
    let order := match rest with
      | c :: _ => (units.idxOf? (if c = 'k' then 'K' else c)).elim 0 (· + 1)
      | [] => 0
    let order : Int := if f.num = 0 then 0 else if f.negative then -order else order
    .number order f
  else if o.month then
    let name := String.ofList (((kept.dropWhile isBlankChar).take 3).map Char.toUpper)
    .number ((monthNames.idxOf? name).elim 0 (· + 1)) { num := 0 }
  else if o.version then .version (String.ofList kept)
  else .text (String.ofList kept)

structure SortLine where
  text : String
  values : List KeyValue

structure SortMode where
  keys : List SortKey
  tab : Option Char
  /-- Whether lines whose keys are the same are left in their order. -/
  stable : Bool
  unique : Bool
  reversed : Bool

def SortMode.line (m : SortMode) (text : String) : SortLine :=
  let cs := text.toList
  ⟨text, m.keys.map fun k => k.order.valueOf (k.stretch m.tab cs)⟩

def turned (reversed : Bool) (o : Ordering) : Ordering := if reversed then o.swap else o

def SortMode.compare (m : SortMode) (a b : SortLine) : Ordering :=
  let byKeys := (m.keys.zip (a.values.zip b.values)).foldl (fun o (k, x, y) =>
    o.then (turned k.order.reversed (x.compare y))) .eq
  if byKeys ≠ .eq then byKeys
  else if !m.keys.isEmpty && (m.unique || m.stable) then .eq
  else turned m.reversed (Ord.compare a.text b.text)

def SortMode.distinct (m : SortMode) (lines : List SortLine) : List SortLine :=
  (lines.foldl (fun (kept : List SortLine) l =>
    match kept with
    | k :: _ => if m.compare k l = .eq then kept else l :: kept
    | [] => [l]) []).reverse

/-- Merges lines that are taken to be in order; `fuel` is the number of all of them. -/
def SortMode.merge (m : SortMode) : Nat → List (List SortLine) → List SortLine
  | 0, _ => []
  | fuel + 1, sources =>
    let best := sources.zipIdx.foldl (fun (best : Option (SortLine × Nat)) (ls, i) =>
      match ls, best with
      | l :: _, none => some (l, i)
      | l :: _, some (k, _) => if m.compare l k = .lt then some (l, i) else best
      | [], _ => best) none
    match best with
    | none => []
    | some (l, i) => l :: m.merge fuel (sources.modify i (·.drop 1))

/-! ## The utility -/

def sortOptions : List OptionSpec :=
  [option 'b' "ignore-leading-blanks", option 'd' "dictionary-order", option 'f' "ignore-case",
    option 'g' "general-numeric-sort", option 'h' "human-numeric-sort",
    option 'i' "ignore-nonprinting", option 'M' "month-sort", option 'n' "numeric-sort",
    option 'R' "random-sort", option 'r' "reverse", option 'V' "version-sort",
    option 'c' "check" .optional, letter 'C', option 'k' "key" .required, option 'm' "merge",
    option 'o' "output" .required, option 's' "stable", option 'S' "buffer-size" .required,
    option 't' "field-separator" .required, option 'T' "temporary-directory" .required,
    option 'u' "unique", option 'z' "zero-terminated", word "parallel" .required,
    word "batch-size" .required, word "compress-program" .required, word "sort" .required,
    word "files0-from" .required, word "random-source" .required]

/-- Keys in an older form, as `+1 -2`, in the newer one. -/
def newerKeys : List String → List String
  | [] => []
  | a :: rest =>
    let position (cs : List Char) : Option (Nat × Nat × List Char) :=
      let field := cs.takeWhile Char.isDigit
      let after := cs.drop field.length
      let (char, after) := match after with
        | '.' :: more =>
          let ds := more.takeWhile Char.isDigit
          ((String.ofList ds).toNat?.getD 0, more.drop ds.length)
        | after => (0, after)
      if field.isEmpty then none else some ((String.ofList field).toNat?.getD 0, char, after)
    match a.toList with
    | '+' :: cs =>
      match position cs with
      | none => a :: newerKeys rest
      | some (field, char, letters) =>
        let start := s!"-k{field + 1}.{char + 1}" ++ String.ofList letters
        let stop (b : String) : Option String :=
          match b.toList with
          | '-' :: ds =>
            (position ds).map fun (field, char, letters) =>
              if char = 0 then s!",{field}" ++ String.ofList letters
              else s!",{field + 1}.{char}" ++ String.ofList letters
          | _ => none
        match rest with
        | b :: more =>
          match stop b with
          | some s => (start ++ s) :: newerKeys more
          | none => start :: b :: newerKeys more
        | [] => [start]
    | _ => a :: newerKeys rest

def orderLetter? (o : GivenOption) : Option Char :=
  let words := [("ignore-leading-blanks", 'b'), ("dictionary-order", 'd'), ("ignore-case", 'f'),
    ("general-numeric-sort", 'g'), ("human-numeric-sort", 'h'), ("ignore-nonprinting", 'i'),
    ("month-sort", 'M'), ("numeric-sort", 'n'), ("random-sort", 'R'), ("reverse", 'r'),
    ("version-sort", 'V')]
  if o.key = "sort" then o.value.bind fun s => words.lookup (s ++ "-sort") else words.lookup o.key

def fieldSeparator (a : Arguments) : UtilityM (Option Char) := do
  match a.value? "field-separator" with
  | none => return none
  | some s =>
    match s.toList with
    | [] => fail "empty tab"
    | [c] => return some c
    | ['\\', '0'] => return some '\x00'
    | _ => fail s!"multi-character tab {inSingleQuotes s}"

def sortMode (a : Arguments) : UtilityM SortMode := do
  let whole := (a.options.filterMap orderLetter?).foldl (fun o c => (o.add? c).getD o) {}
  let given ← (a.values "key").mapM fun s => do
    match readKey s with
    | .ok k => return k
    | .error e => fail e
  let tab ← fieldSeparator a
  let keys : List SortKey :=
    if given.isEmpty then (if whole.isPlain then [] else [{ order := whole }])
    else given.map fun k => if k.order = {} then { k with order := whole } else k
  for k in keys do
    if let some letters := k.order.conflict? then fail s!"options '-{letters}' are incompatible"
  return {
    keys, tab, stable := a.has "stable", unique := a.has "unique", reversed := whole.reversed }

def checkOrder (m : SortMode) (quiet : Bool) (name : String) (lines : List SortLine) :
    UtilityM Nat := do
  let isWrong (a b : SortLine) : Bool :=
    match m.compare a b with
    | .gt => true
    | .eq => m.unique
    | .lt => false
  match ((lines.zip (lines.drop 1)).zipIdx 2).find? fun ((a, b), _) => isWrong a b with
  | none => return 0
  | some ((_, b), n) =>
    unless quiet do complain s!"{nameInMessage name}:{n}: disorder: {b.text}"
    return 1

def sort : Utility := fun args => do
  let a ← arguments sortOptions (newerKeys args)
  let m ← sortMode a
  let ending := if a.has "zero-terminated" then '\x00' else '\n'
  let checks := a.has "check" || a.has "C"
  let quiet := a.has "C" || (a.value? "check").any fun s => s = "quiet" || s = "silent"
  if checks then
    if let extra :: _ := a.operands.drop 1 then
      complain (s!"extra operand {inSingleQuotes extra} not allowed with " ++
        (if quiet then "-C" else "-c"))
      quit 2
  for name in a.inputs do
    unless name = "-" do
      match ← lookup name with
      | .error e => fail s!"cannot read: {nameInMessage name}: {e.name}"
      | .ok (_, e) =>
        if !e.mayRead then
          fail s!"cannot read: {nameInMessage name}: {FileError.name .permission}"
  let read (name : String) : UtilityM (List SortLine) := do
    match ← readNamed name with
    | .ok text => return (linesOf text ending).map m.line
    | .error e =>
      if name = "-" && e = .badDescriptor then fail s!"stat failed: -: {e.name}"
      else fail s!"read failed: {nameInMessage name}: {e.name}"
  if checks then
    let name := a.inputs.headD "-"
    return ← checkOrder m quiet name (← read name)
  if let some out := a.value? "output" then
    if let .error e ← openNamed out { writes := true, creates := true } then
      fail s!"open failed: {nameInMessage out}: {e.name}"
  let sources ← a.inputs.mapM read
  let all := sources.flatten
  let sorted :=
    if a.has "merge" then m.merge all.length sources
    else all.mergeSort fun x y => (m.compare x y).isLE
  let sorted := if m.unique then m.distinct sorted else sorted
  let text := String.join (sorted.map fun l => l.text.push ending)
  match a.value? "output" with
  | none =>
    say text
    if let some e ← lostOutput then
      complain s!"fflush failed: 'standard output': {e.name}"
      fail "write error"
  | some out =>
    match ← openNamed out .write with
    | .ok i => discard <| writeOpened i text
    | .error e => fail s!"open failed: {nameInMessage out}: {e.name}"
  return 0

end ModularBuild.Utility
