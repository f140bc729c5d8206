import ModularBuild.Number.Layout
import ModularBuild.Utility.Lines

/-!
# Comparing files byte by byte

`cmp` tells where two files differ for the first time, or all bytes that differ, or only whether
they do. Parts at their start can be left out, and the number of bytes limited.
-/

namespace ModularBuild.Utility

open Text

/-! ## Arguments -/

def refuseNamed {α : Type} (message : String) : UtilityM α := do
  complain message
  complain s!"Try '{← programName} --help' for more information."
  quit (← read).failure

/-- Takes arguments apart; advice stands under the name of the utility. -/
def argumentsNamed (specs : List OptionSpec) (args : List String) : UtilityM Arguments := do
  match takeArguments (specs ++ usualOptions) false (args.length + 1) args with
  | .error message => refuseNamed message
  | .ok a => if ["help", "version", "v"].any a.has then quit 0 else return a

/-- A number of bytes at the front of a text, with a unit, and what follows it. -/
def takeByteCount (cs : List Char) : Option (Nat × List Char) :=
  let (base, cs) := match cs with
    | '0' :: 'x' :: more | '0' :: 'X' :: more => (16, more)
    | '0' :: more => (8, '0' :: more)
    | _ => (10, cs)
  let digitOf (c : Char) : Option Nat :=
    ("0123456789abcdef".toList.take base).findIdx? (· = c.toLower)
  let digits := cs.takeWhile fun c => (digitOf c).isSome
  let rest := cs.drop digits.length
  let power? (c : Char) : Option Nat := if c = 'm' then none else unitPower? c
  let unit : Option (Nat × List Char) := match rest with
    | c :: 'i' :: 'B' :: more => (power? c).map fun p => (Nat.pow 1024 p, more)
    | c :: 'B' :: more => (power? c).map fun p => (Nat.pow 1000 p, more)
    | c :: more => (power? c).map fun p => (Nat.pow 1024 p, more)
    | [] => none
  let number := digits.foldl (fun n c => n * base + (digitOf c).getD 0) 0
  match unit with
  | some (factor, more) => some (if digits.isEmpty then factor else number * factor, more)
  | none => if digits.isEmpty then none else some (number, rest)

def skippedBytes (given : String) : UtilityM (Nat × Nat) := do
  let invalid (cs : List Char) : UtilityM (Nat × Nat) :=
    refuseNamed s!"invalid --ignore-initial value '{String.ofList cs}'"
  match takeByteCount given.toList with
  | some (n, []) => return (n, n)
  | some (n, ':' :: more) =>
    match takeByteCount more with
    | some (k, []) => return (n, k)
    | _ => invalid more
  | _ => invalid given.toList

/-! ## Comparing -/

inductive CmpReport where
  | first
  | all
  /-- Nothing but which file is shorter. -/
  | ends
  | nothing
deriving DecidableEq

structure CmpFile where
  name : String
  opened : Option Nat
  /-- Whether its size is known. -/
  isRegular : Bool

def commonLength : List Char → List Char → Nat
  | a :: as, b :: bs => if a = b then commonLength as bs + 1 else 0
  | _, _ => 0

def byteInOctal (c : Char) : String := padLeft 3 (numeral 8 1 c.toNat)

def byteShown (c : Char) : String :=
  String.ofList <| if c = '\n' then ['^', 'J'] else if c = '\t' then ['^', 'I'] else visibleChar c

/-- A file as `cmp` opens it. -/
def openForCmp (silent : Bool) (name : String) : UtilityM CmpFile := do
  let opened ← if name = "-" then pure ((← context).descriptors.find? 0)
    else match ← openNamed name .read with
      | .ok i => pure (some i)
      | .error e => if silent then quit 2 else fail s!"{name}: {e.name}"
  let m := (← get).machine
  let isRegular := (opened.bind (m.opened[·]?)).any fun o => o.target matches .file _
  return { name, opened, isRegular }

/-- What `cmp` reads of a file. -/
def CmpFile.text (f : CmpFile) : UtilityM (List Char) := do
  let bytes ← match f.opened with
    | none => pure (.error FileError.badDescriptor)
    | some i => onMachine (Machine.readAll i)
  match bytes with
  | .ok bytes => return (ByteText.ofBytes bytes).toList
  | .error e => fail s!"{f.name}: {e.name}"

def areOneFile (a b : CmpFile) : UtilityM Bool := do
  let m := (← get).machine
  match a.opened.bind (m.opened[·]?), b.opened.bind (m.opened[·]?) with
  | some { target := .file k, offset := x, .. }, some { target := .file l, offset := y, .. } =>
    let twin? (l : Location) : Option Nat := (m.files.at? l).bind (·.twin)
    return x = y && (k = l || ((twin? k).isSome && twin? k = twin? l))
  | _, _ => return false

def printsNowhere : UtilityM Bool := do
  let m := (← get).machine
  match (← context).descriptors.find? 1 with
  | none => return true
  | some i =>
    return (m.opened[i]?).any (·.target = .device .null)

/-- The lines for bytes that differ, with their numbers from `n` on. -/
def differingBytes (width : Nat) (shows : Bool) : Nat → List Char → List Char → List String
  | n, a :: as, b :: bs =>
    let more := differingBytes width shows (n + 1) as bs
    if a = b then more
    else
      let first := if shows then padRight 4 (byteShown a) ++ " " else ""
      let second := if shows then " " ++ byteShown b else ""
      s!"{padLeft width (toString n)} {byteInOctal a} {first}{byteInOctal b}{second}" :: more
  | _, _, _ => []

def compareTexts (report : CmpReport) (shows : Bool) (width : Nat) (first second : String)
    (as bs : List Char) : UtilityM Nat := do
  let n := commonLength as bs
  let shared := as.take n
  let line := (shared.filter (· = '\n')).length + 1
  let shorter := if bs.length < as.length then second else first
  let ended (after : Nat) : String :=
    if after = 0 then s!"cmp: EOF on {shorter} which is empty\n"
    else
      let place := if report ≠ .first then ""
        else if shared.getLast? = some '\n' then s!", line {line - 1}" else s!", in line {line}"
      s!"cmp: EOF on {shorter} after byte {after}{place}\n"
  let tellEnd (after : Nat) : UtilityM Unit := do
    flush
    writeError (ended after)
  match as.drop n, bs.drop n with
  | [], [] => return 0
  | a :: _, b :: _ =>
    match report with
    | .first =>
      if shows then
        sayLine (s!"{first} {second} differ: byte {n + 1}, line {line} is " ++
          s!"{byteInOctal a} {byteShown a} {byteInOctal b} {byteShown b}")
      else sayLine s!"{first} {second} differ: char {n + 1}, line {line}"
    | .all =>
      for l in differingBytes width shows (n + 1) (as.drop n) (bs.drop n) do sayLine l
      if as.length ≠ bs.length then tellEnd (min as.length bs.length)
    | .ends | .nothing => pure ()
    return 1
  | _, _ =>
    if report ≠ .nothing then tellEnd n
    return 1

def cmpOptions : List OptionSpec :=
  [option 'b' "print-bytes", letter 'c', word "print-chars", option 'i' "ignore-initial" .required,
    option 'l' "verbose", option 'n' "bytes" .required, option 's' "quiet", word "silent",
    letter 'v']

def cmp : Utility := fun args => do
  let a ← argumentsNamed cmpOptions args
  let silent := a.has "quiet" || a.has "silent"
  if silent && a.has "verbose" then refuseNamed "options -l and -s are incompatible"
  let skipped ← (a.values "ignore-initial").mapM skippedBytes
  let limits ← (a.values "bytes").mapM fun s => do
    match takeByteCount s.toList with
    | some (n, []) => pure n
    | _ => refuseNamed s!"invalid --bytes value '{s}'"
  let greatest (f : Nat × Nat → Nat) : Nat := (skipped.map f).foldl max 0
  let (first, rest) ← match a.operands with
    | [] => refuseNamed s!"missing operand after '{args.getLast?.getD (← programName)}'"
    | first :: rest => pure (first, rest)
  let second := rest.headD "-"
  let skipOf (i : Nat) : UtilityM Nat := do
    match rest[i]? with
    | none => return 0
    | some s =>
      match takeByteCount s.toList with
      | some (n, []) => return n
      | _ => refuseNamed s!"invalid --ignore-initial value '{s}'"
  let firstSkip := max (greatest (·.1)) (← skipOf 1)
  let secondSkip := max (greatest (·.2)) (← skipOf 2)
  if let some extra := rest[3]? then refuseNamed s!"extra operand '{extra}'"
  let (x, y) ← if second = "-" then do
      let y ← openForCmp silent second
      pure (← openForCmp silent first, y)
    else do
      let x ← openForCmp silent first
      if first = second && firstSkip = secondSkip then return 0
      pure (x, ← openForCmp silent second)
  if firstSkip = secondSkip then
    if ← areOneFile x y then return 0
  let report ← if silent then pure CmpReport.nothing
    else if ← printsNowhere then pure .ends
    else pure (if a.has "verbose" then .all else .first)
  let limit? := limits.foldl (fun found n => some (found.elim n (min n))) none
  let cut (skip : Nat) (cs : List Char) : List Char :=
    let cs := cs.drop skip
    limit?.elim cs cs.take
  let as := cut firstSkip (← x.text)
  let bs := cut secondSkip (← y.text)
  let known := limit?.toList ++ (if x.isRegular then [as.length] else []) ++
    (if y.isRegular then [bs.length] else [])
  let width := (known.min?.map fun n => (toString n).length).getD 19
  let shows := a.has "print-bytes" || a.has "c" || a.has "print-chars"
  let code ← compareTexts report shows width first second as bs
  if code ≠ 0 && (report = .first || report = .all) then
    let called ← programName
    checkOutput fun e => s!"{called}: standard output: {e.name}\n"
  return code

end ModularBuild.Utility
