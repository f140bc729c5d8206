import ModularBuild.Utility.PathNames

/-!
# Files in blocks

`dd` copies a file block by block and changes it on the way, `split` cuts one into several files, and
`truncate` gives files a size. `mktemp` makes files with names of their own.
-/

namespace ModularBuild.Utility

open Text

/-! ## Copying blocks -/

structure BlockCopy where
  input : Option String := none
  output : Option String := none
  inputSize : Nat := 512
  outputSize : Nat := 512
  /-- Whether both sizes were given as one. -/
  single : Bool := false
  count : Option Nat := none
  skip : Nat := 0
  seek : Nat := 0
  conversions : List String := []
  status : String := ""

namespace BlockCopy

def sizeOf? (s : String) : Option Nat := do
  let factors ← (s.splitOn "x").mapM fun part => do
    match part.toList.getLast? with
    | some 'c' => (part.dropEnd 1).toString.toNat?
    | some 'w' => (part.dropEnd 1).toString.toNat?.map (2 * ·)
    | _ => if part.toList.head?.any Char.isDigit then (Utility.sizeOf part).toOption else none
  return factors.foldl (· * ·) 1

def knownConversions : List String :=
  ["ascii", "ebcdic", "ibm", "block", "unblock", "lcase", "ucase", "sparse", "swab", "sync",
    "excl", "nocreat", "notrunc", "noerror", "fdatasync", "fsync"]

def withOperand (b : BlockCopy) (operand : String) : UtilityM BlockCopy := do
  let name := String.ofList (operand.toList.takeWhile (· ≠ '='))
  let value := (operand.drop (name.length + 1)).toString
  let unknown : UtilityM BlockCopy := refuse s!"unrecognized operand {inSingleQuotes operand}"
  if name.length = operand.length then return ← unknown
  let number (least : Nat) : UtilityM Nat := do
    match sizeOf? value with
    | some n => if least ≤ n then return n else fail s!"invalid number: {inSingleQuotes value}"
    | none => fail s!"invalid number: {inSingleQuotes value}"
  match name with
  | "if" => return { b with input := some value }
  | "of" => return { b with output := some value }
  | "ibs" => return { b with inputSize := ← number 1 }
  | "obs" => return { b with outputSize := ← number 1 }
  | "bs" =>
    let n ← number 1
    return { b with inputSize := n, outputSize := n, single := true }
  | "cbs" => return b
  | "count" => return { b with count := some (← number 0) }
  | "skip" | "iseek" => return { b with skip := ← number 0 }
  | "seek" | "oseek" => return { b with seek := ← number 0 }
  | "status" =>
    if ["none", "noxfer", "progress"].contains value then return { b with status := value }
    else refuse s!"invalid status level: {inSingleQuotes value}"
  | "conv" =>
    let given := value.splitOn ","
    if let some bad := given.find? (!knownConversions.contains ·) then
      refuse s!"invalid conversion: {inSingleQuotes bad}"
    return { b with conversions := b.conversions ++ given }
  | "iflag" | "oflag" => return b
  | _ => unknown

def swapPairs : List Char → List Char
  | a :: b :: rest => b :: a :: swapPairs rest
  | rest => rest

def convert (b : BlockCopy) (text : String) : String :=
  let text := if b.conversions.contains "swab" then String.ofList (swapPairs text.toList) else text
  if b.conversions.contains "ucase" then text.toUpper
  else if b.conversions.contains "lcase" then text.toLower
  else text

def records (size n : Nat) : String :=
  s!"{n / size}+{if n % size = 0 then 0 else 1} records"

end BlockCopy

def dd : Utility := fun args => do
  if let some bad := args.find? fun s => s.startsWith "-" && s ≠ "--" then
    if bad.startsWith "--" then refuse s!"unrecognized option {inSingleQuotes bad}"
    else refuse s!"invalid option -- '{(bad.drop 1).take 1}'"
  let b ← (args.filter (· ≠ "--")).foldlM BlockCopy.withOperand {}
  let input ← match b.input with
    | none => pure none
    | some name =>
      match ← openNamed name .read with
      | .ok i => pure (some i)
      | .error e => fail s!"failed to open {shellQuoted name}: {e.name}"
  let output ← match b.output with
    | none => pure none
    | some name =>
      let keeps := b.conversions.contains "notrunc" || 0 < b.seek
      let access : Machine.Access := {
        writes := true, creates := !b.conversions.contains "nocreat", truncates := !keeps
        exclusive := b.conversions.contains "excl" }
      match ← openNamed name access with
      | .ok i => pure (some i)
      | .error e => fail s!"failed to open {shellQuoted name}: {e.name}"
  let most := (b.count.map fun n => (n + b.skip) * b.inputSize).getD Machine.readLimit
  let reading ← match input with
    | some i => pure ((← onMachine (Machine.read i most)).map ByteText.ofBytes)
    | none => onMachine ((← context).read 0 most)
  match reading with
  | .error e =>
    let name := b.input.getD "standard input"
    complain s!"error reading {shellQuoted name}: {e.name}"
    return 1
  | .ok text =>
    let text := (text.drop (b.skip * b.inputSize)).toString
    let written := b.convert text
    let size := b.outputSize
    let code ← match output with
      | none =>
        say written
        pure 0
      | some i =>
        let start := b.seek * size
        if 0 < start then
          let m := (← get).machine
          if let some o := m.opened[i]? then
            let kept := ((m.content o.target).take start)
            let kept := kept ++ List.replicate (start - kept.length) 0
            let old := if b.conversions.contains "notrunc" then m.content o.target else kept
            if let .file l := o.target then
              if let some e := m.files.at? l then
                let bytes := Machine.splice old start (ByteText.bytes written)
                onMachine (modify fun m => { m with files := m.files.overwrite l e bytes })
          pure 0
        else match ← writeOpened i written with
          | .ok () => pure 0
          | .error e =>
            let outputName := b.output.getD ""
            complain s!"error writing {shellQuoted outputName}: {e.name}"
            pure 1
    flush
    if b.status ≠ "none" then
      let outCount := BlockCopy.records (if b.single then b.inputSize else size) written.length
      writeError (BlockCopy.records b.inputSize text.length ++ " in\n" ++ outCount ++ " out\n")
      if b.status ≠ "noxfer" then
        writeError s!"{written.length} bytes copied, 1e-05 s, 0.0 kB/s\n"
    return code

/-! ## Cutting -/

/-- The name of a piece: letters or digits of a fixed width. -/
def pieceName (alphabet : List Char) (width n : Nat) : String :=
  let base := alphabet.length
  let digit (k : Nat) : Char := alphabet.getD (n / Nat.pow base k % base) 'a'
  String.ofList ((List.range width).reverse.map digit)

/-- A text in pieces of a size; `fuel` bounds their number. -/
def chunks (size : Nat) : Nat → List Char → List String
  | 0, _ | _, [] => []
  | fuel + 1, cs => String.ofList (cs.take size) :: chunks size fuel (cs.drop size)

/-- Lines in groups of a number; `fuel` bounds the number of groups. -/
def lineGroups (size : Nat) : Nat → List String → List String
  | 0, _ | _, [] => []
  | fuel + 1, ls => String.join (ls.take size) :: lineGroups size fuel (ls.drop size)

/-- Lines in groups of at most a number of bytes, longer lines cut; `fuel` bounds their number. -/
def lineBytes (size : Nat) : Nat → List String → String → List String
  | 0, _, _ => []
  | _, [], s => if s.isEmpty then [] else [s]
  | fuel + 1, l :: ls, s =>
    if s.length + l.length ≤ size then lineBytes size fuel ls (s ++ l)
    else if s.isEmpty then (l.take size).toString :: lineBytes size fuel ((l.drop size).toString :: ls) ""
    else s :: lineBytes size fuel (l :: ls) ""

def split : Utility := fun args => do
  let a ← arguments [option 'a' "suffix-length" .required, word "additional-suffix" .required,
    option 'b' "bytes" .required, option 'C' "line-bytes" .required, letter 'd',
    word "numeric-suffixes" .optional, option 'e' "elide-empty-files", letter 'x',
    word "hex-suffixes" .optional, option 'l' "lines" .required, option 'n' "number" .required,
    option 't' "separator" .required, option 'u' "unbuffered", word "verbose",
    word "filter" .required] args
  if let extra :: _ := a.operands.drop 2 then refuse s!"extra operand {inSingleQuotes extra}"
  let name := a.operands.headD "-"
  let start := (a.operands.drop 1).headD "x"
  let number (key what : String) : UtilityM Nat := do
    let s := (a.value? key).getD ""
    match sizeOf s with
    | .ok (n + 1) => return n + 1
    | _ => fail s!"invalid number of {what}: {inSingleQuotes s}"
  let cut (text : String) : UtilityM (List String) := do
    let ls := linesWithEnds '\n' text
    match a.last? ["bytes", "lines", "number", "line-bytes"] with
    | some "bytes" => return chunks (← number "bytes" "bytes") (text.length + 1) text.toList
    | some "line-bytes" =>
      return lineBytes (← number "line-bytes" "bytes") (text.length + ls.length + 1) ls ""
    | some "number" =>
      let n ← number "number" "chunks"
      let size := text.length / n
      let all := (List.range n).map fun i =>
        let offset := i * size
        let stop := if i + 1 = n then text.length else offset + size
        String.ofList ((text.toList.drop offset).take (stop - offset))
      return if a.has "elide-empty-files" then all.filter (!·.isEmpty) else all
    | some _ => return lineGroups (← number "lines" "lines") (ls.length + 1) ls
    | none => return lineGroups 1000 (ls.length + 1) ls
  let text ← match ← readNamed name with
    | .ok text => pure text
    | .error e =>
      if isReadError name e then fail s!"{nameInMessage name}: {e.name}"
      else fail s!"cannot open {shellQuoted name} for reading: {e.name}"
  let parts ← cut text
  let alphabet := if a.has "d" || a.has "numeric-suffixes" then "0123456789".toList
    else if a.has "x" || a.has "hex-suffixes" then "0123456789abcdef".toList
    else "abcdefghijklmnopqrstuvwxyz".toList
  let width := ((a.value? "suffix-length").bind (·.toNat?)).getD 2
  let first := ((a.value? "numeric-suffixes").bind (·.toNat?)).getD 0
  for (part, i) in parts.zipIdx first do
    if Nat.pow alphabet.length width ≤ i then fail "output file suffixes exhausted"
    let path := start ++ pieceName alphabet width i ++ (a.value? "additional-suffix").getD ""
    if a.has "verbose" then sayLine s!"creating file {shellQuoted path}"
    match ← openNamed path .write with
    | .ok j => discard <| writeOpened j part
    | .error e => fail s!"{nameInMessage path}: {e.name}"
  return 0

/-! ## Sizes -/

def sizeAfter (mode : Option Char) (n old : Nat) : Nat :=
  match mode with
  | some '+' => old + n
  | some '-' => old - n
  | some '<' => min old n
  | some '>' => max old n
  | some '/' => old / n * n
  | some '%' => (old + n - 1) / n * n
  | _ => n

def truncate : Utility := fun args => do
  let a ← arguments [option 'c' "no-create", option 'o' "io-blocks", option 'r' "reference" .required,
    option 's' "size" .required] args
  let size ← match a.value? "size" with
    | none => pure (none, none)
    | some s =>
      let mode := s.toList.head?.filter "+-<>/%".toList.contains
      let digits := if mode.isSome then (s.drop 1).toString else s
      match (if digits.toList.head?.any Char.isDigit then sizeOf digits else .error .invalid) with
      | .ok 0 =>
        if mode = some '/' || mode = some '%' then fail "division by zero"
        pure (mode, some 0)
      | .ok n => pure (mode, some n)
      | .error _ => fail s!"Invalid number: {inSingleQuotes s}"
  if size.2.isNone && !a.has "reference" then
    refuse "you must specify either '--size' or '--reference'"
  if a.operands.isEmpty then refuse "missing file operand"
  let reference ← (a.value? "reference").mapM fun name => do
    match ← lookup name with
    | .ok (_, { content := .file bytes, .. }) => pure bytes.length
    | .ok _ => pure 0
    | .error e => fail s!"cannot stat {shellQuoted name}: {e.name}"
  forEach a.operands fun name => do
    match ← openNamed name { writes := true, creates := !a.has "no-create" } with
    | .error .noEntry =>
      if a.has "no-create" then return 0
      complain s!"cannot open {shellQuoted name} for writing: {FileError.noEntry.name}"
      return 1
    | .error e =>
      complain s!"cannot open {shellQuoted name} for writing: {e.name}"
      return 1
    | .ok _ =>
      match ← lookup name with
      | .ok (l, e) =>
        if let .file bytes := e.content then
          let base := reference.getD bytes.length
          let n := match size.2 with
            | some n => sizeAfter size.1 n base
            | none => base
          let bytes := bytes.take n ++ List.replicate (n - bytes.length) 0
          discard <| change fun fs => .ok (fs.overwrite l e bytes)
        return 0
      | .error _ => return 0

/-! ## Files with names of their own -/

def mktemp : Utility := fun args => do
  let a ← arguments [option 'd' "directory", option 'u' "dry-run", option 'q' "quiet",
    letter 'p' .required, word "tmpdir" .optional, word "suffix" .required, letter 't'] args
  if 1 < a.operands.length then refuse "too many templates"
  let template := a.operands.headD "tmp.XXXXXXXXXX"
  let c ← context
  let usual := (c.getEnv? "TMPDIR").getD "/tmp"
  let inDirectory := a.operands.isEmpty || a.has "p" || a.has "tmpdir" || a.has "t"
  let directory := ((a.value? "p") <|> (a.value? "tmpdir")).getD usual
  let given := (a.value? "suffix").getD ""
  let cs := template.toList
  let suffix := if a.has "suffix" then given
    else String.ofList (cs.reverse.takeWhile (· ≠ 'X')).reverse
  let stem := if a.has "suffix" then cs else cs.take (cs.length - suffix.length)
  let count := (stem.reverse.takeWhile (· = 'X')).length
  if count < 3 then fail s!"too few X's in template {inSingleQuotes template}"
  let start := String.ofList (stem.take (stem.length - count))
  let clock := (← files).clock
  let name := start ++ pieceName "abcdefghijklmnopqrstuvwxyz".toList count (clock * 7919) ++ suffix
  let path := if inDirectory then pathIn directory name else name
  let shown := if inDirectory then pathIn directory (template ++ given) else template ++ given
  let made ← if a.has "dry-run" then pure (.ok ())
    else if a.has "directory" then change (·.makeDirectory c.cwd (ByteText.path path) 0o700)
    else change (·.write c.cwd (ByteText.path path) [] 0o600)
  match made with
  | .ok () =>
    sayLine path
    return 0
  | .error e =>
    let what := if a.has "directory" then "directory" else "file"
    if !a.has "quiet" then complain s!"failed to create {what} via template {shellQuoted shown}: {e.name}"
    return 1

def sync : Utility := fun args => do
  let a ← arguments [option 'd' "data", option 'f' "file-system"] args
  forEach a.operands fun name => do
    match ← lookup name with
    | .ok _ => return 0
    | .error e =>
      complain s!"error opening {shellQuoted name}: {e.name}"
      return 1

end ModularBuild.Utility
