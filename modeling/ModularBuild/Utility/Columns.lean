import ModularBuild.Utility.Input

/-!
# Columns

Utilities that cut lines into columns, put lines side by side, break them at a width, and turn tabs
into blanks and back.
-/

namespace ModularBuild.Utility

open Text

/-! ## Selections of positions -/

/-- The positions from one to another, which may be left open. -/
structure Span where
  first : Nat
  last : Option Nat

def Span.holds (s : Span) (n : Nat) : Bool := s.first ≤ n && s.last.all (n ≤ ·)

/-- What can be wrong with a list of positions. -/
inductive SpanError where
  | zero
  | decreasing
  | noEnd
  | malformed
  | strange (rest : String)
  | tooLarge (digits : String)

def SpanError.message (fields : Bool) : SpanError → String
  | zero => (if fields then "fields" else "byte/character positions") ++ " are numbered from 1"
  | decreasing => "invalid decreasing range"
  | noEnd => "invalid range with no endpoint: -"
  | malformed => if fields then "invalid field range" else "invalid byte or character range"
  | strange rest =>
    (if fields then "invalid field value " else "invalid byte/character position ") ++
      inSingleQuotes rest
  | tooLarge digits =>
    (if fields then "field number " else "byte/character offset ") ++
      s!"{inSingleQuotes digits} is too large"

/-- A list of positions in the course of being read. -/
structure SpanReading where
  first : Nat := 1
  value : Nat := 0
  left : Bool := false
  right : Bool := false
  dash : Bool := false
  /-- Newest first. -/
  found : List Span := []

def SpanReading.close (r : SpanReading) : Except SpanError SpanReading := do
  if r.dash then
    if !r.left && !r.right then throw .noEnd
    else if !r.right then return { found := ⟨r.first, none⟩ :: r.found }
    else if r.value < r.first then throw .decreasing
    else return { found := ⟨r.first, some r.value⟩ :: r.found }
  else if r.value = 0 then throw .zero
  else return { found := ⟨r.value, some r.value⟩ :: r.found }

def readSpans (r : SpanReading) : List Char → Except SpanError (List Span)
  | [] => return (← r.close).found.reverse
  | c :: cs => do
    if c = '-' then
      if r.dash then throw .malformed
      if r.left && r.value = 0 then throw .zero
      readSpans { r with dash := true, first := if r.left then r.value else 1, value := 0 } cs
    else if c = ',' || c = ' ' || c = '\t' then readSpans (← r.close) cs
    else if c.isDigit then
      let value := r.value * 10 + (c.toNat - '0'.toNat)
      if greatestSize ≤ value then
        throw (.tooLarge (toString r.value ++ String.ofList ((c :: cs).takeWhile Char.isDigit)))
      readSpans { r with value, left := r.left || !r.dash, right := r.right || r.dash } cs
    else throw (.strange (String.ofList (c :: cs)))

/-- Spans in ascending order; those that overlap are joined. -/
def joinSpans (spans : List Span) : List Span :=
  let sorted := spans.mergeSort fun a b => a.first ≤ b.first
  let step (done : List Span) (s : Span) : List Span :=
    match done with
    | t :: rest =>
      if t.last.all (s.first ≤ ·) then
        let last := match t.last, s.last with
          | some m, some n => some (max m n)
          | _, _ => none
        { t with last } :: rest
      else s :: done
    | [] => [s]
  (sorted.foldl step []).reverse

def complementOf (spans : List Span) : List Span :=
  let step (state : List Span × Option Nat) (s : Span) : List Span × Option Nat :=
    let (found, next) := state
    match next with
    | none => (found, none)
    | some n =>
      (if n < s.first then ⟨n, some (s.first - 1)⟩ :: found else found, s.last.map (· + 1))
  let (found, next) := spans.foldl step ([], some 1)
  let unbounded : List Span := (next.map fun n => ⟨n, none⟩).toList
  (unbounded ++ found).reverse

/-! ## Cutting -/

structure CutMode where
  fields : Bool
  spans : List Span
  delimiter : Char
  /-- What stands between fields, or between spans, of the output. -/
  glue : Option String
  /-- Whether lines without the delimiter are left out. -/
  suppresses : Bool

def CutMode.cutChars (m : CutMode) (line : String) : String :=
  let glue := m.glue.getD ""
  let step (state : Nat × Bool × List String) (c : Char) : Nat × Bool × List String :=
    let (n, started, out) := state
    match m.spans.find? (·.holds n) with
    | none => (n + 1, started, out)
    | some s =>
      let out := if started && s.first = n then glue :: out else out
      (n + 1, true, String.ofList [c] :: out)
  String.join (line.toList.foldl step (1, false, [])).2.2.reverse

def CutMode.cutFields (m : CutMode) (line : String) : Option String :=
  match pieces m.delimiter line.toList with
  | [_] => if m.suppresses then none else some line
  | fields =>
    let chosen := (fields.zipIdx 1).filterMap fun (f, n) =>
      if m.spans.any (·.holds n) then some (String.ofList f) else none
    some ((m.glue.getD (String.ofList [m.delimiter])).intercalate chosen)

def cutOptions : List OptionSpec :=
  [option 'b' "bytes" .required, option 'c' "characters" .required,
    option 'd' "delimiter" .required, option 'f' "fields" .required, letter 'n',
    option 's' "only-delimited", option 'z' "zero-terminated", word "complement",
    word "output-delimiter" .required]

def cut : Utility := fun args => do
  let a ← arguments cutOptions args
  let lists := a.options.filter fun o => ["bytes", "characters", "fields"].contains o.key
  let d := a.value? "delimiter"
  if d.any (1 < ·.length) then refuse "the delimiter must be a single character"
  let (key, list) ← match lists with
    | [] => refuse "you must specify a list of bytes, characters, or fields"
    | [o] => pure (o.key, o.value.getD "")
    | _ => refuse "only one list may be specified"
  let fields := key = "fields"
  if !fields && d.isSome then
    refuse "an input delimiter may be specified only when operating on fields"
  if !fields && a.has "only-delimited" then
    refuse "suppressing non-delimited lines makes sense\n\tonly when operating on fields"
  let spans ← match readSpans {} list.toList with
    | .ok spans => pure (joinSpans spans)
    | .error e => refuse (e.message fields)
  let mode : CutMode := {
    fields
    spans := if a.has "complement" then complementOf spans else spans
    delimiter := match d with
      | some s => s.toList.headD '\x00'
      | none => '\t'
    glue := a.value? "output-delimiter"
    suppresses := a.has "only-delimited" }
  let ending := if a.has "zero-terminated" then '\x00' else '\n'
  eachInput a.inputs fun _ text => do
    for line in linesOf text ending do
      let result := if fields then mode.cutFields line else some (mode.cutChars line)
      if let some s := result then say (s.push ending)
    return 0

/-! ## Putting side by side -/

/-- The delimiters that a list stands for, `\0` being none; or nothing if a backslash ends it. -/
def delimiters? : List Char → Option (List String)
  | [] => some []
  | ['\\'] => none
  | '\\' :: c :: cs =>
    let d := match c with
      | '0' => ""
      | 'b' => "\x08"
      | 'f' => "\x0c"
      | 'n' => "\n"
      | 'r' => "\r"
      | 't' => "\t"
      | 'v' => "\x0b"
      | c => String.ofList [c]
    (delimiters? cs).map (d :: ·)
  | c :: cs => (delimiters? cs).map (String.ofList [c] :: ·)

def cycled (delimiters : List String) (n : Nat) : List String :=
  let ds := delimiters.toArray
  (List.range n).map fun i => ds.getD (i % ds.size) ""

/-- Takes the next line of each file in turn; a file that is given twice has its lines shared. -/
def takeRow (names : List String) (texts : List (String × List String)) :
    List (Option String) × List (String × List String) :=
  let step (state : List (Option String) × List (String × List String)) (name : String) :
      List (Option String) × List (String × List String) :=
    let (row, texts) := state
    match texts.lookup name with
    | some (line :: rest) =>
      (some line :: row, texts.map fun (n, ls) => if n = name then (n, rest) else (n, ls))
    | _ => (none :: row, texts)
  let (row, texts) := names.foldl step ([], texts)
  (row.reverse, texts)

/-- Writes rows until all files have ended; `fuel` is the number of lines of all of them. -/
def pasteRows (ending : Char) (delimiters names : List String) :
    Nat → List (String × List String) → UtilityM Unit
  | 0, _ => return ()
  | fuel + 1, texts => do
    let (row, texts) := takeRow names texts
    if row.any Option.isSome then
      let between := cycled delimiters (row.length - 1) ++ [String.ofList [ending]]
      say (String.join ((row.zip between).map fun (line, d) => line.getD "" ++ d))
      pasteRows ending delimiters names fuel texts

def pasteOptions : List OptionSpec :=
  [option 'd' "delimiters" .required, option 's' "serial", option 'z' "zero-terminated"]

def paste : Utility := fun args => do
  let a ← arguments pasteOptions args
  let ending := if a.has "zero-terminated" then '\x00' else '\n'
  let list := (a.value? "delimiters").getD "\t"
  let delimiters ← match delimiters? list.toList with
    | some [] => pure [""]
    | some ds => pure ds
    | none =>
      fail s!"delimiter list ends with an unescaped backslash: {shellQuoted list}"
  if a.has "serial" then
    eachInput a.inputs fun _ text => do
      let lines := linesOf text ending
      let between := cycled delimiters (lines.length - 1) ++ [String.ofList [ending]]
      if lines.isEmpty then say (String.ofList [ending])
      else say (String.join ((lines.zip between).map fun (line, d) => line ++ d))
      return 0
  else
    let collect (state : List (String × String × List String) × Nat) (entry : String × Nat) :
        UtilityM (List (String × String × List String) × Nat) := do
      let (name, i) := entry
      let key := if name = "-" then name else toString i
      if name = "-" && state.1.any (·.2.1 = "-") then
        return (state.1 ++ [(name, key, [])], state.2)
      match ← readNamed name with
      | .ok text => return (state.1 ++ [(name, key, linesOf text ending)], state.2)
      | .error e =>
        complainOf name e
        complainOfClosed name e
        if isReadError name e then return (state.1 ++ [(name, key, [])], 1) else quit 1
    let (files, code) ← a.inputs.zipIdx.foldlM collect ([], 0)
    let texts := files.map (·.2)
    let count := texts.foldl (fun n t => n + t.2.length) 0
    pasteRows ending delimiters (texts.map (·.1)) (count + 1) texts
    return code

/-! ## Breaking lines -/

structure FoldMode where
  width : Nat
  bytes : Bool
  atBlanks : Bool

def FoldMode.advance (m : FoldMode) (column : Nat) (c : Char) : Nat :=
  if m.bytes then column + 1
  else if c = '\x08' then column - 1
  else if c = '\r' then 0
  else if c = '\t' then column + 8 - column % 8
  else column + 1

structure FoldState where
  /-- What belongs to the line, newest first. -/
  line : List Char := []
  column : Nat := 0
  /-- What has been written, newest first. -/
  written : List Char := []

/-- Adds a character to the line, which is broken where it has to be; `fuel` is more than the length
of the line. -/
def FoldMode.place (m : FoldMode) (c : Char) : Nat → FoldState → FoldState
  | 0, s => s
  | fuel + 1, s =>
    let column := m.advance s.column c
    if column ≤ m.width then { s with line := c :: s.line, column }
    else
      let after := s.line.takeWhile fun c => c ≠ ' ' && c ≠ '\t'
      let upTo := s.line.drop after.length
      if m.atBlanks && !upTo.isEmpty then
        m.place c fuel {
          line := after, column := after.reverse.foldl m.advance 0
          written := '\n' :: upTo ++ s.written }
      else if s.line.isEmpty then { s with line := [c], column }
      else m.place c fuel { written := '\n' :: s.line ++ s.written }

def FoldMode.step (m : FoldMode) (s : FoldState) (c : Char) : FoldState :=
  if c = '\n' then { written := '\n' :: s.line ++ s.written } else m.place c (s.line.length + 2) s

def numbersAs (letter : Char) (args : List String) : List String :=
  args.map fun a =>
    match a.toList with
    | '-' :: c :: cs => if (c :: cs).all Char.isDigit then String.ofList ('-' :: letter :: c :: cs) else a
    | _ => a

def fold : Utility := fun args => do
  let a ← arguments [option 'b' "bytes", option 's' "spaces", option 'w' "width" .required]
    (numbersAs 'w' args)
  let width ← match a.value? "width" with
    | none => pure 80
    | some s =>
      match s.toNat? with
      | some 0 =>
        fail s!"invalid number of columns: {inSingleQuotes s}: Numerical result out of range"
      | some n => pure n
      | none => fail s!"invalid number of columns: {inSingleQuotes s}"
  let mode : FoldMode := { width, bytes := a.has "bytes", atBlanks := a.has "spaces" }
  eachInput a.inputs fun _ text => do
    let s := text.toList.foldl mode.step {}
    say (String.ofList (s.line ++ s.written).reverse)
    return 0

/-! ## Tabs -/

inductive TabStops where
  | every (n : Nat)
  | at (columns : List Nat)

/-- The next column for a tab; none after the last one. -/
def TabStops.next? (t : TabStops) (column : Nat) : Option Nat :=
  match t with
  | every n => some (column + (n - column % n))
  | .at columns => columns.find? (column < ·)

def tabStops (a : Arguments) : UtilityM TabStops := do
  let given := ",".intercalate (a.values "tabs")
  if (a.values "tabs").isEmpty then return .every 8
  let parts := (given.toList.splitBy fun c d =>
    (c = ',' || c = ' ') = (d = ',' || d = ' ')).filter fun p => p.all fun c => c ≠ ',' && c ≠ ' '
  let columns ← parts.mapM fun p => do
    if !p.all Char.isDigit then
      let strange := String.ofList (p.dropWhile Char.isDigit)
      fail s!"tab size contains invalid character(s): {inSingleQuotes strange}"
    return (String.ofList p).toNat?.getD 0
  if columns.contains 0 then fail "tab size cannot be 0"
  if (columns.zip (columns.drop 1)).any fun (x, y) => y ≤ x then fail "tab sizes must be ascending"
  return match columns with
    | [] => .every 8
    | [n] => .every n
    | columns => .at columns

structure ExpandState where
  column : Nat := 0
  converts : Bool := true
  written : List Char := []

def expandStep (t : TabStops) (initial : Bool) (s : ExpandState) (c : Char) : ExpandState :=
  if c = '\n' then { written := c :: s.written }
  else if !s.converts then { s with written := c :: s.written }
  else
    let converts := !initial || c = ' ' || c = '\t'
    if c = '\t' then
      let next := (t.next? s.column).getD (s.column + 1)
      { column := next, converts
        written := List.replicate (next - s.column) ' ' ++ s.written }
    else
      let column := if c = '\x08' then s.column - 1 else s.column + 1
      { column, converts, written := c :: s.written }

def expand : Utility := fun args => do
  let a ← arguments [option 'i' "initial", option 't' "tabs" .required] (numbersAs 't' args)
  let t ← tabStops a
  let (texts, code) ← readInputs a.inputs
  let text := String.join (texts.map (·.2))
  let s := text.toList.foldl (expandStep t (a.has "initial")) {}
  say (String.ofList s.written.reverse)
  return code

structure UnexpandState where
  column : Nat := 0
  converts : Bool := true
  /-- Whether the first blank that waits stands just before the place of a tab. -/
  single : Bool := false
  afterBlank : Bool := true
  /-- Blanks that wait, newest first. -/
  waiting : List Char := []
  written : List Char := []

def UnexpandState.release (s : UnexpandState) (c : Char) : UnexpandState :=
  let waiting := s.waiting.reverse
  let waiting := if 1 < waiting.length && s.single then '\t' :: waiting.drop 1 else waiting
  { s with
    written := c :: waiting.reverse ++ s.written, waiting := []
    single := s.single && waiting.isEmpty }

def unexpandStep (t : TabStops) (entire : Bool) (s : UnexpandState) (c : Char) : UnexpandState :=
  if c = '\n' then { written := (s.release c).written }
  else if !s.converts then { s with written := c :: s.written }
  else
    let isBlank := c = ' ' || c = '\t'
    let finish (s : UnexpandState) (c : Char) : UnexpandState :=
      { s.release c with afterBlank := isBlank, converts := entire || isBlank }
    if !isBlank then
      finish { s with column := if c = '\x08' then s.column - 1 else s.column + 1 } c
    else match t.next? s.column with
    | none => { finish s c with converts := false }
    | some next =>
      let keep (waiting : List Char) : List Char :=
        if s.single then (waiting.getLast?.map fun _ => '\t').toList else []
      if c = '\t' then
        finish { s with column := next, waiting := keep s.waiting } c
      else
        let column := s.column + 1
        if s.afterBlank && column = next then
          finish { s with column, waiting := keep s.waiting } '\t'
        else
          { s with
            column, single := s.single || column = next
            waiting := c :: s.waiting, afterBlank := true }

def unexpand : Utility := fun args => do
  let a ← arguments
    [option 'a' "all", word "first-only", option 't' "tabs" .required] (numbersAs 't' args)
  let t ← tabStops a
  let entire := (a.has "all" || a.has "tabs") && !a.has "first-only"
  let (texts, code) ← readInputs a.inputs
  let text := String.join (texts.map (·.2))
  let s := text.toList.foldl (unexpandStep t entire) {}
  say (String.ofList ((s.release 'x').written.drop 1).reverse)
  return code

end ModularBuild.Utility
