import ModularBuild.Regex.Reader
import ModularBuild.Utility.Input

/-!
# Utilities on lines

They pass lines on: all of them, some, in another order, or numbered.
-/

namespace ModularBuild.Utility

open Text

/-! ## Passing on -/

/-- How `cat` shows what it passes on. -/
structure CatMode where
  numbers : Bool
  numbersNonblank : Bool
  squeezes : Bool
  marksEnds : Bool
  marksTabs : Bool
  visible : Bool

/-- Where `cat` is in its output. -/
structure CatState where
  number : Nat := 0
  atStart : Bool := true
  /-- The number of empty lines that were passed on last. -/
  blanks : Nat := 0
  /-- What has been written, newest first. -/
  written : List Char := []

def visibleChar (c : Char) : List Char :=
  let n := c.toNat
  let low (n : Nat) : List Char :=
    if n < 32 then ['^', Char.ofNat (n + 64)] else if n = 127 then ['^', '?'] else [Char.ofNat n]
  if c = '\n' || c = '\t' then [c] else if n < 128 then low n else 'M' :: '-' :: low (n - 128)

/-- Passes on a character; `next` is the one after it. -/
def CatState.pass (m : CatMode) (s : CatState) (c : Char) (next : Option Char) : CatState :=
  let isBlank := s.atStart && c = '\n'
  if isBlank && m.squeezes && 1 ≤ s.blanks then s
  else
    let counts := s.atStart && if m.numbersNonblank then !isBlank else m.numbers
    let number := if counts then s.number + 1 else s.number
    let label := if counts then (padLeft 6 (toString number) ++ "\t").toList else []
    let shown :=
      if c = '\n' then (if m.marksEnds then ['$', '\n'] else ['\n'])
      else if c = '\t' && m.marksTabs then ['^', 'I']
      else if m.visible then visibleChar c
      else if c = '\r' && m.marksEnds && next = some '\n' then ['^', 'M']
      else [c]
    { number, atStart := c = '\n', blanks := if isBlank then s.blanks + 1 else 0
      written := shown.reverse ++ (label.reverse ++ s.written) }

def CatState.passAll (m : CatMode) : CatState → List Char → CatState
  | s, [] => s
  | s, c :: cs => CatState.passAll m (s.pass m c cs.head?) cs

def writesToItself (name : String) : UtilityM Bool := do
  let c ← context
  let m := (← get).machine
  match (c.descriptors.find? 1).bind (m.opened[·]?) with
  | some { target := .file out, appends, offset, .. } =>
    let same (l : Location) (start : Nat) : Bool :=
      l = out && start < if appends then (m.content (.file out)).length else offset
    if name = "-" then
      match (c.descriptors.find? 0).bind (m.opened[·]?) with
      | some { target := .file l, offset := start, .. } => return same l start
      | _ => return false
    else match ← lookup name with
      | .ok (l, _) => return same l 0
      | .error _ => return false
  | _ => return false

def catOptions : List OptionSpec :=
  [option 'b' "number-nonblank", option 'n' "number", option 's' "squeeze-blank",
    option 'v' "show-nonprinting", option 'E' "show-ends", option 'T' "show-tabs",
    option 'A' "show-all", letter 'e', letter 't', letter 'u']

def cat : Utility := fun args => do
  let a ← arguments catOptions args
  let shows := a.has "show-all"
  let mode : CatMode := {
    numbers := a.has "number", numbersNonblank := a.has "number-nonblank"
    squeezes := a.has "squeeze-blank"
    marksEnds := shows || a.has "e" || a.has "show-ends"
    marksTabs := shows || a.has "t" || a.has "show-tabs"
    visible := shows || a.has "e" || a.has "t" || a.has "show-nonprinting" }
  let plain := a.options.all fun o => o.key = "u"
  if ((← context).descriptors.find? 1).isNone then
    fail s!"standard output: {FileError.name .badDescriptor}"
  let pass (r : CatState × Nat) (name : String) : UtilityM (CatState × Nat) := do
    let (s, code) := r
    if ← writesToItself name then
      complain s!"{nameInMessage name}: input file is output file"
      return (s, 1)
    match ← readNamed name with
    | .error e =>
      complainOf name e
      if name = "-" && e = .badDescriptor then complain s!"closing standard input: {e.name}"
      return (s, 1)
    | .ok text =>
      if plain then
        say text
        flush
        return (s, code)
      let s := s.passAll mode text.toList
      say (String.ofList s.written.reverse)
      flush
      return ({ s with written := [] }, code)
  return (← a.inputs.foldlM pass ({}, 0)).2

def tee : Utility := fun args => do
  let a ← arguments [option 'a' "append", option 'i' "ignore-interrupts", letter 'p'] args
  let access := if a.has "append" then Machine.Access.append else .write
  let openOne (found : List Nat × Nat) (name : String) : UtilityM (List Nat × Nat) := do
    match ← openNamed name access with
    | .ok i => return (found.1 ++ [i], found.2)
    | .error e =>
      complainOf name e
      return (found.1, 1)
  let (opened, code) ← a.operands.foldlM openOne ([], 0)
  match ← readDescriptor 0 with
  | .error e =>
    complain s!"read error: {e.name}"
    if e = .badDescriptor then complain s!"standard input: {e.name}"
    return 1
  | .ok text =>
    say text
    if let some e ← lostOutput then complain s!"'standard output': {e.name}"
    for i in opened do discard <| writeOpened i text
    return code

/-! ## Turning around -/

/-- The pieces of a text that a separator ends; the last one may lack it. -/
def piecesWithEnds (separator : List Char) : Nat → List Char → List Char → List (List Char)
  | 0, _, _ => []
  | _, piece, [] => if piece.isEmpty then [] else [piece.reverse]
  | fuel + 1, piece, c :: cs =>
    if separator.isPrefixOf (c :: cs) then
      (piece.reverse ++ separator) ::
        piecesWithEnds separator fuel [] ((c :: cs).drop separator.length)
    else piecesWithEnds separator fuel (c :: piece) cs

def tac : Utility := fun args => do
  let a ← arguments
    [option 'b' "before", option 'r' "regex", option 's' "separator" .required] args
  let separator := ((a.value? "separator").getD "\n").toList
  let separator := if separator.isEmpty then ['\x00'] else separator
  let complaint (name : String) (e : FileError) : UtilityM Unit :=
    if name = "-" then complain s!"'standard input': read error: {e.name}"
    else if e = .isDirectory then
      complain s!"{nameInMessage name}: read error: {FileError.name .invalidArgument}"
    else complain s!"failed to open {shellQuoted name} for reading: {e.name}"
  let work (_ text : String) : UtilityM Nat := do
    let cs := text.toList
    let found := piecesWithEnds separator (cs.length + 1) [] (if a.has "before" then cs.reverse else cs)
    let found := if a.has "before" then found.map List.reverse else found.reverse
    say (String.ofList found.flatten)
    return 0
  eachInput a.inputs work complaint

def rev : Utility := fun args => do
  let a ← arguments [option '0' "zero"] args
  let ending := if a.has "zero" then '\x00' else '\n'
  forEach a.inputs fun name => do
    match ← readNamed name with
    | .error e =>
      flush
      writeError s!"rev: cannot open {name}: {e.name}\n"
      return 1
    | .ok text =>
      let lines := linesWithEnds ending text
      let fine := lines.takeWhile fun l => l.toList.all (·.toNat < 128)
      for line in fine do
        let body := withoutEnd ending line
        say (String.ofList body.toList.reverse ++
          if body.length < line.length then String.ofList [ending] else "")
      if fine.length < lines.length then
        flush
        writeError s!"rev: {name}: Invalid or incomplete multibyte or wide character\n"
        return 1
      return 0

/-! ## The first and the last -/

/-- How much is taken, or left out at the other end. -/
structure Amount where
  count : Nat := 10
  bytes : Bool := false
  /-- Whether the number is counted from the other end. -/
  fromOther : Bool := false

def showsTitles (a : Arguments) : Bool :=
  match a.last? ["quiet", "silent", "verbose"] with
  | some "verbose" => true
  | some _ => false
  | none => 1 < a.operands.length

/-- Writes the title of a file; the first one has no empty line before it. -/
def sayTitle (name : String) (isFirst : Bool) : UtilityM Unit :=
  say ((if isFirst then "" else "\n") ++ s!"==> {titleOf name} <==\n")

/-- What `head` and `tail` take. -/
def takeFrom (front : Bool) (ending : Char) (amount : Amount) (text : String) : String :=
  let take {α : Type} (items : List α) : List α :=
    let n := amount.count
    match front, amount.fromOther with
    | true, false => items.take n
    | true, true => items.take (items.length - n)
    | false, false => items.drop (items.length - n)
    | false, true => items.drop (n - 1)
  if amount.bytes then String.ofList (take text.toList)
  else String.join (take (linesWithEnds ending text))

def withTitles (a : Arguments) (work : String → String → UtilityM Unit)
    (complaint : String → FileError → UtilityM Unit := complainAbout) : UtilityM Nat := do
  let titles := showsTitles a
  let step (state : Bool × Nat) (name : String) : UtilityM (Bool × Nat) := do
    let (isFirst, code) := state
    match ← readNamed name with
    | .ok text =>
      if titles then sayTitle name isFirst
      work name text
      return (false, code)
    | .error e =>
      let opened := isReadError name e
      if titles && opened then sayTitle name isFirst
      complaint name e
      complainOfClosed name e
      return (isFirst && !opened, 1)
  return (← a.inputs.foldlM step (true, 0)).2

def endOptions : List OptionSpec :=
  [option 'c' "bytes" .required, option 'n' "lines" .required, option 'q' "quiet", word "silent",
    option 'v' "verbose", option 'z' "zero-terminated"]
    ++ "0123456789".toList.map letter

def amountOf (a : Arguments) (sign : Char) (start : Amount) : UtilityM Amount :=
  a.options.foldlM (fun amount o => do
    match o.key, o.value with
    | "lines", some s | "bytes", some s =>
      let bytes := o.key = "bytes"
      let what := if bytes then "number of bytes" else "number of lines"
      let (turned, digits) := match s.toList with
        | c :: cs =>
          if c = sign then (true, String.ofList cs)
          else if sign = '+' && c = '-' then (false, String.ofList cs)
          else if sign = '-' && c = '+' then (false, String.ofList cs)
          else (false, s)
        | [] => (false, s)
      let count ← match sizeOf digits with
        | .ok n => pure n
        | .error .invalid => fail s!"invalid {what}: {inSingleQuotes s}"
        | .error .tooLarge =>
          fail s!"invalid {what}: {inSingleQuotes s}: Value too large for defined data type"
      return { count, bytes, fromOther := turned }
    | _, _ => return amount) start

def oldAmount? (args : List String) : Option (String × List Char × List String) :=
  match args with
  | a :: rest =>
    match a.toList with
    | '-' :: c :: cs =>
      if c.isDigit then
        let digits := (c :: cs).takeWhile Char.isDigit
        some (String.ofList digits, (c :: cs).drop digits.length, rest)
      else none
    | _ => none
  | [] => none

def head : Utility := fun args => do
  let (start, args) ← match oldAmount? args with
    | none => pure (({} : Amount), args)
    | some (digits, letters, rest) =>
      let count := digits.toNat?.getD 0
      let unit := letters.foldl (fun u c =>
        match c with
        | 'b' => 512
        | 'k' => 1024
        | 'm' => 1024 * 1024
        | 'c' => 1
        | _ => u) 0
      for c in letters do
        unless "bkmclqvz".toList.contains c do refuse s!"invalid trailing option -- {c}"
      let bytes := 0 < unit && letters.getLast? ≠ some 'l'
      pure ({ count := count * max 1 unit, bytes }, rest)
  let a ← arguments endOptions args
  if let some o := a.options.find? fun o => o.key.toList.all Char.isDigit then
    refuse s!"invalid trailing option -- {o.key}"
  let amount ← amountOf a '-' start
  let ending := if a.has "zero-terminated" then '\x00' else '\n'
  withTitles a fun name text => do
    let taken := takeFrom true ending amount text
    say taken
    if name = "-" then putBack (text.length - taken.length)

def tail : Utility := fun args => do
  let isOld := match args with
    | [_] => true
    | [_, b] => !(b.startsWith "-" && 1 < b.length)
    | [_, "--", _] => true
    | _ => false
  let old? : Option (Amount × List String) :=
    if !isOld then none
    else match args with
    | first :: rest =>
      match first.toList with
      | sign :: cs =>
        let digits := cs.takeWhile Char.isDigit
        let letters := cs.drop digits.length
        let fits := letters = [] || letters = ['c'] || letters = ['l'] || letters = ['b']
        if (sign = '-' || sign = '+') && fits && (!digits.isEmpty || sign = '+') then
          let count := if digits.isEmpty then 10 else (String.ofList digits).toNat?.getD 0
          let unit := if letters = ['b'] then 512 else 1
          some ({ count := count * unit, bytes := letters ≠ [] && letters ≠ ['l']
                  fromOther := sign = '+' }, rest)
        else none
      | [] => none
    | [] => none
  let (start, args) := old?.getD ({}, args)
  let a ← arguments (option 'f' "follow" .optional :: letter 'F' :: endOptions) args
  if let some o := a.options.find? fun o => o.key.toList.all Char.isDigit then
    fail s!"option used in invalid context -- {o.key}"
  let amount ← amountOf a '+' start
  let ending := if a.has "zero-terminated" then '\x00' else '\n'
  let complaint (name : String) (e : FileError) : UtilityM Unit :=
    if name = "-" && e = .badDescriptor then complain s!"cannot fstat 'standard input': {e.name}"
    else complainAbout name e
  withTitles a (fun _ text => say (takeFrom false ending amount text)) complaint

/-! ## Numbering -/

inductive Numbering where
  | all
  | nonblank
  | none
  | matching (r : Regex)

structure NumberState where
  number : Int
  /-- How the lines of the current section are numbered. -/
  style : Numbering
  /-- The number of blank lines since the last one that counted. -/
  blanks : Nat := 0

def nlOptions : List OptionSpec :=
  [option 'b' "body-numbering" .required, option 'h' "header-numbering" .required,
    option 'f' "footer-numbering" .required, option 'v' "starting-line-number" .required,
    option 'i' "line-increment" .required, option 'p' "no-renumber",
    option 'l' "join-blank-lines" .required, option 's' "number-separator" .required,
    option 'w' "number-width" .required, option 'n' "number-format" .required,
    option 'd' "section-delimiter" .required]

def numberingOf? (s : String) : Option Numbering :=
  match s.toList with
  | ['a'] => some .all
  | ['t'] => some .nonblank
  | ['n'] => some .none
  | 'p' :: cs => (Regex.compile { extended := false } cs).toOption.map fun r => .matching r.regex
  | _ => Option.none

def integer? (s : String) : Option Int :=
  match s.toList with
  | '-' :: ds => if ds.isEmpty || !ds.all Char.isDigit then none else s.toInt?
  | '+' :: ds => if ds.isEmpty || !ds.all Char.isDigit then none else (String.ofList ds).toInt?
  | ds => if ds.isEmpty || !ds.all Char.isDigit then none else s.toInt?

def nl : Utility := fun args => do
  let a ← arguments nlOptions args
  let style (key what start : String) : UtilityM Numbering := do
    let s := (a.value? key).getD start
    match numberingOf? s with
    | some n => return n
    | none => refuse s!"invalid {what} numbering style: {inSingleQuotes s}"
  let header ← style "header-numbering" "header" "n"
  let body ← style "body-numbering" "body" "t"
  let footer ← style "footer-numbering" "footer" "n"
  let number (key what : String) (start least : Int) : UtilityM Int := do
    match a.value? key with
    | none => return start
    | some s =>
      match integer? s with
      | some n =>
        if n < least then fail s!"invalid {what}: {inSingleQuotes s}: Numerical result out of range"
        else return n
      | none => fail s!"invalid {what}: {inSingleQuotes s}"
  let huge : Int := greatestSize
  let first ← number "starting-line-number" "starting line number" 1 (-huge)
  let step ← number "line-increment" "line number increment" 1 (-huge)
  let joined ← number "join-blank-lines" "line number of blank lines" 1 1
  let width := (← number "number-width" "line number field width" 6 1).toNat
  let separator := (a.value? "number-separator").getD "\t"
  let format := (a.value? "number-format").getD "rn"
  unless ["ln", "rn", "rz"].contains format do
    refuse s!"invalid line numbering format: {inSingleQuotes format}"
  let shown (n : Int) : String :=
    let digits := toString n.natAbs
    let sign := if n < 0 then "-" else ""
    if format = "ln" then padRight width (sign ++ digits)
    else if format = "rz" then sign ++ padLeft (width - sign.length) digits '0'
    else padLeft width (sign ++ digits)
  let delimiter := match ((a.value? "section-delimiter").getD "\\:").toList with
    | [c] => [c, ':']
    | cs => cs
  let times (n : Nat) : List Char := (List.replicate n delimiter).flatten
  let enter (s : NumberState) (style : Numbering) : NumberState :=
    { s with style, number := if a.has "no-renumber" then s.number else first }
  let pass (s : NumberState) (line : String) : UtilityM NumberState := do
    let cs := line.toList
    let section? := if delimiter.isEmpty then none
      else if cs = times 3 then some header
      else if cs = times 2 then some body
      else if cs = times 1 then some footer
      else none
    match section? with
    | some style =>
      say "\n"
      return enter s style
    | none =>
      let blanks := if cs.isEmpty then s.blanks + 1 else 0
      let counts := match s.style with
        | .all => !cs.isEmpty || (blanks : Int) = joined
        | .nonblank => !cs.isEmpty
        | .none => false
        | .matching r => r.matches? (.ofList cs)
      if counts then
        say (shown s.number ++ separator ++ line ++ "\n")
        return { s with number := s.number + step, blanks := 0 }
      else
        say (padLeft (width + separator.length) "" ++ line ++ "\n")
        return { s with blanks }
  let (found, code) ← readInputs a.inputs
  let all := found.flatMap fun (_, text) => linesOf text
  discard <| all.foldlM pass { number := first, style := body }
  return code

end ModularBuild.Utility
