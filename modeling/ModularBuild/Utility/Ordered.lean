import ModularBuild.Utility.Input

/-!
# Utilities on lines that are in order

`uniq` looks for neighbours that are the same, `comm` says which lines two files have in common, and
`join` puts lines with the same key together. The last two tell if the lines are not in order, as
soon as that makes a difference.
-/

namespace ModularBuild.Utility

open Text

/-! ## Neighbours -/

structure UniqMode where
  fields : Nat
  chars : Nat
  width : Option Nat
  folds : Bool

def UniqMode.key (m : UniqMode) (line : String) : List Char :=
  let isGap (c : Char) : Bool := c = ' ' || c = '\t' || c = '\n'
  let skipField (cs : List Char) (_ : Nat) : List Char :=
    (cs.dropWhile isGap).dropWhile (!isGap ·)
  let cs := (List.range (min m.fields line.length)).foldl skipField line.toList
  let cs := cs.drop m.chars
  let cs := match m.width with
    | some n => cs.take n
    | none => cs
  if m.folds then cs.map Char.toUpper else cs

def UniqMode.groups (m : UniqMode) (lines : List String) : List (List String) :=
  (lines.map fun l => (m.key l, l)).splitBy (fun a b => a.1 = b.1) |>.map (·.map (·.2))

def uniqOptions : List OptionSpec :=
  [option 'c' "count", option 'd' "repeated", letter 'D', word "all-repeated" .optional,
    option 'f' "skip-fields" .required, word "group" .optional, option 'i' "ignore-case",
    option 's' "skip-chars" .required, option 'u' "unique", option 'w' "check-chars" .required,
    option 'z' "zero-terminated"]

structure GroupMarks where
  before : Bool := false
  between : Bool := false
  after : Bool := false

def markedGroups (marks : GroupMarks) (groups : List (List String)) : List String :=
  (groups.zipIdx.map fun (g, i) =>
    (if marks.before || (marks.between && 0 < i) then [""] else []) ++ g ++
      if marks.after then [""] else []).flatten

/-- A count of `uniq` that has to be a number. -/
def uniqNumber (a : Arguments) (key what : String) : UtilityM (Option Nat) := do
  match a.value? key with
  | none => return none
  | some s =>
    match s.toNat? with
    | some n => return some n
    | none => fail s!"{nameInMessage s}: invalid number of {what}"

/-- What `uniq` writes. -/
def uniqLines (a : Arguments) (groups : List (List String)) : UtilityM (List String) := do
  let all := a.has "D" || a.has "all-repeated"
  if a.has "group" then
    let how ← choiceOf "group" ((a.value? "group").getD "separate")
      ["prepend", "append", "separate", "both"]
    return markedGroups {
      before := how = "prepend", between := how = "separate" || how = "both"
      after := how = "append" } groups
      |> fun lines => if how = "both" && !groups.isEmpty then "" :: lines ++ [""] else lines
  else if all then
    let how ← choiceOf "all-repeated" ((a.value? "all-repeated").getD "none")
      ["none", "prepend", "separate"]
    return markedGroups { before := how = "prepend", between := how = "separate" }
      (groups.filter (1 < ·.length))
  else
    let chosen := groups.filter fun g =>
      (!a.has "repeated" || 1 < g.length) && (!a.has "unique" || g.length = 1)
    return chosen.map fun g =>
      let line := g.headD ""
      if a.has "count" then padLeft 7 (toString g.length) ++ " " ++ line else line

def uniq : Utility := fun args => do
  let older (s : String) : String :=
    match s.toList with
    | '-' :: c :: cs => if (c :: cs).all Char.isDigit then "-f" ++ String.ofList (c :: cs) else s
    | '+' :: c :: cs => if (c :: cs).all Char.isDigit then "-s" ++ String.ofList (c :: cs) else s
    | _ => s
  let a ← arguments uniqOptions (args.map older)
  if let extra :: _ := a.operands.drop 2 then refuse s!"extra operand {inSingleQuotes extra}"
  let all := a.has "D" || a.has "all-repeated"
  if a.has "group" && (a.has "count" || a.has "repeated" || a.has "unique" || all) then
    refuse "--group is mutually exclusive with -c/-d/-D/-u"
  if all && a.has "count" then
    refuse "printing all duplicated lines and repeat counts is meaningless"
  let fields ← uniqNumber a "skip-fields" "fields to skip"
  let chars ← uniqNumber a "skip-chars" "bytes to skip"
  let width ← uniqNumber a "check-chars" "bytes to compare"
  let mode : UniqMode :=
    { fields := fields.getD 0, chars := chars.getD 0, width, folds := a.has "ignore-case" }
  let ending := if a.has "zero-terminated" then '\x00' else '\n'
  let name := a.operands.headD "-"
  let text ← match ← readNamed name with
    | .ok text => pure text
    | .error e =>
      if isReadError name e then fail s!"error reading {shellQuoted name}: {e.name}"
      else fail s!"{nameInMessage name}: {e.name}"
  let out? ← match (a.operands.drop 1).head? with
    | none | some "-" => pure none
    | some out =>
      match ← openNamed out .write with
      | .ok i => pure (some i)
      | .error e => fail s!"{nameInMessage out}: {e.name}"
  let lines ← uniqLines a (mode.groups (linesOf text ending))
  let result := String.join (lines.map (·.push ending))
  match out? with
  | none => say result
  | some i => discard <| writeOpened i result
  return 0

/-! ## Order -/

/-- Whether lines that are out of order are told of. -/
inductive OrderCheck where
  | always
  | never
  /-- If a line without a partner has been seen. -/
  | whenItMatters
deriving DecidableEq

/-- Two files that are gone through together, by their lines. -/
structure Pairing where
  check : OrderCheck
  /-- Whether a line without a partner has been seen. -/
  unpaired : Bool := false
  firstWarned : Bool := false
  secondWarned : Bool := false

def Pairing.warned (p : Pairing) (second : Bool) : Bool :=
  if second then p.secondWarned else p.firstWarned

def Pairing.warn (p : Pairing) (second : Bool) : Pairing :=
  if second then { p with secondWarned := true } else { p with firstWarned := true }

def Pairing.watches (p : Pairing) (second : Bool) : Bool :=
  p.check ≠ .never && (p.check = .always || p.unpaired) && !p.warned second

def orderCheckOf (a : Arguments) : OrderCheck :=
  match a.last? ["check-order", "nocheck-order"] with
  | some "check-order" => .always
  | some _ => .never
  | none => .whenItMatters

/-! ## Lines in common -/

/-- Where `comm` is in a file: the lines still to come and those before them, newest first. -/
structure CommSide where
  rest : List String
  passed : List String := []

structure CommState where
  first : CommSide
  second : CommSide
  pairing : Pairing
  onlyFirst : Nat := 0
  onlySecond : Nat := 0
  both : Nat := 0

def watchLines (p : Pairing) (second : Bool) (before after : String) : UtilityM Pairing := do
  if !p.watches second || before ≤ after then return p
  complain s!"file {if second then 2 else 1} is not in sorted order"
  if p.check = .always then quit 1
  return p.warn second

/-- Goes on to the next line of a file. At its end the last two lines are looked at once more. -/
def CommSide.advance (side : CommSide) (second : Bool) (p : Pairing) :
    UtilityM (CommSide × Pairing) := do
  match side.rest with
  | [] => return (side, p)
  | line :: rest =>
    let side : CommSide := { rest, passed := line :: side.passed.take 1 }
    match rest, side.passed with
    | next :: _, _ => return (side, ← watchLines p second line next)
    | [], a :: b :: _ => return (side, ← watchLines p second b a)
    | [], _ => return (side, p)

/-- Goes through two files; `fuel` is the number of their lines. -/
def commLines (write : Nat → String → UtilityM Unit) : Nat → CommState → UtilityM CommState
  | 0, s => return s
  | fuel + 1, s => do
    let o := match s.first.rest, s.second.rest with
      | [], [] => none
      | a :: _, b :: _ => some (compare a b)
      | _ :: _, [] => some .lt
      | [], _ :: _ => some .gt
    let a := s.first.rest.headD ""
    let b := s.second.rest.headD ""
    match o with
    | none => return s
    | some .eq =>
      write 3 b
      let (first, p) ← s.first.advance false s.pairing
      let (second, p) ← s.second.advance true p
      commLines write fuel { s with first, second, pairing := p, both := s.both + 1 }
    | some .lt =>
      write 1 a
      let (first, p) ← s.first.advance false { s.pairing with unpaired := true }
      commLines write fuel { s with first, pairing := p, onlyFirst := s.onlyFirst + 1 }
    | some .gt =>
      write 2 b
      let (second, p) ← s.second.advance true { s.pairing with unpaired := true }
      commLines write fuel { s with second, pairing := p, onlySecond := s.onlySecond + 1 }

def twoOperands (a : Arguments) : UtilityM (String × String) := do
  match a.operands with
  | [] => refuse "missing operand"
  | [x] => refuse s!"missing operand after {inSingleQuotes x}"
  | [x, y] => return (x, y)
  | _ :: _ :: extra :: _ => refuse s!"extra operand {inSingleQuotes extra}"

def commOptions : List OptionSpec :=
  [letter '1', letter '2', letter '3', word "check-order", word "nocheck-order",
    word "output-delimiter" .required, word "total", option 'z' "zero-terminated"]

def comm : Utility := fun args => do
  let a ← arguments commOptions args
  let ending := if a.has "zero-terminated" then '\x00' else '\n'
  let (x, y) ← twoOperands a
  let read (name : String) : UtilityM (List String) := do
    match ← readNamed name with
    | .ok text => return linesOf text ending
    | .error e => fail s!"{nameInMessage name}: {e.name}"
  let first ← read x
  let second ← read y
  let gap := match a.value? "output-delimiter" with
    | some "" => "\x00"
    | some s => s
    | none => "\t"
  let write (column : Nat) (line : String) : UtilityM Unit := do
    unless a.has (toString column) do
      for earlier in (List.range column).drop 1 do
        unless a.has (toString earlier) do say gap
      say (line.push ending)
  let s ← commLines write (first.length + second.length + 1)
    { first := { rest := first }, second := { rest := second }
      pairing := { check := orderCheckOf a } }
  if a.has "total" then
    say ((gap.intercalate
      [toString s.onlyFirst, toString s.onlySecond, toString s.both, "total"]).push ending)
  if s.pairing.firstWarned || s.pairing.secondWarned then fail "input is not in sorted order"
  return 0

/-! ## Lines put together -/

structure JoinLine where
  text : String
  fields : List String

inductive JoinColumn where
  | key
  | field (second : Bool) (n : Nat)

structure JoinMode where
  separator : Option Char
  firstKey : Nat
  secondKey : Nat
  folds : Bool
  /-- What stands for a field that is not there. -/
  filler : String
  columns : Option (List JoinColumn)
  ending : Char
  showsPairs : Bool
  showsFirst : Bool
  showsSecond : Bool

namespace JoinMode

def line (m : JoinMode) (text : String) : JoinLine :=
  let isGap (c : Char) : Bool := c = ' ' || c = '\t' || c = '\n'
  let fields := match m.separator with
    | some '\n' => [text.toList]
    | some c => if text = "" then [] else pieces c text.toList
    | none => (text.toList.splitBy fun c d => isGap c = isGap d).filter fun f => !f.any isGap
  ⟨text, fields.map String.ofList⟩

def keyOf (m : JoinMode) (second : Bool) (l : JoinLine) : String :=
  let key := l.fields.getD (if second then m.secondKey else m.firstKey) ""
  if m.folds then key.toUpper else key

def output (m : JoinMode) (a b : Option JoinLine) : String :=
  let gap := String.ofList [m.separator.getD ' ']
  let fields (l : Option JoinLine) : List String := (l.map (·.fields)).getD []
  let shown (s : String) : String := if s = "" then m.filler else s
  let key := match a, b with
    | some l, _ => l.fields.getD m.firstKey ""
    | none, some l => l.fields.getD m.secondKey ""
    | none, none => ""
  let others (key : Nat) (fs : List String) : List String := fs.eraseIdx key
  let cells := match m.columns with
    | none => key :: others m.firstKey (fields a) ++ others m.secondKey (fields b)
    | some columns => columns.map fun (c : JoinColumn) =>
      match c with
      | .key => key
      | .field second n => (fields (if second then b else a)).getD n ""
  (gap.intercalate (cells.map shown)).push m.ending

end JoinMode

/-- Where `join` is in a file. -/
structure JoinSide where
  name : String
  rest : List JoinLine
  /-- The number of the line at the front. -/
  number : Nat := 1

structure JoinState where
  first : JoinSide
  second : JoinSide
  pairing : Pairing

def JoinState.advance (m : JoinMode) (s : JoinState) (second : Bool) : UtilityM JoinState := do
  let side := if second then s.second else s.first
  match side.rest with
  | [] => return s
  | line :: rest =>
    let side := { side with rest, number := side.number + 1 }
    let s := if second then { s with second := side } else { s with first := side }
    match rest with
    | [] => return s
    | next :: _ =>
      if s.pairing.watches second && m.keyOf second next < m.keyOf second line then
        complain s!"{side.name}:{side.number}: is not sorted: {next.text}"
        if s.pairing.check = .always then quit 1
        return { s with pairing := s.pairing.warn second }
      return s

/-- Goes on as long as lines of a file have a key; `fuel` is the number of them. -/
def JoinState.skip (m : JoinMode) (second : Bool) (key : String) :
    Nat → JoinState → UtilityM JoinState
  | 0, s => return s
  | fuel + 1, s => do
    match (if second then s.second else s.first).rest with
    | line :: _ =>
      if m.keyOf second line = key then
        (← s.advance m second).skip m second key fuel
      else return s
    | [] => return s

/-- Puts lines together until one file has ended; `fuel` is the number of lines. -/
def joinLines (m : JoinMode) : Nat → JoinState → UtilityM JoinState
  | 0, s => return s
  | fuel + 1, s => do
    match s.first.rest, s.second.rest with
    | a :: as, b :: bs =>
      let x := m.keyOf false a
      let y := m.keyOf true b
      if x < y then
        if m.showsFirst then say (m.output (some a) none)
        let s ← s.advance m false
        joinLines m fuel { s with pairing := { s.pairing with unpaired := true } }
      else if y < x then
        if m.showsSecond then say (m.output none (some b))
        let s ← s.advance m true
        joinLines m fuel { s with pairing := { s.pairing with unpaired := true } }
      else
        let left := (a :: as).takeWhile (m.keyOf false · = x)
        let right := (b :: bs).takeWhile (m.keyOf true · = x)
        let s ← s.skip m false x (left.length + 1)
        let s ← s.skip m true x (right.length + 1)
        if m.showsPairs then
          for l in left do
            for r in right do say (m.output (some l) (some r))
        joinLines m fuel s
    | _, _ => return s

def joinRest (m : JoinMode) (second : Bool) : Nat → JoinState → UtilityM JoinState
  | 0, s => return s
  | fuel + 1, s => do
    match (if second then s.second else s.first).rest with
    | [] => return s
    | line :: _ =>
      let shows := if second then m.showsSecond else m.showsFirst
      if shows then
        say (if second then m.output none (some line) else m.output (some line) none)
      joinRest m second fuel (← s.advance m second)

def joinColumns (s : String) : UtilityM (List JoinColumn) := do
  let parts := (s.toList.splitBy fun c d => (c = ',' || c = ' ' || c = '\t') =
    (d = ',' || d = ' ' || d = '\t')).filter fun p => !p.any fun c => c = ',' || c = ' ' || c = '\t'
  parts.mapM fun p => do
    match p with
    | ['0'] => return .key
    | f :: '.' :: ds =>
      let field := String.ofList ds
      if f ≠ '1' && f ≠ '2' then
        fail s!"invalid file number in field spec: {inSingleQuotes (String.ofList p)}"
      match field.toNat? with
      | some (n + 1) => return .field (f = '2') n
      | _ => fail s!"invalid field number: {inSingleQuotes field}"
    | f :: _ =>
      let shown := inSingleQuotes (String.ofList p)
      if f = '0' || f = '1' || f = '2' then fail s!"invalid field specifier: {shown}"
      else fail s!"invalid file number in field spec: {shown}"
    | [] => return .key

def joinOptions : List OptionSpec :=
  [letter '1' .required, letter '2' .required, letter 'a' .required, letter 'e' .required,
    option 'i' "ignore-case", letter 'j' .required, letter 'o' .required, letter 't' .required,
    letter 'v' .required, option 'z' "zero-terminated", word "check-order", word "nocheck-order",
    word "header"]

def columnsLike (m : JoinMode) (a b : List JoinLine) : List JoinColumn :=
  let count (ls : List JoinLine) : Nat := ((ls.head?.map (·.fields.length)).getD 0)
  let others (second : Bool) (key n : Nat) : List JoinColumn :=
    ((List.range n).filter (· ≠ key)).map (JoinColumn.field second)
  .key :: others false m.firstKey (count a) ++ others true m.secondKey (count b)

def join : Utility := fun args => do
  let a ← arguments joinOptions args
  let (x, y) ← twoOperands a
  let number (key : String) : UtilityM Nat := do
    match (a.value? key) <|> (a.value? "j") with
    | none => return 0
    | some s =>
      match s.toNat? with
      | some (n + 1) => return n
      | _ => fail s!"invalid field number: {inSingleQuotes s}"
  let separator ← match a.value? "t" with
    | none => pure none
    | some s =>
      match s.toList with
      | [] => pure (some '\n')
      | [c] => pure (some c)
      | ['\\', '0'] => pure (some '\x00')
      | _ => fail s!"multi-character tab {inSingleQuotes s}"
  let shows (n : String) : Bool := (a.values "a").contains n || (a.values "v").contains n
  for n in a.values "a" ++ a.values "v" do
    if n ≠ "1" && n ≠ "2" then fail s!"invalid file number: {inSingleQuotes n}"
  let format := a.value? "o"
  let columns ← if format.all (· = "auto") then pure none
    else pure (some (← (a.values "o").mapM joinColumns).flatten)
  let m : JoinMode := {
    separator, firstKey := ← number "1", secondKey := ← number "2"
    folds := a.has "ignore-case", filler := (a.value? "e").getD "", columns
    ending := if a.has "zero-terminated" then '\x00' else '\n'
    showsPairs := !a.has "v", showsFirst := shows "1", showsSecond := shows "2" }
  let read (name : String) : UtilityM (List JoinLine) := do
    match ← readNamed name with
    | .ok text => return (linesOf text m.ending).map m.line
    | .error e =>
      if isReadError name e then fail s!"read error: {e.name}"
      else fail s!"{nameInMessage name}: {e.name}"
  let first ← read x
  let second ← read y
  let m := if format = some "auto" then { m with columns := some (columnsLike m first second) } else m
  let start : JoinState :=
    { first := { name := x, rest := first }, second := { name := y, rest := second }
      pairing := { check := orderCheckOf a } }
  let start ← if a.has "header" && !(first.isEmpty && second.isEmpty) then do
      say (m.output first.head? second.head?)
      pure { start with
        first := { name := x, rest := first.drop 1, number := 2 }
        second := { name := y, rest := second.drop 1, number := 2 } }
    else pure start
  let fuel := first.length + second.length + 2
  let s ← joinLines m fuel start
  let s ← joinRest m false fuel s
  let s ← joinRest m true fuel s
  if s.pairing.firstWarned || s.pairing.secondWarned then fail "input is not in sorted order"
  return 0

end ModularBuild.Utility
