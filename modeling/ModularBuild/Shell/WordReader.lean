import ModularBuild.Shell.Token

/-!
# Reading words

A word goes on until a blank or an operator that is not quoted. Inside it, quotations, substitutions
of parameters and arithmetic nest; each has its own rules for what is special, so the reader keeps a
stack of levels. What stands in a nested substitution is collected on a second stack.
-/

namespace ModularBuild.Shell

/-- What is special in a stretch of a word. -/
inductive Quoting where
  /-- Nothing is quoted. -/
  | plain
  | double
  | single
  | arithmetic
deriving DecidableEq, Repr, Inhabited

structure WordLevel where
  quoting : Quoting
  /-- Whether the level lies inside double quotes. -/
  insideDouble : Bool := false
  /-- Whether double quotes were opened again inside a substitution. -/
  innerDouble : Bool := false
  /-- Whether the level was opened by a substitution and ends with it. -/
  ofParameter : Bool := false
  /-- The substitutions of parameters that are open. -/
  braces : Nat := 0
  /-- How many of them were opened inside double quotes. -/
  quotedBraces : Nat := 0
  parens : Nat := 0
deriving Inhabited

inductive OpenPart where
  | whole
  | parameter (name : String) (use : ParameterUse) (colon quoted : Bool)
  | arithmetic (quoted : Bool)
deriving Inhabited

structure WordState where
  level : WordLevel
  outer : List WordLevel := []
  /-- What is being read and the parts of it so far, newest first. -/
  part : OpenPart := .whole
  parts : List Part := []
  around : List (OpenPart × List Part) := []
  /-- Whether something was quoted. -/
  quoted : Bool := false

namespace WordState

def add (w : WordState) (p : Part) : WordState := { w with parts := p :: w.parts }

def quotes (w : WordState) : Bool :=
  match w.level.quoting with
  | .double | .single => true
  | .plain | .arithmetic => false

def addChar (w : WordState) (c : Char) : WordState := w.add (.char c w.quotes)

def addQuoted (w : WordState) (c : Char) : WordState := w.add (.char c true)

def openPart (w : WordState) (p : OpenPart) : WordState :=
  { w with part := p, parts := [], around := (w.part, w.parts) :: w.around }

def closePart (w : WordState) : WordState :=
  match w.around with
  | [] => w
  | (part, parts) :: around =>
    let inner := joinArguments w.parts.reverse
    let p : Part := match w.part with
      | .parameter name use colon quoted => .parameter name use colon inner quoted
      | .arithmetic quoted => .arithmetic inner quoted
      | .whole => .quoteMark
    { w with part, parts := p :: parts, around }

def setLevel (w : WordState) (f : WordLevel → WordLevel) : WordState :=
  { w with level := f w.level }

def pushLevel (w : WordState) (l : WordLevel) : WordState :=
  { w with level := l, outer := w.level :: w.outer }

def popLevel (w : WordState) : WordState :=
  match w.outer with
  | [] => w
  | l :: outer => { w with level := l, outer }

def mark (w : WordState) (document : Bool) : WordState :=
  if document then w else w.add .quoteMark

def toggleInner (w : WordState) : WordState :=
  if 0 < w.level.braces then w.setLevel fun l => { l with innerDouble := !l.innerDouble } else w

def closeQuote (w : WordState) (c : Char) (document : Bool) : WordState :=
  if document && w.level.braces = 0 then w.addChar c
  else
    let w := if w.level.quotedBraces = 0 then
      w.setLevel fun l => { l with quoting := .plain, insideDouble := false } else w
    let w := { w with quoted := true }
    (if c = '"' then w.toggleInner else w).mark document

def closeBrace (w : WordState) : WordState :=
  if !w.level.innerDouble && 0 < w.level.braces then
    let w := w.setLevel fun l => { l with braces := l.braces - 1 }
    let w :=
      if w.level.braces = 0 && w.level.ofParameter then w.popLevel
      else w.setLevel fun l => { l with quotedBraces := l.quotedBraces - 1 }
    w.closePart
  else w.addChar '\x7d'

end WordState

/-- A word that ends a text in the script, if one is looked for. -/
structure EndMark where
  text : String
  stripTabs : Bool

namespace Parser

/-! ## Substitutions of parameters -/

def takeNameFor : Nat → List Char → Option Char → Parser (List Char × Option Char)
  | 0, _, _ => refuse "script too long"
  | fuel + 1, name, c => do
    match c with
    | some d =>
      if isNameChar d then takeNameFor fuel (d :: name) (← takeJoined)
      else return (name.reverse, c)
    | none => return (name.reverse, c)

def takeName (c : Option Char) : Parser (String × Option Char) := do
  let (name, c) ← takeNameFor (← get).budget [] c
  return (String.ofList name, c)

def takeDigitsFor : Nat → List Char → Option Char → Parser (List Char × Option Char)
  | 0, _, _ => refuse "script too long"
  | fuel + 1, ds, c => do
    match c with
    | some d =>
      if d.isDigit then takeDigitsFor fuel (d :: ds) (← takeJoined) else return (ds.reverse, c)
    | none => return (ds.reverse, c)

/-- What is done with a parameter in braces, from the character after its name on. The answer tells
the use, whether it asks for a value that is not empty, and whether the word is a pattern. -/
def takeUse (c : Option Char) : Parser (ParameterUse × Bool × Bool) := do
  let plainUse (c : Option Char) : Option ParameterUse := match c with
    | some '\x7d' => some .value
    | some '-' => some .orElse
    | some '+' => some .ifSet
    | some '?' => some .orComplain
    | some '=' => some .orAssign
    | _ => none
  match c with
  | some ':' => return ((plainUse (← takeJoined)).getD .unknown, true, false)
  | some '%' => return (.trimBack (← takeIf '%'), false, true)
  | some '#' => return (.trimFront (← takeIf '#'), false, true)
  | c => return ((plainUse c).getD .unknown, false, false)

/-- A parameter in braces after its opening brace: its name, its use, whether the use asks for a
value that is not empty, and whether the word is a pattern. -/
def takeBraced : Parser (String × ParameterUse × Bool × Bool) := do
  let unknown (name : String) (c : Option Char) :
      Parser (String × ParameterUse × Bool × Bool) := do
    putBackChar c
    return (name, .unknown, false, false)
  let withUse (name : String) (c : Option Char) :
      Parser (String × ParameterUse × Bool × Bool) := do
    let (use, colon, pattern) ← takeUse c
    return (name, use, colon, pattern)
  let lengthOf (name : String) (c : Option Char) :
      Parser (String × ParameterUse × Bool × Bool) := do
    putBackChar c
    return (name, if c = some '\x7d' then .length else .unknown, false, false)
  let c ← takeJoined
  match c with
  | none => unknown "" c
  | some d =>
    if isNameStart d then
      let (name, c) ← takeName c
      withUse name c
    else if d.isDigit then
      let (ds, c) ← takeDigitsFor (← get).budget [] c
      withUse (String.ofList ds) c
    else if d = '\x7d' then unknown "" c
    else
      let e ← takeJoined
      if d = '#' then
        match e with
        | some f =>
          if isNameStart f then
            let (name, c) ← takeName e
            lengthOf name c
          else if f.isDigit then
            let (ds, c) ← takeDigitsFor (← get).budget [] e
            lengthOf (String.ofList ds) c
          else
            let g ← takeJoined
            if f = '\x7d' || g ≠ some '\x7d' then
              putBackChar g
              withUse "#" e
            else if isSpecialParameter f then lengthOf (f.toString) g
            else unknown "" g
        | none => withUse "#" e
      else if isSpecialParameter d then withUse d.toString e
      else unknown "" e

/-- A dollar sign and what it introduces. `commands` reads the commands of a substitution. -/
def takeDollar (commands : Parser (Option Script)) (w : WordState) : Parser WordState := do
  let c ← takeJoined
  if (← get).checks.endMark then
    putBackChar c
    return w.addChar '$'
  match c with
  | some '(' =>
    if ← takeIf '(' then
      return (w.pushLevel { quoting := .arithmetic, insideDouble := true }).openPart
        (.arithmetic w.quotes)
    else return w.add (.commands (← commands) w.quotes)
  | some '\x7b' =>
    let (name, use, colon, pattern) ← takeBraced
    if use = .value && !colon then return w.add (.parameter name .value false [] w.quotes)
    let quoting : Quoting := if pattern then .plain else match w.level.quoting with
      | .arithmetic => .double
      | q => q
    let opened := w.openPart (.parameter name use colon w.quotes)
    let leveled :=
      if quoting ≠ w.level.quoting || w.level.innerDouble then
        opened.pushLevel { quoting, insideDouble := quoting ≠ .plain, ofParameter := true }
      else opened
    return leveled.setLevel fun l => { l with
      braces := l.braces + 1
      quotedBraces := l.quotedBraces + if l.insideDouble then 1 else 0 }
  | some d =>
    if isNameStart d then
      let (name, c) ← takeName c
      putBackChar c
      return w.add (.parameter name .value false [] w.quotes)
    else if isSpecialParameter d then
      return w.add (.parameter d.toString .value false [] w.quotes)
    else
      putBackChar c
      return w.addChar '$'
  | none => return w.addChar '$'

/-! ## Commands between backquotes -/

def takeBackquoted (insideDouble : Bool) : Parser (List Char) :=
  loop ([] : List Char) fun text => do
    match ← takeJoined with
    | some '\x60' => return .inr text.reverse
    | some '\\' =>
      match ← take with
      | none => refuse "EOF in backquote substitution"
      | some c =>
        if c = '\\' || c = '\x60' || c = '$' || insideDouble && c = '"' then
          return .inl (c :: text)
        else
          if c = '\n' then nextLine
          return .inl (c :: '\\' :: text)
    | some c =>
      if c = '\n' then nextLine
      return .inl (c :: text)
    | none => refuse "EOF in backquote substitution"

/-! ## Texts in the script -/

/-- At the start of a line of a text in the script: the first character of the line, or none if the
line ends the text. -/
def takeLineStart (mark : EndMark) (c : Option Char) : Parser (Option Char) := do
  let c ← if mark.stripTabs then loop c fun c => do
      if c = some '\t' then return .inl (← take) else return .inr c
    else pure c
  let wanted := mark.text.toList
  let rec follow : List Char → List Char → Option Char → Parser (Option Char)
    | [], seen, c => do
      if c = some '\n' || c = none then
        nextLine
        return none
      else differ seen c
    | d :: ds, seen, c => do
      if c = some d then follow ds (d :: seen) (← take) else differ seen c
  follow wanted [] c
where
  differ (seen : List Char) (c : Option Char) : Parser (Option Char) := do
    match (c.toList ++ seen).reverse with
    | [] => return none
    | d :: rest =>
      putBack rest
      return some d

/-! ## Words -/

def takeEscaped (w : WordState) (document : Bool) : Parser WordState := do
  match ← take with
  | none => return w.addQuoted '\\'
  | some c =>
    let l := w.level
    let special := c = '\\' || c = '\x60' || c = '$' || c = '"' && !(document && l.braces = 0) ||
      c = '\x7d' && 0 < l.braces
    let w := if l.insideDouble && !special then w.addQuoted '\\' else w
    return { w.addQuoted c with quoted := true }

def closeParen (w : WordState) : Parser WordState := do
  if 0 < w.level.parens then
    return (w.addChar ')').setLevel fun l => { l with parens := l.parens - 1 }
  else if ← takeIf ')' then return w.popLevel.closePart
  else return w.addChar ')'

def wordStep (commands : Parser (Option Script)) (backquoted : Bool → Parser (Option Script))
    (document : Bool) (w : WordState) (c : Char) : Parser (Option WordState) := do
  let l := w.level
  let separates := l.quoting = .plain && l.braces = 0
  match l.quoting, c with
  | .single, '\'' => return some (w.closeQuote c document)
  | .single, c => return some (w.addQuoted c)
  | .plain, '\'' =>
    return some ((w.setLevel fun l => { l with quoting := .single }).mark document)
  | .plain, '"' =>
    let w := w.setLevel fun l => { l with quoting := .double, insideDouble := true }
    return some (w.toggleInner.mark document)
  | .double, '"' => return some (w.closeQuote c document)
  | .arithmetic, '(' => return some ((w.addChar c).setLevel fun l => { l with parens := l.parens + 1 })
  | .arithmetic, ')' => return some (← closeParen w)
  | _, '\\' => return some (← takeEscaped w document)
  | _, '$' => return some (← takeDollar commands w)
  | _, '\x7d' => return some w.closeBrace
  | _, '\x60' =>
    if (← get).checks.endMark then return some (w.addChar c)
    return some (w.add (.commands (← backquoted l.insideDouble) w.quotes))
  | .plain, c =>
    if separates && "<>();&| \t\n".toList.contains c then return none
    else return some (w.addChar c)
  | _, c => return some (w.addChar c)

/-- Reads a word that begins with a character; the answer has the character after it. With an end
mark, reads the lines up to the mark. -/
def takeParts (commands : Parser (Option Script)) (backquoted : Bool → Parser (Option Script))
    (quoting : Quoting) (mark : Option EndMark) (c : Option Char) :
    Parser (WordState × Option Char) := do
  let start : WordState := { level := { quoting, insideDouble := quoting = .double } }
  let lineStart (c : Option Char) : Parser (Option Char) :=
    match mark with
    | some m => takeLineStart m c
    | none => return c
  let (w, c) ← loop (start, ← lineStart c) fun (w, c) => do
    match c with
    | none => return .inr (w, c)
    | some d =>
      match ← wordStep commands backquoted mark.isSome w d with
      | none => return .inr (w, c)
      | some w =>
        if d = '\n' then
          nextLine
          return .inl (w, ← lineStart (← take))
        else if w.level.quoting = .single then return .inl (w, ← take)
        else return .inl (w, ← takeJoined)
  if w.level.quoting = .arithmetic then refuse "Missing '))'"
  if w.level.quoting ≠ .plain && mark.isNone then refuse "Unterminated quoted string"
  if 0 < w.level.braces then refuse "Missing '\x7d'"
  return (w, c)

end Parser

end ModularBuild.Shell
