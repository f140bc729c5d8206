import ModularBuild.Regex.Basic

/-!
# Reading regular expressions

Expressions are written in a basic or in an extended form, which differ in where a backslash gives a
sign its meaning and where it takes it away.
-/

namespace ModularBuild

open Text

inductive RegexError where
  | unfinished
  | openBracket
  | openGroup
  | closedGroup
  | openBrace
  | badBrace
  | badRange
  | badClass
  | badSymbol
  | trailingBackslash
  | badReference
  | badRepeat
  | tooBig
  /-- A class outside of brackets. -/
  | nakedClass
deriving DecidableEq, Repr

def RegexError.message : RegexError → String
  | unfinished => "Invalid regular expression"
  | openBracket => "Unmatched [, [^, [:, [., or [="
  | openGroup => "Unmatched ( or \\("
  | closedGroup => "Unmatched ) or \\)"
  | openBrace => "Unmatched \\\x7b"
  | badBrace => "Invalid content of \\\x7b\\\x7d"
  | badRange => "Invalid range end"
  | badClass => "Invalid character class name"
  | badSymbol => "Invalid collation character"
  | trailingBackslash => "Trailing backslash"
  | badReference => "Invalid back reference"
  | badRepeat => "Invalid preceding regular expression"
  | tooBig => "Regular expression too big"
  | nakedClass => "character class syntax is [[:space:]], not [:space:]"

structure RegexStyle where
  extended : Bool
  /-- Whether a sign for repetition with nothing to repeat, and a closing bracket that closes nothing,
  are mistakes in the extended form. -/
  strict : Bool := false
  /-- Whether a brace that begins no repetition stands for itself. -/
  plainBraces : Bool := false
  /-- Whether a repetition cannot be repeated by a star or an interval. -/
  refusesDoubled : Bool := false
  /-- Whether there are intervals in braces. -/
  intervals : Bool := true
  /-- Whether backslashes have a meaning in brackets. -/
  bracketEscapes : Bool := false
  /-- Whether digits after a backslash stand for groups. -/
  references : Bool := true

namespace Regex

structure ReadState where
  rest : List Char
  /-- The number of groups that have begun. -/
  groups : Nat := 0
  /-- The groups that have ended. -/
  closed : List Nat := []
  /-- How many groups are open. -/
  depth : Nat := 0
  /-- The signs that repeat nothing. -/
  idle : List Char := []

abbrev RegexReader := StateT ReadState (Except RegexError)

namespace RegexReader

variable {α : Type}

def take? : RegexReader (Option Char) := do
  let s ← get
  match s.rest with
  | [] => return none
  | c :: rest =>
    set { s with rest }
    return some c

def takeIf (text : String) : RegexReader Bool := do
  let s ← get
  if text.toList.isPrefixOf s.rest then
    set { s with rest := s.rest.drop text.length }
    return true
  else return false

def comesNext (text : String) : RegexReader Bool := return text.toList.isPrefixOf (← get).rest

/-! ## Brackets -/

/-- A member of a bracket expression, or the start of a range. -/
inductive BracketPart where
  | item (i : ClassItem)
  | char (c : Char)

/-- Reads what stands between two signs, as in `[:alpha:]`, after its start. -/
def takeNamed (sign : Char) : RegexReader String := do
  let s ← get
  let name := s.rest.takeWhile (· ≠ sign)
  match s.rest.drop name.length with
  | _ :: ']' :: rest =>
    set { s with rest }
    return String.ofList name
  | _ => throw .openBracket

def takeBracketPart (style : RegexStyle) : RegexReader BracketPart := do
  if ← takeIf "[:" then
    let name ← takeNamed ':'
    if (namedClasses.lookup name).isSome then return .item (.named name) else throw .badClass
  for sign in ['.', '='] do
    if ← takeIf (String.ofList ['[', sign]) then
      match (← takeNamed sign).toList with
      | [c] => return .char c
      | _ => throw .badSymbol
  match ← take? with
  | none => throw .openBracket
  | some '\\' =>
    if style.bracketEscapes then
      match ← take? with
      | some c => return .char ((escapeChars.lookup c).getD c)
      | none => throw .openBracket
    else return .char '\\'
  | some c => return .char c
where
  escapeChars : List (Char × Char) :=
    [('n', '\n'), ('t', '\t'), ('r', '\r'), ('f', '\x0c'), ('v', '\x0b'), ('a', '\x07'),
      ('b', '\x08')]

/-- The members of a bracket expression up to its end; `fuel` is the number of characters. -/
def takeItems (style : RegexStyle) : Nat → Bool → RegexReader (List ClassItem)
  | 0, _ => throw .openBracket
  | fuel + 1, first => do
    let closes ← if first then pure false else takeIf "]"
    if closes then return []
    match ← takeBracketPart style with
    | .item i => return i :: (← takeItems style fuel false)
    | .char a =>
      let s ← get
      match s.rest with
      | '-' :: c :: _ =>
        if c = ']' then return .range a a :: (← takeItems style fuel false)
        discard take?
        match ← takeBracketPart style with
        | .item _ => throw .badRange
        | .char b =>
          if b < a then throw .badRange
          return .range a b :: (← takeItems style fuel false)
      | _ => return .range a a :: (← takeItems style fuel false)

def takeBracket (style : RegexStyle) : RegexReader Regex := do
  if (← get).rest.isEmpty then throw .unfinished
  let start := (← get).rest
  let negated ← takeIf "^"
  if (← get).rest.isEmpty then throw .unfinished
  let items ← takeItems style ((← get).rest.length + 1) true
  let text := start.take (start.length - (← get).rest.length)
  match text, text.reverse with
  | ':' :: _ :: _, ']' :: ':' :: _ :: _ => throw .nakedClass
  | _, _ => return .one (.oneOf negated items)

/-! ## Repetitions -/

def mostRounds : Nat := 32767

/-- What stands in braces: the least and the greatest number of rounds. -/
def interval? (cs : List Char) : Option (Nat × Option Nat) :=
  let number? (ds : List Char) : Option (Option Nat) :=
    if ds.isEmpty then some none
    else if ds.all Char.isDigit then some (String.ofList ds).toNat?
    else none
  let least := cs.takeWhile (· ≠ ',')
  match number? least, cs.drop least.length with
  | some (some n), [] => some (n, some n)
  | some n, _ :: rest => (number? rest).map fun m => (n.getD 0, m)
  | _, _ => none

/-- Reads an interval after its brace; none if the brace stands for itself. -/
def takeInterval? (style : RegexStyle) : RegexReader (Option (Nat × Option Nat)) := do
  let s ← get
  let inside := s.rest.takeWhile fun c => c ≠ '}' && c ≠ '\\'
  let close := if style.extended then ['}'] else ['\\', '}']
  let after := s.rest.drop inside.length
  let closes := close.isPrefixOf after
  let refuse (e : RegexError) : RegexReader (Option (Nat × Option Nat)) :=
    if style.plainBraces && style.extended then return none else throw e
  match interval? inside with
  | none =>
    let valid := inside.all fun c => c.isDigit || c = ','
    refuse (if !closes && valid then .openBrace else .badBrace)
  | some (least, most) =>
    if !closes then refuse (if after.isEmpty then .openBrace else .badBrace)
    else if most.any (· < least) then throw .badBrace
    else if mostRounds < max least (most.getD 0) then throw .tooBig
    else
      set { s with rest := after.drop close.length }
      return some (least, most)

def takeRepeat? (style : RegexStyle) : RegexReader (Option (Nat × Option Nat)) := do
  let escaped := if style.extended then "" else "\\"
  if ← takeIf "*" then return some (0, none)
  if ← takeIf (escaped ++ "+") then return some (1, none)
  if ← takeIf (escaped ++ "?") then return some (0, some 1)
  if style.intervals then
    let before ← get
    if ← takeIf (escaped ++ "\x7b") then
      match ← takeInterval? style with
      | some r => return some r
      | none =>
        set before
        return none
  return none

def takeRepeats (style : RegexStyle) : Nat → Bool → Regex → RegexReader Regex
  | 0, _, r => return r
  | fuel + 1, doubled, r => do
    if doubled && style.refusesDoubled then
      if (← comesNext "*") || (← comesNext "\\\x7b") then throw .badRepeat
    match ← takeRepeat? style with
    | some (least, most) => takeRepeats style fuel true (.repeated least most r)
    | none => return r

/-! ## Expressions -/

def letterMeaning? (c : Char) : Option Regex :=
  let word : List ClassItem := [.named "alnum", .range '_' '_']
  match c with
  | 'w' => some (.one (.oneOf false word))
  | 'W' => some (.one (.oneOf true word))
  | 's' => some (.one (.oneOf false [.named "space"]))
  | 'S' => some (.one (.oneOf true [.named "space"]))
  | '<' => some .wordStart
  | '>' => some .wordEnd
  | 'b' => some .wordEdge
  | 'B' => some .noWordEdge
  | '`' => some .textStart
  | '\'' => some .textEnd
  | _ => none

def atEnd (style : RegexStyle) : RegexReader Bool := do
  let s ← get
  match s.rest with
  | [] => return true
  | '|' :: _ => return style.extended
  | ')' :: _ => return style.extended && 0 < s.depth
  | '\\' :: c :: _ => return !style.extended && (c = '|' || c = ')')
  | _ => return false

/-- Whether a dollar sign that has just been read ends an alternative of the basic form. -/
def dollarEnds (style : RegexStyle) : RegexReader Bool := do
  let s ← get
  match s.rest with
  | [] => return true
  | '\\' :: c :: _ => return !style.extended && (c = '|' || c = ')')
  | _ => return style.extended

/-- Reads one part of an alternative; `first` says whether it is the first one. -/
def takePart (style : RegexStyle) (group : RegexReader Regex) (first : Bool) :
    RegexReader Regex := do
  match ← take? with
  | none => return .empty
  | some '.' => return .one .any
  | some '[' => takeBracket style
  | some '^' => return if style.extended || first then .lineStart else .one (.only '^')
  | some '$' => return if ← dollarEnds style then .lineEnd else .one (.only '$')
  | some '(' => if style.extended then group else return .one (.only '(')
  | some ')' =>
    if style.extended && style.strict then throw .closedGroup else return .one (.only ')')
  | some '\\' =>
    match ← take? with
    | none => throw .trailingBackslash
    | some '(' => if style.extended then return .one (.only '(') else group
    | some ')' => if style.extended then return .one (.only ')') else throw .closedGroup
    | some c =>
      if c.isDigit && c ≠ '0' && style.references then
        let n := c.toNat - '0'.toNat
        if (← get).closed.contains n then return .again n else throw .badReference
      match letterMeaning? c with
      | some r => return r
      | none => return .one (.only c)
  | some c => return .one (.only c)

def passIdle (style : RegexStyle) : Nat → RegexReader Unit
  | 0 => return ()
  | fuel + 1 => do
    let before := (← get).rest
    let brace ← comesNext "\x7b"
    if style.strict && brace then throw .badRepeat
    if let some _ := ← takeRepeat? style then
      if style.strict then throw .badRepeat
      modify fun s => { s with idle := s.idle ++ before.take 1 }
      passIdle style fuel

mutual

/-- Reads the parts of an alternative; `fuel` bounds their number. -/
def takeParts (style : RegexStyle) : Nat → Bool → Regex → RegexReader Regex
  | 0, _, r => return r
  | fuel + 1, first, r => do
    if style.extended && first then passIdle style fuel
    if ← atEnd style then return r
    let literalStar ← if !style.extended && first then takeIf "*" else pure false
    let literalBrace ← if !style.extended && first && !literalStar then takeIf "\\\x7b"
      else pure false
    let p ← if literalStar then pure (.one (.only '*'))
      else if literalBrace then pure (.one (.only '\x7b'))
      else takePart style (takeGroup style fuel) first
    match p with
    | .lineStart =>
      let r := .sequence r p
      if style.extended then passIdle style fuel
      if !style.extended && (← takeIf "^") then
        let p ← takeRepeats style fuel false (.one (.only '^'))
        takeParts style fuel false (.sequence r p)
      else takeParts style fuel (!style.extended) r
    | p =>
      let p ← takeRepeats style fuel false p
      takeParts style fuel false (.sequence r p)

def takeEither (style : RegexStyle) : Nat → RegexReader Regex
  | 0 => throw .tooBig
  | fuel + 1 => do
    let r ← takeParts style fuel true .empty
    if ← takeIf (if style.extended then "|" else "\\|") then
      return .either r (← takeEither style fuel)
    else return r

def takeGroup (style : RegexStyle) : Nat → RegexReader Regex
  | 0 => throw .tooBig
  | fuel + 1 => do
    let n := (← get).groups + 1
    modify fun s => { s with groups := n, depth := s.depth + 1 }
    let r ← takeEither style fuel
    unless ← takeIf (if style.extended then ")" else "\\)") do throw .openGroup
    modify fun s => { s with closed := n :: s.closed, depth := s.depth - 1 }
    return .group n r

end

end RegexReader

structure Compiled where
  regex : Regex
  /-- The number of its groups. -/
  groups : Nat
  /-- The signs that repeat nothing. -/
  idle : List Char := []

def compile (style : RegexStyle) (pattern : List Char) : Except RegexError Compiled := do
  let whole : RegexReader Regex := do
    let r ← RegexReader.takeEither style (4 * pattern.length + 8)
    match (← get).rest with
    | [] => return r
    | _ => throw .closedGroup
  let (regex, s) ← whole.run { rest := pattern }
  return { regex, groups := s.groups, idle := s.idle }

end Regex

end ModularBuild
