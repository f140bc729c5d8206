import ModularBuild.Regex.Reader
import ModularBuild.Text.Escape

/-!
# Patterns of rules

A pattern is an extended regular expression in which characters may be written as escapes. A
repetition has to have something to repeat, and so has an alternative.
-/

namespace ModularBuild.Utility.Rules

open Text

inductive PatternError where
  | missingOperand
  | openGroup
  | badClass
  | repeatedStart
  | badInterval
deriving DecidableEq, Repr

def PatternError.message : PatternError → String
  | missingOperand => "missing operand"
  | openGroup => "missing ')'"
  | badClass => "bad class -- [], [^] or ["
  | repeatedStart => "syntax error ^* or ^+"
  | badInterval => "bad interval expression"

/-! ## Escapes -/

def patternEscapes : List (Char × Char) := escapeLetters.filter (·.1 ≠ 'e')

/-- Reads an escape after its backslash: the character that it stands for, and what follows. -/
def takeEscape (cs : List Char) : Option (Char × List Char) :=
  match cs with
  | [] => none
  | c :: rest =>
    match patternEscapes.lookup c with
    | some d => some (d, rest)
    | none =>
      if isOctal c then some (takeCode 8 3 isOctal cs)
      else if c = 'x' && rest.head?.any isHexadecimal then
        some (takeCode 16 2 isHexadecimal rest)
      else some (c, rest)

def quotedOutside (c : Char) : List Char :=
  if ".[]()*+?\x7b\x7d|^$\\".toList.contains c then ['\\', c] else [c]

def quotedInside (c : Char) : List Char :=
  if "[]^-\\".toList.contains c then ['\\', c] else [c]

/-- The members of brackets up to their end, with simple escapes; `fuel` is the number of
characters. -/
def plainMembers : Nat → Bool → List Char → Except PatternError (List Char × List Char)
  | 0, _, _ => throw .badClass
  | _, _, [] => throw .badClass
  | fuel + 1, first, c :: cs =>
    if c = ']' && !first then return (['\x5d'], cs)
    else match className? (c :: cs) with
      | some (name, rest) => do
        let (more, after) ← plainMembers fuel false rest
        return (s!"[:{name}:]".toList ++ more, after)
      | none => do
        let (taken, rest) := match c with
          | '\\' =>
            match takeEscape cs with
            | some (d, rest) => (quotedInside d, rest)
            | none => (['\\', '\\'], [])
          | c => ([c], cs)
        let (more, after) ← plainMembers fuel false rest
        return (taken ++ more, after)

/-- An interval after its brace, and what follows it. The greatest number counts only if the least one
is below 2. -/
def takeInterval (cs : List Char) : List Char × List Char :=
  let inside := cs.takeWhile (· ≠ '\x7d')
  let least := inside.takeWhile Char.isDigit
  let n := least.foldl (fun n c => n * 10 + (c.toNat - '0'.toNat)) 0
  let most := (inside.drop (least.length + 1)).takeWhile Char.isDigit
  let m := most.foldl (fun n c => n * 10 + (c.toNat - '0'.toNat)) 0
  let rest := cs.drop inside.length
  if 2 ≤ n && (inside.drop least.length).head? = some ',' && (most.isEmpty || n ≤ m) then
    ('\x7b' :: least, rest)
  else ('\x7b' :: inside, rest)

/-- What a part of a pattern stands next to. -/
inductive Before where
  /-- Nothing that could be repeated. -/
  | nothing
  | start
  | operand
deriving DecidableEq

/-- A pattern with simple escapes; `depth` is the number of open groups, and `fuel` is the number of
characters. -/
def plainPattern : Nat → Before → Nat → List Char → Except PatternError (List Char)
  | 0, _, _, _ => return []
  | _, before, depth, [] =>
    if before = .nothing then throw .missingOperand
    else if 0 < depth then throw .openGroup
    else return []
  | fuel + 1, before, depth, c :: cs =>
    let continueWith (taken : List Char) (before : Before) (depth : Nat) (rest : List Char) :
        Except PatternError (List Char) := do
      return taken ++ (← plainPattern fuel before depth rest)
    match c with
    | '\\' =>
      match takeEscape cs with
      | some (d, rest) => continueWith (quotedOutside d) .operand depth rest
      | none => continueWith ['\\', '\\'] .operand depth []
    | '[' => do
      let (start, rest) := match cs with
        | '^' :: rest => (['[', '^'], rest)
        | rest => (['['], rest)
      let (members, after) ← plainMembers (rest.length + 1) true rest
      continueWith (start ++ members) .operand depth after
    | '(' =>
      if cs.isEmpty then throw .openGroup else continueWith ['('] .nothing (depth + 1) cs
    | ')' =>
      if depth = 0 then continueWith ['\\', ')'] .operand 0 cs
      else if before = .nothing then throw .missingOperand
      else continueWith [')'] .operand (depth - 1) cs
    | '|' =>
      if before = .nothing then throw .missingOperand else continueWith ['|'] .nothing depth cs
    | '^' => continueWith ['^'] .start depth cs
    | '*' | '+' | '?' =>
      match before with
      | .nothing => throw .missingOperand
      | .start => throw .repeatedStart
      | .operand => continueWith [c] .operand depth cs
    | '\x7b' =>
      if before = .operand then
        let (taken, rest) := takeInterval cs
        continueWith taken .operand depth rest
      else continueWith ['\\', c] .operand depth cs
    | c => continueWith [c] .operand depth cs

/-! ## Expressions -/

def patternStyle : RegexStyle where
  extended := true
  plainBraces := true
  bracketEscapes := true
  references := false

def patternOf (s : String) : Except PatternError Regex := do
  if s.isEmpty then return .empty
  let plain ← plainPattern (s.length + 1) .nothing 0 s.toList
  match Regex.compile patternStyle plain with
  | .ok compiled => return compiled.regex
  | .error .openGroup => throw .openGroup
  | .error .openBracket | .error .badRange | .error .badClass | .error .badSymbol => throw .badClass
  | .error _ => throw .badInterval

end ModularBuild.Utility.Rules
