import ModularBuild.Utility.Basic

/-!
# Options

An option is a letter after a dash or a word after two; letters can be joined and words cut short.
Options and operands can stand in any order, and `--` ends the options.
-/

namespace ModularBuild.Utility

open Text

inductive ValueKind where
  | none
  | required
  /-- Only as part of the same argument. -/
  | optional
deriving DecidableEq

structure OptionSpec where
  letter : Option Char
  word : Option String
  value : ValueKind

/-- What the option is called where it is looked for: its word, else its letter. -/
def OptionSpec.key (o : OptionSpec) : String :=
  o.word.getD (String.ofList o.letter.toList)

def option (letter : Char) (word : String) (value : ValueKind := .none) : OptionSpec :=
  ⟨some letter, some word, value⟩

def letter (c : Char) (value : ValueKind := .none) : OptionSpec := ⟨some c, none, value⟩

def word (w : String) (value : ValueKind := .none) : OptionSpec := ⟨none, some w, value⟩

structure GivenOption where
  key : String
  value : Option String := none

structure Arguments where
  /-- In the order they were given. -/
  options : List GivenOption := []
  operands : List String := []

namespace Arguments

def has (a : Arguments) (key : String) : Bool := a.options.any (·.key = key)

def value? (a : Arguments) (key : String) : Option String :=
  ((a.options.filter (·.key = key)).getLast?).bind (·.value)

def values (a : Arguments) (key : String) : List String :=
  (a.options.filter (·.key = key)).filterMap (·.value)

def last? (a : Arguments) (keys : List String) : Option String :=
  ((a.options.filter fun o => keys.contains o.key).getLast?).map (·.key)

def inputs (a : Arguments) : List String := if a.operands.isEmpty then ["-"] else a.operands

end Arguments

def takeWord (specs : List OptionSpec) (argument : String) (rest : List String) :
    Except String (GivenOption × List String) := do
  let body := argument.toList.drop 2
  let name := String.ofList (body.takeWhile (· ≠ '='))
  let attached := match body.drop name.length with
    | _ :: value => some (String.ofList value)
    | [] => none
  let fitting := specs.filter fun o => o.word.any (·.startsWith name)
  let exactly := fitting.filter (·.word = some name)
  let chosen := if exactly.isEmpty then fitting else exactly
  match chosen with
  | [] => throw s!"unrecognized option '{argument}'"
  | o :: others =>
    unless others.isEmpty do
      let names := chosen.map fun o => s!" '--{o.key}'"
      throw s!"option '{argument}' is ambiguous; possibilities:{String.join names}"
    match o.value, attached, rest with
    | .none, some _, _ => throw s!"option '--{o.key}' doesn't allow an argument"
    | .required, none, [] => throw s!"option '--{o.key}' requires an argument"
    | .required, none, value :: rest => return (⟨o.key, some value⟩, rest)
    | _, attached, rest => return (⟨o.key, attached⟩, rest)

def takeLetters (specs : List OptionSpec) (rest : List String) :
    List Char → Except String (List GivenOption × List String)
  | [] => return ([], rest)
  | c :: cs => do
    match specs.find? (·.letter = some c) with
    | none => throw s!"invalid option -- '{c}'"
    | some o =>
      match o.value, cs, rest with
      | .none, cs, rest =>
        let (more, rest) ← takeLetters specs rest cs
        return (⟨o.key, none⟩ :: more, rest)
      | .required, [], [] => throw s!"option requires an argument -- '{c}'"
      | .required, [], value :: rest => return ([⟨o.key, some value⟩], rest)
      | .optional, [], rest => return ([⟨o.key, none⟩], rest)
      | _, cs, rest => return ([⟨o.key, some (String.ofList cs)⟩], rest)

/-- Takes arguments apart; `fuel` is their number, and `ordered` says that the first operand ends the
options. -/
def takeArguments (specs : List OptionSpec) (ordered : Bool) :
    Nat → List String → Except String Arguments
  | 0, rest => return { operands := rest }
  | _, [] => return {}
  | fuel + 1, a :: rest => do
    match a.toList with
    | ['-', '-'] => return { operands := rest }
    | '-' :: '-' :: _ =>
      let (o, rest) ← takeWord specs a rest
      let more ← takeArguments specs ordered fuel rest
      return { more with options := o :: more.options }
    | '-' :: c :: cs =>
      let (os, rest) ← takeLetters specs rest (c :: cs)
      let more ← takeArguments specs ordered fuel rest
      return { more with options := os ++ more.options }
    | _ =>
      if ordered then return { operands := a :: rest }
      let more ← takeArguments specs ordered fuel rest
      return { more with operands := a :: more.operands }

def usualOptions : List OptionSpec := [word "help", word "version"]

def arguments (specs : List OptionSpec) (args : List String) (ordered : Bool := false) :
    UtilityM Arguments := do
  match takeArguments (specs ++ usualOptions) ordered (args.length + 1) args with
  | .error message => refuse message
  | .ok a => if a.has "help" || a.has "version" then quit 0 else return a

/-- The word that an argument of an option stands for, which may be cut short. -/
def choiceOf (option given : String) (choices : List String) : UtilityM String := do
  if choices.contains given then return given
  let list := String.join (choices.map fun c => s!"\n  - '{c}'")
  match choices.filter (·.startsWith given) with
  | [c] => return c
  | fitting =>
    let problem := if fitting.isEmpty then "invalid" else "ambiguous"
    refuse (s!"{problem} argument {inSingleQuotes given} for '--{option}'" ++
      "\nValid arguments are:" ++ list)

end ModularBuild.Utility
