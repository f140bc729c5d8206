import ModularBuild.Utility.Starting

/-!
# Arguments from input

`xargs` reads arguments and runs a command with as many of them as it is told to at a time. The
arguments stand between blanks, quotes and backslashes keep blanks in them, or they are whole lines.
-/

namespace ModularBuild.Utility

open Text

/-- An argument that was read, with the number of its line. -/
structure ReadArgument where
  text : String
  line : Nat

structure ArgumentState where
  line : Nat := 0
  /-- The argument so far, backwards; none between arguments. -/
  word : Option (List Char) := none
  /-- Newest first. -/
  done : List ReadArgument := []

def ArgumentState.close (s : ArgumentState) : ArgumentState :=
  match s.word with
  | none => s
  | some w => { s with word := none, done := ⟨String.ofList w.reverse, s.line⟩ :: s.done }

def ArgumentState.push (s : ArgumentState) (cs : List Char) : ArgumentState :=
  { s with word := some (cs.reverse ++ s.word.getD []) }

/-- Reads arguments; with `wholeLines`, blanks do not end them. A blank at the end of a line joins it
to the next one where lines are counted. `fuel` bounds the length of the text. -/
def readArguments (wholeLines : Bool) : Nat → List Char → ArgumentState →
    Except String (List ReadArgument)
  | 0, _, s | _, [], s => .ok s.close.done.reverse
  | fuel + 1, c :: cs, s =>
    if c = '\n' then
      readArguments wholeLines fuel cs { s.close with line := s.line + 1 }
    else if c = ' ' || c = '\t' then
      if wholeLines then
        readArguments wholeLines fuel cs (if s.word.isSome then s.push [c] else s)
      else
        let continued := cs.head? = some '\n'
        let (cs, s) := if continued then (cs.drop 1, s.close) else (cs, s.close)
        readArguments wholeLines fuel cs s
    else if c = '\'' || c = '"' then
      let inside := cs.takeWhile fun d => d ≠ c && d ≠ '\n'
      let kind := if c = '"' then "double" else "single"
      let unmatched := s!"unmatched {kind} quote; by default quotes are special to xargs unless " ++
        "you use the -0 option"
      match cs.drop inside.length with
      | d :: rest =>
        if d = c then readArguments wholeLines fuel rest (s.push inside) else .error unmatched
      | [] => .error unmatched
    else if c = '\\' then
      match cs with
      | d :: rest => readArguments wholeLines fuel rest (s.push [d])
      | [] => readArguments wholeLines fuel [] s
    else readArguments wholeLines fuel cs (s.push [c])

/-- How `xargs` puts commands together. -/
structure ListMaking where
  command : List String
  /-- The text that arguments are put in the place of. -/
  place : Option String
  perCommand : Option Nat
  linesPerCommand : Option Nat
  limit : Nat
  shows : Bool
  /-- Whether arguments that are too long together end everything. -/
  strict : Bool

namespace ListMaking

def sizeOf (args : List String) : Nat := args.foldl (fun n s => n + s.length + 1) 0

def take (m : ListMaking) : List ReadArgument → List String → List ReadArgument →
    List String × List ReadArgument
  | _, taken, [] => (taken.reverse, [])
  | first, taken, a :: rest =>
    let full := m.perCommand.any (· ≤ taken.length) ||
      (match m.linesPerCommand, first.head? with
        | some n, some f => f.line + n ≤ a.line
        | _, _ => false) ||
      (!taken.isEmpty && m.limit < sizeOf (m.command ++ taken) + a.text.length + 1)
    if full then (taken.reverse, a :: rest)
    else m.take (if first.isEmpty then [a] else first) (a.text :: taken) rest

def commands (m : ListMaking) : Nat → List ReadArgument → List (List String)
  | 0, _ | _, [] => []
  | fuel + 1, args =>
    match m.place with
    | some place =>
      match args with
      | a :: rest => (m.command.map (·.replace place a.text)) :: m.commands fuel rest
      | [] => []
    | none =>
      let (taken, rest) := m.take [] [] args
      (m.command ++ taken) :: m.commands fuel rest

/-- Runs a command; the answer is an exit code, and whether to go on. -/
def run (m : ListMaking) (input : Nat) (args : List String) : UtilityM (Nat × Bool) := do
  let program := args.headD ""
  if m.shows then writeError (" ".intercalate (args.map shellWord) ++ "\n")
  match ← runChild args fun c => { c with descriptors := c.descriptors.insert 0 input } with
  | .error e =>
    complain s!"{nameInMessage program}: {e.name}"
    return (if e = .noEntry then 127 else 126, false)
  | .ok (.code 0) => return (0, true)
  | .ok (.code 255) =>
    complain s!"{nameInMessage program}: exited with status 255; aborting"
    return (124, false)
  | .ok (.code 126) => return (126, false)
  | .ok (.code 127) => return (127, false)
  | .ok (.code _) => return (123, true)
  | .ok (.signal s) =>
    complain s!"{nameInMessage program}: terminated by signal {s.number}"
    return (125, false)

def runAll (m : ListMaking) (input : Nat) (code : Nat) : List (List String) → UtilityM Nat
  | [] => return code
  | args :: rest => do
    let (n, goesOn) ← m.run input args
    if goesOn then m.runAll input (max code n) rest else return n

end ListMaking

def delimiterOf (s : String) : UtilityM Char := do
  match s.toList with
  | [c] => return c
  | '\\' :: rest =>
    let letters := [("0", '\x00'), ("n", '\n'), ("t", '\t'), ("\\", '\\'), ("r", '\r')]
    match letters.find? (·.1 = String.ofList rest) with
    | some (_, c) => return c
    | none => fail s!"Invalid escape sequence {s} in input delimiter specification."
  | _ =>
    fail (s!"Invalid input delimiter specification {s}: the delimiter must be either a single " ++
      "character or an escape sequence starting with \\.")

def xargs : Utility := fun args => do
  let a ← arguments [option '0' "null", option 'a' "arg-file" .required,
    option 'd' "delimiter" .required, letter 'E' .required, ⟨some 'e', some "eof", .optional⟩,
    letter 'I' .required, ⟨some 'i', some "replace", .optional⟩, letter 'L' .required,
    ⟨some 'l', some "max-lines", .optional⟩, option 'n' "max-args" .required,
    option 'P' "max-procs" .required, option 'o' "open-tty", option 'p' "interactive",
    option 'r' "no-run-if-empty", option 's' "max-chars" .required, word "show-limits",
    option 't' "verbose", option 'x' "exit", word "process-slot-var" .required] args true
  let number (key letter : String) (least : Nat) : UtilityM (Option Nat) := do
    match a.value? key with
    | none => return none
    | some s =>
      match s.toNat? with
      | some n =>
        if least ≤ n then return some n
        refuse s!"value {s} for -{letter} option should be >= {least}"
      | none =>
        refuse s!"invalid number \"{s}\" for -{letter} option"
  let perCommand ← number "max-args" "n" 1
  let lines ← number "L" "L" 1
  let linesToo ← number "max-lines" "l" 1
  let limit ← number "max-chars" "s" 1
  discard <| number "max-procs" "P" 0
  let last := a.last? ["I", "replace", "L", "max-lines", "max-args"]
  let place := match last with
    | some "I" => a.value? "I"
    | some "replace" => some ((a.value? "replace").getD "\x7b\x7d")
    | _ => none
  let linesPerCommand := match last with
    | some "L" => lines
    | some "max-lines" => some (linesToo.getD 1)
    | _ => none
  let text ← match a.value? "arg-file" with
    | some name =>
      match ← readNamed name with
      | .ok text => pure text
      | .error e => fail s!"Cannot open input file {shellQuoted name}: {e.name}"
    | none => pure ((← readDescriptor 0).toOption.getD "")
  let separator ← match a.last? ["null", "delimiter"] with
    | some "null" => pure (some '\x00')
    | some _ => some <$> delimiterOf ((a.value? "delimiter").getD "")
    | none => pure none
  let items ← match separator with
    | some c => pure ((linesOf text c).zipIdx.map fun (s, i) => ⟨s, i⟩)
    | none =>
      match readArguments place.isSome (text.length + 1) text.toList {} with
      | .ok items => pure items
      | .error message => fail message
  let stop := match a.last? ["E", "eof"] with
    | some "E" => a.value? "E"
    | some _ => a.value? "eof"
    | none => none
  let items := match stop with
    | some s => if separator.isNone && !s.isEmpty then items.takeWhile (·.text ≠ s) else items
    | none => items
  let m : ListMaking := {
    command := if a.operands.isEmpty then ["echo"] else a.operands
    place, perCommand := if last = some "max-args" then perCommand else none, linesPerCommand
    limit := limit.getD 131072, shows := a.has "verbose" || a.has "interactive"
    strict := a.has "exit" || place.isSome }
  if m.limit < ListMaking.sizeOf m.command then
    fail "cannot fit single argument within argument list size limit"
  let input ← if a.has "arg-file" then pure (((← context).descriptors.find? 0).getD 0)
    else onMachine (Machine.hold { target := .device .null, reads := true })
  let commands := m.commands (items.length + 1) items
  let commands := if items.isEmpty && place.isNone && !a.has "no-run-if-empty" then [m.command]
    else commands
  m.runAll input 0 commands

end ModularBuild.Utility
