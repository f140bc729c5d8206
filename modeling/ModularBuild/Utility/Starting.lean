import ModularBuild.Utility.Times

/-!
# Starting other programs

`env` starts a program with another environment, `nice`, `nohup` and `timeout` under other
conditions. What the program leaves is what they leave; a program that cannot be started has exit
codes of its own.
-/

namespace ModularBuild.Utility

open Text

/-! ## Children -/

/-- Runs a program to its end, in a process of its own. -/
def runChild (args : List String) (adjust : ProcessContext → ProcessContext := fun c => c) :
    UtilityM (Except FileError ExitStatus) := do
  flush
  let c ← context
  let launcher := (← read).launcher
  let process ← onMachine Machine.newProcess
  let child := adjust { c with args, process, parent := c.process }
  onMachine (launcher.startNamed (args.headD "") child)

/-- Goes on as another program; `failed` says why that is impossible. -/
def become (args : List String) (adjust : ProcessContext → ProcessContext)
    (failed : FileError → UtilityM Unit) : UtilityM Nat := do
  flush
  let c ← context
  let launcher := (← read).launcher
  match ← onMachine (launcher.startNamed (args.headD "") (adjust { c with args })) with
  | .ok (.code code) => return code
  | .ok status => throw status
  | .error e =>
    failed e
    return if e = .noEntry then 127 else 126

/-! ## Environments -/

def entryName (entry : String) : String := String.ofList (entry.toList.takeWhile (· ≠ '='))

def withEntry (env : List String) (entry : String) : List String :=
  let name := entryName entry
  if env.any (entryName · = name) then
    env.map fun e => if entryName e = name then entry else e
  else env ++ [entry]

/-- Takes a text apart as `env -S` does; `fuel` bounds its length. -/
def splitWords (env : List String) : Nat → List Char → Option (List Char) →
    Except String (List String)
  | 0, _, _ | _, [], none => .ok []
  | _, [], some word => .ok [String.ofList word.reverse]
  | fuel + 1, c :: cs, word? => do
    let word := word?.getD []
    let finish (rest : List Char) : Except String (List String) := do
      let more ← splitWords env fuel rest none
      return match word? with
        | some w => String.ofList w.reverse :: more
        | none => more
    if c = ' ' || c = '\t' || c = '\n' || c = '\r' || c = '\x0b' || c = '\x0c' then finish cs
    else if c = '\'' then
      let inside := cs.takeWhile (· ≠ '\'')
      if inside.length = cs.length then throw "no terminating quote in -S string"
      splitWords env fuel (cs.drop (inside.length + 1)) (some (inside.reverse ++ word))
    else if c = '"' then
      let inside := cs.takeWhile (· ≠ '"')
      if inside.length = cs.length then throw "no terminating quote in -S string"
      if inside.contains '$' then
        let shown := String.ofList (inside.dropWhile (· ≠ '$'))
        throw s!"only $\x7bVARNAME\x7d expansion is supported, error at: {shown}\""
      splitWords env fuel (cs.drop (inside.length + 1)) (some (inside.reverse ++ word))
    else if c = '\\' then
      match cs with
      | '_' :: rest => finish rest
      | 'c' :: _ => finish []
      | e :: rest =>
        let letters := [('f', '\x0c'), ('n', '\n'), ('r', '\r'), ('t', '\t'), ('v', '\x0b'),
          ('#', '#'), ('$', '$'), ('"', '"'), ('\'', '\''), ('\\', '\\')]
        match letters.find? (·.1 = e) with
        | some (_, d) => splitWords env fuel rest (some (d :: word))
        | none => throw s!"invalid sequence '\\{e}' in -S"
      | [] => throw "invalid backslash at end of string in -S"
    else if c = '$' then
      match cs with
      | '\x7b' :: rest =>
        let name := rest.takeWhile (· ≠ '\x7d')
        if name.length = rest.length then
          throw s!"only $\x7bVARNAME\x7d expansion is supported, error at: {String.ofList (c :: cs)}"
        let value := (env.find? (entryName · = String.ofList name)).map fun e =>
          e.toList.drop (name.length + 1)
        splitWords env fuel (rest.drop (name.length + 1)) (some ((value.getD []).reverse ++ word))
      | _ =>
        throw s!"only $\x7bVARNAME\x7d expansion is supported, error at: {String.ofList (c :: cs)}"
    else if c = '#' && word?.isNone then finish []
    else splitWords env fuel cs (some (c :: word))

/-- The arguments of `env` with those of `-S` put in their place. -/
def withSplitWords (args : List String) : UtilityM (List String) := do
  let environment := (← context).env
  match args with
  | first :: rest =>
    let text? := if first.startsWith "-S" then some (first.drop 2).toString
      else if first.startsWith "-vS" then some (first.drop 3).toString
      else if first.startsWith "--split-string=" then some (first.drop 15).toString
      else none
    match text? with
    | none => return args
    | some text =>
      let (text, rest) := if text.isEmpty then (rest.headD "", rest.drop 1) else (text, rest)
      match splitWords environment (text.length + 1) text.toList none with
      | .ok words => return words ++ rest
      | .error message => fail message
  | [] => return []

/-- The environment that the options of `env` ask for. -/
def startEnvironment (a : Arguments) (clear : Bool) : UtilityM (List String) := do
  let inherited := (← context).env
  let start := if clear then [] else inherited
  for name in a.values "unset" do
    if name.isEmpty || name.toList.contains '=' then
      fail s!"cannot unset {inSingleQuotes name}: {FileError.invalidArgument.name}"
  return start.filter fun e => !(a.values "unset").contains (entryName e)

def adviseSplitting (argument : String) : UtilityM Unit := do
  if argument.toList.any (·.isWhitespace) then
    complain "use -[v]S to pass options in shebang lines"

def env : Utility := fun args => do
  let specs := [option 'i' "ignore-environment", option '0' "null", option 'u' "unset" .required,
    option 'C' "chdir" .required, option 'v' "debug", word "block-signal" .optional,
    word "default-signal" .optional, word "ignore-signal" .optional,
    word "list-signal-handling"]
  let args ← withSplitWords args
  let a ← match takeArguments (specs ++ usualOptions) true (args.length + 1) args with
    | .error message =>
      complain message
      if message = "invalid option -- ' '" then
        complain "use -[v]S to pass options in shebang lines"
      writeError s!"Try '{← programName} --help' for more information.\n"
      quit 125
    | .ok a => pure a
  if a.has "help" || a.has "version" then quit 0
  let dash := a.operands.head? = some "-"
  let operands := if dash then a.operands.drop 1 else a.operands
  let start ← startEnvironment a (dash || a.has "ignore-environment")
  let entries := operands.takeWhile fun s => s.toList.contains '='
  let command := operands.drop entries.length
  let environment := entries.foldl withEntry start
  let cwd ← match a.value? "chdir" with
    | none => pure (← context).cwd
    | some path =>
      if command.isEmpty then refuse "must specify command with --chdir (-C)"
      match ← lookup path with
      | .ok (l, e) =>
        let reason := if e.content = .directory then FileError.permission else .notDirectory
        if e.content = .directory && e.mayExecute then pure l
        else fail s!"cannot change directory to {shellQuoted path}: {reason.name}"
      | .error e => fail s!"cannot change directory to {shellQuoted path}: {e.name}"
  match command with
  | [] =>
    for e in environment do say (e ++ if a.has "null" then "\x00" else "\n")
    return 0
  | program :: _ =>
    if a.has "null" then refuse "cannot specify --null (-0) with command"
    become command (fun c => { c with env := environment, cwd }) fun e => do
      complain s!"{inSingleQuotes program}: {e.name}"
      if e = .noEntry then adviseSplitting program

def printenv : Utility := fun args => do
  let a ← arguments [option '0' "null"] args true
  let ending := if a.has "null" then "\x00" else "\n"
  let environment := (← context).env
  if a.operands.isEmpty then
    for e in environment do say (e ++ ending)
    return 0
  forEach a.operands fun name => do
    let found := if name.toList.contains '=' then none
      else environment.find? (entryName · = name)
    match found with
    | some e =>
      say ((e.drop (name.length + 1)).toString ++ ending)
      return 0
    | none => return 1

/-! ## Other conditions -/

def nice : Utility := fun args => do
  let older (s : String) : List String :=
    match s.toList with
    | '-' :: c :: cs =>
      if c.isDigit then ["-n", String.ofList (c :: cs)]
      else if c = '-' && cs.head?.any Char.isDigit then ["-n", String.ofList (c :: cs)] else [s]
    | _ => [s]
  let args := match args with
    | first :: rest => older first ++ rest
    | [] => []
  let a ← arguments [option 'n' "adjustment" .required] args true
  let amount ← match a.value? "adjustment" with
    | none => pure (10 : Int)
    | some s =>
      match s.toInt? with
      | some n => pure n
      | none => fail s!"invalid adjustment {inSingleQuotes s}"
  match a.operands with
  | [] =>
    if a.has "adjustment" then refuse "a command must be given with an adjustment"
    sayLine "0"
    return 0
  | program :: _ =>
    if amount < 0 then complain s!"cannot set niceness: {FileError.permission.name}"
    become a.operands (fun c => c) fun e => complain s!"{inSingleQuotes program}: {e.name}"

def nohup : Utility := fun args => do
  let a ← arguments [] args true
  match a.operands with
  | [] => refuse "missing operand"
  | program :: _ =>
    become a.operands (fun c => { c with ignored := .hangup :: c.ignored }) fun e =>
      complain s!"failed to run command {inSingleQuotes program}: {e.name}"

/-- A signal by its name, with or without `SIG`, or its number. -/
def signalOf? (s : String) : Option Signal :=
  match s.toNat? with
  | some n => if n ≤ Signal.last then some ⟨n⟩ else none
  | none =>
    let name := s.toUpper
    Signal.ofName? (if name.startsWith "SIG" then (name.drop 3).toString else name)

def timeout : Utility := fun args => do
  let a ← arguments [option 'k' "kill-after" .required, option 's' "signal" .required,
    option 'v' "verbose", word "preserve-status", word "foreground"] args true
  let advise : UtilityM Nat := do
    flush
    writeError s!"Try '{← programName} --help' for more information.\n"
    return 125
  let duration (s : String) : UtilityM Nat := do
    match interval? s with
    | some n => return n
    | none => refuse s!"invalid time interval {inSingleQuotes s}"
  let signal ← match a.value? "signal" with
    | none => pure Signal.terminate
    | some s =>
      match signalOf? s with
      | some signal => pure signal
      | none => refuse s!"{inSingleQuotes s}: invalid signal"
  if let some s := a.value? "kill-after" then discard <| duration s
  match a.operands with
  | limit :: program :: rest =>
    let limit ← duration limit
    let start := (← files).clock
    match ← runChild (program :: rest) with
    | .error e =>
      complain s!"failed to run command {inSingleQuotes program}: {e.name}"
      return if e = .noEntry then 127 else 126
    | .ok status =>
      if 0 < limit && start + limit < (← files).clock then
        if a.has "verbose" then
          complain s!"sending signal {signal.name} to command {inSingleQuotes program}"
        if signal = .kill then throw (.signal .kill)
        return if a.has "preserve-status" then 128 + signal.number else 124
      match status with
      | .code code => return code
      | .signal s => return 128 + s.number
  | _ => advise

end ModularBuild.Utility
