import ModularBuild.CommandLine.Subcommand
import ModularBuild.Path

/-!
# Reading the arguments

Arguments are read from the left: first the options before the subcommand, then those after it. An
option may be given once on either side, and the one after the subcommand wins. The first argument
that asks for help or for the version, or that is wrong, decides.
-/

namespace ModularBuild

/-- What the options and the operand say. -/
structure Settings where
  verbose : Bool := false
  jobs : Option Nat := none
  manifestPath : Option Path := none
  module : Option String := none
  destination : Option Path := none
  tag : Option String := none
  json : Bool := false
  target : Option String := none
deriving DecidableEq, Repr

/-- A command line that was understood. -/
structure CommandLine where
  subcommand : Subcommand
  settings : Settings
deriving DecidableEq, Repr

inductive UsageError where
  | unknownOption (word : String)
  | unexpected (word : String)
  | unknownSubcommand (word : String)
  | repeated (o : OptionName)
  | missingValue (o : OptionName)
  | invalidValue (o : OptionName) (value : String)
  | missingSubcommand
  | missingOperand (name : String)
deriving DecidableEq, Repr

def UsageError.message : UsageError → String
  | unknownOption word | unexpected word => s!"unexpected argument '{word}' found"
  | unknownSubcommand word => s!"unrecognized subcommand '{word}'"
  | repeated o => s!"the argument '--{o.long}' cannot be used multiple times"
  | missingValue o => s!"a value is required for '--{o.long}' but none was supplied"
  | invalidValue o value => s!"invalid value '{value}' for '--{o.long}'"
  | missingSubcommand => "a subcommand is required but one was not provided"
  | missingOperand name => s!"the following required arguments were not provided: <{name}>"

/-- Why reading ends before a command line is understood. -/
inductive Stop where
  | usage (e : UsageError)
  /-- Help on a subcommand, or on all. -/
  | help (topic : Option Subcommand)
  | version
deriving DecidableEq, Repr

namespace Settings

/-! ## Values -/

/-- A number of jobs: digits, with a plus sign or without, below 2^64. -/
def jobsOf? (value : String) : Option Nat := do
  let digits := match value.toList with
    | '+' :: digits => digits
    | digits => digits
  if digits.isEmpty || !digits.all Char.isDigit then none
  else
    let n := Nat.ofDigitChars 10 digits 0
    if n < UInt64.size then some n else none

/-- The settings with one more option; `level` is where it stands. -/
def give (level : Option Subcommand) (s : Settings) (o : OptionName) (value : String) :
    Except Stop Settings :=
  let once (isGiven : Bool) (set : Option Settings) : Except Stop Settings :=
    match isGiven, set with
    | true, _ => .error (.usage (.repeated o))
    | false, none => .error (.usage (.invalidValue o value))
    | false, some s => .ok s
  let path? : Option Path := if value.isEmpty then none else some ⟨value⟩
  match o with
  | .verbose => once s.verbose (some { s with verbose := true })
  | .json => once s.json (some { s with json := true })
  | .jobs => once s.jobs.isSome ((jobsOf? value).map fun n => { s with jobs := some n })
  | .manifestPath =>
    once s.manifestPath.isSome (path?.map fun p => { s with manifestPath := some p })
  | .destination => once s.destination.isSome (path?.map fun p => { s with destination := some p })
  | .module => once s.module.isSome (some { s with module := some value })
  | .tag => once s.tag.isSome (some { s with tag := some value })
  | .help => .error (.help level)
  | .version => .error .version

/-- The settings after the subcommand over those before it. -/
def orElse (inner outer : Settings) : Settings where
  verbose := inner.verbose || outer.verbose
  jobs := inner.jobs <|> outer.jobs
  manifestPath := inner.manifestPath <|> outer.manifestPath
  module := inner.module <|> outer.module
  destination := inner.destination <|> outer.destination
  tag := inner.tag <|> outer.tag
  json := inner.json || outer.json
  target := inner.target <|> outer.target

end Settings

namespace Arguments

/-! ## One argument -/

/-- What an argument is. -/
inductive Word where
  /-- What follows is no option. -/
  | escape
  | long (name : String) (value : Option String)
  | short (letters : List Char)
  | plain
deriving DecidableEq, Repr

def Word.ofString (word : String) : Word :=
  match word.toList with
  | ['-', '-'] => .escape
  | '-' :: '-' :: cs =>
    match cs.dropWhile (· ≠ '=') with
    | [] => .long (String.ofList cs) none
    | _ :: value => .long (String.ofList (cs.takeWhile (· ≠ '='))) (some (String.ofList value))
  | '-' :: c :: cs => .short (c :: cs)
  | _ => .plain

/-- What has been read: the settings, and the option whose value is still to come. -/
abbrev Reading := Settings × Option OptionName

def findLong? (level : Option Subcommand) (name : String) : Option OptionName :=
  (OptionName.allowed level).find? (·.long = name)

def findShort? (level : Option Subcommand) (letter : Char) : Option OptionName :=
  (OptionName.allowed level).find? (·.short? = some letter)

def readLong (level : Option Subcommand) (s : Settings) (name : String) (value : Option String) :
    Except Stop Reading :=
  match findLong? level name with
  | none => .error (.usage (.unknownOption s!"--{name}"))
  | some o =>
    match o.value?, value with
    | none, none => (s.give level o "").map (·, none)
    | none, some value => .error (.usage (.invalidValue o value))
    | some _, none => .ok (s, some o)
    | some _, some value => (s.give level o value).map (·, none)

/-- Reads letters after one dash: flags, up to an option that takes the rest as its value. -/
def readShort (level : Option Subcommand) (s : Settings) : List Char → Except Stop Reading
  | [] => .ok (s, none)
  | c :: cs =>
    match findShort? level c with
    | none => .error (.usage (.unknownOption s!"-{c}"))
    | some o =>
      match o.value?, cs with
      | none, cs => do readShort level (← s.give level o "") cs
      | some _, [] => .ok (s, some o)
      | some _, '=' :: cs => (s.give level o (String.ofList cs)).map (·, none)
      | some _, cs => (s.give level o (String.ofList cs)).map (·, none)

/-! ## All arguments -/

def giveOperand (c : Subcommand) (s : Settings) (word : String) : Except Stop Settings :=
  match c.operand?, s.target with
  | some _, none => .ok { s with target := some word }
  | _, _ => .error (.usage (.unexpected word))

/-- Reads an argument that is no operand; the option before it must not lack its value. -/
def readOption (s : Settings) (waiting : Option OptionName)
    (read : Settings → Except Stop Reading) : Except Stop Reading :=
  match waiting with
  | some o => .error (.usage (.missingValue o))
  | none => read s

def readInner (c : Subcommand) : Settings → Option OptionName → List String → Except Stop Settings
  | _, some o, [] => .error (.usage (.missingValue o))
  | s, none, [] => .ok s
  | s, waiting, word :: words => do
    match Word.ofString word with
    | .escape =>
      match waiting with
      | some o => throw (.usage (.missingValue o))
      | none => words.foldlM (giveOperand c) s
    | .long name value =>
      let (s, waiting) ← readOption s waiting (readLong (some c) · name value)
      readInner c s waiting words
    | .short letters =>
      let (s, waiting) ← readOption s waiting (readShort (some c) · letters)
      readInner c s waiting words
    | .plain =>
      match waiting with
      | some o => readInner c (← s.give (some c) o word) none words
      | none => readInner c (← giveOperand c s word) none words

/-- What help is asked for after the word `help`. -/
def helpTopic : List String → Stop
  | [] => .help none
  | ["help"] => .help none
  | [word] =>
    match Subcommand.ofName? word with
    | some c => .help (some c)
    | none => .usage (.unknownSubcommand word)
  | _ :: word :: _ => .usage (.unknownSubcommand word)

/-- Reads up to the subcommand, and gives what follows it. -/
def readOuter : Settings → Option OptionName → List String →
    Except Stop (Settings × Subcommand × List String)
  | _, some o, [] => .error (.usage (.missingValue o))
  | _, none, [] => .error (.usage .missingSubcommand)
  | s, waiting, word :: words => do
    match Word.ofString word with
    | .escape => throw (.usage .missingSubcommand)
    | .long name value =>
      let (s, waiting) ← readOption s waiting (readLong none · name value)
      readOuter s waiting words
    | .short letters =>
      let (s, waiting) ← readOption s waiting (readShort none · letters)
      readOuter s waiting words
    | .plain =>
      match waiting with
      | some o => readOuter (← s.give none o word) none words
      | none =>
        if word = "help" then throw (helpTopic words)
        match Subcommand.ofName? word with
        | some c => return (s, c, words)
        | none => throw (.usage (.unknownSubcommand word))

/-- The number of jobs. The environment counts where one side does not say it, and has to make sense
then even if the other side wins. -/
def jobsOf (environment : Option String) (outer inner : Settings) : Except Stop (Option Nat) :=
  let given := inner.jobs <|> outer.jobs
  if outer.jobs.isSome && inner.jobs.isSome then .ok given
  else match environment with
    | none => .ok given
    | some value =>
      match Settings.jobsOf? value with
      | some n => .ok (given <|> some n)
      | none => .error (.usage (.invalidValue .jobs value))

/-- Reads a command line; `environment` is the number of jobs the environment asks for. -/
def read (environment : Option String) (words : List String) : Except Stop CommandLine := do
  let (outer, c, rest) ← readOuter {} none words
  let inner ← readInner c {} none rest
  let jobs ← jobsOf environment outer inner
  let settings := { inner.orElse outer with jobs }
  match c.operand?, settings.target with
  | some name, none => throw (.usage (.missingOperand name))
  | _, _ => return ⟨c, settings⟩

end Arguments

end ModularBuild
