import ModularBuild.Regex.Reader

/-!
# Scripts of a line editor

A script is a list of commands. Each command says on which lines it works and what it does there to
the text in hand, the pattern space, and to the text kept aside, the hold space.
-/

namespace ModularBuild.Utility.Edit

/-! ## Places -/

inductive Origin where
  /-- The number of the argument. -/
  | argument (n : Nat)
  | file (name : String)

/-- A place in a script: how many characters of the part have been read, and the line. -/
structure Place where
  origin : Origin := .argument 1
  taken : Nat := 0
  line : Nat := 1

def Place.text (p : Place) : String :=
  match p.origin with
  | .argument n => s!"-e expression #{n}, char {p.taken}"
  | .file name => s!"file {name} line {p.line}"

/-- A place as it is told of when the script has been read as a whole. -/
def Place.atEnd (p : Place) : Place :=
  match p.origin with
  | .argument _ => { p with taken := 0 }
  | .file _ => p

/-! ## Which lines -/

structure Pattern where
  regex : Regex
  /-- The number of its groups. -/
  groups : Nat
  folds : Bool := false
  multiline : Bool := false
deriving Inhabited

def Pattern.subject (p : Pattern) (text : String) : Regex.Subject :=
  { chars := text.toList.toArray, folds := p.folds, multiline := p.multiline }

inductive Address where
  | line (n : Nat)
  /-- Every so many lines, from a line on. -/
  | every (first step : Nat)
  | last
  /-- Lines that match; without a pattern, the one that was looked for last. -/
  | matching (p : Option Pattern)

inductive RangeEnd where
  | address (a : Address)
  /-- So many lines after the first one. -/
  | after (n : Nat)
  /-- At the next line whose number is a multiple. -/
  | multiple (n : Nat)

structure Selection where
  start : Option Address := none
  stop : Option RangeEnd := none
  /-- Whether it works on all the others. -/
  negated : Bool := false

/-! ## What is done -/

inductive Sink where
  /-- Where the edited text goes. -/
  | result
  /-- Standard output, even if the edited text goes to a file. -/
  | output
  | complaints
  | file (name : String)
deriving DecidableEq

/-- A part of what a match is replaced by. -/
inductive Piece where
  | text (cs : List Char)
  /-- What a group matched, or the whole match. -/
  | group (n : Nat)
  /-- Writes what follows in capitals, in small letters, or as it is. -/
  | turn (change : Option Bool)
  /-- Writes the next character as a capital or as a small letter. -/
  | turnNext (capital : Bool)

structure Substitution where
  pattern : Option Pattern
  replacement : List Piece
  /-- The number of the first match that is replaced. -/
  number : Nat := 1
  /-- Whether all matches from that one on are replaced. -/
  all : Bool := false
  prints : Bool := false
  /-- Whether the result is run as a command. -/
  runs : Bool := false
  sink : Option Sink := none

inductive JumpCondition where
  | always
  /-- If something was replaced since the line was read or a jump was taken. -/
  | replaced
  | notReplaced
deriving DecidableEq

inductive Action where
  | append (text : String)
  | insert (text : String)
  | replaceLines (text : String)
  /-- A jump to a label, or to the end. -/
  | jump (condition : JumpCondition) (label : String)
  | delete
  | deleteFirstLine
  /-- Runs a command, or the pattern space as a command. -/
  | execute (command : Option String)
  | fileName
  | fromHold
  | appendFromHold
  | toHold
  | appendToHold
  | exchange
  /-- Writes the pattern space so that all its characters can be seen. -/
  | list (width : Option Nat)
  | next
  | appendNext
  | print
  | printFirstLine
  | quit (code : Nat)
  | quitAtOnce (code : Nat)
  | readFile (name : String)
  | readLine (name : String)
  | substitute (s : Substitution)
  | write (sink : Sink)
  | writeFirstLine (sink : Sink)
  /-- Exchanges characters one by one. -/
  | characters (table : List (Char × Char))
  | clear
  | lineNumber
  /-- Begins a block, which ends at a place of the script. -/
  | block (stop : Nat)
  | nothing
  /-- A command that is read and cannot be carried out. -/
  | unknown (c : Char)

structure Command where
  selection : Selection := {}
  action : Action

structure Script where
  commands : Array Command := #[]
  /-- The places of the labels, the last one first. -/
  labels : List (String × Nat) := []
  /-- Whether nothing is printed unless a command says so. -/
  quiet : Bool := false
  stop : Place := {}

/-- The place that a label stands for; the empty one stands for the end. -/
def Script.place? (s : Script) (label : String) : Option Nat :=
  if label = "" then some s.commands.size else s.labels.lookup label

def Script.files (s : Script) : List String :=
  let name? : Sink → Option String
    | .file name => some name
    | _ => none
  (s.commands.toList.filterMap fun c =>
    match c.action with
    | .write sink | .writeFirstLine sink => name? sink
    | .substitute { sink := some sink, .. } => name? sink
    | _ => none).eraseDups

end ModularBuild.Utility.Edit
