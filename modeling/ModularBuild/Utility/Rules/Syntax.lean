import ModularBuild.Regex.Basic

/-!
# Rules for records

A program is a list of rules. A rule has a pattern, which selects records, and an action for them; some
actions are taken before the first record and some after the last one. An action is made of statements,
and a statement of expressions, whose values are numbers and texts.
-/

namespace ModularBuild.Utility.Rules

/-- A variable of the whole program, or a parameter of the function it stands in. -/
inductive Variable where
  | global (i : Nat)
  | parameter (i : Nat)
deriving DecidableEq, Repr, Inhabited

inductive Arithmetic where
  | add
  | subtract
  | multiply
  | divide
  | remainder
  | power
deriving DecidableEq, Repr

inductive Comparison where
  | equal
  | unequal
  | less
  | lessOrEqual
  | greater
  | greaterOrEqual
deriving DecidableEq, Repr

inductive Builtin where
  | length
  | index
  | substring
  | toUpper
  | toLower
  | integer
  | squareRoot
  | exponential
  | logarithm
  | sine
  | cosine
  | arcTangent
  | random
  | seed
  | format
  | close
  | flush
  | system
  | time
  | date
deriving DecidableEq, Repr

inductive OutputKind where
  | file
  | append
  | command
deriving DecidableEq, Repr

mutual

inductive Expr where
  | number (x : Float)
  | text (s : String)
  /-- Whether the record fits a pattern. -/
  | fits (r : Regex)
  | group (e : Expr)
  | place (p : Place)
  /-- An assignment, of what comes of an operation on the old value if there is one. -/
  | assign (p : Place) (operation : Option Arithmetic) (e : Expr)
  /-- Adds to a variable; the value is the one after that, or the one before. -/
  | step (p : Place) (amount : Float) (after : Bool)
  | negative (e : Expr)
  | positive (e : Expr)
  | not (e : Expr)
  | arithmetic (o : Arithmetic) (a b : Expr)
  | compare (o : Comparison) (a b : Expr)
  | join (a b : Expr)
  | both (a b : Expr)
  | either (a b : Expr)
  | choice (c a b : Expr)
  | matching (negated : Bool) (a : Expr) (p : Pattern)
  /-- Whether an array has a member. -/
  | member (subscripts : List Expr) (array : Variable)
  | call (function : Nat) (args : List Expr)
  | builtin (f : Builtin) (args : List Expr)
  /-- Cuts a text into the members of an array. -/
  | split (e : Expr) (array : Variable) (separator : Option Pattern)
  /-- Finds the first match in a text. -/
  | search (e : Expr) (p : Pattern)
  /-- Replaces the first match, or all. -/
  | replace (all : Bool) (p : Pattern) (replacement : Expr) (target : Place)
  /-- Reads the next record of the input. -/
  | readNext (target : Option Place)
  | readFile (name : Expr) (target : Option Place)
  | readCommand (command : Expr) (target : Option Place)

inductive Place where
  | variable (v : Variable)
  | field (e : Expr)
  | element (array : Variable) (subscripts : List Expr)

/-- A pattern that is written out, or one that is the value of an expression. -/
inductive Pattern where
  | fixed (r : Regex)
  | computed (e : Expr)

end

instance : Inhabited Expr := ⟨.text ""⟩

structure Redirection where
  kind : OutputKind
  target : Expr

inductive Statement where
  | empty
  | value (e : Expr)
  | print (es : List Expr) (redirection : Option Redirection)
  | printFormat (es : List Expr) (redirection : Option Redirection)
  | block (ss : List Statement)
  | cond (c : Expr) (a b : Statement)
  | whileLoop (c : Expr) (body : Statement)
  | doLoop (body : Statement) (c : Expr)
  | forLoop (start : Option Expr) (c : Option Expr) (step : Option Expr) (body : Statement)
  | forEach (v : Variable) (array : Variable) (body : Statement)
  | leaveLoop
  | nextRound
  | nextRecord
  | nextFile
  | exit (e : Option Expr)
  | leaveFunction (e : Option Expr)
  | deleteElement (array : Variable) (subscripts : List Expr)
  | deleteArray (array : Variable)

instance : Inhabited Statement := ⟨.empty⟩

inductive Selection where
  | every
  | only (e : Expr)
  /-- From one record that is selected to the next one that is selected. -/
  | range (start stop : Expr)

structure Rule where
  selection : Selection
  /-- None prints the record. -/
  action : Option Statement

structure Function where
  name : String
  parameters : List String
  body : Statement
  /-- Which parameters are arrays. -/
  arrays : Array Bool

structure Program where
  /-- The actions before the first record. -/
  starts : List Statement
  rules : Array Rule
  /-- The actions after the last record. -/
  stops : List Statement
  functions : Array Function
  /-- The names of the variables. -/
  names : Array String
  /-- Which of the variables are arrays. -/
  arrays : Array Bool

/-! ## Variables with a meaning -/

def knownNames : List String :=
  ["NF", "NR", "FNR", "FS", "OFS", "ORS", "RS", "FILENAME", "RSTART", "RLENGTH", "SUBSEP", "CONVFMT",
    "OFMT", "ARGC", "ARGV", "ENVIRON"]

def known (name : String) : Nat := knownNames.idxOf name

def fieldCount : Nat := 0

def recordNumber : Nat := 1

def fileRecordNumber : Nat := 2

def fieldSeparator : Nat := 3

def outputFieldSeparator : Nat := 4

def outputRecordSeparator : Nat := 5

def recordSeparator : Nat := 6

def fileName : Nat := 7

def matchStart : Nat := 8

def matchLength : Nat := 9

def subscriptSeparator : Nat := 10

def conversionFormat : Nat := 11

def outputFormat : Nat := 12

def argumentCount : Nat := 13

def argumentArray : Nat := 14

def environmentArray : Nat := 15

end ModularBuild.Utility.Rules
