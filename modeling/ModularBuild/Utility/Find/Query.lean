import ModularBuild.Files.Mode
import ModularBuild.Regex.Reader
import ModularBuild.Shell.Pattern
import ModularBuild.Text.Escape

/-!
# Queries about files

A query is a condition on files. Some of its parts do something with the files that come to them,
and hold if that has worked.
-/

namespace ModularBuild.Utility.Find

open Text

inductive Measure where
  | exactly (n : Nat)
  | below (n : Nat)
  | above (n : Nat)
deriving Repr

def Measure.holds (m : Measure) (n : Nat) : Bool :=
  match m with
  | exactly k => n = k
  | below k => n < k
  | above k => k < n

inductive PermissionTest where
  | exactly (bits : Nat)
  | all (bits : Nat)
  | any (bits : Nat)

def PermissionTest.holds (t : PermissionTest) (mode : Nat) : Bool :=
  match t with
  | exactly bits => mode = bits
  | all bits => mode &&& bits = bits
  | any bits => bits = 0 || mode &&& bits ≠ 0

inductive AgeUnit where
  | minutes
  | days
deriving DecidableEq

def AgeUnit.length : AgeUnit → Nat
  | minutes => 60 * 1000000000
  | days => 86400 * 1000000000

/-- Whether an age fits. A day counts from its start, a minute up to its end. -/
def AgeUnit.holds (u : AgeUnit) (m : Measure) (age : Nat) : Bool :=
  match u, m with
  | _, .below n => age < n * u.length
  | .days, .above n => (n + 1) * u.length ≤ age
  | .days, .exactly n => n * u.length ≤ age && age < (n + 1) * u.length
  | .minutes, .above n => n * u.length < age
  | .minutes, .exactly n => age ≤ n * u.length && n * u.length < age + u.length

/-! ## Formats -/

/-- How a part of a format is filled up. -/
structure Filling where
  left : Bool := false
  zeros : Bool := false
  /-- Whether an octal number begins with a zero. -/
  marked : Bool := false
  /-- What stands in front of a number that is not negative. -/
  sign : String := ""
  width : Nat := 0
  precision : Option Nat := none

inductive FormatPart where
  | text (s : String)
  /-- A letter that stands for something about the file. -/
  | field (filling : Filling) (c : Char)
  /-- A part of one of its times. -/
  | time (filling : Filling) (c : Char)
  /-- The end of what is written. -/
  | stop

/-! ## Queries -/

inductive Sink where
  | output
  | complaints
  | file (name : String)
deriving DecidableEq

structure Running where
  command : List String
  /-- Whether it is run in the directory of the file. -/
  inDirectory : Bool := false
  /-- Whether it is asked about first. -/
  asks : Bool := false

inductive Condition where
  | constant (b : Bool)
  | name (folds : Bool) (pattern : String)
  | path (folds : Bool) (pattern : String)
  /-- What a link leads to. -/
  | linksTo (folds : Bool) (pattern : String)
  | matching (r : Regex) (folds : Bool)
  /-- What kind of file it is; `others` says that links are looked at where others are followed, and
  the other way round. -/
  | kind (letters : List Char) (others : Bool)
  | empty
  /-- How many units of bytes it has, the last one counted whole. -/
  | size (m : Measure) (unit : Nat)
  | permissions (t : PermissionTest)
  | newer (t : Nat)
  | age (u : AgeUnit) (m : Measure)
  | nameCount (m : Measure)
  | number (m : Measure)
  | owner (m : Measure)
  | readable
  | writable
  | executable
  | sameAs (path : String)
  | print (sink : Sink) (ending : String)
  | printFormat (sink : Sink) (parts : List FormatPart)
  | list (sink : Sink)
  | run (r : Running)
  /-- Runs a program on many files at once, when there are no more. -/
  | runAll (index : Nat) (r : Running)
  | delete
  /-- Keeps out of a directory. -/
  | prune
  | quit

/-- Whether a condition does something, so that files are not printed unasked. -/
def Condition.acts : Condition → Bool
  | print .. | printFormat .. | list _ | run _ | runAll .. | delete | quit => true
  | _ => false

inductive Query where
  | condition (c : Condition)
  | not (q : Query)
  | and (p q : Query)
  | or (p q : Query)
  /-- Both are asked, and the second one counts. -/
  | both (p q : Query)

def Query.acts : Query → Bool
  | condition c => c.acts
  | not q => q.acts
  | and p q | or p q | both p q => p.acts || q.acts

def Query.files : Query → List String
  | condition (.print (.file name) _) | condition (.printFormat (.file name) _)
  | condition (.list (.file name)) => [name]
  | condition _ => []
  | not q => q.files
  | and p q | or p q | both p q => p.files ++ q.files

end ModularBuild.Utility.Find
