import ModularBuild.Regex.Basic
import ModularBuild.Text.Difference
import ModularBuild.Utility.Input

/-!
# What makes a difference between lines

Lines are compared as the options say: blanks, the case of letters, empty lines and lines that match
an expression can make no difference. What two texts have in common at their start and at their end
is left out of the search for differences.
-/

namespace ModularBuild.Utility

open Text

/-! ## Modes -/

inductive DiffStyle where
  | normal
  | context
  | unified
  /-- Commands of an editor, from the last line to the first. -/
  | script
  /-- Commands like them, from the first line to the last. -/
  | forward
  /-- Commands with numbers of lines. -/
  | counted
  /-- Both files beside each other. -/
  | columns
deriving DecidableEq

inductive IgnoredBlanks where
  | none
  /-- Tabs in the place of blanks. -/
  | tabs
  | trailing
  /-- How many there are. -/
  | amount
  | all
deriving DecidableEq

structure DiffMode where
  style : DiffStyle
  /-- The number of lines around changes that are shown. -/
  around : Nat
  blanks : IgnoredBlanks
  folds : Bool
  ignoresEmpty : Bool
  ignored : List Regex
  stripsReturns : Bool
  asText : Bool
  brief : Bool
  tellsSame : Bool
  recursive : Bool
  /-- Whether a file that is missing counts as empty. -/
  newFiles : Bool
  /-- Whether it does if it is the first one. -/
  newFirst : Bool
  excluded : List String
  labels : List String
  /-- The options as they were given. -/
  switches : String
  tabFirst : Bool
  expandsTabs : Bool
  heading : Option Regex
  /-- The width of both columns. -/
  width : Nat
  /-- Whether lines that are the same are left out of the columns, or out of the second one. -/
  hidesSame : Bool
  firstOnly : Bool

namespace DiffMode

/-! ## Lines -/

/-- Whether a last line without an end is told from one with an end. -/
def marksEnds (m : DiffMode) : Bool := m.style ≠ .script && m.style ≠ .forward

def ignoresSomething (m : DiffMode) : Bool :=
  m.blanks ≠ .none || m.folds || m.ignoresEmpty || !m.ignored.isEmpty

def isGap (c : Char) : Bool := c.isWhitespace || c = '\x0B' || c = '\x0C'

def withoutTabs (cs : List Char) : List Char :=
  (cs.foldl (fun (r : List Char × Nat) c =>
    if c = '\t' then
      let n := 8 - r.2 % 8
      (List.replicate n ' ' ++ r.1, r.2 + n)
    else (c :: r.1, r.2 + 1)) ([], 0)).1.reverse

def key (m : DiffMode) (line : String) : String :=
  let cs := (withoutEnd '\n' line).toList
  let ended := cs.length < line.length
  let cs := if m.folds then cs.map Char.toLower else cs
  let trimmed := (cs.reverse.dropWhile isGap).reverse
  let blind := !m.marksEnds || (m.blanks ≠ .none && m.blanks ≠ .tabs)
  let cs := match m.blanks with
    | .none => cs
    | .tabs => withoutTabs cs
    | .trailing => trimmed
    | .amount =>
      (trimmed.splitBy fun a b => isGap a && isGap b).flatMap fun piece =>
        if piece.head?.any isGap then [' '] else piece
    | .all => cs.filter (!isGap ·)
  String.ofList (if ended || blind then cs ++ ['\n'] else cs)

/-- The number of places from the start where two arrays of lines are the same. -/
def sameLines (olds news : Array String) : Nat := commonLines 0 olds.toList news.toList
where
  commonLines (n : Nat) : List String → List String → Nat
    | a :: as, b :: bs => if a = b then commonLines (n + 1) as bs else n
    | _, _ => n

/-- The changes from old lines to new ones. What the texts have in common at their start and end is
left out of the search, except for the lines that are shown around changes. -/
def changes (m : DiffMode) (olds news : Array String) : List Change :=
  let shown := if m.style = .context || m.style = .unified then m.around else 0
  let complete (l : String) : String := if m.marksEnds then l else withoutEnd '\n' l ++ "\n"
  let olds := olds.map complete
  let news := news.map complete
  let start := sameLines olds news - shown
  let oldRest := olds.extract start olds.size
  let newRest := news.extract start news.size
  let stop := sameLines oldRest.reverse newRest.reverse - shown
  let middle (lines : Array String) : Array String :=
    (lines.extract 0 (lines.size - stop)).map m.key
  (Text.changes (middle oldRest) (middle newRest)).map fun c =>
    { c with oldStart := c.oldStart + start, newStart := c.newStart + start }

def isTrivial (m : DiffMode) (olds news : Array String) (c : Change) : Bool :=
  let lines := olds.extract c.oldStart (c.oldStart + c.oldCount) ++
    news.extract c.newStart (c.newStart + c.newCount)
  let isEmpty (l : String) : Bool :=
    let cs := (withoutEnd '\n' l).toList
    m.ignoresEmpty && if m.blanks = .none || m.blanks = .tabs then cs.isEmpty else cs.all isGap
  lines.all fun l =>
    let subject : Regex.Subject := { chars := (withoutEnd '\n' l).toList.toArray }
    isEmpty l || m.ignored.any (·.matches? subject)

end DiffMode

end ModularBuild.Utility
