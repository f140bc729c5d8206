import ModularBuild.Utility.Difference.Mode

/-!
# How differences are written

Changes are written one by one, as lines or as commands, or in hunks with the lines around them, or
both files are put beside each other.
-/

namespace ModularBuild.Utility

open Text

/-! ## Changes -/

def DiffMode.line (m : DiffMode) (sign line : String) : String :=
  let body := withoutEnd '\n' line
  let shown := if m.expandsTabs then String.ofList (DiffMode.withoutTabs body.toList) else body
  sign ++ shown ++ "\n" ++
    if body.length < line.length then "" else "\\ No newline at end of file\n"

/-- Lines by their numbers from 1 on, of which the last can be less than the first. -/
def lineRange (separator : String) (start count : Nat) : String :=
  if 1 < count then s!"{start + 1}{separator}{start + count}"
  else toString (start + count)

def Change.letter (c : Change) : String :=
  if c.oldCount = 0 then "a" else if c.newCount = 0 then "d" else "c"

def Change.olds (c : Change) (lines : Array String) : List String :=
  (lines.extract c.oldStart (c.oldStart + c.oldCount)).toList

def Change.news (c : Change) (lines : Array String) : List String :=
  (lines.extract c.newStart (c.newStart + c.newCount)).toList

def DiffMode.normalChange (m : DiffMode) (olds news : Array String) (c : Change) : String :=
  let gap := if m.tabFirst then "\t" else " "
  let letter := Change.letter c
  lineRange "," c.oldStart c.oldCount ++ letter ++ lineRange "," c.newStart c.newCount ++ "\n" ++
    String.join ((Change.olds c olds).map (m.line s!"<{gap}")) ++
    (if letter = "c" then "---\n" else "") ++
    String.join ((Change.news c news).map (m.line s!">{gap}"))

/-- A change as a command with its lines; a line that is a dot needs a command of its own. -/
def scriptChange (news : Array String) (c : Change) : String :=
  let range := lineRange "," c.oldStart c.oldCount
  let add (r : List String × Bool) (line : String) : List String × Bool :=
    let line := withoutEnd '\n' line ++ "\n"
    let start := if r.2 then [] else if r.1.isEmpty then [range ++ Change.letter c ++ "\n"]
      else ["a\n"]
    if line = ".\n" then (r.1 ++ start ++ ["..\n.\ns/.//\n"], false)
    else (r.1 ++ start ++ [line], true)
  if c.newCount = 0 then s!"{range}d\n"
  else
    let (written, isOpen) := (Change.news c news).foldl add ([], false)
    String.join written ++ if isOpen then ".\n" else ""

def forwardChange (news : Array String) (c : Change) : String :=
  let command := Change.letter c ++ lineRange " " c.oldStart c.oldCount ++ "\n"
  if c.newCount = 0 then command
  else command ++ String.join ((Change.news c news).map (withoutEnd '\n' · ++ "\n")) ++ ".\n"

def countedChange (news : Array String) (c : Change) : String :=
  (if c.oldCount = 0 then "" else s!"d{c.oldStart + 1} {c.oldCount}\n") ++
    if c.newCount = 0 then ""
    else s!"a{c.oldStart + c.oldCount} {c.newCount}\n" ++ String.join (Change.news c news)

/-! ## Hunks -/

abbrev Hunk := List (Change × Bool)

def DiffMode.hunks (m : DiffMode) (cs : List (Change × Bool)) : List Hunk :=
  cs.splitBy fun (a, aCounts) (b, bCounts) =>
    let distance := b.oldStart - (a.oldStart + a.oldCount)
    distance < if aCounts && bCounts then 2 * m.around + 1 else m.around

def DiffMode.stretch (m : DiffMode) (olds news : Array String) (h : Hunk) : Change :=
  let firstOld := (h.head?.map (·.1.oldStart)).getD 0
  let firstNew := (h.head?.map (·.1.newStart)).getD 0
  let lastOld := (h.getLast?.map fun c => c.1.oldStart + c.1.oldCount).getD 0
  let lastNew := (h.getLast?.map fun c => c.1.newStart + c.1.newCount).getD 0
  let before := min m.around (min firstOld firstNew)
  let after := min m.around (min (olds.size - lastOld) (news.size - lastNew))
  { oldStart := firstOld - before, oldCount := lastOld + after - (firstOld - before)
    newStart := firstNew - before, newCount := lastNew + after - (firstNew - before) }

/-- What stands in the head of a hunk for the part of the file that it is in. -/
def DiffMode.headingOf (m : DiffMode) (olds : Array String) (start : Nat) : String :=
  let found := m.heading.bind fun r =>
    (olds.extract 0 start).toList.reverse.find? fun l =>
      r.matches? { chars := (withoutEnd '\n' l).toList.toArray }
  match found with
  | none => ""
  | some l =>
    let cs := ((withoutEnd '\n' l).toList.dropWhile DiffMode.isGap).take 40
    " " ++ String.ofList (cs.reverse.dropWhile DiffMode.isGap).reverse

def DiffMode.unifiedLines (m : DiffMode) (olds news : Array String) (stop : Nat) :
    Nat → Hunk → List String
  | i, [] => ((olds.extract i stop).toList).map (m.line (if m.tabFirst then "\t" else " "))
  | i, (c, _) :: cs =>
    let tab := if m.tabFirst then "\t" else ""
    ((olds.extract i c.oldStart).toList).map (m.line (if m.tabFirst then "\t" else " ")) ++
      (Change.olds c olds).map (m.line s!"-{tab}") ++
      (Change.news c news).map (m.line s!"+{tab}") ++
      m.unifiedLines olds news stop (c.oldStart + c.oldCount) cs

def DiffMode.unifiedHunk (m : DiffMode) (olds news : Array String) (h : Hunk) : String :=
  let s := m.stretch olds news h
  let range (start count : Nat) : String :=
    if count = 0 then s!"{start},0" else if count = 1 then toString (start + 1)
    else s!"{start + 1},{count}"
  s!"@@ -{range s.oldStart s.oldCount} +{range s.newStart s.newCount} @@" ++
    m.headingOf olds s.oldStart ++ "\n" ++
    String.join (m.unifiedLines olds news (s.oldStart + s.oldCount) s.oldStart h)

/-- One side of a context hunk: the stretch of its lines, and the changed parts of it with their
signs. -/
def DiffMode.contextLines (m : DiffMode) (lines : Array String) (stop : Nat) :
    Nat → List (Nat × Nat × String) → List String
  | i, [] => ((lines.extract i stop).toList).map (m.line (if m.tabFirst then " \t" else "  "))
  | i, (start, count, sign) :: parts =>
    let gap := if m.tabFirst then "\t" else " "
    ((lines.extract i start).toList).map (m.line s!" {gap}") ++
      ((lines.extract start (start + count)).toList).map (m.line s!"{sign}{gap}") ++
      m.contextLines lines stop (start + count) parts

def DiffMode.contextHunk (m : DiffMode) (olds news : Array String) (h : Hunk) : String :=
  let s := m.stretch olds news h
  let range (start count : Nat) : String := lineRange "," start count
  let side (lines : Array String) (start count : Nat)
      (parts : List (Nat × Nat × String)) : String :=
    if parts.all fun p => p.2.1 = 0 then ""
    else String.join (m.contextLines lines (start + count) start parts)
  let oldParts := h.map fun (c, _) =>
    (c.oldStart, c.oldCount, if c.newCount = 0 then "-" else "!")
  let newParts := h.map fun (c, _) =>
    (c.newStart, c.newCount, if c.oldCount = 0 then "+" else "!")
  "***************" ++ m.headingOf olds s.oldStart ++ "\n" ++
    s!"*** {range s.oldStart s.oldCount} ****\n" ++ side olds s.oldStart s.oldCount oldParts ++
    s!"--- {range s.newStart s.newCount} ----\n" ++ side news s.newStart s.newCount newParts

/-! ## Both files beside each other -/

def DiffMode.columns (m : DiffMode) : Nat × Nat :=
  let tab := if m.expandsTabs then 1 else 8
  let start := (m.width + tab + 3) / (2 * tab) * tab
  let half := min (start - 3) (m.width - start)
  (half, if half = 0 then m.width else start)

def DiffMode.gap (m : DiffMode) (start stop : Nat) : String :=
  let tabs := if m.expandsTabs then 0 else stop / 8 - start / 8
  let reached := if tabs = 0 then start else stop / 8 * 8
  String.ofList (List.replicate tabs '\t' ++ List.replicate (stop - reached) ' ')

/-- A line that is being cut to the width of a column. -/
structure CutLine where
  /-- What is left of it, newest first. -/
  written : List Char := []
  /-- Where it is in the file, and in the column. -/
  position : Nat := 0
  reached : Nat := 0

def DiffMode.cutStep (m : DiffMode) (half indent : Nat) (s : CutLine) (c : Char) : CutLine :=
  if c = '\t' then
    let next := s.position + (8 - s.position % 8)
    let line := if s.position ≠ s.reached then s
      else if m.expandsTabs then
        let stop := min half next
        { s with
          written := List.replicate (stop - s.reached) ' ' ++ s.written
          reached := max s.reached stop }
      else if next < half then { s with written := '\t' :: s.written, reached := next }
      else s
    { line with position := next }
  else if c = '\r' then { written := (m.gap 0 indent).toList.reverse ++ '\r' :: s.written }
  else if c = '\x08' then
    let position := s.position - 1
    if s.position = 0 || half ≤ position then { s with position }
    else if s.reached ≤ position then
      { written := List.replicate (position - s.reached) ' ' ++ s.written, position
        reached := position }
    else { written := '\x08' :: s.written, position, reached := position }
  else if c.toNat < 32 || 126 < c.toNat then
    if s.position < half then { s with written := c :: s.written } else s
  else if s.position < half then
    { written := c :: s.written, position := s.position + 1, reached := s.position + 1 }
  else { s with position := s.position + 1 }

def DiffMode.pair (m : DiffMode) (first : Option String) (sign : Char) (second : Option String) :
    String :=
  let (half, start) := m.columns
  let cut (indent : Nat) (l : String) : CutLine :=
    (withoutEnd '\n' l).toList.foldl (m.cutStep half indent) {}
  let ended (l : Option String) : Bool := l.any (·.endsWith "\n")
  let left := (first.map (cut 0)).getD {}
  let middle := (half + start - 1) / 2
  let sign := if sign = '|' && ended first ≠ ended second then (if ended first then '/' else '\\')
    else sign
  let (between, column) := if sign = ' ' then ("", left.reached)
    else (m.gap left.reached middle ++ String.singleton sign, middle + 1)
  let right := match second with
    | none | some "\n" => ""
    | some l => m.gap column start ++ String.ofList (cut start l).written.reverse
  String.ofList left.written.reverse ++ between ++ right ++
    if ended first || ended second then "\n" else ""

def DiffMode.commonPairs (m : DiffMode) (olds news : List String) : List String :=
  if m.hidesSame then []
  else if m.firstOnly then olds.map fun l => m.pair (some l) '(' none
  else
    let n := min olds.length news.length
    (olds.zip news).map (fun (a, b) => m.pair (some a) ' ' (some b)) ++
      (news.drop n).map (fun l => m.pair none ')' (some l)) ++
      (olds.drop n).map fun l => m.pair (some l) '(' none

def DiffMode.changedPairs (m : DiffMode) (olds news : List String) : List String :=
  let n := min olds.length news.length
  (olds.zip news).map (fun (a, b) => m.pair (some a) '|' (some b)) ++
    (news.drop n).map (fun l => m.pair none '>' (some l)) ++
    (olds.drop n).map fun l => m.pair (some l) '<' none

def DiffMode.allPairs (m : DiffMode) (olds news : Array String) :
    Nat → Nat → List Change → List String
  | i, j, [] => m.commonPairs (olds.extract i olds.size).toList (news.extract j news.size).toList
  | i, j, c :: cs =>
    m.commonPairs (olds.extract i c.oldStart).toList (news.extract j c.newStart).toList ++
      m.changedPairs (Change.olds c olds) (Change.news c news) ++
      m.allPairs olds news (c.oldStart + c.oldCount) (c.newStart + c.newCount) cs

/-! ## All together -/

def DiffMode.output (m : DiffMode) (olds news : Array String) (cs : List (Change × Bool)) :
    String :=
  let counting := (cs.filter (·.2)).map (·.1)
  let hunks := (m.hunks cs).filter (·.any (·.2))
  String.join <| match m.style with
    | .normal => counting.map (m.normalChange olds news)
    | .script => counting.reverse.map (scriptChange news)
    | .forward => counting.map (forwardChange news)
    | .counted => counting.map (countedChange news)
    | .unified => hunks.map (m.unifiedHunk olds news)
    | .context => hunks.map (m.contextHunk olds news)
    | .columns => m.allPairs olds news 0 0 counting

end ModularBuild.Utility
