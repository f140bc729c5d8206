import ModularBuild.Process.FileTest
import ModularBuild.Utility.Input

/-!
# Counting

`wc` counts the lines, the words, the characters and the bytes of files, and measures their longest
lines. The columns are as wide as the sizes of the files ask for.
-/

namespace ModularBuild.Utility

open Text

structure Counts where
  lines : Nat := 0
  words : Nat := 0
  bytes : Nat := 0
  /-- The length of the longest line. -/
  longest : Nat := 0

namespace Counts

def add (a b : Counts) : Counts :=
  ⟨a.lines + b.lines, a.words + b.words, a.bytes + b.bytes, max a.longest b.longest⟩

/-- The number of words. A word holds a character that is shown; others do not end it. -/
def wordCount (cs : List Char) : Nat :=
  let step (state : Nat × Bool) (c : Char) : Nat × Bool :=
    let (n, inside) := state
    if isSpace c then (n, false)
    else if isGraphic c && !inside then (n + 1, true)
    else (n, inside)
  (cs.foldl step (0, false)).1

/-- The length of the longest line, with tabs that go to columns that 8 divides. -/
def longestLine (cs : List Char) : Nat :=
  let step (state : Nat × Nat) (c : Char) : Nat × Nat :=
    let (longest, column) := state
    if c = '\n' || c = '\r' || c = '\x0c' then (max longest column, 0)
    else if c = '\t' then (longest, column + (8 - column % 8))
    else if c = ' ' || isGraphic c then (longest, column + 1)
    else (longest, column)
  let (longest, column) := cs.foldl step (0, 0)
  max longest column

def ofText (s : String) : Counts :=
  let cs := s.toList
  { lines := cs.count '\n', words := wordCount cs, bytes := cs.length, longest := longestLine cs }

def columns (a : Arguments) (c : Counts) : List Nat :=
  let keys := ["lines", "words", "chars", "bytes", "max-line-length"]
  if keys.any a.has then
    [("lines", c.lines), ("words", c.words), ("chars", c.bytes), ("bytes", c.bytes),
      ("max-line-length", c.longest)].filterMap fun (key, n) => if a.has key then some n else none
  else [c.lines, c.words, c.bytes]

end Counts

/-- The size of a file that is asked about, if it is a regular one; none if there is no such file. -/
def sizeBeforehand (name : String) : UtilityM (Option (Option Nat)) := do
  if name = "-" then
    let m := (← get).machine
    match ((← context).descriptors.find? 0).bind (m.opened[·]?) with
    | some o =>
      match o.target with
      | .file _ | .nameless _ => return some (some (m.content o.target).length)
      | _ => return some none
    | none => return none
  else match ← lookup name with
    | .ok (_, e) => return some (if e.isFile then some (FileTest.sizeOf e) else none)
    | .error _ => return none

def countWidth (names : List String) (columns : Nat) : UtilityM Nat := do
  if names.length = 1 && columns = 1 then return 1
  let sizes ← names.mapM sizeBeforehand
  let total := sizes.foldl (fun n s => n + (s.bind id).getD 0) 0
  let least := if sizes.any (· = some none) then 7 else 1
  return max least (toString total).length

def wcOptions : List OptionSpec :=
  [option 'c' "bytes", option 'm' "chars", option 'l' "lines", option 'L' "max-line-length",
    option 'w' "words", word "total" .required]

def wc : Utility := fun args => do
  let a ← arguments wcOptions args
  let mode ← match a.value? "total" with
    | some s => choiceOf "total" s ["auto", "always", "only", "never"]
    | none => pure "auto"
  let columnCount := (Counts.columns a {}).length
  let width ← if mode = "only" then pure 1 else countWidth a.inputs columnCount
  let showCounts (c : Counts) (title : String) : UtilityM Unit := do
    let shown := (c.columns a).map fun n => padLeft width (toString n)
    sayLine (" ".intercalate shown ++ title)
  let step (state : Counts × Nat) (name : String) : UtilityM (Counts × Nat) := do
    let (total, code) := state
    if name = "" then
      complain "invalid zero-length file name"
      return (total, 1)
    let title := if a.operands.isEmpty then ""
      else " " ++ if name.toList.contains '\n' then nameInMessage name else name
    match ← readNamed name with
    | .ok text =>
      let c := Counts.ofText text
      if mode ≠ "only" then showCounts c title
      return (total.add c, code)
    | .error e =>
      if a.operands.isEmpty then complain s!"'standard input': {e.name}"
      else complainOf name e
      complainOfClosed name e
      if isReadError name e && mode ≠ "only" then showCounts {} title
      return (total, 1)
  let (total, code) ← a.inputs.foldlM step ({}, 0)
  let showsTotal := mode = "always" || mode = "only" || (mode = "auto" && 1 < a.operands.length)
  if showsTotal then showCounts total (if mode = "only" then "" else " total")
  if let some e ← lostOutput then
    if e ≠ .badDescriptor then fail "write error"
  return code

end ModularBuild.Utility
