/-!
# Differences between two texts

Two texts are compared line by line. A shortest way from one to the other is found by two searches
that start at the ends and meet in the middle; then the parts before and after the meeting are
compared the same way. A run of changed lines can often stand in several places: it is moved to
where it faces changes of the other text, else as far down as it goes.
-/

namespace ModularBuild.Text

/-- Some lines of the old text that have others in their place in the new one. -/
structure Change where
  oldStart : Nat
  oldCount : Nat
  newStart : Nat
  newCount : Nat

namespace Difference

/-- The lines that are compared, with their places in the texts. -/
structure Lines where
  olds : Array (String × Nat)
  news : Array (String × Nat)

/-- A part of the old lines and one of the new lines. -/
structure Region where
  oldFrom : Int
  oldTo : Int
  newFrom : Int
  newTo : Int

def Lines.same (l : Lines) (x y : Int) : Bool :=
  match l.olds[x.toNat]?, l.news[y.toNat]? with
  | some a, some b => a.1 == b.1
  | _, _ => false

/-! ## Two searches that meet -/

/-- How far a search has come. A diagonal holds the pairs of lines whose numbers have the same
difference. -/
structure Frontier where
  /-- The old line that is reached on each diagonal. -/
  reached : Array Int
  /-- What is added to a diagonal to find it. -/
  origin : Int
  least : Int
  greatest : Int

namespace Frontier

def onDiagonal (f : Frontier) (d : Int) : Int := f.reached.getD (d + f.origin).toNat 0

def reach (f : Frontier) (d x : Int) : Frontier :=
  { f with reached := f.reached.setIfInBounds (d + f.origin).toNat x }

/-- Goes one diagonal further to both sides, but not out of the region; `nowhere` is what the
diagonals outside have reached. -/
def widen (f : Frontier) (r : Region) (nowhere : Int) : Frontier :=
  let f := if r.oldFrom - r.newTo < f.least then
      { f.reach (f.least - 2) nowhere with least := f.least - 1 }
    else { f with least := f.least + 1 }
  if f.greatest < r.oldTo - r.newFrom then
    { f.reach (f.greatest + 2) nowhere with greatest := f.greatest + 1 }
  else { f with greatest := f.greatest - 1 }

def diagonals (f : Frontier) : List Int :=
  (List.range ((f.greatest - f.least) / 2 + 1).toNat).map fun (i : Nat) =>
    f.greatest - 2 * (i : Int)

def holds (f : Frontier) (d : Int) : Bool := f.least ≤ d && d ≤ f.greatest

end Frontier

/-- Goes down a diagonal while the lines are the same; `fuel` bounds the steps. -/
def Lines.slideDown (l : Lines) (r : Region) : Nat → Int → Int → Int
  | 0, x, _ => x
  | fuel + 1, x, y =>
    if x < r.oldTo && y < r.newTo && l.same x y then l.slideDown r fuel (x + 1) (y + 1) else x

/-- Goes up a diagonal while the lines are the same; `fuel` bounds the steps. -/
def Lines.slideUp (l : Lines) (r : Region) : Nat → Int → Int → Int
  | 0, x, _ => x
  | fuel + 1, x, y =>
    if r.oldFrom < x && r.newFrom < y && l.same (x - 1) (y - 1) then
      l.slideUp r fuel (x - 1) (y - 1)
    else x

/-- Extends the search from the start by one edit, unless it meets the other one. -/
def Lines.advance (l : Lines) (r : Region) (meets : Bool) (down up : Frontier) :
    Except (Int × Int) Frontier :=
  let down := down.widen r (-1)
  down.diagonals.foldlM (fun f d =>
    let low := f.onDiagonal (d - 1)
    let high := f.onDiagonal (d + 1)
    let start := if low < high then high else low + 1
    let x := l.slideDown r l.olds.size start (start - d)
    if meets && up.holds d && up.onDiagonal d ≤ x then throw (x, x - d)
    else return f.reach d x) down

/-- Extends the search from the end by one edit, unless it meets the other one. -/
def Lines.retreat (l : Lines) (r : Region) (meets : Bool) (down up : Frontier) :
    Except (Int × Int) Frontier :=
  let up := up.widen r (l.olds.size + 1)
  up.diagonals.foldlM (fun f d =>
    let low := f.onDiagonal (d - 1)
    let high := f.onDiagonal (d + 1)
    let start := if low < high then low else high - 1
    let x := l.slideUp r l.olds.size start (start - d)
    if meets && down.holds d && x ≤ down.onDiagonal d then throw (x, x - d)
    else return f.reach d x) up

/-- A pair of lines that a shortest way through the region passes; `fuel` bounds the edits. -/
def Lines.meeting (l : Lines) (r : Region) : Nat → Frontier → Frontier → Int × Int
  | 0, _, _ => (r.oldTo, r.newFrom)
  | fuel + 1, down, up =>
    let odd := (r.oldFrom - r.newFrom - (r.oldTo - r.newTo)) % 2 ≠ 0
    let step : Except (Int × Int) (Frontier × Frontier) := do
      let down ← l.advance r odd down up
      return (down, ← l.retreat r (!odd) down up)
    match step with
    | .error met => met
    | .ok (down, up) => l.meeting r fuel down up

def Lines.middle (l : Lines) (r : Region) : Int × Int :=
  let origin : Int := l.news.size + 2
  let none := Array.replicate (l.olds.size + l.news.size + 5) (0 : Int)
  let first := r.oldFrom - r.newFrom
  let last := r.oldTo - r.newTo
  let down : Frontier := { reached := none, origin, least := first, greatest := first }
  let up : Frontier := { reached := none, origin, least := last, greatest := last }
  l.meeting r (l.olds.size + l.news.size + 1) (down.reach first r.oldFrom) (up.reach last r.oldTo)

/-- Which lines of the texts are not in the other one. -/
structure Marks where
  olds : Array Bool
  news : Array Bool

def markAll (lines : Array (String × Nat)) (start stop : Int) (marks : Array Bool) : Array Bool :=
  (lines.extract start.toNat stop.toNat).foldl (fun m l => m.setIfInBounds l.2 true) marks

/-- Marks the lines of a region that change; `fuel` bounds the divisions. -/
def Lines.mark (l : Lines) : Nat → Region → Marks → Marks
  | 0, _, m => m
  | fuel + 1, r, m =>
    let x := l.slideDown r l.olds.size r.oldFrom r.newFrom
    let r := { r with oldFrom := x, newFrom := r.newFrom + (x - r.oldFrom) }
    let x := l.slideUp r l.olds.size r.oldTo r.newTo
    let r := { r with oldTo := x, newTo := r.newTo - (r.oldTo - x) }
    if r.oldFrom = r.oldTo then { m with news := markAll l.news r.newFrom r.newTo m.news }
    else if r.newFrom = r.newTo then { m with olds := markAll l.olds r.oldFrom r.oldTo m.olds }
    else
      let (x, y) := l.middle r
      l.mark fuel { r with oldFrom := x, newFrom := y }
        (l.mark fuel { r with oldTo := x, newTo := y } m)

/-! ## Moving changes -/

def isMarked (marks : Array Bool) (i : Int) : Bool := 0 ≤ i && marks.getD i.toNat false

/-- Goes over marked lines; `fuel` bounds the steps. -/
def overMarked (marks : Array Bool) (step : Int) : Nat → Int → Int
  | 0, i => i
  | fuel + 1, i => if isMarked marks i then overMarked marks step fuel (i + step) else i

/-- A run of marked lines that is being moved. -/
structure Run where
  marks : Array Bool
  start : Int
  stop : Int
  /-- The line of the other text that comes after the run. -/
  other : Int
  /-- Where the run last ended while it faced changes of the other text. -/
  facing : Int

namespace Run

/-- Moves the run up as far as it goes; `fuel` bounds the steps. -/
def moveUp (lines : Array String) (others : Array Bool) (size : Nat) : Nat → Run → Run
  | 0, r => r
  | fuel + 1, r =>
    if 0 < r.start && lines[(r.start - 1).toNat]? == lines[(r.stop - 1).toNat]? then
      let marks := (r.marks.setIfInBounds (r.start - 1).toNat true).setIfInBounds
        (r.stop - 1).toNat false
      let r := { r with
        marks
        start := overMarked marks (-1) size (r.start - 2) + 1
        stop := r.stop - 1
        other := overMarked others (-1) size (r.other - 1) }
      moveUp lines others size fuel r
    else r

/-- Moves the run down as far as it goes; `fuel` bounds the steps. -/
def moveDown (lines : Array String) (others : Array Bool) (size : Nat) : Nat → Run → Run
  | 0, r => r
  | fuel + 1, r =>
    if r.stop < lines.size && lines[r.start.toNat]? == lines[r.stop.toNat]? then
      let marks := (r.marks.setIfInBounds r.start.toNat false).setIfInBounds r.stop.toNat true
      let stop := overMarked marks 1 size (r.stop + 1)
      let other := overMarked others 1 size (r.other + 1)
      moveDown lines others size fuel { r with
        marks, stop, other
        start := r.start + 1
        facing := if r.other + 1 < other then stop else r.facing }
    else r

/-- Moves the run back up to the changes that it faced; `fuel` bounds the steps. -/
def moveBack (others : Array Bool) (size : Nat) : Nat → Run → Run
  | 0, r => r
  | fuel + 1, r =>
    if r.facing < r.stop then
      let marks := (r.marks.setIfInBounds (r.start - 1).toNat true).setIfInBounds
        (r.stop - 1).toNat false
      moveBack others size fuel { r with
        marks
        start := r.start - 1
        stop := r.stop - 1
        other := overMarked others (-1) size (r.other - 1) }
    else r

/-- Moves the run up and down until it does not grow any more; `fuel` bounds how often. -/
def settle (lines : Array String) (others : Array Bool) (size : Nat) : Nat → Run → Run
  | 0, r => r
  | fuel + 1, r =>
    let length := r.stop - r.start
    let r := r.moveUp lines others size size
    let r := { r with facing := if isMarked others (r.other - 1) then r.stop else lines.size }
    let r := r.moveDown lines others size size
    if r.stop - r.start = length then r else settle lines others size fuel r

end Run

/-- Moves all runs of one text from a line on; `fuel` bounds their number. -/
def moveRuns (lines : Array String) (others : Array Bool) (size : Nat) :
    Nat → Int → Int → Array Bool → Array Bool
  | 0, _, _, marks => marks
  | fuel + 1, i, other, marks =>
    if lines.size ≤ i then marks
    else if !isMarked marks i then
      moveRuns lines others size fuel (i + 1) (overMarked others 1 size other + 1) marks
    else
      let run : Run := {
        marks, start := i, stop := overMarked marks 1 size i
        other := overMarked others 1 size other, facing := lines.size }
      let run := (run.settle lines others size size).moveBack others size size
      moveRuns lines others size fuel run.stop run.other run.marks

/-! ## Changes -/

/-- The changes that marks stand for, from a line of each text on; `fuel` bounds their number. -/
def changesFrom (m : Marks) : Nat → Nat → Nat → List Change
  | 0, _, _ => []
  | fuel + 1, i, j =>
    if m.olds.size ≤ i && m.news.size ≤ j then []
    else
      let oldEnd := (overMarked m.olds 1 m.olds.size i).toNat
      let newEnd := (overMarked m.news 1 m.news.size j).toNat
      if oldEnd = i && newEnd = j then changesFrom m fuel (i + 1) (j + 1)
      else ⟨i, oldEnd - i, j, newEnd - j⟩ :: changesFrom m fuel oldEnd newEnd

def partnered (lines others : Array String) : Array (String × Nat) :=
  lines.zipIdx.filter fun l => others.contains l.1

end Difference

open Difference in
def changes (olds news : Array String) : List Change :=
  let l : Lines := { olds := partnered olds news, news := partnered news olds }
  let size := olds.size + news.size + 1
  let lonely (lines others : Array String) : Array Bool := lines.map (!others.contains ·)
  let m := l.mark size ⟨0, l.olds.size, 0, l.news.size⟩
    { olds := lonely olds news, news := lonely news olds }
  let oldMarks := moveRuns olds m.news size size 0 0 m.olds
  let newMarks := moveRuns news oldMarks size size 0 0 m.news
  changesFrom { olds := oldMarks, news := newMarks } (2 * size) 0 0

example : (changes #["a", "b", "c"] #["a", "x", "c"]).map (fun c => (c.oldStart, c.newCount)) =
    [(1, 1)] := by decide +kernel

end ModularBuild.Text
