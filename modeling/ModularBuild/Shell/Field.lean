import ModularBuild.Shell.Pattern
import ModularBuild.Text.CharClass

/-!
# Fields

What the expansion of a word leaves: characters, of which some were quoted, and the stretches that
substitutions without quotes put there. Only these stretches are split into fields, at the
characters of a separator list; blanks among the separators count once and not at the ends. The
arguments that stand for `"$@"` are separated by NUL characters, which no argument has in it.
-/

namespace ModularBuild.Shell

inductive Cell where
  | plain (c : Char)
  | quoted (c : Char)
  /-- A place where a quotation begins or ends, which keeps an empty field. -/
  | mark
deriving DecidableEq, Repr, Inhabited

namespace Cell

def char? : Cell → Option Char
  | plain c | quoted c => some c
  | mark => none

def marked? : Cell → Option MarkedChar
  | plain c => some (c, false)
  | quoted c => some (c, true)
  | mark => none

end Cell

def textOf (cells : List Cell) : String := String.ofList (cells.filterMap Cell.char?)

def patternOf (cells : List Cell) : List MarkedChar := cells.filterMap Cell.marked?

structure Region where
  start : Nat
  stop : Nat
  /-- Whether it is split at NUL characters only. -/
  nulOnly : Bool

/-- A word in the course of its expansion, the newest first. -/
structure Expanded where
  cells : List Cell := []
  size : Nat := 0
  regions : List Region := []

namespace Expanded

def push (x : Expanded) (cells : List Cell) : Expanded :=
  { x with cells := cells.reverse ++ x.cells, size := x.size + cells.length }

def region (x : Expanded) (start : Nat) (nulOnly : Bool := false) : Expanded :=
  { x with regions := ⟨start, x.size, nulOnly⟩ :: x.regions }

/-- Notes the stretch from a place to the end, as part of a stretch that ends there if there is
one. -/
def extend (x : Expanded) (start : Nat) : Expanded :=
  match x.regions with
  | r :: rs =>
    if r.stop = start && !r.nulOnly && r.start < r.stop then
      { x with regions := { r with stop := x.size } :: rs }
    else x.region start
  | [] => x.region start

def all (x : Expanded) : List Cell := x.cells.reverse

end Expanded

/-! ## Splitting -/

def isBlankSeparator (c : Char) : Bool := c = ' ' || c = '\t' || c = '\n' || c = '\x00'

/-- Where the splitting of a word stands: the fields found, newest first, and where the next one
begins. -/
structure Splitting where
  fields : List (List Cell) := []
  start : Nat := 0
  /-- Whether the last stretch was split at NUL characters only. -/
  nulOnly : Bool := false
  /-- Where the field that is not split further can be cut off. -/
  cut : Option Nat := none
  /-- The number of fields still to be split off, if it is limited. -/
  limit : Option Nat := none
  blank : Bool := false

/-- Goes past the separators after the end of a field: blanks, and one other if the field ended with
a blank. -/
def skipSeparators (cells : Array Cell) (separators : List Char) (stop : Nat) :
    Nat → Nat → Bool → Nat
  | 0, p, _ => p
  | fuel + 1, p, blank =>
    if stop ≤ p then p
    else match (cells[p]?.getD .mark).char? with
      | none => p
      | some c =>
        if c ≠ '\x00' && !separators.contains c then p
        else if isBlankSeparator c then skipSeparators cells separators stop fuel (p + 1) blank
        else if blank then skipSeparators cells separators stop fuel (p + 1) false
        else p

def splitRegion (cells : Array Cell) (separators : List Char) (afterNul : Bool) (r : Region) :
    Nat → Nat → Splitting → Splitting
  | 0, _, s => s
  | fuel + 1, p, s =>
    if r.stop ≤ p then s
    else
      let next := splitRegion cells separators afterNul r fuel (p + 1)
      let c? := (cells[p]?.getD .mark).char?
      let isSeparator := c?.any fun c => c = '\x00' || (!r.nulOnly && separators.contains c)
      let isBlank := isSeparator && c?.any isBlankSeparator
      if s.limit = some 0 then
        if isBlank then next { s with cut := s.cut <|> some p }
        else
          next { s with
            cut := if isSeparator && s.blank then s.cut else none, blank := false }
      else if !isSeparator then next s
      else
        let blank := if afterNul || r.nulOnly then s.blank else isBlank
        if p = s.start && blank then next { s with start := p + 1, blank := false }
        else match s.limit with
        | some 1 => next { s with limit := some 0, cut := some p, blank }
        | limit =>
          let field := (cells.extract s.start p).toList
          let q := if r.nulOnly then p + 1
            else skipSeparators cells separators r.stop (r.stop - p) (p + 1) blank
          splitRegion cells separators afterNul r fuel q { s with
            fields := field :: s.fields, start := q, limit := limit.map (· - 1), blank }

/-- The fields of a word, at most as many as the limit says. -/
def splitFields (x : Expanded) (separators : String) (limit : Option Nat := none) :
    List (List Cell) :=
  let cells := x.all.toArray
  let seps := separators.toList
  let s := x.regions.reverse.foldl (fun s r =>
    splitRegion cells seps s.nulOnly r (r.stop - r.start + 1) r.start
      { s with nulOnly := r.nulOnly, blank := false }) { limit : Splitting }
  let rest := (cells.extract s.start (s.cut.getD cells.size)).toList
  let fields := if rest.isEmpty && !s.nulOnly then s.fields else rest :: s.fields
  fields.reverse

end ModularBuild.Shell
