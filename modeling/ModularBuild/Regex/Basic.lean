import ModularBuild.Text.CharClass

/-!
# Regular expressions

A regular expression matches stretches of a text; groups remember what they matched. Of the
stretches that begin first, the longest counts. Where groups could match it in several ways, the
first alternative and the longest repetition are tried first.
-/

namespace ModularBuild

open Text

inductive Regex where
  | empty
  | one (k : CharClass)
  | lineStart
  | lineEnd
  | textStart
  | textEnd
  | wordStart
  | wordEnd
  | wordEdge
  /-- A place where no word begins or ends. -/
  | noWordEdge
  | group (n : Nat) (r : Regex)
  /-- What a group matched. -/
  | again (n : Nat)
  | sequence (a b : Regex)
  | either (a b : Regex)
  | repeated (least : Nat) (most : Option Nat) (r : Regex)
deriving Repr, Inhabited

namespace Regex

/-- What groups matched, by number: the places where it begins and ends. -/
abbrev Captures := List (Nat × Nat × Nat)

structure Subject where
  chars : Array Char
  /-- Whether capitals and small letters are the same. -/
  folds : Bool := false
  /-- Whether lines in the text count as lines; then only a newline itself matches one. -/
  multiline : Bool := false

def Subject.size (t : Subject) : Nat := t.chars.size

def Subject.ofList (cs : List Char) : Subject := { chars := cs.toArray }

def isWordChar (c : Char) : Bool := c.isAlphanum || c = '_'

/-- Whether a word goes on in a text before a place, and after it. -/
def Subject.wordAround (t : Subject) (i : Nat) : Bool × Bool :=
  (0 < i && (t.chars[i - 1]?).any isWordChar, (t.chars[i]?).any isWordChar)

def Subject.fits (t : Subject) (k : CharClass) (c : Char) : Bool :=
  let endsLine := t.multiline && c = '\n'
  match k with
  | .any => !endsLine
  | .oneOf true items =>
    let hit (d : Char) : Bool := items.any (·.holds d)
    !endsLine && !(hit c || (t.folds && (hit c.toLower || hit c.toUpper)))
  | k => k.holds c || (t.folds && (k.holds c.toLower || k.holds c.toUpper))

def Subject.same (t : Subject) (c d : Char) : Bool :=
  c = d || (t.folds && c.toLower = d.toLower)

def holdsAt (t : Subject) (i : Nat) : Regex → Bool
  | lineStart => i = 0 || (t.multiline && t.chars[i - 1]? = some '\n')
  | lineEnd => i = t.size || (t.multiline && t.chars[i]? = some '\n')
  | textStart => i = 0
  | textEnd => i = t.size
  | wordStart => let (before, after) := t.wordAround i; !before && after
  | wordEnd => let (before, after) := t.wordAround i; before && !after
  | wordEdge => let (before, after) := t.wordAround i; before != after
  | noWordEdge => let (before, after) := t.wordAround i; before == after
  | _ => true

def firstAtEach (found : List (Nat × Captures)) : List (Nat × Captures) :=
  (found.foldl (fun (kept : List (Nat × Captures)) e =>
    if kept.any (·.1 = e.1) then kept else e :: kept) []).reverse

/-- What is still to be done about a repetition: to go on from a place after a number of rounds, or
to end at a place. -/
inductive Pending where
  | visit (rounds i : Nat) (found : Captures)
  | stop (i : Nat) (found : Captures)

/-- Works off what is pending. A place is left alone if it was reached before by as many rounds. -/
def repeatFrom (step : Nat → Captures → List (Nat × Captures)) (least : Nat) (most : Option Nat) :
    Nat → List Pending → List (Nat × Nat) → List (Nat × Captures) → List (Nat × Captures)
  | 0, _, _, ends => ends.reverse
  | _, [], _, ends => ends.reverse
  | fuel + 1, .stop i found :: rest, seen, ends =>
    repeatFrom step least most fuel rest seen ((i, found) :: ends)
  | fuel + 1, .visit rounds i found :: rest, seen, ends =>
    if seen.contains (rounds, i) then repeatFrom step least most fuel rest seen ends
    else
      let seen := (rounds, i) :: seen
      let done := if least ≤ rounds then [Pending.stop i found] else []
      let goesOn := most.all (rounds < ·)
      let next := if goesOn then step i found else []
      let next := next.filter fun (j, _) => i < j || rounds < least
      let counted := if most.isSome || rounds < least then rounds + 1 else rounds
      let more := next.map fun (j, found) => Pending.visit counted j found
      repeatFrom step least most fuel (more ++ done ++ rest) seen ends

def repeatFuel (t : Subject) (least : Nat) (most : Option Nat) : Nat :=
  (t.size + 2) * (t.size + 3) * (max least (most.getD 0) + 2)

/-- The places where a match from a place can end, each with what groups matched; those that are
tried first come first. -/
def ends (t : Subject) : Regex → Nat → Captures → List (Nat × Captures)
  | empty, i, found => [(i, found)]
  | one k, i, found =>
    match t.chars[i]? with
    | some c => if t.fits k c then [(i + 1, found)] else []
    | none => []
  | group n r, i, found =>
    (ends t r i found).map fun (j, found) => (j, (n, i, j) :: found.filter (·.1 ≠ n))
  | again n, i, found =>
    match found.lookup n with
    | some (a, b) =>
      let size := b - a
      let same := (List.range size).all fun k =>
        match t.chars[a + k]?, t.chars[i + k]? with
        | some c, some d => t.same c d
        | _, _ => false
      if same then [(i + size, found)] else []
    | none => []
  | sequence a b, i, found =>
    firstAtEach ((ends t a i found).flatMap fun (j, found) => ends t b j found)
  | either a b, i, found => firstAtEach (ends t a i found ++ ends t b i found)
  | repeated least most r, i, found =>
    firstAtEach (repeatFrom (fun j found => ends t r j found) least most (repeatFuel t least most)
      [.visit 0 i found] [] [])
  | r, i, found => if holdsAt t i r then [(i, found)] else []

/-- A match: where it begins and ends, and what groups matched. -/
structure Match where
  start : Nat
  stop : Nat
  groups : Captures := []
deriving Inhabited

def matchAt? (r : Regex) (t : Subject) (i : Nat) : Option Match :=
  (ends t r i []).foldl (fun (best : Option Match) (j, found) =>
    if best.all (·.stop < j) then some ⟨i, j, found⟩ else best) none

/-- The first match from a place on; `fuel` is the number of places to try. -/
def findFor (r : Regex) (t : Subject) : Nat → Nat → Option Match
  | 0, _ => none
  | fuel + 1, i =>
    match r.matchAt? t i with
    | some m => some m
    | none => if i < t.size then findFor r t fuel (i + 1) else none

def find? (r : Regex) (t : Subject) (start : Nat := 0) : Option Match :=
  r.findFor t (t.size + 1 - start) start

def matches? (r : Regex) (t : Subject) : Bool := (r.find? t).isSome

def Subject.slice (t : Subject) (i j : Nat) : String := String.ofList (t.chars.extract i j).toList

/-- What a group matched; group 0 is the whole match. -/
def Match.group? (m : Match) (t : Subject) (n : Nat) : Option String :=
  if n = 0 then some (t.slice m.start m.stop)
  else (m.groups.lookup n).map fun (i, j) => t.slice i j

end Regex

end ModularBuild
