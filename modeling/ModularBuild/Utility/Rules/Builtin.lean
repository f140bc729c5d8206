import ModularBuild.Moment
import ModularBuild.Utility.Rules.State

/-!
# The functions of every program

Functions on texts and on numbers, and those that end or await what the program writes to.
-/

namespace ModularBuild.Utility.Rules

open Text

/-! ## Texts -/

/-- The part of a text from a place on, at most so long. Where the place is before the text, the part
gets longer by as much. -/
def substring (s : String) (start : Int) (length : Option Int) : String :=
  let first := max start 1
  let rest := s.toList.drop (first - 1).toNat
  match length with
  | none => String.ofList rest
  | some n =>
    let n := if start < 1 then n - start else n
    String.ofList (rest.take n.toNat)

/-- The place of a text in another one, counted from 1; 0 if it is not in it. `fuel` is the number of
places. -/
def indexFrom (part : List Char) : Nat → Nat → List Char → Nat
  | 0, _, _ => 0
  | fuel + 1, i, cs =>
    if part.isPrefixOf cs then i else indexFrom part fuel (i + 1) (cs.drop 1)

def indexOf (s part : String) : Nat :=
  if s.isEmpty then 0 else indexFrom part.toList s.length 1 s.toList

/-- What a match is replaced by: in the replacement `&` stands for the match, unless it comes after an
odd number of backslashes, of which half are kept. -/
def replacementFor (matched : List Char) : Nat → List Char → List Char
  | 0, _ => []
  | _, [] => []
  | fuel + 1, '&' :: cs => matched ++ replacementFor matched fuel cs
  | fuel + 1, '\\' :: cs =>
    let slashes := '\\' :: cs.takeWhile (· = '\\')
    match ('\\' :: cs).drop slashes.length with
    | '&' :: rest =>
      let half := slashes.drop ((slashes.length + 1) / 2)
      let sign := if slashes.length % 2 = 1 then ['&'] else matched
      half ++ sign ++ replacementFor matched fuel rest
    | rest => slashes ++ replacementFor matched fuel rest
  | fuel + 1, c :: cs => c :: replacementFor matched fuel cs

/-- Replaces matches from a place on; `previous` is the end of the last one, next to which an empty
match does not count. What comes out is in reverse; `fuel` is the number of places. -/
def replaceFrom (r : Regex) (replacement : List Char) (all : Bool) (t : Regex.Subject) :
    Nat → Nat → Option Nat → Nat → List (List Char) → Nat × List (List Char)
  | 0, _, _, n, out => (n, out)
  | fuel + 1, i, previous, n, out =>
    let piece (a b : Nat) : List Char := (t.chars.extract a b).toList
    let rest : Nat × List (List Char) := (n, piece i t.size :: out)
    if !all && 0 < n then rest
    else match r.find? t i with
    | none => rest
    | some m =>
      let isEmpty := m.start = m.stop
      if isEmpty && previous = some m.start then
        if m.start < t.size then
          replaceFrom r replacement all t fuel (m.start + 1) none n
            (piece i (m.start + 1) :: out)
        else rest
      else
        let text := replacementFor (piece m.start m.stop) (replacement.length + 1) replacement
        let out := text :: piece i m.start :: out
        if isEmpty then
          if m.start < t.size then
            if all then
              replaceFrom r replacement all t fuel (m.start + 1) none (n + 1)
                (piece m.start (m.start + 1) :: out)
            else (n + 1, piece m.start t.size :: out)
          else (n + 1, out)
        else replaceFrom r replacement all t fuel m.stop (some m.stop) (n + 1) out

/-- Replaces the first match or all: the number of matches, and what comes out. -/
def replaced (r : Regex) (replacement : String) (all : Bool) (s : String) : Nat × String :=
  let t := Regex.Subject.ofList s.toList
  let (n, out) := replaceFrom r replacement.toList all t (2 * t.size + 3) 0 none 0 []
  (n, String.ofList out.reverse.flatten)

/-! ## Numbers -/

def wholePart (x : Float) : Float := if x < 0 then x.ceil else x.floor

/-- What remains of a number after a division; it has the sign of the number. -/
def remainder (x y : Float) : Float :=
  match Real.ofFloat x, Real.ofFloat y with
  | .finite a, .finite b =>
    if b.num = 0 then 0.0 / 0.0
    else
      let n := (a.num * b.den) % (b.num * a.den)
      Real.toFloat (.finite { negative := a.negative, num := n, den := a.den * b.den })
  | .finite _, .infinite _ => x
  | _, _ => 0.0 / 0.0

def calculate (o : Arithmetic) (x y : Float) : Float :=
  match o with
  | .add => x + y
  | .subtract => x - y
  | .multiply => x * y
  | .divide => x / y
  | .remainder => remainder x y
  | .power => x.pow y

def nextRandom (n : Nat) : Nat := (n * 25214903917 + 11) % Nat.pow 2 48

/-! ## Calls -/

/-- The text that a format makes of values; `name` is the function that is called. -/
def RulesM.formatted (name : String) (vs : List Value) :
    RulesM (String × Option String) := do
  let conversion ← RulesM.conversion
  match vs with
  | [] => return ("", none)
  | v :: vs =>
    let format ← RulesM.textOf v
    let (out, error) := writeValues conversion (format.length + 1) 1 format.toList vs []
    let text := String.join out.reverse
    match error with
    | none => return (text, none)
    | some .missingArgument =>
      return (text, some s!"not enough arguments passed to {name}(\"{format}\")")
    | some (.improper n) =>
      return (text, some s!"improper conversion(number {n}) in {name}(\"{format}\")")

def RulesM.callBuiltin (f : Builtin) (vs : List Value) : RulesM Value := do
  let text (i : Nat) : RulesM String := RulesM.textOf (vs[i]?.getD .unset)
  let number (i : Nat) : Float := (vs[i]?.getD .unset).toNumber
  let whole (i : Nat) : Int := truncated (number i)
  match f with
  | .length =>
    let s ← if vs.isEmpty then RulesM.recordText else text 0
    return .ofNat s.length
  | .index => return .ofNat (indexOf (← text 0) (← text 1))
  | .substring =>
    let length := if vs.length < 3 then none else some (whole 2)
    return .text (substring (← text 0) (whole 1) length)
  | .toUpper => return .text (← text 0).toUpper
  | .toLower => return .text (← text 0).toLower
  | .integer => return .number (wholePart (number 0))
  | .squareRoot => return .number (number 0).sqrt
  | .exponential => return .number (number 0).exp
  | .logarithm => return .number (number 0).log
  | .sine => return .number (number 0).sin
  | .cosine => return .number (number 0).cos
  | .arcTangent => return .number (Float.atan2 (number 0) (number 1))
  | .random =>
    let n := nextRandom (← get).random
    modify fun st => { st with random := n }
    return .number (Float.ofNat n / Float.ofNat (Nat.pow 2 48))
  | .seed =>
    let old := (← get).seed
    let clock := (← RulesM.inUtility files).clock / Moment.secondLength
    let new := if vs.isEmpty then Float.ofNat clock else number 0
    modify fun st => { st with seed := new, random := new.toUInt64.toNat }
    return .number old
  | .format =>
    let (s, error) ← RulesM.formatted "sprintf" vs
    match error with
    | none => return .text s
    | some e => RulesM.failInRecord e
  | .close => return .number (Float.ofInt (← RulesM.closeNamed (← text 0)))
  | .flush =>
    if vs.isEmpty then
      RulesM.flushFiles
      return .number 0
    else
      let name ← text 0
      let found := (← get).streams.any fun t => t.name = name
      RulesM.flushFiles
      return .number (if found || RulesM.isStandardOutput name then 0 else -1)
  | .system =>
    let command ← text 0
    RulesM.flushFiles
    return .ofNat (← RulesM.runCommand command)
  | .time =>
    return .ofNat ((← RulesM.inUtility files).clock / Moment.secondLength)
  | .date =>
    let format ← if vs.isEmpty then pure "%c" else text 0
    let clock := (← RulesM.inUtility files).clock
    let time := if vs.length < 2 then clock else (whole 1).toNat * Moment.secondLength
    return .text ((Moment.ofTime time).format format)

end ModularBuild.Utility.Rules
