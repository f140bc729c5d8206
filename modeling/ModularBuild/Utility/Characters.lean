import ModularBuild.Text.Escape
import ModularBuild.Utility.Input

/-!
# Single characters

`tr` replaces characters of standard input by others, deletes them, or leaves one of several equal
ones. The characters are given as sets: single ones, ranges, classes, and repetitions.
-/

namespace ModularBuild.Utility

open Text

/-! ## Sets of characters -/

/-- A character of a set as it was written. -/
structure WrittenChar where
  char : Char
  /-- Whether a backslash took its meaning away. -/
  escaped : Bool := false
deriving DecidableEq, Inhabited

inductive SetPart where
  | char (c : Char)
  | range (a b : Char)
  | named (name : String)
  | equivalents (c : Char)
  /-- A character so many times; zero times means as often as it takes. -/
  | repeated (c : Char) (n : Nat)
deriving DecidableEq

/-- Reads the escapes of a set, with warnings; `fuel` is its length. -/
def writtenChars : Nat → List Char → List WrittenChar × List String
  | 0, _ => ([], [])
  | _, [] => ([], [])
  | fuel + 1, '\\' :: cs =>
    match cs with
    | [] =>
      ([⟨'\\', false⟩], ["warning: an unescaped backslash at end of string is not portable"])
    | c :: rest =>
      if isOctal c then
        let ds := (cs.take 3).takeWhile isOctal
        let value (ds : List Char) : Nat := ds.foldl (fun n d => n * 8 + hexadecimalValue d) 0
        if value ds < 256 then
          let (more, warnings) := writtenChars fuel (cs.drop ds.length)
          (⟨Char.ofNat (value ds), true⟩ :: more, warnings)
        else
          let shown := String.ofList ds
          let start := String.ofList (ds.take 2)
          let (more, warnings) := writtenChars fuel (cs.drop 2)
          (⟨Char.ofNat (value (ds.take 2)), true⟩ :: more,
            (s!"warning: the ambiguous octal escape \\{shown} is being\n\t" ++
              s!"interpreted as the 2-byte sequence \\0{start}, " ++ String.ofList (ds.drop 2))
              :: warnings)
      else
        let d := if c = 'e' then c else (escapeLetters.lookup c).getD c
        let (more, warnings) := writtenChars fuel rest
        (⟨d, true⟩ :: more, warnings)
  | fuel + 1, c :: cs =>
    let (more, warnings) := writtenChars fuel cs
    (⟨c, false⟩ :: more, warnings)

def WrittenChar.isSign (w : WrittenChar) (c : Char) : Bool := w.char = c && !w.escaped

def writtenText (ws : List WrittenChar) : String := String.ofList (ws.map (·.char))

/-- What stands between `[:` and `:]`, and what follows it. -/
def betweenSigns (sign : Char) : List WrittenChar → Option (List WrittenChar × List WrittenChar)
  | a :: b :: rest =>
    if a.isSign sign && b.isSign ']' then some ([], rest)
    else (betweenSigns sign (b :: rest)).map fun (inside, after) => (a :: inside, after)
  | _ => none

/-- A repetition after its opening bracket and its character and star: the number of times. -/
def repetition? (c : Char) (ws : List WrittenChar) :
    Except String (Option (SetPart × List WrittenChar)) := do
  let digits := ws.takeWhile fun w => !w.isSign ']'
  match ws.drop digits.length with
  | [] => return none
  | _ :: rest =>
    let text := writtenText digits
    let base := if text.startsWith "0" then 8 else 10
    if !text.toList.all Char.isDigit || (base = 8 && !text.toList.all isOctal) then
      throw s!"invalid repeat count {inSingleQuotes text} in [c*n] construct"
    let n := text.toList.foldl (fun n d => n * base + hexadecimalValue d) 0
    return some (.repeated c n, rest)

def startsRepetition (ws : List WrittenChar) : Bool :=
  match ws with
  | star :: rest =>
    star.isSign '*' && match rest.dropWhile fun w => w.char.isDigit with
      | close :: _ => close.isSign ']'
      | [] => false
  | [] => false

/-- Reads the part of a set at the front: what stands in brackets, a range, or one character. -/
def takePart (ws : List WrittenChar) : Except String (Option (SetPart × List WrittenChar)) := do
  match ws with
  | [] => return none
  | a :: rest =>
    if a.isSign '[' then
      match rest with
      | sign :: inside =>
        if sign.isSign ':' || sign.isSign '=' then
          if let some (name, after) := betweenSigns sign.char inside then
            let text := writtenText name
            if sign.char = ':' then
              if text = "" then throw "missing character class name '[::]'"
              if (namedClasses.lookup text).isSome then return some (.named text, after)
              if !startsRepetition inside then
                throw s!"invalid character class {inSingleQuotes text}"
            else
              if text = "" then throw "missing equivalence class character '[==]'"
              if let [w] := name then return some (.equivalents w.char, after)
              if !startsRepetition inside then
                throw s!"{text}: equivalence class operand must be a single character"
        match inside with
        | star :: more =>
          if star.isSign '*' then
            if let some found ← repetition? sign.char more then return some found
        | [] => pure ()
      | [] => pure ()
    match rest with
    | dash :: b :: more =>
      if dash.isSign '-' then
        if b.char < a.char then
          let shown (c : Char) : String := String.ofList (if isShown c then [c] else escapeOf c)
          throw (s!"range-endpoints of '{shown a.char}-{shown b.char}' are in reverse collating" ++
            " sequence order")
        return some (.range a.char b.char, more)
    | _ => pure ()
    return some (.char a.char, rest)

/-- Reads the parts of a set; `fuel` is its length. -/
def takeParts : Nat → List WrittenChar → Except String (List SetPart)
  | 0, _ => return []
  | fuel + 1, ws => do
    match ← takePart ws with
    | none => return []
    | some (part, rest) => return part :: (← takeParts fuel rest)

def allBytes : List Char := (List.range 256).map Char.ofNat

/-- The characters of a part; `fill` is how often one that is to be repeated without a number is. -/
def SetPart.chars (fill : Nat) : SetPart → List Char
  | char c | equivalents c => [c]
  | range a b => allBytes.filter fun c => a ≤ c && c ≤ b
  | named name => allBytes.filter (ClassItem.named name).holds
  | repeated c 0 => List.replicate fill c
  | repeated c n => List.replicate n c

def charsOf (parts : List SetPart) (fill : Nat := 0) : List Char := parts.flatMap (·.chars fill)

def caseClasses (parts : List SetPart) (fill : Nat) : List Nat :=
  let step (state : Nat × List Nat) (p : SetPart) : Nat × List Nat :=
    let (n, found) := state
    (n + (p.chars fill).length,
      if p = .named "lower" || p = .named "upper" then n :: found else found)
  (parts.foldl step (0, [])).2

def isOpenRepetition : SetPart → Bool
  | .repeated _ 0 => true
  | _ => false

def SetPart.isClass : SetPart → Bool
  | named _ => true
  | _ => false

def SetPart.isEquivalence : SetPart → Bool
  | equivalents _ => true
  | _ => false

/-! ## Translating -/

structure TrMode where
  complements : Bool
  deletes : Bool
  squeezes : Bool
  truncates : Bool

def TrMode.source (m : TrMode) (first : List SetPart) : List Char :=
  let chars := charsOf first
  if m.complements then allBytes.filter (!chars.contains ·) else chars

def TrMode.images (m : TrMode) (first second : List SetPart) : Except String (List Char) := do
  let source := m.source first
  let plain := charsOf second
  let fill := source.length - plain.length
  let images := charsOf second fill
  if second.any (·.isEquivalence) then
    throw "[=c=] expressions may not appear in string2 when translating"
  if second.any fun p => p.isClass && p ≠ .named "lower" && p ≠ .named "upper" then
    throw ("when translating, the only character classes that may appear in\n" ++
      "string2 are 'upper' and 'lower'")
  if !m.complements then
    let aligned := caseClasses first 0
    if (caseClasses second fill).any fun n => n ≤ source.length && !aligned.contains n then
      throw "misaligned [:upper:] and/or [:lower:] construct"
  let images ←
    if images.length < source.length && !m.truncates then
      match images.getLast? with
      | none => throw "when not truncating set1, string2 must be non-empty"
      | some c =>
        if second.getLast?.any (·.isClass) then
          throw ("when translating with string1 longer than string2,\n" ++
            "the latter string must not end with a character class")
        pure (images ++ List.replicate (source.length - images.length) c)
    else pure images
  if m.complements && first.any (·.isClass) && !(images.length = source.length &&
      images.all (some · = images.head?)) then
    throw ("when translating with complemented character classes,\n" ++
      "string2 must map all characters in the domain to one")
  return images

def translation (source images : List Char) : Array Char :=
  (source.zip images).foldl (fun t (c, d) => t.setIfInBounds c.toNat d) allBytes.toArray

def squeezed (set : List Char) (cs : List Char) : List Char :=
  let member := set.foldl (fun t c => t.setIfInBounds c.toNat true) (Array.replicate 256 false)
  let step (kept : List Char) (c : Char) : List Char :=
    if kept.head? = some c && member.getD c.toNat false then kept else c :: kept
  (cs.foldl step []).reverse

def without (set : List Char) (cs : List Char) : List Char :=
  let member := set.foldl (fun t c => t.setIfInBounds c.toNat true) (Array.replicate 256 false)
  cs.filter fun c => !member.getD c.toNat false

def trOptions : List OptionSpec :=
  [option 'c' "complement", letter 'C', option 'd' "delete", option 's' "squeeze-repeats",
    option 't' "truncate-set1"]

def checkSets (m : TrMode) (operands : List String) : UtilityM Unit := do
  let least := if m.deletes = m.squeezes then 2 else 1
  let most := if m.deletes && !m.squeezes then 1 else 2
  match operands with
  | [] => refuse "missing operand"
  | [a] =>
    if least = 2 then
      let advice := if m.squeezes then
          "Two strings must be given when both deleting and squeezing repeats."
        else "Two strings must be given when translating."
      refuse s!"missing operand after {inSingleQuotes a}\n{advice}"
  | _ =>
    if let extra :: more := operands.drop most then
      let advice := if most = 1 && more.isEmpty then
          "\nOnly one string may be given when deleting without squeezing repeats."
        else ""
      refuse s!"extra operand {inSingleQuotes extra}{advice}"

def readSet (s : String) : UtilityM (List SetPart) := do
  let (written, warnings) := writtenChars (s.length + 1) s.toList
  for w in warnings do complain w
  match takeParts (written.length + 1) written with
  | .ok parts => return parts
  | .error e => fail e

def tr : Utility := fun args => do
  let a ← arguments trOptions args true
  let mode : TrMode := {
    complements := a.has "complement" || a.has "C", deletes := a.has "delete"
    squeezes := a.has "squeeze-repeats", truncates := a.has "truncate-set1" }
  checkSets mode a.operands
  let sets ← a.operands.mapM readSet
  let first := sets.headD []
  let second? := (sets.drop 1).head?
  if first.any isOpenRepetition then
    fail "the [c*] repeat construct may not appear in string1"
  if let some second := second? then
    if 1 < (second.filter isOpenRepetition).length then
      fail "only one [c*] repeat construct may appear in string2"
    if mode.deletes && second.any isOpenRepetition then
      fail "the [c*] construct may appear in string2 only when translating"
  let source := mode.source first
  let work ← match second?, mode.deletes with
    | some second, false =>
      match mode.images first second with
      | .error e => fail e
      | .ok images =>
        let table := translation source images
        pure fun (cs : List Char) =>
          let cs := cs.map fun c => table.getD c.toNat c
          if mode.squeezes then squeezed images cs else cs
    | second?, true =>
      pure fun cs =>
        let cs := without source cs
        if mode.squeezes then squeezed ((second?.map charsOf).getD []) cs else cs
    | none, false => pure (squeezed source)
  match ← readDescriptor 0 with
  | .error e => fail s!"read error: {e.name}"
  | .ok text =>
    say (String.ofList (work text.toList))
    return 0

end ModularBuild.Utility
