/-!
# Classes of characters

The blanks of Unicode, and what a single character of a pattern may be: anything, one character, or
a member of a bracket expression. The characters of patterns are bytes, and only the first half of
the bytes has letters and signs in it.
-/

namespace ModularBuild.Text

/-! ## Blanks -/

def isBlankChar (c : Char) : Bool :=
  let n := c.toNat
  (0x09 ≤ n && n ≤ 0x0D) || n = 0x20 || n = 0x85 || n = 0xA0 || n = 0x1680
    || (0x2000 ≤ n && n ≤ 0x200A) || n = 0x2028 || n = 0x2029 || n = 0x202F || n = 0x205F
    || n = 0x3000

def isBlank (s : String) : Bool := s.toList.all isBlankChar

/-! ## Characters of patterns -/

def isGraphic (c : Char) : Bool := 0x20 < c.toNat && c.toNat < 0x7F

def isPunctuation (c : Char) : Bool := isGraphic c && !c.isAlphanum

/-- A blank of any kind: space, tab, newline, and what moves a printer. -/
def isSpace (c : Char) : Bool := c = ' ' || (9 ≤ c.toNat && c.toNat ≤ 13)

def namedClasses : List (String × (Char → Bool)) := [
  ("alnum", Char.isAlphanum), ("alpha", Char.isAlpha), ("blank", fun c => c = ' ' || c = '\t'),
  ("cntrl", fun c => c.toNat < 0x20 || c.toNat = 0x7F), ("digit", Char.isDigit),
  ("graph", isGraphic), ("lower", Char.isLower), ("print", fun c => c = ' ' || isGraphic c),
  ("punct", isPunctuation), ("space", isSpace), ("upper", Char.isUpper),
  ("xdigit", fun c => c.isDigit || ('a' ≤ c && c ≤ 'f') || ('A' ≤ c && c ≤ 'F'))]

inductive ClassItem where
  | range (a b : Char)
  | named (name : String)
deriving DecidableEq, Repr

def ClassItem.holds (c : Char) : ClassItem → Bool
  | range a b => a ≤ c && c ≤ b
  | named name =>
    match namedClasses.lookup name with
    | some p => p c
    | none => false

inductive CharClass where
  | any
  | only (c : Char)
  | oneOf (negated : Bool) (items : List ClassItem)
deriving DecidableEq, Repr

def CharClass.holds (k : CharClass) (c : Char) : Bool :=
  match k with
  | any => true
  | only d => c = d
  | oneOf negated items => negated != items.any (·.holds c)

/-- The name of a class between `[:` and `:]`, and what follows it. -/
def className? (cs : List Char) : Option (String × List Char) :=
  match cs with
  | '[' :: ':' :: rest =>
    let name := rest.takeWhile Char.isAlpha
    match rest.drop name.length with
    | ':' :: ']' :: rest => some (String.ofList name, rest)
    | _ => none
  | _ => none

end ModularBuild.Text
