import ModularBuild.Utility.Input

/-!
# Bytes as letters

`base64` and `base32` write bytes as letters and digits that stand for six or five bits each, and
read them back.
-/

namespace ModularBuild.Utility

open Text

structure LetterCode where
  alphabet : List Char
  /-- The bits of a letter. -/
  bits : Nat
  /-- The letters of a whole group. -/
  group : Nat

namespace LetterCode

def base64 : LetterCode :=
  ⟨"ABCDEFGHIJKLMNOPQRSTUVWXYZabcdefghijklmnopqrstuvwxyz0123456789+/".toList, 6, 4⟩

def base32 : LetterCode := ⟨"ABCDEFGHIJKLMNOPQRSTUVWXYZ234567".toList, 5, 8⟩

def groupBytes (k : LetterCode) : Nat := k.bits * k.group / 8

def encodeGroup (k : LetterCode) (bytes : List Nat) : List Char :=
  let used := (bytes.length * 8 + k.bits - 1) / k.bits
  let n := (bytes ++ List.replicate (k.groupBytes - bytes.length) 0).foldl (fun n b => n * 256 + b) 0
  let digit (i : Nat) : Nat :=
    n / Nat.pow 2 (k.bits * (k.group - 1 - i)) % Nat.pow 2 k.bits
  (List.range k.group).map fun i => if i < used then k.alphabet.getD (digit i) '=' else '='

/-- The letters of bytes; `fuel` bounds the number of groups. -/
def encode (k : LetterCode) : Nat → List Nat → List Char
  | 0, _ | _, [] => []
  | fuel + 1, bytes =>
    k.encodeGroup (bytes.take k.groupBytes) ++ k.encode fuel (bytes.drop k.groupBytes)

def decodeGroup (k : LetterCode) (letters : List Char) : List Char × Bool :=
  let digits := letters.takeWhile k.alphabet.contains
  let filler := letters.drop digits.length
  let n := (List.range k.group).foldl (fun n i =>
    n * Nat.pow 2 k.bits + (digits[i]?.bind fun c => k.alphabet.idxOf? c).getD 0) 0
  let count := digits.length * k.bits / 8
  let bytes := (List.range count).map fun i =>
    Char.ofNat (n / Nat.pow 256 (k.groupBytes - 1 - i) % 256)
  let used := (count * 8 + k.bits - 1) / k.bits
  let whole := letters.length = k.group && filler.all (· = '=') && used = digits.length &&
    !digits.isEmpty
  (bytes, whole)

/-- The bytes of letters, and whether all of them are proper; `fuel` bounds the number of groups. -/
def decode (k : LetterCode) : Nat → List Char → List Char × Bool
  | 0, _ | _, [] => ([], true)
  | fuel + 1, letters =>
    let (bytes, whole) := k.decodeGroup (letters.take k.group)
    if !whole then (bytes, false)
    else
      let (more, good) := k.decode fuel (letters.drop k.group)
      (bytes ++ more, good)

end LetterCode

/-- Letters in lines of a width; `fuel` bounds their number. -/
def wrapped (width : Nat) : Nat → List Char → String
  | 0, _ | _, [] => ""
  | fuel + 1, cs => String.ofList (cs.take width) ++ "\n" ++ wrapped width fuel (cs.drop width)

def lettered (k : LetterCode) : Utility := fun args => do
  let a ← arguments [option 'd' "decode", option 'i' "ignore-garbage", option 'w' "wrap" .required]
    args
  let width ← match a.value? "wrap" with
    | none => pure 76
    | some s =>
      match s.toNat? with
      | some n => pure n
      | none => fail s!"invalid wrap size: {inSingleQuotes s}"
  if let extra :: _ := a.operands.drop 1 then refuse s!"extra operand {inSingleQuotes extra}"
  let name := a.operands.headD "-"
  match ← readNamed name with
  | .error e =>
    if isReadError name e then fail s!"read error: {e.name}"
    else fail s!"{nameInMessage name}: {e.name}"
  | .ok text =>
    if a.has "decode" then
      let isLetter (c : Char) : Bool := k.alphabet.contains c || c = '='
      let letters := text.toList.filter fun c =>
        if a.has "ignore-garbage" then isLetter c else c ≠ '\n'
      let (bytes, good) := k.decode (letters.length + 1) letters
      say (String.ofList bytes)
      if good then return 0 else fail "invalid input"
    else
      let letters := k.encode (text.length + 1) (text.toList.map Char.toNat)
      say (if width = 0 then String.ofList letters else wrapped width (letters.length + 1) letters)
      return 0

def base64 : Utility := lettered .base64

def base32 : Utility := lettered .base32

end ModularBuild.Utility
