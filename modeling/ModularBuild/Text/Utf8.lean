import ModularBuild.Path

/-!
# Bytes and text

Bytes are read as UTF-8, or taken for text one by one.
-/

namespace ModularBuild.Text

/-! ## Reading bytes as text

Bytes that are not UTF-8 are shown as U+FFFD, one for each longest stretch that could still have
become a character. The reader keeps the character begun so far and takes one byte at a time, so it
is a fold over the bytes. -/

/-- A character of which some bytes are still to come: the bits so far, the number of bytes owed,
and the range the next byte has to lie in. -/
structure Utf8Partial where
  bits : Nat
  owed : Nat
  low : Nat
  high : Nat

def replacementChar : Char := '\uFFFD'

/-- What the first byte of a character begins; `none` if no character starts with it. -/
def Utf8Partial.start? (b : Nat) : Option Utf8Partial :=
  if 0xC2 ≤ b && b ≤ 0xDF then some ⟨b % 0x20, 1, 0x80, 0xBF⟩
  else if b = 0xE0 then some ⟨0, 2, 0xA0, 0xBF⟩
  else if b = 0xED then some ⟨0xD, 2, 0x80, 0x9F⟩
  else if 0xE1 ≤ b && b ≤ 0xEF then some ⟨b % 0x10, 2, 0x80, 0xBF⟩
  else if b = 0xF0 then some ⟨0, 3, 0x90, 0xBF⟩
  else if 0xF1 ≤ b && b ≤ 0xF3 then some ⟨b % 0x08, 3, 0x80, 0xBF⟩
  else if b = 0xF4 then some ⟨4, 3, 0x80, 0x8F⟩
  else none

/-- The characters read so far, newest first, and the one in progress. -/
structure Utf8Reader where
  chars : List Char := []
  pending : Option Utf8Partial := none

namespace Utf8Reader

def emit (r : Utf8Reader) (c : Char) : Utf8Reader := { chars := c :: r.chars }

def takeFirst (r : Utf8Reader) (b : Nat) : Utf8Reader :=
  if b < 0x80 then r.emit (Char.ofNat b)
  else match Utf8Partial.start? b with
    | some p => { chars := r.chars, pending := some p }
    | none => r.emit replacementChar

/-- Takes a byte. One that cannot continue the character in progress ends it as a replacement
character and is read afresh. -/
def take (r : Utf8Reader) (byte : UInt8) : Utf8Reader :=
  let b := byte.toNat
  match r.pending with
  | none => r.takeFirst b
  | some p =>
    if p.low ≤ b && b ≤ p.high then
      let bits := p.bits * 0x40 + b % 0x40
      if p.owed ≤ 1 then r.emit (Char.ofNat bits)
      else { chars := r.chars, pending := some ⟨bits, p.owed - 1, 0x80, 0xBF⟩ }
    else (r.emit replacementChar).takeFirst b

def finish (r : Utf8Reader) : String :=
  let chars := if r.pending.isSome then replacementChar :: r.chars else r.chars
  String.ofList chars.reverse

end Utf8Reader

def ofBytes (bytes : List UInt8) : String := (bytes.foldl Utf8Reader.take {}).finish

def toBytes (s : String) : List UInt8 := s.toUTF8.data.toList

end ModularBuild.Text

namespace ModularBuild.ByteText

/-! ## Bytes as characters

Programs handle text byte by byte. Here a byte is a character below U+0100, so that bytes can be
searched, cut and compared like any text. Going over to bytes and back loses nothing; a text whose
bytes are UTF-8 comes back from them too. -/

def ofBytes (bytes : List UInt8) : String :=
  String.ofList (bytes.map fun b => Char.ofNat b.toNat)

def bytes (s : String) : List UInt8 := s.toList.map fun c => UInt8.ofNat c.toNat

def ofText (s : String) : String :=
  if s.toList.all (·.toNat < 0x80) then s else ofBytes (Text.toBytes s)

def text (s : String) : String :=
  if s.toList.all (·.toNat < 0x80) then s else Text.ofBytes (bytes s)

def path (s : String) : Path := ⟨text s⟩

/-- The lines of a text without their ends; a text that ends within a line has that line too. -/
def lines (s : String) : List String :=
  match (pieces '\n' s.toList).reverse with
  | [] :: before => before.reverse.map String.ofList
  | all => all.reverse.map String.ofList

end ModularBuild.ByteText
