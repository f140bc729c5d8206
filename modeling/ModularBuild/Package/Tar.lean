import ModularBuild.Path
import ModularBuild.Text.Utf8

/-!
# Tape archives, compressed

An archive is a sequence of records, each of which is a header and then some content, in blocks of
512 bytes; two empty blocks are at the end. A file is a record. A header has room for a name of 100
bytes; a longer one is the content of a record in front of that of the file.

An archive is stored in the gzip format, which holds its content as it is, in stored blocks.
-/

namespace ModularBuild

/-- A file in an archive. -/
structure TarEntry where
  name : String
  /-- The permission bits. -/
  mode : Nat
  /-- Seconds since 1970. -/
  modified : Nat
  bytes : List UInt8
deriving DecidableEq, Repr

namespace TarEntry

/-! ## Names -/

def nameLimit : Nat := 100

/-- The names of a path up to the first `..`; those before it are the error if there is one. -/
def namesOf : List Component → Except (List String) (List String)
  | [] => .ok []
  | .parent :: _ => .error []
  | .normal name :: cs =>
    match namesOf cs with
    | .ok names => .ok (name :: names)
    | .error names => .error (name :: names)
  | .root :: cs | .current :: cs => namesOf cs

/-- The start of a text that fits into a header. -/
def shortened (s : String) : String :=
  let fits (n : Nat) : Bool := (String.ofList (s.toList.take n)).utf8ByteSize ≤ nameLimit
  let lengths := (List.range (nameLimit + 1)).filter fits
  String.ofList (s.toList.take (lengths.getLast?.getD 0))

/-- Why a path with these names before a `..` is no name. -/
def climbs (before : List String) : String :=
  "paths in archives must not have `..` when setting path for " ++ "/".intercalate before

/-- The name a path is stored under. One that fits into a header is stored as its components, and
`..` may not be one of them; a longer one is stored as it is spelled, if `..` does not come before
the end of its start. -/
def nameOf (p : Path) : Except String String :=
  let spelled : Except String String :=
    match namesOf (⟨shortened p.text⟩ : Path).components.dropLast with
    | .ok _ => .ok p.text
    | .error before => .error (climbs before)
  match namesOf p.components with
  | .ok names =>
    let name := "/".intercalate names
    if name.utf8ByteSize ≤ nameLimit then .ok name else spelled
  | .error before => if p.text.utf8ByteSize < nameLimit then .error (climbs before) else spelled

end TarEntry

/-! ## Numbers in bytes -/

/-- The digits of a number, the least first, as many as the width says. -/
def digitsOf (base : Nat) : Nat → Nat → List Nat
  | 0, _ => []
  | width + 1, n => n % base :: digitsOf base width (n / base)

def littleEndian (width n : Nat) : List UInt8 := (digitsOf 256 width n).map UInt8.ofNat

def bigEndian (width n : Nat) : List UInt8 := (littleEndian width n).reverse

namespace Tar

def octalDigit (d : Nat) : UInt8 := UInt8.ofNat (0x30 + d)

/-- A number in octal digits, with a zero byte behind. -/
def octal (width n : Nat) : List UInt8 := ((digitsOf 8 (width - 1) n).map octalDigit).reverse ++ [0]

/-- How many numbers have no more octal digits than there is room for. -/
def octalRoom (width : Nat) : Nat := Nat.pow 8 (width - 1)

/-- A number in octal digits, or in bytes after a mark if it has too many of these. -/
def number (width n : Nat) : List UInt8 :=
  if n < octalRoom width then octal width n else 0x80 :: bigEndian (width - 1) n

/-! ## Records -/

def blockSize : Nat := 512

/-- Bytes and as many zeros as reach the width. -/
def padded (width : Nat) (bytes : List UInt8) : List UInt8 :=
  bytes ++ List.replicate (width - bytes.length) 0

/-- How many bytes the last block of a content lacks. -/
def lacking (length : Nat) : Nat := (blockSize - length % blockSize) % blockSize

/-- What a header announces. -/
inductive Kind where
  | file
  /-- The name of the file in the record after this one. -/
  | longName
deriving DecidableEq, Repr

def Kind.flag : Kind → UInt8
  | file => 0x30
  | longName => 0x4C

/-- A header and what it announces. -/
structure Record where
  kind : Kind
  name : List UInt8
  mode : Nat
  modified : Nat
  bytes : List UInt8
deriving DecidableEq, Repr

namespace Record

/-- The fields before the checksum: the name, the mode, no owner and no group, the size, the time. -/
def front (r : Record) : List UInt8 :=
  padded TarEntry.nameLimit r.name ++ octal 8 r.mode ++ (octal 8 0 ++ octal 8 0)
    ++ number 12 r.bytes.length ++ number 12 r.modified

/-- The rest of the block: the kind, no target of a link, the format. -/
def back (r : Record) : List UInt8 :=
  padded 356 (r.kind.flag :: padded 100 [] ++ Text.toBytes "ustar  ")

/-- The sum of the bytes of a header, taken with blanks in the place of the checksum. -/
def checksum (front back : List UInt8) : Nat :=
  (front ++ List.replicate 8 0x20 ++ back).foldl (fun n (b : UInt8) => n + b.toNat) 0

def header (r : Record) : List UInt8 := r.front ++ octal 8 (checksum r.front r.back) ++ r.back

def encode (r : Record) : List UInt8 :=
  r.header ++ r.bytes ++ List.replicate (lacking r.bytes.length) 0

end Record

end Tar

/-! ## Archives -/

/-- The name of a record that holds a name. -/
def TarEntry.longNameMark : String := "././@LongLink"

/-- An entry with its name, long or short. -/
def TarEntry.records (e : TarEntry) : List Tar.Record :=
  let file (name : String) : Tar.Record := ⟨.file, Text.toBytes name, e.mode, e.modified, e.bytes⟩
  let name := Text.toBytes e.name
  if name.length ≤ nameLimit then [file e.name]
  else [⟨.longName, Text.toBytes longNameMark, 0o644, 0, name ++ [0]⟩, file (shortened e.name)]

/-- The archive of some files. -/
def tarOf (es : List TarEntry) : List UInt8 :=
  (es.flatMap TarEntry.records).flatMap Tar.Record.encode
    ++ List.replicate (2 * Tar.blockSize) 0

/-! ## Compressed files -/

namespace Gzip

/-- Eight steps of the division that the checksum is the remainder of. -/
def remainder : Nat → UInt32 → UInt32
  | 0, r => r
  | n + 1, r => remainder n (if r &&& 1 = 1 then (r >>> 1) ^^^ 0xEDB88320 else r >>> 1)

def checksum (bytes : List UInt8) : UInt32 :=
  bytes.foldl (fun r b => remainder 8 (r ^^^ b.toUInt32)) 0xFFFFFFFF ^^^ 0xFFFFFFFF

def blockLimit : Nat := 65535

def block (isLast : Bool) (bytes : List UInt8) : List UInt8 :=
  (if isLast then 1 else 0) :: littleEndian 2 bytes.length
    ++ littleEndian 2 (blockLimit - bytes.length) ++ bytes

/-- The content in blocks; the last one may be empty. -/
def blocks (bytes : List UInt8) : List UInt8 :=
  if bytes.length ≤ blockLimit then block true bytes
  else block false (bytes.take blockLimit) ++ blocks (bytes.drop blockLimit)
termination_by bytes.length
decreasing_by simp only [List.length_drop, blockLimit] at *; omega

/-- What the file starts with: the format, no name, no time, no system. -/
def opening : List UInt8 := [0x1F, 0x8B, 8, 0, 0, 0, 0, 0, 0, 0xFF]

/-- The file that holds these bytes. -/
def store (bytes : List UInt8) : List UInt8 :=
  opening ++ blocks bytes ++ littleEndian 4 (checksum bytes).toNat ++ littleEndian 4 bytes.length

example : checksum [0x31, 0x32, 0x33, 0x34, 0x35, 0x36, 0x37, 0x38, 0x39] = 0xCBF43926 := by
  decide +kernel

end Gzip

end ModularBuild
