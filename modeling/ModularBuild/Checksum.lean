/-!
# Checksums

A text is summed up as some bytes: block by block with words that are mixed (MD5, SHA-1 and the
SHA-2 family), as the remainder of a division, or as a sum of its bytes.
-/

/-!
## Texts in blocks

Checksums work on blocks of words. A text is filled up to whole blocks by a one bit, zeros and its
length in bits.
-/

namespace ModularBuild.Checksum

def bigEndian (bytes : List UInt8) : Nat := bytes.foldl (fun n b => n * 256 + b.toNat) 0

def toBigEndian : Nat → Nat → List UInt8
  | 0, _ => []
  | width + 1, n => toBigEndian width (n / 256) ++ [UInt8.ofNat (n % 256)]

/-- Bytes in pieces of a size; `fuel` bounds their number. -/
def pieces (size : Nat) : Nat → List UInt8 → List (List UInt8)
  | 0, _ | _, [] => []
  | fuel + 1, bytes => bytes.take size :: pieces size fuel (bytes.drop size)

/-- The bytes filled up to blocks of a size, with a length of a width at the end. -/
def filled (size width : Nat) (length : Nat → List UInt8) (bytes : List UInt8) : List UInt8 :=
  let used := bytes.length + 1 + width
  let zeros := (size - used % size) % size
  bytes ++ [0x80] ++ List.replicate zeros 0 ++ length (8 * bytes.length)

def blocks (size wordSize : Nat) (bytes : List UInt8) : List (List (List UInt8)) :=
  (pieces size (bytes.length / size + 1) bytes).map (pieces wordSize size)

end ModularBuild.Checksum

/-!
## The checksum MD5

Four words are mixed with the words of each block in four rounds of sixteen steps.
-/

namespace ModularBuild.Checksum.Md5

/-- The word of each step: the sine of its number. -/
def sines : Array UInt32 :=
  #[0xd76aa478, 0xe8c7b756, 0x242070db, 0xc1bdceee, 0xf57c0faf, 0x4787c62a,
    0xa8304613, 0xfd469501, 0x698098d8, 0x8b44f7af, 0xffff5bb1, 0x895cd7be,
    0x6b901122, 0xfd987193, 0xa679438e, 0x49b40821, 0xf61e2562, 0xc040b340,
    0x265e5a51, 0xe9b6c7aa, 0xd62f105d, 0x02441453, 0xd8a1e681, 0xe7d3fbc8,
    0x21e1cde6, 0xc33707d6, 0xf4d50d87, 0x455a14ed, 0xa9e3e905, 0xfcefa3f8,
    0x676f02d9, 0x8d2a4c8a, 0xfffa3942, 0x8771f681, 0x6d9d6122, 0xfde5380c,
    0xa4beea44, 0x4bdecfa9, 0xf6bb4b60, 0xbebfbc70, 0x289b7ec6, 0xeaa127fa,
    0xd4ef3085, 0x04881d05, 0xd9d4d039, 0xe6db99e5, 0x1fa27cf8, 0xc4ac5665,
    0xf4292244, 0x432aff97, 0xab9423a7, 0xfc93a039, 0x655b59c3, 0x8f0ccc92,
    0xffeff47d, 0x85845dd1, 0x6fa87e4f, 0xfe2ce6e0, 0xa3014314, 0x4e0811a1,
    0xf7537e82, 0xbd3af235, 0x2ad7d2bb, 0xeb86d391]

/-- How far each step turns, four steps of each round in turn. -/
def turns : Array UInt32 := #[7, 12, 17, 22, 5, 9, 14, 20, 4, 11, 16, 23, 6, 10, 15, 21]

def turn (x n : UInt32) : UInt32 := UInt32.lor (x.shiftLeft n) (x.shiftRight (32 - n))

structure State where
  a : UInt32 := 0x67452301
  b : UInt32 := 0xefcdab89
  c : UInt32 := 0x98badcfe
  d : UInt32 := 0x10325476

def step (words : Array UInt32) (s : State) (i : Nat) : State :=
  let (mixed, k) := match i / 16 with
    | 0 => ((s.b &&& s.c) ||| (~~~s.b &&& s.d), i)
    | 1 => ((s.d &&& s.b) ||| (~~~s.d &&& s.c), (5 * i + 1) % 16)
    | 2 => (s.b ^^^ s.c ^^^ s.d, (3 * i + 5) % 16)
    | _ => (s.c ^^^ (s.b ||| ~~~s.d), 7 * i % 16)
  let sum := mixed + s.a + sines.getD i 0 + words.getD k 0
  { a := s.d, b := s.b + turn sum (turns.getD (i / 16 * 4 + i % 4) 0), c := s.b, d := s.c }

def compress (s : State) (words : Array UInt32) : State :=
  let t := (List.range 64).foldl (step words) s
  ⟨s.a + t.a, s.b + t.b, s.c + t.c, s.d + t.d⟩

def word (bytes : List UInt8) : UInt32 := UInt32.ofNat (bigEndian bytes.reverse)

def checksum (bytes : List UInt8) : List UInt8 :=
  let whole := filled 64 8 (fun n => (toBigEndian 8 n).reverse) bytes
  let s := (blocks 64 4 whole).foldl (fun s block => compress s (block.map word).toArray) {}
  [s.a, s.b, s.c, s.d].flatMap fun x => (toBigEndian 4 x.toNat).reverse

end ModularBuild.Checksum.Md5

/-!
## The checksum SHA-1

Five words are mixed in eighty steps with words that grow out of those of a block.
-/

namespace ModularBuild.Checksum.Sha1

structure State where
  a : UInt32 := 0x67452301
  b : UInt32 := 0xefcdab89
  c : UInt32 := 0x98badcfe
  d : UInt32 := 0x10325476
  e : UInt32 := 0xc3d2e1f0

/-- The eighty words that grow out of the sixteen of a block. -/
def schedule (block : Array UInt32) : Array UInt32 :=
  (List.range 64).foldl (fun ws i =>
    let w (k : Nat) : UInt32 := ws.getD (i + k) 0
    ws.push (Md5.turn (w 13 ^^^ w 8 ^^^ w 2 ^^^ w 0) 1)) block

def step (words : Array UInt32) (s : State) (i : Nat) : State :=
  let (mixed, constant) : UInt32 × UInt32 := match i / 20 with
    | 0 => ((s.b &&& s.c) ||| (~~~s.b &&& s.d), 0x5a827999)
    | 1 => (s.b ^^^ s.c ^^^ s.d, 0x6ed9eba1)
    | 2 => ((s.b &&& s.c) ||| (s.b &&& s.d) ||| (s.c &&& s.d), 0x8f1bbcdc)
    | _ => (s.b ^^^ s.c ^^^ s.d, 0xca62c1d6)
  { a := Md5.turn s.a 5 + mixed + s.e + constant + words.getD i 0
    b := s.a, c := Md5.turn s.b 30, d := s.c, e := s.d }

def compress (s : State) (block : Array UInt32) : State :=
  let t := (List.range 80).foldl (step (schedule block)) s
  ⟨s.a + t.a, s.b + t.b, s.c + t.c, s.d + t.d, s.e + t.e⟩

def word (bytes : List UInt8) : UInt32 := UInt32.ofNat (bigEndian bytes)

def checksum (bytes : List UInt8) : List UInt8 :=
  let whole := filled 64 8 (toBigEndian 8) bytes
  let s := (blocks 64 4 whole).foldl (fun s block => compress s (block.map word).toArray) {}
  [s.a, s.b, s.c, s.d, s.e].flatMap fun x => toBigEndian 4 x.toNat

end ModularBuild.Checksum.Sha1

/-!
## The checksums SHA-2

Eight words are mixed with words that grow out of those of a block. The constants are the fractions
of the roots of the first primes. The words have 32 or 64 bits; the checksums of other sizes begin
with other words and leave some out at the end.
-/

namespace ModularBuild.Checksum.Sha2

/-! ### Constants -/

def primes : List Nat :=
  ((List.range 410).filter fun n => 2 ≤ n && (List.range n).all fun d => d < 2 || n % d ≠ 0).take 80

/-- The greatest number whose power is not above another; `bits` bounds its size. -/
def root (power n : Nat) : Nat → Nat → Nat
  | 0, r => r
  | bits + 1, r =>
    let more := r + Nat.pow 2 bits
    root power n bits (if Nat.pow more power ≤ n then more else r)

def fraction (power n : Nat) : Nat :=
  root power (n * Nat.pow 2 (64 * power)) 70 0 % Nat.pow 2 64

def stepConstants : Array Nat := (primes.map (fraction 3)).toArray

def startWords (first : Nat) : List Nat := ((primes.drop first).take 8).map (fraction 2)

/-! ### Words -/

structure Mixing where
  /-- The bits of a word. -/
  bits : Nat
  steps : Nat
  /-- The turns of the first and of the fifth word in a step. -/
  first : Nat × Nat × Nat
  fifth : Nat × Nat × Nat
  /-- Two turns and a shift of the earlier and of the later word that a new one grows out of. -/
  early : Nat × Nat × Nat
  late : Nat × Nat × Nat

def short : Mixing :=
  { bits := 32, steps := 64, first := (2, 13, 22), fifth := (6, 11, 25)
    early := (7, 18, 3), late := (17, 19, 10) }

def long : Mixing :=
  { bits := 64, steps := 80, first := (28, 34, 39), fifth := (14, 18, 41)
    early := (1, 8, 7), late := (19, 61, 6) }

namespace Mixing

def cut (m : Mixing) (n : Nat) : Nat := n % Nat.pow 2 m.bits

def turn (m : Mixing) (x n : Nat) : Nat :=
  x / Nat.pow 2 n + (x % Nat.pow 2 n) * Nat.pow 2 (m.bits - n)

def turned (m : Mixing) (t : Nat × Nat × Nat) (x : Nat) : Nat :=
  Nat.xor (Nat.xor (m.turn x t.1) (m.turn x t.2.1)) (m.turn x t.2.2)

def shifted (m : Mixing) (t : Nat × Nat × Nat) (x : Nat) : Nat :=
  Nat.xor (Nat.xor (m.turn x t.1) (m.turn x t.2.1)) (x / Nat.pow 2 t.2.2)

def constant (m : Mixing) (i : Nat) : Nat :=
  stepConstants.getD i 0 / Nat.pow 2 (64 - m.bits)

def schedule (m : Mixing) (block : Array Nat) : Array Nat :=
  (List.range (m.steps - 16)).foldl (fun ws i =>
    let w (k : Nat) : Nat := ws.getD (i + k) 0
    ws.push (m.cut (m.shifted m.late (w 14) + w 9 + m.shifted m.early (w 1) + w 0))) block

structure State where
  a : Nat
  b : Nat
  c : Nat
  d : Nat
  e : Nat
  f : Nat
  g : Nat
  h : Nat

def State.toList (s : State) : List Nat := [s.a, s.b, s.c, s.d, s.e, s.f, s.g, s.h]

def State.ofList (ws : List Nat) : State :=
  let w (i : Nat) : Nat := ws.getD i 0
  ⟨w 0, w 1, w 2, w 3, w 4, w 5, w 6, w 7⟩

def step (m : Mixing) (words : Array Nat) (s : State) (i : Nat) : State :=
  let chosen := Nat.xor (Nat.land s.e s.f) (Nat.land (Nat.pow 2 m.bits - 1 - s.e) s.g)
  let most := Nat.xor (Nat.xor (Nat.land s.a s.b) (Nat.land s.a s.c)) (Nat.land s.b s.c)
  let x := s.h + m.turned m.fifth s.e + chosen + m.constant i + words.getD i 0
  let y := m.turned m.first s.a + most
  ⟨m.cut (x + y), s.a, s.b, s.c, m.cut (s.d + x), s.e, s.f, s.g⟩

def compress (m : Mixing) (s : State) (block : Array Nat) : State :=
  let t := (List.range m.steps).foldl (m.step (m.schedule block)) s
  .ofList ((s.toList.zip t.toList).map fun (x, y) => m.cut (x + y))

/-- The checksum of a number of bytes that begins with some words. -/
def checksum (m : Mixing) (start : List Nat) (size : Nat) (bytes : List UInt8) : List UInt8 :=
  let wordSize := m.bits / 8
  let whole := filled (16 * wordSize) (2 * wordSize) (toBigEndian (2 * wordSize)) bytes
  let s := (blocks (16 * wordSize) wordSize whole).foldl
    (fun s block => m.compress s (block.map bigEndian).toArray) (.ofList start)
  (s.toList.flatMap (toBigEndian wordSize)).take size

end Mixing

/-! ### The checksums -/

def firstHalf (n : Nat) : Nat := n / Nat.pow 2 32

def sha256 : List UInt8 → List UInt8 := short.checksum ((startWords 0).map firstHalf) 32

def sha224 : List UInt8 → List UInt8 :=
  short.checksum ((startWords 8).map (· % Nat.pow 2 32)) 28

def sha512 : List UInt8 → List UInt8 := long.checksum (startWords 0) 64

def sha384 : List UInt8 → List UInt8 := long.checksum (startWords 8) 48

end ModularBuild.Checksum.Sha2

/-!
## Short checksums

The remainder of a text and its length as a polynomial, and two ways to add up its bytes.
-/

namespace ModularBuild.Checksum

def divideByte : Nat → UInt32 → UInt32
  | 0, r => r
  | n + 1, r =>
    let doubled := r.shiftLeft 1
    divideByte n (if r &&& 0x80000000 ≠ 0 then doubled ^^^ 0x04C11DB7 else doubled)

def withByte (r : UInt32) (b : UInt8) : UInt32 := divideByte 8 (r ^^^ b.toUInt32.shiftLeft 24)

/-- The bytes of a length, the least first, without zeros at the end; `fuel` bounds their number. -/
def lengthBytes : Nat → Nat → List UInt8
  | 0, _ | _, 0 => []
  | fuel + 1, n => UInt8.ofNat (n % 256) :: lengthBytes fuel (n / 256)

def cyclic (bytes : List UInt8) : UInt32 :=
  ~~~((bytes ++ lengthBytes 8 bytes.length).foldl withByte 0)

def turningSum (bytes : List UInt8) : Nat :=
  bytes.foldl (fun n b => (n / 2 + n % 2 * 32768 + b.toNat) % 65536) 0

def plainSum (bytes : List UInt8) : Nat :=
  let total := bytes.foldl (fun n b => n + b.toNat) 0
  let once := total % 65536 + total % 4294967296 / 65536
  once % 65536 + once / 65536

example : cyclic [] = 0xFFFFFFFF := by decide

end ModularBuild.Checksum
