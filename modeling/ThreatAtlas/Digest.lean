import ThreatAtlas.Pieces

/-!
# Message digests

The 128-bit MD5 digest of a text, which gives a name an identifier of fixed length.
-/

namespace ThreatAtlas.Digest

structure Chain where
  a : UInt32
  b : UInt32
  c : UInt32
  d : UInt32

def Chain.start : Chain :=
  ⟨0x67452301, 0xefcdab89, 0x98badcfe, 0x10325476⟩

/-- The words added in the rounds: the fractions of sines, as 32-bit numbers. -/
def addends : List UInt32 :=
  [
    0xd76aa478, 0xe8c7b756, 0x242070db, 0xc1bdceee, 0xf57c0faf, 0x4787c62a, 0xa8304613, 0xfd469501,
    0x698098d8, 0x8b44f7af, 0xffff5bb1, 0x895cd7be, 0x6b901122, 0xfd987193, 0xa679438e, 0x49b40821,
    0xf61e2562, 0xc040b340, 0x265e5a51, 0xe9b6c7aa, 0xd62f105d, 0x02441453, 0xd8a1e681, 0xe7d3fbc8,
    0x21e1cde6, 0xc33707d6, 0xf4d50d87, 0x455a14ed, 0xa9e3e905, 0xfcefa3f8, 0x676f02d9, 0x8d2a4c8a,
    0xfffa3942, 0x8771f681, 0x6d9d6122, 0xfde5380c, 0xa4beea44, 0x4bdecfa9, 0xf6bb4b60, 0xbebfbc70,
    0x289b7ec6, 0xeaa127fa, 0xd4ef3085, 0x04881d05, 0xd9d4d039, 0xe6db99e5, 0x1fa27cf8, 0xc4ac5665,
    0xf4292244, 0x432aff97, 0xab9423a7, 0xfc93a039, 0x655b59c3, 0x8f0ccc92, 0xffeff47d, 0x85845dd1,
    0x6fa87e4f, 0xfe2ce6e0, 0xa3014314, 0x4e0811a1, 0xf7537e82, 0xbd3af235, 0x2ad7d2bb, 0xeb86d391]

/-- How far each step of a quarter turns its word, over and over. -/
def turns (quarter step : Nat) : UInt32 :=
  let cycle : List UInt32 := match quarter with
    | 0 => [7, 12, 17, 22]
    | 1 => [5, 9, 14, 20]
    | 2 => [4, 11, 16, 23]
    | _ => [6, 10, 15, 21]
  (cycle[step % 4]?).getD 0

def rotateLeft (x n : UInt32) : UInt32 :=
  (x <<< n) ||| (x >>> (32 - n))

def Chain.step (block : List UInt32) (s : Chain) (round : UInt32 × Nat) : Chain :=
  let (addend, i) := round
  let (mixed, place) := match i / 16 with
    | 0 => ((s.b &&& s.c) ||| (~~~s.b &&& s.d), i)
    | 1 => ((s.d &&& s.b) ||| (~~~s.d &&& s.c), 5 * i + 1)
    | 2 => (s.b ^^^ s.c ^^^ s.d, 3 * i + 5)
    | _ => (s.c ^^^ (s.b ||| ~~~s.d), 7 * i)
  let word := (block[place % 16]?).getD 0
  ⟨s.d, s.b + rotateLeft (mixed + s.a + addend + word) (turns (i / 16) i), s.b, s.c⟩

def Chain.absorb (s : Chain) (block : List UInt32) : Chain :=
  let t := addends.zipIdx.foldl (Chain.step block) s
  ⟨s.a + t.a, s.b + t.b, s.c + t.c, s.d + t.d⟩

def littleEndian (width n : Nat) : List UInt8 :=
  (List.range width).map fun i => (n / Nat.pow 256 i).toUInt8

/-- The message, a one bit, zeros up to a whole number of blocks, and the length in bits. -/
def padded (message : List UInt8) : List UInt8 :=
  let zeros := (119 - message.length % 64) % 64
  message ++ [0x80] ++ List.replicate zeros 0 ++ littleEndian 8 (8 * message.length)

def word : List UInt8 → UInt32
  | [] => 0
  | b :: rest => b.toUInt32 ||| (word rest <<< 8)

def digest (message : List UInt8) : List UInt8 :=
  let blocks := (pieces 64 (padded message)).map fun block => (pieces 4 block).map word
  let s := blocks.foldl Chain.absorb .start
  [s.a, s.b, s.c, s.d].flatMap fun w => littleEndian 4 w.toNat

def hexByte (b : UInt8) : List Char :=
  let n := b.toNat
  [Nat.digitChar (n / 16), Nat.digitChar (n % 16)]

def hex (s : String) : String :=
  String.ofList ((digest s.toUTF8.toList).flatMap hexByte)

end ThreatAtlas.Digest
