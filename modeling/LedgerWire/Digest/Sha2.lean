import LedgerWire.Bytes.Basic

/-!
# SHA-2

The hash functions of FIPS 180-4. SHA-256 and SHA-512 are one construction over words of 32 and of
64 bits; a `Variant` holds what differs. The constants of SHA-256 are the leading halves of those
of SHA-512, because both are the leading bits of the same roots of primes.
-/

namespace LedgerWire

namespace Sha2

/-- The constants of a hash function over words of `w` bits. -/
structure Variant (w : Nat) where
  /-- One constant a round: the fractional parts of the cube roots of the primes. -/
  rounds : List (BitVec w)
  /-- The first chaining value: the fractional parts of the square roots of the primes. -/
  initial : List (BitVec w)
  /-- The three rotations applied to the first working variable. -/
  upperZero : Nat × Nat × Nat
  /-- The three rotations applied to the fifth working variable. -/
  upperOne : Nat × Nat × Nat
  /-- Two rotations and a shift, applied to the word fifteen back in the schedule. -/
  lowerZero : Nat × Nat × Nat
  /-- Two rotations and a shift, applied to the word two back in the schedule. -/
  lowerOne : Nat × Nat × Nat

/-- The chaining value, and the working variables of a block. -/
structure State (w : Nat) where
  (a b c d e f g h : BitVec w)

variable {w : Nat}

namespace State

/-- The state with the given words, absent ones being zero. -/
def ofList (words : List (BitVec w)) : State w :=
  let word (i : Nat) := words.getD i 0
  ⟨word 0, word 1, word 2, word 3, word 4, word 5, word 6, word 7⟩

/-- The words of the state. -/
def toList (s : State w) : List (BitVec w) := [s.a, s.b, s.c, s.d, s.e, s.f, s.g, s.h]

/-- Wordwise sum modulo two to the width. -/
def add (s t : State w) : State w :=
  ⟨s.a + t.a, s.b + t.b, s.c + t.c, s.d + t.d, s.e + t.e, s.f + t.f, s.g + t.g, s.h + t.h⟩

/-- The words in big-endian order. -/
def bytes (s : State w) : Bytes := s.toList.flatMap fun x => Bytes.bigEndian (w / 8) x.toNat

/-- Eight words make as many bytes as eight words have. -/
@[simp] theorem length_bytes (s : State w) : s.bytes.length = 8 * (w / 8) := by
  simp [bytes, toList, Bytes.length_bigEndian]
  omega

end State

/-- The exclusive or of three rotations of a word. -/
def rotations (amounts : Nat × Nat × Nat) (x : BitVec w) : BitVec w :=
  x.rotateRight amounts.1 ^^^ x.rotateRight amounts.2.1 ^^^ x.rotateRight amounts.2.2

/-- The exclusive or of two rotations and a shift of a word. -/
def rotationsAndShift (amounts : Nat × Nat × Nat) (x : BitVec w) : BitVec w :=
  x.rotateRight amounts.1 ^^^ x.rotateRight amounts.2.1 ^^^ (x >>> amounts.2.2)

/-- One round, with its constant and its word of the message schedule. -/
def round (v : Variant w) (constant word : BitVec w) (s : State w) : State w :=
  let choice := (s.e &&& s.f) ^^^ (~~~s.e &&& s.g)
  let majority := (s.a &&& s.b) ^^^ (s.a &&& s.c) ^^^ (s.b &&& s.c)
  let t1 := s.h + rotations v.upperOne s.e + choice + constant + word
  let t2 := rotations v.upperZero s.a + majority
  ⟨t1 + t2, s.a, s.b, s.c, s.d + t1, s.e, s.f, s.g⟩

/-- The word that enters a window of sixteen words of the message schedule on the right. -/
def nextWord (v : Variant w) (window : List (BitVec w)) : BitVec w :=
  rotationsAndShift v.lowerOne (window.getD 14 0) + window.getD 9 0 +
    rotationsAndShift v.lowerZero (window.getD 1 0) + window.getD 0 0

/-- Runs the rounds of a block; the window holds the next sixteen words of its schedule. -/
def runRounds (v : Variant w) : List (BitVec w) → List (BitVec w) → State w → State w
  | [], _, s => s
  | constant :: constants, window, s =>
    runRounds v constants (window.tail ++ [nextWord v window])
      (round v constant (window.headD 0) s)

/-- Takes a block of sixteen words into the chaining value. -/
def compress (v : Variant w) (s : State w) (block : List (BitVec w)) : State w :=
  s.add (runRounds v v.rounds block s)

/-- A message, a one bit, as few zeros as fill the last block, and the length in bits. -/
def padded (w : Nat) (message : Bytes) : Bytes :=
  let block := 2 * w
  let used := message.length + 1 + w / 4
  message ++ 0x80 :: List.replicate ((block - used % block) % block) 0 ++
    Bytes.bigEndian (w / 4) (8 * message.length)

/-- The words of a byte string. -/
def words (w : Nat) (bytes : Bytes) : List (BitVec w) :=
  (groups (w / 8) bytes).1.map fun g => BitVec.ofNat w (Bytes.toNat g)

/-- The chaining value after the whole message. -/
def run (v : Variant w) (message : Bytes) : State w :=
  (groups 16 (words w (padded w message))).1.foldl (compress v) (.ofList v.initial)

/-- The constants of SHA-512. -/
def variant512 : Variant 64 where
  rounds := [
    0x428a2f98d728ae22, 0x7137449123ef65cd, 0xb5c0fbcfec4d3b2f, 0xe9b5dba58189dbbc,
    0x3956c25bf348b538, 0x59f111f1b605d019, 0x923f82a4af194f9b, 0xab1c5ed5da6d8118,
    0xd807aa98a3030242, 0x12835b0145706fbe, 0x243185be4ee4b28c, 0x550c7dc3d5ffb4e2,
    0x72be5d74f27b896f, 0x80deb1fe3b1696b1, 0x9bdc06a725c71235, 0xc19bf174cf692694,
    0xe49b69c19ef14ad2, 0xefbe4786384f25e3, 0x0fc19dc68b8cd5b5, 0x240ca1cc77ac9c65,
    0x2de92c6f592b0275, 0x4a7484aa6ea6e483, 0x5cb0a9dcbd41fbd4, 0x76f988da831153b5,
    0x983e5152ee66dfab, 0xa831c66d2db43210, 0xb00327c898fb213f, 0xbf597fc7beef0ee4,
    0xc6e00bf33da88fc2, 0xd5a79147930aa725, 0x06ca6351e003826f, 0x142929670a0e6e70,
    0x27b70a8546d22ffc, 0x2e1b21385c26c926, 0x4d2c6dfc5ac42aed, 0x53380d139d95b3df,
    0x650a73548baf63de, 0x766a0abb3c77b2a8, 0x81c2c92e47edaee6, 0x92722c851482353b,
    0xa2bfe8a14cf10364, 0xa81a664bbc423001, 0xc24b8b70d0f89791, 0xc76c51a30654be30,
    0xd192e819d6ef5218, 0xd69906245565a910, 0xf40e35855771202a, 0x106aa07032bbd1b8,
    0x19a4c116b8d2d0c8, 0x1e376c085141ab53, 0x2748774cdf8eeb99, 0x34b0bcb5e19b48a8,
    0x391c0cb3c5c95a63, 0x4ed8aa4ae3418acb, 0x5b9cca4f7763e373, 0x682e6ff3d6b2b8a3,
    0x748f82ee5defb2fc, 0x78a5636f43172f60, 0x84c87814a1f0ab72, 0x8cc702081a6439ec,
    0x90befffa23631e28, 0xa4506cebde82bde9, 0xbef9a3f7b2c67915, 0xc67178f2e372532b,
    0xca273eceea26619c, 0xd186b8c721c0c207, 0xeada7dd6cde0eb1e, 0xf57d4f7fee6ed178,
    0x06f067aa72176fba, 0x0a637dc5a2c898a6, 0x113f9804bef90dae, 0x1b710b35131c471b,
    0x28db77f523047d84, 0x32caab7b40c72493, 0x3c9ebe0a15c9bebc, 0x431d67c49c100d4c,
    0x4cc5d4becb3e42b6, 0x597f299cfc657e2a, 0x5fcb6fab3ad6faec, 0x6c44198c4a475817]
  initial := [
    0x6a09e667f3bcc908, 0xbb67ae8584caa73b, 0x3c6ef372fe94f82b, 0xa54ff53a5f1d36f1,
    0x510e527fade682d1, 0x9b05688c2b3e6c1f, 0x1f83d9abfb41bd6b, 0x5be0cd19137e2179]
  upperZero := (28, 34, 39)
  upperOne := (14, 18, 41)
  lowerZero := (1, 8, 7)
  lowerOne := (19, 61, 6)

/-- The leading half of a word. -/
def leadingHalf (x : BitVec 64) : BitVec 32 := x.extractLsb' 32 32

/-- The constants of SHA-256. -/
def variant256 : Variant 32 where
  rounds := (variant512.rounds.take 64).map leadingHalf
  initial := variant512.initial.map leadingHalf
  upperZero := (2, 13, 22)
  upperOne := (6, 11, 25)
  lowerZero := (7, 18, 3)
  lowerOne := (17, 19, 10)

end Sha2

/-- The SHA-256 hash of a byte string. -/
def sha256 (message : Bytes) : FixedBytes 32 :=
  ⟨(Sha2.run Sha2.variant256 message).bytes, Sha2.State.length_bytes _⟩

/-- The SHA-512 hash of a byte string. -/
def sha512 (message : Bytes) : FixedBytes 64 :=
  ⟨(Sha2.run Sha2.variant512 message).bytes, Sha2.State.length_bytes _⟩

/-- The keyed hash HMAC of RFC 2104 over SHA-512. A key longer than a block is hashed first. -/
def hmacSha512 (key message : Bytes) : FixedBytes 64 :=
  let key := if 128 < key.length then (sha512 key).bytes else key
  let masked (mask : UInt8) := (FixedBytes.padded 128 key).bytes.map (· ^^^ mask)
  sha512 (masked 0x5c ++ (sha512 (masked 0x36 ++ message)).bytes)

end LedgerWire
