import LedgerWire.Bytes.Basic
import LedgerWire.Digest.Sha2

/-!
# Ed25519

The signature scheme of the ledger, from the field of its curve to the verification of a signature.
-/

/-!
## The field of the curve

Arithmetic modulo the prime 2²⁵⁵ − 19. Elements are naturals below the prime, so every operation
is a natural-number operation followed by one reduction.
-/

namespace LedgerWire.Ed25519

/-- The order of the field. -/
def prime : Nat := (1 <<< 255) - 19

namespace Field

/-- Sum. -/
def add (x y : Nat) : Nat := (x + y) % prime

/-- Difference of two elements. -/
def sub (x y : Nat) : Nat := (x + (prime - y)) % prime

/-- Product. -/
def mul (x y : Nat) : Nat := x * y % prime

/-- The additive inverse of an element. -/
def neg (x : Nat) : Nat := (prime - x) % prime

/-- A power, by squaring and multiplying along the 255 bits of the exponent. -/
def pow (x exponent : Nat) : Nat :=
  (Bits.ofNat 255 exponent).foldl
    (fun y bit => if bit then mul (mul y y) x else mul y y) 1

/-- The multiplicative inverse of an element other than zero. -/
def inverse (x : Nat) : Nat := pow x (prime - 2)

/-- A square root of minus one. -/
def rootOfMinusOne : Nat := pow 2 ((prime - 1) / 4)

/-- The even square root of `u / v`, if there is one. -/
def rootOfRatio? (u v : Nat) : Option Nat :=
  let v3 := mul (mul v v) v
  let candidate := mul (mul u v3) (pow (mul u (mul (mul v3 v3) v)) ((prime - 5) / 8))
  let even (r : Nat) := if r % 2 = 0 then r else neg r
  let check := mul v (mul candidate candidate)
  if check = u then some (even candidate)
  else if check = neg u then some (even (mul candidate rootOfMinusOne))
  else none

end Field

end LedgerWire.Ed25519

/-!
## Points of the curve

The twisted Edwards curve −x² + y² = 1 + d·x²·y², in extended homogeneous coordinates: a point is
`(X : Y : Z : T)` with x = X / Z, y = Y / Z and x·y = T / Z. Addition is complete, so doubling is
the addition of a point to itself.

A point is written as 32 bytes, least significant first: the y coordinate, with the parity of x in
the highest bit. Reading reduces the lower 255 bits modulo the prime, whatever their size.
-/

namespace LedgerWire.Ed25519

/-- A point in extended homogeneous coordinates. -/
structure Point where
  (x y z t : Nat)

/-- The number whose bytes, least significant first, are given. -/
def ofLittleEndian (bytes : Bytes) : Nat := Bytes.toNat bytes.reverse

/-- The lowest `n` bytes of a number, least significant first. -/
def toLittleEndian (n value : Nat) : FixedBytes n :=
  ⟨(Bytes.bigEndian n value).reverse, by rw [List.length_reverse, Bytes.length_bigEndian]⟩

namespace Point
open Ed25519.Field

/-- The constant d of the curve equation, −121665 / 121666. -/
def curveConstant : Nat := mul (neg 121665) (inverse 121666)

/-- The neutral element. -/
def zero : Point := ⟨0, 1, 1, 0⟩

/-- The point with the given affine coordinates. -/
def ofAffine (x y : Nat) : Point := ⟨x, y, 1, mul x y⟩

/-- Sum of two points. -/
def add (p q : Point) : Point :=
  let a := mul (sub p.y p.x) (sub q.y q.x)
  let b := mul (Field.add p.y p.x) (Field.add q.y q.x)
  let c := mul (mul (mul 2 curveConstant) p.t) q.t
  let d := mul (mul 2 p.z) q.z
  let e := sub b a
  let f := sub d c
  let g := Field.add d c
  let h := Field.add b a
  ⟨mul e f, mul g h, mul f g, mul e h⟩

/-- The additive inverse of a point. -/
def neg (p : Point) : Point := ⟨Field.neg p.x, p.y, p.z, Field.neg p.t⟩

/-- The multiple of a point by a scalar below 2²⁵⁶. -/
def smul (scalar : Nat) (p : Point) : Point :=
  (Bits.ofNat 256 scalar).foldl
    (fun q bit => if bit then add (add q q) p else add q q) zero

/-- The bytes of a point. -/
def encode (p : Point) : FixedBytes 32 :=
  let inv := inverse p.z
  let x := mul p.x inv
  let y := mul p.y inv
  toLittleEndian 32 (y + (1 <<< 255) * (x % 2))

/-- The point with the given bytes, if the y coordinate has a point of the curve above it. The
highest bit asks for the odd x coordinate; it is ignored where x is zero. -/
def decode? (bytes : FixedBytes 32) : Option Point := do
  let n := ofLittleEndian bytes.bytes
  let y := n % (1 <<< 255) % prime
  let yy := mul y y
  let x ← rootOfRatio? (sub yy 1) (Field.add (mul curveConstant yy) 1)
  return ofAffine (if n / (1 <<< 255) = 1 then Field.neg x else x) y

/-- The base point, whose y coordinate is 4 / 5 and whose x coordinate is even. -/
def base : Point :=
  let y := mul 4 (inverse 5)
  let yy := mul y y
  let x := (rootOfRatio? (sub yy 1) (Field.add (mul curveConstant yy) 1)).getD 0
  ofAffine x y

end Point

end LedgerWire.Ed25519

/-!
## Ed25519 signatures

The signature scheme of RFC 8032. Verification recomputes the nonce point from the response and
compares its bytes with those in the signature; the response must be below the group order, and
the cofactor plays no part.
-/

namespace LedgerWire.Ed25519

/-- The order of the base point. -/
def groupOrder : Nat := (1 <<< 252) + 27742317777372353535851937790883648493

/-- The secret scalar and the nonce key that a seed expands to. -/
structure ExpandedKey where
  /-- A multiple of eight between 2²⁵⁴ and 2²⁵⁵. -/
  scalar : Nat
  /-- Hashed in front of a message to derive its nonce. -/
  nonceKey : Bytes

/-- Expands a seed. -/
def expand (seed : FixedBytes 32) : ExpandedKey :=
  let digest := (sha512 seed.bytes).bytes
  let n := ofLittleEndian (digest.take 32)
  ⟨(1 <<< 254) + (n % (1 <<< 254) - n % 8), digest.drop 32⟩

/-- A hash as a scalar. -/
def hashScalar (bytes : Bytes) : Nat := ofLittleEndian (sha512 bytes).bytes % groupOrder

/-- The public key of a seed. -/
def publicKey (seed : FixedBytes 32) : FixedBytes 32 :=
  (Point.base.smul (expand seed).scalar).encode

/-- Whether 32 bytes are the bytes of a point of the curve. -/
def isPublicKey (key : FixedBytes 32) : Bool := (Point.decode? key).isSome

/-- The signature of a message under a seed: the nonce point, then the response. -/
def sign (seed : FixedBytes 32) (message : Bytes) : FixedBytes 64 :=
  let key := expand seed
  let nonce := hashScalar (key.nonceKey ++ message)
  let commitment := (Point.base.smul nonce).encode
  let challenge := hashScalar (commitment.bytes ++ (publicKey seed).bytes ++ message)
  let response := toLittleEndian 32 ((nonce + challenge * key.scalar) % groupOrder)
  ⟨commitment.bytes ++ response.bytes, by
    rw [List.length_append, commitment.length_eq, response.length_eq]⟩

/-- Whether a signature of a message is valid under a public key. Bytes that are not a point, and
signatures that are not 64 bytes long, verify nothing. -/
def verify (key : FixedBytes 32) (message signature : Bytes) : Bool :=
  match Point.decode? key with
  | none => false
  | some point =>
    if signature.length = 64 then
      let commitment := signature.take 32
      let response := ofLittleEndian (signature.drop 32)
      if response < groupOrder then
        let challenge := hashScalar (commitment ++ key.bytes ++ message)
        let recomputed := (Point.base.smul response).add (point.neg.smul challenge)
        recomputed.encode.bytes == commitment
      else false
    else false

end LedgerWire.Ed25519
