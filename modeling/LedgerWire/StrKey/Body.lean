import LedgerWire.Bytes.Basic
import LedgerWire.Bytes.Encodings
import LedgerWire.StrKey.Kind

/-!
# StrKeys

The texts of keys, hashes and addresses, with the check value that they carry.
-/

/-!
## CRC-16

The cyclic redundancy check of 16 bits with generator x¹⁶ + x¹² + x⁵ + 1, start value zero and no
reflection (the XMODEM variant). The register is a remainder modulo the generator, so one step
multiplies it by x.
-/

namespace LedgerWire.Crc16

/-- The generator without its leading term. -/
def generator : BitVec 16 := 0x1021#16

/-- Multiplies a remainder by x. -/
def shift (register : BitVec 16) : BitVec 16 :=
  if register.msb then (register <<< 1) ^^^ generator else register <<< 1

/-- Multiplies a remainder by xⁿ. -/
def shiftBy : Nat → BitVec 16 → BitVec 16
  | 0, register => register
  | n + 1, register => shiftBy n (shift register)

/-- Takes in one byte. -/
def step (register : BitVec 16) (b : UInt8) : BitVec 16 :=
  shiftBy 8 (register ^^^ (BitVec.ofNat 16 b.toNat <<< 8))

/-- The check value of a byte string. -/
def checksum (bytes : Bytes) : BitVec 16 := bytes.foldl step 0#16

/-- The check value as two bytes, least significant first. -/
def checksumBytes (bytes : Bytes) : FixedBytes 2 :=
  let value := (checksum bytes).toNat
  ⟨[UInt8.ofNat value, UInt8.ofNat (value / 256)], rfl⟩

end LedgerWire.Crc16

/-!
## Bodies of StrKeys

The text of a StrKey is the base32 form of its body, and the body is the byte of its kind, the
payload and the check value of the two. Base32 alone has several texts for one body, since the
last symbol can carry bits that no byte uses. Reading therefore checks, in this order, the least
length, the alphabet, the length of the text, the length of the body, the unused bits, the kind
and the check value, so that each payload of each kind has one text.
-/

namespace LedgerWire.StrKey

/-- The byte of the kind, the payload and the check value. -/
def body (kind : Kind) (payload : Bytes) : Bytes :=
  let checked := kind.byte :: payload
  checked ++ (Crc16.checksumBytes checked).bytes

/-- The text of a payload of the given kind. -/
def encode (kind : Kind) (payload : Bytes) : String :=
  Bytes.toLatin (Base32.encode (body kind payload))

/-- The values of characters that must all be symbols, the first of them at `position`. -/
def symbolValues (position : Nat) : Bytes → Except Fault (List Nat)
  | [] => .ok []
  | b :: rest =>
    match Base32.value? b with
    | none => .error (.invalidCharacter b position)
    | some v => do
      let vs ← symbolValues (position + 1) rest
      return v :: vs

/-- Refuses what does not satisfy a condition. -/
def ensure (condition : Prop) [Decidable condition] (fault : Fault) : Except Fault Unit :=
  if condition then return () else throw fault

/-- The checks of the characters of a text, in their order. The length of the body is checked when
the kind is known beforehand. -/
def checkCharacters (kind? : Option Kind) (characters : Bytes) : Except Fault Unit := do
  let length := characters.length
  ensure (5 ≤ length) (.tooShort length)
  let values ← symbolValues 0 characters
  let unused := length * 5 % 8
  ensure (unused < 5) (.invalidEncodedLength length)
  let decoded := length * 5 / 8
  kind?.forM fun kind => ensure (kind.acceptsLength decoded) (.invalidLength kind decoded)
  -- The unused bits are the lowest ones of the last symbol.
  let mask := 0x0f >>> (4 - unused)
  ensure (0 < unused → values.getLastD 0 &&& mask = 0) .nonZeroUnusedBits

/-- The body of a text, which is what its characters write once they are checked. -/
def readBody (kind? : Option Kind) (text : String) : Except Fault Bytes := do
  let characters := Bytes.ofText text
  checkCharacters kind? characters
  match Base32.decode? characters with
  | some bytes => return bytes
  | none => throw (.invalidEncodedLength characters.length)

/-- The payload of a text that must be of the given kind. -/
def decode (kind : Kind) (text : String) : Except Fault Bytes := do
  let bytes ← readBody (some kind) text
  let found := bytes.headD 0
  ensure (found = kind.byte) (.invalidKindByte kind found)
  let checked := bytes.take (bytes.length - 2)
  ensure (bytes.drop (bytes.length - 2) = (Crc16.checksumBytes checked).bytes) .invalidChecksum
  return checked.drop 1

/-- The kind that a text claims to be, whatever its length and check value. -/
def kindOf (text : String) : Except Fault Kind := do
  let bytes ← readBody none text
  let found := bytes.headD 0
  match Kind.ofByte? found with
  | some kind => return kind
  | none => throw (.unknownKindByte found)

end LedgerWire.StrKey

/-!
## StrKeys by content

The payload of most kinds is 32 bytes. That of a muxed account is a key and a number of eight
bytes; that of a signed payload is a key, a length of four bytes, the payload, and zeros up to a
multiple of four.
-/

namespace LedgerWire.StrKey

/-- The text of 32 bytes. -/
def encode32 (kind : Kind) (key : FixedBytes 32) : String := encode kind key.bytes

/-- The 32 bytes of a text. -/
def decode32 (kind : Kind) (text : String) : Except Fault (FixedBytes 32) := do
  return FixedBytes.padded 32 (← decode kind text)

/-- The text of a muxed account. -/
def encodeMuxed (key : FixedBytes 32) (id : UInt64) : String :=
  encode .muxedAccount (key.bytes ++ Bytes.bigEndian 8 id.toNat)

/-- The key and the number of a muxed account. -/
def decodeMuxed (text : String) : Except Fault (FixedBytes 32 × UInt64) := do
  let payload ← decode .muxedAccount text
  return (FixedBytes.padded 32 (payload.take 32), UInt64.ofNat (Bytes.toNat (payload.drop 32)))

/-- The key, the length, the payload and the zeros of a signed payload. -/
def signedPayloadBody (key : FixedBytes 32) (payload : Bytes) : Bytes :=
  key.bytes ++ Bytes.bigEndian 4 payload.length ++ payload ++
    List.replicate (Bytes.padLength payload.length) 0

/-- The text of a signed payload, which has one to 64 bytes. -/
def encodeSignedPayload (key : FixedBytes 32) (payload : Bytes) : Except Fault String :=
  if payload.isEmpty then throw (.invalidSignedPayload .empty)
  else if Limits.signedPayloadBytes < payload.length then throw (.invalidSignedPayload .tooLong)
  else return encode .signedPayload (signedPayloadBody key payload)

/-- The key and the payload in the body of a signed payload. -/
def readSignedPayload (body : Bytes) : Except Fault (FixedBytes 32 × Bytes) :=
  let declared := Bytes.toNat ((body.drop 32).take 4)
  let rest := body.drop Kind.signedPayloadHeader
  if declared = 0 ∨ Limits.signedPayloadBytes < declared then
    throw (.invalidSignedPayload .lengthOutOfRange)
  else if rest.length ≠ declared + Bytes.padLength declared then
    throw (.invalidSignedPayload .lengthMismatch)
  else if (rest.drop declared).any (· != 0) then throw (.invalidSignedPayload .nonZeroPadding)
  else return (FixedBytes.padded 32 (body.take 32), rest.take declared)

/-- The key and the payload of a signed payload. -/
def decodeSignedPayload (text : String) : Except Fault (FixedBytes 32 × Bytes) := do
  readSignedPayload (← decode .signedPayload text)

/-- Whether a text is a StrKey of the given kind, its inner structure included. -/
def isValid : Kind → String → Bool
  | .muxedAccount, text => (decodeMuxed text).toOption.isSome
  | .signedPayload, text => (decodeSignedPayload text).toOption.isSome
  | kind, text => (decode32 kind text).toOption.isSome

end LedgerWire.StrKey
