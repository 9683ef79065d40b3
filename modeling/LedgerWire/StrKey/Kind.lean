import LedgerWire.Bytes.Basic
import LedgerWire.Bytes.Encodings
import LedgerWire.Network
import LedgerWire.Text.Quoted

/-!
# Kinds of StrKey

A StrKey is the text form of a key, a hash or an address. Its first byte names the kind of data it
carries; the byte is a multiple of eight, so the first character of the text shows the kind.
-/

namespace LedgerWire.StrKey

/-- What a StrKey carries. -/
inductive Kind where
  /-- The public key of an account. -/
  | accountId
  /-- The public key of an account and a 64-bit number. -/
  | muxedAccount
  /-- The secret seed of a key pair. -/
  | seed
  /-- The hash of a transaction authorized in advance. -/
  | preAuthTx
  /-- The SHA-256 hash of a secret. -/
  | sha256Hash
  /-- A public key and a payload that it has to sign. -/
  | signedPayload
  /-- The identifier of a contract. -/
  | contract
deriving DecidableEq, Repr

namespace Kind

/-- Every kind. -/
def all : List Kind :=
  [.accountId, .muxedAccount, .seed, .preAuthTx, .sha256Hash, .signedPayload, .contract]

/-- The byte in front of the payload. -/
def byte : Kind → UInt8
  | .accountId => 6 * 8
  | .muxedAccount => 12 * 8
  | .seed => 18 * 8
  | .preAuthTx => 19 * 8
  | .sha256Hash => 23 * 8
  | .signedPayload => 15 * 8
  | .contract => 2 * 8

/-- The kind with a given byte. -/
def ofByte? (b : UInt8) : Option Kind := all.find? fun k => k.byte == b

/-- The first character of the text. -/
def letter : Kind → Char
  | .accountId => 'G'
  | .muxedAccount => 'M'
  | .seed => 'S'
  | .preAuthTx => 'T'
  | .sha256Hash => 'X'
  | .signedPayload => 'P'
  | .contract => 'C'

/-- The name of the kind in messages. -/
def label : Kind → String
  | .accountId => "account id"
  | .muxedAccount => "muxed account"
  | .seed => "secret seed"
  | .preAuthTx => "pre-auth tx"
  | .sha256Hash => "sha256 hash"
  | .signedPayload => "signed payload"
  | .contract => "contract"

/-- The name of the kind, and its letter. -/
def describe (k : Kind) : String := k.label ++ " (" ++ k.letter.toString ++ ")"

/-- The length in bytes of the key and the length field of a signed payload. -/
def signedPayloadHeader : Nat := 36

/-- Whether a body of kind byte, payload and check value may have the given length. -/
def acceptsLength : Kind → Nat → Bool
  | .muxedAccount, length => length == 1 + 40 + 2
  | .signedPayload, length =>
    1 + signedPayloadHeader + 4 + 2 ≤ length &&
      length ≤ 1 + signedPayloadHeader + Limits.signedPayloadBytes + 2
  | _, length => length == 1 + 32 + 2

end Kind

end LedgerWire.StrKey

/-!
## Faults of StrKeys

The reasons for which a text is refused as a StrKey, and their wording.
-/

namespace LedgerWire.StrKey

/-- What is wrong with the body of a signed payload. -/
inductive PayloadFault where
  | empty
  | tooLong
  | lengthOutOfRange
  | lengthMismatch
  | nonZeroPadding
deriving DecidableEq, Repr

/-- The wording of a fault of a signed payload. -/
def PayloadFault.message : PayloadFault → String
  | .empty => "payload is empty"
  | .tooLong => "payload longer than 64 bytes"
  | .lengthOutOfRange => "declared length out of range"
  | .lengthMismatch => "declared length does not match body"
  | .nonZeroPadding => "non-zero padding"

/-- Why a text is not a StrKey of the wanted kind. -/
inductive Fault where
  /-- The text has fewer characters than a kind byte and a check value need. -/
  | tooShort (length : Nat)
  /-- The byte at the position is no base32 symbol. -/
  | invalidCharacter (byte : UInt8) (position : Nat)
  /-- No byte string has a base32 form of this length. -/
  | invalidEncodedLength (length : Nat)
  /-- The kind does not have a body of this length. -/
  | invalidLength (kind : Kind) (length : Nat)
  /-- The last symbol has bits set that belong to no byte. -/
  | nonZeroUnusedBits
  /-- The body starts with the byte of another kind. -/
  | invalidKindByte (expected : Kind) (found : UInt8)
  /-- The body starts with the byte of no kind. -/
  | unknownKindByte (found : UInt8)
  /-- The check value does not belong to the body. -/
  | invalidChecksum
  /-- The body of a signed payload does not agree with itself. -/
  | invalidSignedPayload (fault : PayloadFault)
deriving DecidableEq, Repr

/-- The wording of a fault. -/
def Fault.message : Fault → String
  | .tooShort length => s!"strkey too short: {length} characters, need at least 5"
  | .invalidCharacter byte position =>
    "invalid base32 character " ++ Text.quotedChar (Char.ofNat byte.toNat) ++
      s!" at position {position}"
  | .invalidEncodedLength length =>
    s!"{length} characters is not a valid unpadded base32 length"
  | .invalidLength kind length =>
    s!"decoded length {length} is invalid for " ++ kind.describe
  | .nonZeroUnusedBits => "unused trailing bits must be zero"
  | .invalidKindByte expected found =>
    "version byte mismatch: expected " ++ expected.describe ++ ", found 0x" ++ Hex.encode [found]
  | .unknownKindByte found => "unknown version byte 0x" ++ Hex.encode [found]
  | .invalidChecksum => "checksum mismatch"
  | .invalidSignedPayload fault => "invalid signed payload: " ++ fault.message

end LedgerWire.StrKey
