import LedgerWire.Digest.Sha2
import LedgerWire.Identity.Account
import LedgerWire.Wire.Codec

/-!
# Signers and their signatures
-/

/-!
## Signatures with hints

A signature on a transaction does not say who made it. Four bytes beside it, taken from the public
data of the signer, let a reader find the signer without trying every key.
-/

namespace LedgerWire

/-- A signature, which for a hash signer is the secret itself, with the hint of its signer. -/
structure DecoratedSignature where
  /-- The hint of the signer. -/
  hint : FixedBytes 4
  /-- The signature. -/
  signature : Bytes
  /-- It has at most 64 bytes. -/
  length_le : signature.length ≤ Limits.signatureBytes
deriving DecidableEq

/-- Why a signature is refused. -/
inductive SignatureFault where
  /-- It has more than 64 bytes. -/
  | tooLong (length : Nat)
deriving DecidableEq, Repr

/-- The wording of a fault. -/
def SignatureFault.message : SignatureFault → String
  | .tooLong length => s!"signature too long: {length} bytes, maximum is 64"

namespace Hint

/-- The hint of a key: its last four bytes. -/
def ofKey (key : FixedBytes 32) : FixedBytes 4 := .lastOf 4 key.bytes

/-- The bytes that a payload adds to the hint of its key: its last four bytes, or all of a shorter
payload followed by zeros. -/
def ofPayload (payload : Bytes) : FixedBytes 4 := .lastOf 4 payload

/-- The hint of a signed payload: the hint of the key, combined with the end of the payload. -/
def ofSignedPayload (key : FixedBytes 32) (payload : Bytes) : FixedBytes 4 :=
  .padded 4 (Bytes.xor (ofKey key).bytes (ofPayload payload).bytes)

/-- The hint of a hash signer: the last four bytes of the hash of its secret. -/
def ofPreimage (preimage : Bytes) : FixedBytes 4 := ofKey (sha256 preimage)

end Hint

namespace DecoratedSignature

/-- A signature of at most 64 bytes with its hint. -/
def make (hint : FixedBytes 4) (signature : Bytes) : Except SignatureFault DecoratedSignature :=
  if h : signature.length ≤ Limits.signatureBytes then .ok ⟨hint, signature, h⟩
  else .error (.tooLong signature.length)

/-- A signature of an Ed25519 key, which has 64 bytes. -/
def ofEd25519 (hint : FixedBytes 4) (signature : FixedBytes 64) : DecoratedSignature :=
  ⟨hint, signature.bytes, Nat.le_of_eq signature.length_eq⟩

/-- A signature on the wire: the hint, then the signature with its length. The length that is read
is within bounds, so the signature is never cut. -/
def codec : Codec DecoratedSignature :=
  (Codec.pair (.fixed 4) (.counted Limits.signatureBytes)).map
    (fun (hint, signature) =>
      ⟨hint, signature.take Limits.signatureBytes, List.length_take_le _ _⟩)
    (fun s => (s.hint, s.signature))

end DecoratedSignature

/-!
## Signers

What can contribute to the authorization of a transaction: a key, a transaction that was
authorized in advance by its hash, whoever knows the secret behind a hash, or a key that has
signed a given payload.
-/

/-- A key and the payload that it has to sign. -/
structure SignedPayload where
  /-- The public key. -/
  key : FixedBytes 32
  /-- The payload. -/
  payload : Bytes
  /-- It is not empty. -/
  pos : 0 < payload.length
  /-- It has at most 64 bytes. -/
  length_le : payload.length ≤ Limits.signedPayloadBytes
deriving DecidableEq

/-- A signer. -/
inductive SignerKey where
  /-- A public key. -/
  | ed25519 (key : FixedBytes 32)
  /-- The hash of a transaction authorized in advance. -/
  | preAuthTx (hash : FixedBytes 32)
  /-- The hash of a secret; the secret authorizes. -/
  | hashX (hash : FixedBytes 32)
  /-- A key that has signed a payload. -/
  | signedPayload (signer : SignedPayload)
deriving DecidableEq

/-- A signer of an account and its weight; weight zero removes it. -/
structure Signer where
  /-- Who signs. -/
  key : SignerKey
  /-- How much the signature counts. -/
  weight : UInt32
deriving DecidableEq

namespace SignedPayload

/-- A signed payload of one to 64 bytes. -/
def make (key : FixedBytes 32) (payload : Bytes) : Except IdentityFault SignedPayload :=
  if pos : 0 < payload.length then
    if le : payload.length ≤ Limits.signedPayloadBytes then .ok ⟨key, payload, pos, le⟩
    else .error (.payloadTooLong payload.length)
  else .error .emptyPayload

/-- The hint of the signer. -/
def hint (signer : SignedPayload) : FixedBytes 4 :=
  Hint.ofSignedPayload signer.key signer.payload

/-- A signed payload on the wire: the key, then the payload with its length. -/
def codec : Codec SignedPayload :=
  (Codec.pair (.fixed 32) (.counted Limits.signedPayloadBytes)).check
    (fun (key, payload) => (make key payload).mapError .identity)
    (fun signer => (signer.key, signer.payload))

end SignedPayload

namespace SignerKey

/-- The signer satisfied by a secret. -/
def ofPreimage (preimage : Bytes) : SignerKey := .hashX (sha256 preimage)

/-- The signer with the given `G…`, `T…`, `X…` or `P…` text. -/
def ofText (text : String) : Except IdentityFault SignerKey :=
  match StrKey.kindOf text with
  | .error fault => .error (.strKey fault)
  | .ok .accountId => key32 .accountId .ed25519
  | .ok .preAuthTx => key32 .preAuthTx .preAuthTx
  | .ok .sha256Hash => key32 .sha256Hash .hashX
  | .ok .signedPayload =>
    match StrKey.decodeSignedPayload text with
    | .ok (key, payload) => (SignedPayload.make key payload).map .signedPayload
    | .error fault => .error (.strKey fault)
  | .ok _ => .error (.unsupportedAddress text)
where
  /-- The signer made of the 32 bytes of the text. -/
  key32 (kind : StrKey.Kind) (signer : FixedBytes 32 → SignerKey) :
      Except IdentityFault SignerKey :=
    match StrKey.decode32 kind text with
    | .ok key => .ok (signer key)
    | .error fault => .error (.strKey fault)

/-- The text of a signer. -/
def toText : SignerKey → String
  | .ed25519 key => StrKey.encode32 .accountId key
  | .preAuthTx hash => StrKey.encode32 .preAuthTx hash
  | .hashX hash => StrKey.encode32 .sha256Hash hash
  | .signedPayload signer =>
    (StrKey.encodeSignedPayload signer.key signer.payload).toOption.getD ""

/-- The hint of a signer. -/
def hint : SignerKey → FixedBytes 4
  | .ed25519 bytes | .preAuthTx bytes | .hashX bytes => Hint.ofKey bytes
  | .signedPayload signer => signer.hint

/-- A signer on the wire: the key type, then the key, the hash or the signed payload. -/
def codec : Codec SignerKey :=
  .union "SignerKeyType" [
    ⟨0, FixedBytes 32, .fixed 32, .ed25519, fun | .ed25519 key => some key | _ => none⟩,
    ⟨1, FixedBytes 32, .fixed 32, .preAuthTx, fun | .preAuthTx hash => some hash | _ => none⟩,
    ⟨2, FixedBytes 32, .fixed 32, .hashX, fun | .hashX hash => some hash | _ => none⟩,
    ⟨3, SignedPayload, SignedPayload.codec, .signedPayload,
      fun | .signedPayload signer => some signer | _ => none⟩]

end SignerKey

/-- A signer and its weight on the wire. -/
def Signer.codec : Codec Signer :=
  (Codec.pair SignerKey.codec .uint32).map (fun (key, weight) => ⟨key, weight⟩)
    (fun s => (s.key, s.weight))

end LedgerWire
