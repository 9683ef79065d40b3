import LedgerWire.Ed25519.Signature
import LedgerWire.Identity.Signer
import LedgerWire.Keys.Derivation

/-!
# Key pairs

A key pair always has a public key and may have the seed it comes from. Without the seed it
verifies and identifies, but does not sign. Its text in diagnostics never shows the seed, and two
pairs count as the same when they have one public key and both or neither can sign.
-/

namespace LedgerWire

/-- A public key, with the seed it comes from if that is known. -/
structure KeyPair where
  /-- The bytes of the public key, as they were given. -/
  publicKey : FixedBytes 32
  /-- The secret seed. -/
  seed : Option (FixedBytes 32)
deriving DecidableEq

namespace KeyPair

/-- The key pair of a seed. -/
def ofSeed (seed : FixedBytes 32) : KeyPair := ⟨Ed25519.publicKey seed, some seed⟩

/-- The key pair of an `S…` text. -/
def ofSecretText (text : String) : Except KeyFault KeyPair :=
  match StrKey.decode32 .seed text with
  | .ok seed => .ok (ofSeed seed)
  | .error fault => .error (.invalidSecretSeed fault)

/-- The key pair of a public key alone, which must be a point of the curve. -/
def ofPublicKey (key : FixedBytes 32) : Except KeyFault KeyPair :=
  if Ed25519.isPublicKey key then .ok ⟨key, none⟩ else .error .invalidPublicKey

/-- The key pair of a `G…` text, which has no seed. -/
def ofAccountText (text : String) : Except KeyFault KeyPair :=
  match StrKey.decode32 .accountId text with
  | .ok key => ofPublicKey key
  | .error fault => .error (.invalidAccountId fault)

/-- The key pair of an account number under the seed of a wallet. -/
def ofWallet (seed : Bytes) (account : UInt32) : KeyPair :=
  ofSeed (ExtendedKey.derive seed [Limits.derivationPurpose, Limits.derivationCoin, account]).key

/-- The account of the public key. -/
def account (pair : KeyPair) : AccountId := ⟨pair.publicKey⟩

/-- The public key as an account without a number beside it. -/
def muxed (pair : KeyPair) : MuxedAccount := .ofAccount pair.account

/-- The public key as a signer. -/
def signer (pair : KeyPair) : SignerKey := .ed25519 pair.publicKey

/-- The `S…` text of the seed. -/
def secretText (pair : KeyPair) : Option String := pair.seed.map (StrKey.encode32 .seed)

/-- Whether the seed is known. -/
def canSign (pair : KeyPair) : Bool := pair.seed.isSome

/-- Whether two pairs have one public key and both or neither can sign. -/
def sameAs (left right : KeyPair) : Bool :=
  left.publicKey == right.publicKey && left.canSign == right.canSign

/-- The hint of the public key. -/
def hint (pair : KeyPair) : FixedBytes 4 := Hint.ofKey pair.publicKey

/-- The text of a key pair in diagnostics. -/
def debugText (pair : KeyPair) : String :=
  "KeyPair \x7b account_id: " ++ Text.quoted pair.account.toText ++ ", can_sign: " ++
    (if pair.canSign then "true" else "false") ++ " \x7d"

/-- The signature of a message. -/
def sign (pair : KeyPair) (message : Bytes) : Except KeyFault (FixedBytes 64) :=
  match pair.seed with
  | some seed => .ok (Ed25519.sign seed message)
  | none => .error .missingSecretKey

/-- Whether a signature of a message is valid under the public key. -/
def verify (pair : KeyPair) (message signature : Bytes) : Bool :=
  Ed25519.verify pair.publicKey message signature

/-- The signature of a message with the hint of the key. -/
def signDecorated (pair : KeyPair) (message : Bytes) : Except KeyFault DecoratedSignature := do
  return .ofEd25519 pair.hint (← pair.sign message)

/-- The signature of a payload with the hint of the signer of that payload. -/
def signPayload (pair : KeyPair) (payload : Bytes) : Except KeyFault DecoratedSignature := do
  return .ofEd25519 (Hint.ofSignedPayload pair.publicKey payload) (← pair.sign payload)

/-- What is signed for a message that is no transaction: the hash of the message behind a text that
no transaction starts with. -/
def messageHash (message : Bytes) : FixedBytes 32 :=
  sha256 (Bytes.ofText "Stellar Signed Message:\n" ++ message)

/-- The signature of a message that is no transaction. -/
def signMessage (pair : KeyPair) (message : Bytes) : Except KeyFault (FixedBytes 64) :=
  pair.sign (messageHash message).bytes

/-- Whether a signature of a message that is no transaction is valid under the public key. -/
def verifyMessage (pair : KeyPair) (message signature : Bytes) : Bool :=
  pair.verify (messageHash message).bytes signature

end KeyPair

end LedgerWire
