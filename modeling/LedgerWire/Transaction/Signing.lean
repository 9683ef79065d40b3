import LedgerWire.Keys.KeyPair
import LedgerWire.Network
import LedgerWire.Transaction.Envelope

/-!
# Hashes and signatures

What is signed is the hash of the signature base: the identifier of the network, the tag of the
envelope and the content. A transaction is signed under the tag and in the layout of the newer
envelope, whichever it travels in, so a change of layout leaves every signature valid.
-/

namespace LedgerWire

/-- What can be signed: its tag and its layout in the signature base. -/
class Signable (α : Type) where
  /-- The tag in front of the content. -/
  tag : Int32
  /-- The layout of the content. -/
  codec : Codec α

instance : Signable Transaction := ⟨EnvelopeType.tx.tag, Transaction.codec⟩

instance : Signable FeeBump := ⟨EnvelopeType.txFeeBump.tag, FeeBump.codec⟩

/-- The bytes whose hash is signed. -/
def signatureBase {α : Type} [Signable α] (network : Network) (content : α) : Bytes :=
  let header := (Writer.empty.padded network.id.bytes).int32 (Signable.tag α)
  (Signable.codec.write content header).bytes

/-- The hash that is signed. -/
def signatureHash {α : Type} [Signable α] (network : Network) (content : α) : FixedBytes 32 :=
  sha256 (signatureBase network content)

namespace Signed
variable {α : Type}

/-- Adds a signature at the end, if there are fewer than twenty. -/
def addSignature (signature : DecoratedSignature) (s : Signed α) :
    Except TransactionFault (Signed α) :=
  if Limits.maxSignatures ≤ s.signatures.length then .error .tooManySignatures
  else .ok { s with signatures := s.signatures ++ [signature] }

/-- Adds the signature of a key pair for a network. -/
def sign [Signable α] (pair : KeyPair) (network : Network) (s : Signed α) :
    Except TransactionFault (Signed α) :=
  match pair.signDecorated (signatureHash network s.content).bytes with
  | .ok signature => s.addSignature signature
  | .error fault => .error (.key fault)

/-- Adds the secret of a hash signer, which has at most 64 bytes. -/
def signHashX (preimage : Bytes) (s : Signed α) : Except TransactionFault (Signed α) :=
  match DecoratedSignature.make (Hint.ofPreimage preimage) preimage with
  | .ok signature => s.addSignature signature
  | .error (.tooLong length) => .error (.preimageTooLong length)

/-- Whether there is a valid signature of a public key for a network. -/
def isSignedBy [Signable α] (key : FixedBytes 32) (network : Network) (s : Signed α) : Bool :=
  s.signatures.any fun signature =>
    signature.hint == Hint.ofKey key &&
      Ed25519.verify key (signatureHash network s.content).bytes signature.signature

end Signed

namespace Envelope

/-- The signatures. -/
def signatures : Envelope → List DecoratedSignature
  | .transaction tx => tx.signatures
  | .feeBump bump => bump.signatures

/-- The bytes whose hash is signed. -/
def signatureBase (network : Network) : Envelope → Bytes
  | .transaction tx => LedgerWire.signatureBase network tx.content
  | .feeBump bump => LedgerWire.signatureBase network bump.content

/-- The hash that is signed. -/
def hash (network : Network) : Envelope → FixedBytes 32
  | .transaction tx => signatureHash network tx.content
  | .feeBump bump => signatureHash network bump.content

/-- The envelope with other signatures, which are found in one way for every kind of content. -/
def mapSigned {ε : Type} (f : {α : Type} → [Signable α] → Signed α → Except ε (Signed α)) :
    Envelope → Except ε Envelope
  | .transaction tx => do return .transaction { tx with toSigned := ← f tx.toSigned }
  | .feeBump bump => .feeBump <$> f bump

/-- Adds a signature at the end, if there are fewer than twenty. -/
def addSignature (signature : DecoratedSignature) (e : Envelope) :
    Except TransactionFault Envelope :=
  e.mapSigned fun s => s.addSignature signature

/-- Adds the signature of a key pair for a network. -/
def sign (pair : KeyPair) (network : Network) (e : Envelope) :
    Except TransactionFault Envelope :=
  e.mapSigned fun s => s.sign pair network

/-- Adds the secret of a hash signer, which has at most 64 bytes. -/
def signHashX (preimage : Bytes) (e : Envelope) : Except TransactionFault Envelope :=
  e.mapSigned fun s => s.signHashX preimage

/-- Whether there is a valid signature of a public key for a network. -/
def isSignedBy (key : FixedBytes 32) (network : Network) : Envelope → Bool
  | .transaction tx => tx.toSigned.isSignedBy key network
  | .feeBump bump => bump.isSignedBy key network

end Envelope

end LedgerWire
