import LedgerWire.Asset.Basic
import LedgerWire.Asset.Pool
import LedgerWire.Bytes.Basic
import LedgerWire.Bytes.Encodings
import LedgerWire.Claim.Basic
import LedgerWire.Claim.Origin
import LedgerWire.Digest.Sha2
import LedgerWire.Ed25519.Signature
import LedgerWire.Fault
import LedgerWire.History.Toid
import LedgerWire.Identity.Account
import LedgerWire.Identity.Signer
import LedgerWire.Json.Basic
import LedgerWire.Json.Schema
import LedgerWire.Keys.Derivation
import LedgerWire.Keys.KeyPair
import LedgerWire.Log.Format
import LedgerWire.Network
import LedgerWire.Operation.Basic
import LedgerWire.Operation.Codec
import LedgerWire.Operation.Rules
import LedgerWire.StrKey.Body
import LedgerWire.StrKey.Kind
import LedgerWire.Text.Basic
import LedgerWire.Text.Quoted
import LedgerWire.Transaction.Basic
import LedgerWire.Transaction.Draft
import LedgerWire.Transaction.Envelope
import LedgerWire.Transaction.Fault
import LedgerWire.Transaction.InPlace
import LedgerWire.Transaction.Preconditions
import LedgerWire.Transaction.Signing
import LedgerWire.Value.Amount
import LedgerWire.Value.Price
import LedgerWire.Wire.Codec
import LedgerWire.Wire.Fault
import LedgerWire.Wire.Reader
import LedgerWire.Wire.Writer
import LedgerWire.Proofs.Alignment
import LedgerWire.Proofs.Amount
import LedgerWire.Proofs.Asset
import LedgerWire.Proofs.AssetOrder
import LedgerWire.Proofs.Base32
import LedgerWire.Proofs.Base64
import LedgerWire.Proofs.Basic
import LedgerWire.Proofs.Binding
import LedgerWire.Proofs.Bits
import LedgerWire.Proofs.Builds
import LedgerWire.Proofs.Claim
import LedgerWire.Proofs.CodeField
import LedgerWire.Proofs.Composition
import LedgerWire.Proofs.Crc16
import LedgerWire.Proofs.Decimal
import LedgerWire.Proofs.DerivationPath
import LedgerWire.Proofs.Envelope
import LedgerWire.Proofs.Faithful
import LedgerWire.Proofs.FeeBump
import LedgerWire.Proofs.Hex
import LedgerWire.Proofs.History.Advance
import LedgerWire.Proofs.History.Packing
import LedgerWire.Proofs.History.Range
import LedgerWire.Proofs.Identity
import LedgerWire.Proofs.InPlace
import LedgerWire.Proofs.Nesting
import LedgerWire.Proofs.Operation
import LedgerWire.Proofs.Origin
import LedgerWire.Proofs.Parts
import LedgerWire.Proofs.Pool
import LedgerWire.Proofs.Preconditions
import LedgerWire.Proofs.Price.Convergents
import LedgerWire.Proofs.Price.Distance
import LedgerWire.Proofs.Price.Reading
import LedgerWire.Proofs.Price.Rounds
import LedgerWire.Proofs.Reads
import LedgerWire.Proofs.Requests
import LedgerWire.Proofs.RoundTrip
import LedgerWire.Proofs.Rules
import LedgerWire.Proofs.Signatures
import LedgerWire.Proofs.SignedPayload
import LedgerWire.Proofs.StrKey.Body
import LedgerWire.Proofs.StrKey.Damage
import LedgerWire.Proofs.StrKey.Typed
import LedgerWire.Proofs.Text
import LedgerWire.Proofs.Texts
import LedgerWire.Proofs.Transaction
import LedgerWire.Proofs.Truncation
import LedgerWire.Proofs.Wide
import LedgerWire.Proofs.Wire.Alignment
import LedgerWire.Proofs.Wire.Answers
import LedgerWire.Proofs.Wire.Composition
import LedgerWire.Proofs.Wire.Confinement
import LedgerWire.Proofs.Wire.Faithful
import LedgerWire.Proofs.Wire.Lawful
import LedgerWire.Proofs.Wire.Reading
import LedgerWire.Proofs.Wire.Separation
import LedgerWire.Proofs.Wire.Union
import LedgerWire.Proofs.Wire.Writing
import LedgerWire.Proofs.WireText
