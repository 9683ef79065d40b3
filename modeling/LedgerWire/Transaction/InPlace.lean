import LedgerWire.Transaction.Draft
import LedgerWire.Transaction.Signing

/-!
# Changes in place

Accounts and whatever carries signatures are changed in place. A change that fails keeps what it
has done until then, so it leaves its value as it was only if all that can fail comes before the
first thing that is done. The computations elsewhere that return the changed value say what a
change does; here is the order in which it does so.
-/

namespace LedgerWire

/-- A change of a value in place, which keeps what it has done when it fails. -/
abbrev Change (σ α : Type) := EStateM TransactionFault σ α

namespace Change
variable {σ α : Type}

/-- What a change gives, and the value as the change leaves it, be it that it fails. -/
def attempt (change : Change σ α) (s : σ) : Except TransactionFault α × σ :=
  match change.run s with
  | .ok a s' => (.ok a, s')
  | .error fault s' => (.error fault, s')

/-- What changes give, made one after another. One that fails does not stop those after it. -/
def outcomes : List (Change σ α) → σ → List (Except TransactionFault α)
  | [], _ => []
  | change :: changes, s => (change.attempt s).1 :: outcomes changes (change.attempt s).2

/-- The value after changes, made one after another. -/
def final : List (Change σ α) → σ → σ
  | [], s => s
  | change :: changes, s => final changes (change.attempt s).2

end Change

/-- Moves an account on to its next sequence number. -/
def Account.advance : Change Account Unit := do
  let account ← get
  set { account with sequenceNumber := ← MonadExcept.ofExcept account.nextSequenceNumber }

/-- The transaction of a draft. The account moves on when the transaction is made. -/
def Draft.buildInPlace (draft : Draft) : Change Account SignedTransaction := do
  let count := draft.operations.length
  if draft.baseFee.toNat < Limits.minBaseFee then
    throw (.feeTooLow (Int64.ofNat draft.baseFee.toNat) (Int64.ofNat Limits.minBaseFee))
  MonadExcept.ofExcept (Transaction.validateCount count)
  let fee := draft.baseFee.toNat * count
  if UInt32.size ≤ fee then throw .feeOverflow
  let account ← get
  let sequenceNumber ← MonadExcept.ofExcept account.nextSequenceNumber
  let transaction ← MonadExcept.ofExcept <|
    Transaction.make account.address (UInt32.ofNat fee) sequenceNumber draft.operations draft.memo
      draft.preconditions
  Account.advance
  return .unsigned transaction

namespace Signed
variable {α : Type}

/-- Adds a signature at the end, if there are fewer than twenty. -/
def addInPlace (signature : DecoratedSignature) : Change (Signed α) Unit := do
  if Limits.maxSignatures ≤ (← get).signatures.length then throw .tooManySignatures
  modify fun s => { s with signatures := s.signatures ++ [signature] }

/-- Adds the signature of a key pair for a network. -/
def signInPlace [Signable α] (pair : KeyPair) (network : Network) : Change (Signed α) Unit := do
  let hash := signatureHash network (← get).content
  let signature ← MonadExcept.ofExcept ((pair.signDecorated hash.bytes).mapError .key)
  addInPlace signature

/-- Adds the secret of a hash signer, which has at most 64 bytes. -/
def signHashXInPlace (preimage : Bytes) : Change (Signed α) Unit := do
  if Limits.signatureBytes < preimage.length then throw (.preimageTooLong preimage.length)
  let signature ← MonadExcept.ofExcept <|
    (DecoratedSignature.make (Hint.ofPreimage preimage) preimage).mapError fun _ =>
      .preimageTooLong preimage.length
  addInPlace signature

end Signed

namespace SignedTransaction

/-- Changes the transaction and its signatures; the layout stays. -/
def onSigned {α : Type} (change : Change (Signed Transaction) α) : Change SignedTransaction α :=
  fun tx =>
    match change.run tx.toSigned with
    | .ok a s => .ok a { tx with toSigned := s }
    | .error fault s => .error fault { tx with toSigned := s }

/-- Takes the layout of a kind of envelope. The older layout is refused for a source with a number
beside it, then for preconditions other than a window of time. -/
def travelInPlace (wanted : EnvelopeType) : Change SignedTransaction Unit := do
  let tx ← get
  match wanted with
  | .tx => set { tx with layout := .v1 }
  | .txV0 =>
    if tx.content.source.isMuxed then throw (.invalidConstruction .muxedSource)
    if tx.content.preconditions.beyondTime then
      throw (.invalidConstruction .beyondTimeBounds)
    set { tx with layout := .v0 }
  | .txFeeBump => throw (.invalidConstruction .feeBump)

end SignedTransaction

end LedgerWire
