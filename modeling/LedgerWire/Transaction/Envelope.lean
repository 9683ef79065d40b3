import LedgerWire.Transaction.Basic

/-!
# What travels to a network

A transaction in one of its layouts, or a fee bump around one, with signatures.
-/

/-!
## Layouts of transactions

The layout in which a transaction travels is chosen apart from the transaction and its signatures.
The older layout is chosen only where it loses nothing.
-/

namespace LedgerWire

/-- The layout of a transaction in its envelope. -/
inductive Layout where
  /-- The older layout. -/
  | v0
  /-- The layout under which transactions are signed. -/
  | v1
deriving DecidableEq, Repr

/-- The kinds of envelope. -/
inductive EnvelopeType where
  /-- A transaction in the older layout. -/
  | txV0
  /-- A transaction. -/
  | tx
  /-- A fee bump. -/
  | txFeeBump
deriving DecidableEq, Repr

/-- A transaction with its signatures and its layout. -/
structure SignedTransaction extends Signed Transaction where
  /-- The layout in which it travels. -/
  layout : Layout
deriving DecidableEq

/-- The tag of an envelope. -/
def EnvelopeType.tag : EnvelopeType → Int32
  | .txV0 => 0
  | .tx => 2
  | .txFeeBump => 5

/-- The kind of envelope for a layout. -/
def Layout.envelopeType : Layout → EnvelopeType
  | .v0 => .txV0
  | .v1 => .tx

namespace SignedTransaction

/-- A transaction that nobody has signed yet. -/
def unsigned (transaction : Transaction) : SignedTransaction := ⟨⟨transaction, []⟩, .v1⟩

/-- The kind of envelope. -/
def envelopeType (tx : SignedTransaction) : EnvelopeType := tx.layout.envelopeType

/-- The transaction with the layout of a kind of envelope. The older layout is refused for a source
with a number beside it, then for preconditions other than a window of time. -/
def withEnvelopeType (wanted : EnvelopeType) (tx : SignedTransaction) :
    Except TransactionFault SignedTransaction :=
  match wanted with
  | .tx => .ok { tx with layout := .v1 }
  | .txV0 =>
    if tx.content.source.isMuxed then .error (.invalidConstruction .muxedSource)
    else if tx.content.preconditions.beyondTime then
      .error (.invalidConstruction .beyondTimeBounds)
    else .ok { tx with layout := .v0 }
  | .txFeeBump => .error (.invalidConstruction .feeBump)

end SignedTransaction

/-!
## Fee bumps

A fee bump lets another account pay a higher fee for a transaction that is signed already, without
touching the signatures. The fee is offered for each operation and for one more, the bump itself,
and it may not fall below the rate that the inner transaction offers.
-/

/-- What the signers of a fee bump agree to. -/
structure FeeBump where
  /-- The account that pays. -/
  feeSource : MuxedAccount
  /-- The total fee in stroops. -/
  fee : Int64
  /-- The transaction it pays for, with the signatures of that. -/
  inner : Signed Transaction
deriving DecidableEq

namespace FeeBump

/-- A fee bump of a transaction that pays `baseFee` for each operation and for itself. -/
def make (feeSource : MuxedAccount) (baseFee : Int64) (inner : SignedTransaction) :
    Except TransactionFault FeeBump := do
  let least := Int64.ofNat Limits.minBaseFee
  if baseFee < least then throw (.feeTooLow baseFee least)
  let count := inner.content.operations.length
  let innerRate := Int64.ofNat (inner.content.fee.toNat / max count 1)
  if baseFee < innerRate then throw (.feeTooLow baseFee innerRate)
  let fee := baseFee.toInt * (count + 1)
  if Int64.maxValue.toInt < fee then throw .feeOverflow
  return ⟨feeSource, Int64.ofInt fee, inner.toSigned⟩

/-- The inner transaction as one that travels alone. -/
def innerTransaction (bump : FeeBump) : SignedTransaction := ⟨bump.inner, .v1⟩

/-- A fee bump on the wire. The inner transaction stands in it with its tag and signatures. -/
def codec : Codec FeeBump :=
  (Codec.pair MuxedAccount.codec <| .pair .int64 <| .pair
    (.union "FeeBumpInnerTx" [⟨2, Signed Transaction, Signed.codec Transaction.codec, id, some⟩])
    (.versioned "FeeBumpTransactionExt" .void)).map
    (fun (feeSource, fee, inner, _) => ⟨feeSource, fee, inner⟩)
    (fun b => (b.feeSource, b.fee, b.inner, ()))

end FeeBump

/-!
## Envelopes

What travels to a network: a transaction in one of its layouts or a fee bump, with signatures,
behind the tag of its kind.
-/

/-- What travels to a network. -/
inductive Envelope where
  /-- A transaction. -/
  | transaction (tx : SignedTransaction)
  /-- A fee bump. -/
  | feeBump (bump : Signed FeeBump)
deriving DecidableEq

namespace Envelope

/-- The kind of envelope. -/
def envelopeType : Envelope → EnvelopeType
  | .transaction tx => tx.envelopeType
  | .feeBump _ => .txFeeBump

/-- An envelope on the wire. -/
def codec : Codec Envelope :=
  .union "EnvelopeType" [
    ⟨0, Signed Transaction, Signed.codec Transaction.legacyCodec, fun s => .transaction ⟨s, .v0⟩,
      fun | .transaction ⟨s, .v0⟩ => some s | _ => none⟩,
    ⟨2, Signed Transaction, Signed.codec Transaction.codec, fun s => .transaction ⟨s, .v1⟩,
      fun | .transaction ⟨s, .v1⟩ => some s | _ => none⟩,
    ⟨5, Signed FeeBump, Signed.codec FeeBump.codec, .feeBump,
      fun | .feeBump bump => some bump | _ => none⟩]

end Envelope

end LedgerWire
