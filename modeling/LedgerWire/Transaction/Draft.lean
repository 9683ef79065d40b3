import LedgerWire.Transaction.Envelope

/-!
# Building transactions

A draft gathers what a transaction shall hold; an account adds the source and the next sequence
number, and the fee follows from the number of operations. The account moves on to the new sequence
number only when the transaction is made.
-/

namespace LedgerWire

/-- An account and the sequence number it used last. -/
structure Account where
  /-- The address. -/
  address : MuxedAccount
  /-- The sequence number used last. -/
  sequenceNumber : Int64
deriving DecidableEq

/-- What a transaction shall hold. -/
structure Draft where
  /-- What is done. -/
  operations : List Operation
  /-- What is attached. -/
  memo : Memo
  /-- What must hold. -/
  preconditions : Preconditions
  /-- The fee for each operation. -/
  baseFee : UInt32
deriving DecidableEq

namespace Account

/-- The sequence number of the next transaction. -/
def nextSequenceNumber (account : Account) : Except TransactionFault Int64 :=
  if account.sequenceNumber < .maxValue then .ok (account.sequenceNumber + 1)
  else .error .sequenceOverflow

/-- The account after its next transaction. -/
def increment (account : Account) : Except TransactionFault Account := do
  return { account with sequenceNumber := ← account.nextSequenceNumber }

end Account

namespace Draft

/-- Operations without a memo or preconditions, at the least fee. -/
def ofOperations (operations : List Operation) : Draft :=
  ⟨operations, .none, .none, UInt32.ofNat Limits.minBaseFee⟩

/-- The draft with a memo. -/
def withMemo (memo : Memo) (draft : Draft) : Draft := { draft with memo := memo }

/-- The draft with other preconditions. -/
def withPreconditions (preconditions : Preconditions) (draft : Draft) : Draft :=
  { draft with preconditions := preconditions }

/-- The draft with another window of time. -/
def withTimeBounds (bounds : TimeBounds) (draft : Draft) : Draft :=
  { draft with preconditions := { draft.preconditions with timeBounds := some bounds } }

/-- The draft with a window of time that ends `timeout` seconds after `now`. -/
def withTimeout (now timeout : UInt64) (draft : Draft) : Draft :=
  draft.withTimeBounds (.expiresAfter now timeout)

/-- The draft with another fee for each operation. -/
def withBaseFee (baseFee : UInt32) (draft : Draft) : Draft := { draft with baseFee := baseFee }

/-- The transaction of a draft, and the account after it. -/
def build (account : Account) (draft : Draft) :
    Except TransactionFault (SignedTransaction × Account) := do
  let count := draft.operations.length
  if draft.baseFee.toNat < Limits.minBaseFee then
    throw (.feeTooLow (Int64.ofNat draft.baseFee.toNat) (Int64.ofNat Limits.minBaseFee))
  Transaction.validateCount count
  let fee := draft.baseFee.toNat * count
  if UInt32.size ≤ fee then throw .feeOverflow
  let sequenceNumber ← account.nextSequenceNumber
  let transaction ← Transaction.make account.address (UInt32.ofNat fee) sequenceNumber
    draft.operations draft.memo draft.preconditions
  return (.unsigned transaction, { account with sequenceNumber := sequenceNumber })

end Draft

end LedgerWire
