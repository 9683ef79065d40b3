import LedgerWire.Claim.Basic
import LedgerWire.Digest.Sha2
import LedgerWire.Transaction.Envelope

/-!
# Origins of claimable balances

The name of a claimable balance is known before the balance exists: it is the hash of the account
of the transaction that creates it, of the sequence number of that transaction and of the index of
the operation. Nothing else in the transaction plays a part, nor does the number beside its source
or the account that stands in for the source.
-/

namespace LedgerWire

/-- What decides the name of a claimable balance. -/
structure BalanceOrigin where
  /-- The source of the transaction. -/
  account : AccountId
  /-- The sequence number of the transaction. -/
  sequenceNumber : Int64
  /-- The index of the operation. -/
  index : UInt32
deriving DecidableEq

namespace BalanceOrigin

/-- The tag in front of the origin, that of an operation identifier. -/
def tag : Int32 := 6

/-- An origin on the wire. -/
def codec : Codec BalanceOrigin :=
  (Codec.pair AccountId.codec <| .pair .int64 .uint32).map
    (fun (account, sequence, index) => ⟨account, sequence, index⟩)
    (fun o => (o.account, o.sequenceNumber, o.index))

/-- The bytes whose hash names the balance. -/
def preimage (origin : BalanceOrigin) : Bytes :=
  (codec.write origin (Writer.empty.int32 tag)).bytes

/-- The name of the balance. -/
def balanceId (origin : BalanceOrigin) : BalanceId := ⟨sha256 origin.preimage⟩

end BalanceOrigin

namespace Transaction

/-- The origin of the balance that the operation at an index creates. -/
def balanceOrigin (transaction : Transaction) (index : Nat) :
    Except BalanceIdFault BalanceOrigin :=
  match transaction.operations[index]? with
  | none => .error (.indexOutOfRange index transaction.operations.length)
  | some op =>
    if op.body.createsBalance then
      .ok ⟨transaction.source.account, transaction.sequenceNumber, UInt32.ofNat index⟩
    else .error (.wrongOperationType index op.body.name)

/-- The name of the balance that the operation at an index creates. -/
def balanceId (transaction : Transaction) (index : Nat) : Except BalanceIdFault BalanceId := do
  return (← transaction.balanceOrigin index).balanceId

end Transaction

end LedgerWire
