import LedgerWire.Operation.Codec
import LedgerWire.Operation.Rules
import LedgerWire.Text.Basic
import LedgerWire.Transaction.Fault
import LedgerWire.Transaction.Preconditions
import LedgerWire.Wire.Codec

/-!
# Transactions and their memos
-/

/-!
## Memos

Data that the sender of a transaction attaches to it. A text memo holds any bytes, at most 28 of
them; it is usually UTF-8, but nothing depends on that.
-/

namespace LedgerWire

/-- What is attached to a transaction. -/
inductive Memo where
  /-- Nothing. -/
  | none
  /-- A text, as bytes. -/
  | text (bytes : Bytes)
  /-- A number. -/
  | id (id : UInt64)
  /-- A hash. -/
  | hash (hash : FixedBytes 32)
  /-- The hash of a transaction that is paid back. -/
  | returnHash (hash : FixedBytes 32)
deriving DecidableEq

namespace Memo

/-- A text memo of at most 28 bytes. -/
def ofBytes (bytes : Bytes) : Except TransactionFault Memo :=
  if Limits.memoTextBytes < bytes.length then .error (.memoTooLong bytes.length)
  else .ok (.text bytes)

/-- A text memo, whose length is counted in bytes. -/
def ofText (text : String) : Except TransactionFault Memo := ofBytes (Bytes.ofText text)

/-- Whether nothing is attached. -/
def isNone : Memo → Bool
  | .none => true
  | _ => false

/-- Fails when the text of a memo is too long. -/
def validate : Memo → Except TransactionFault Unit
  | .text bytes =>
    if Limits.memoTextBytes < bytes.length then .error (.memoTooLong bytes.length) else .ok ()
  | _ => .ok ()

/-- The text of a memo for a reader. -/
def toText : Memo → String
  | .none => "none"
  | .text bytes => "text:" ++ Utf8.lenient bytes
  | .id n => s!"id:{n}"
  | .hash h => "hash:" ++ Hex.encode h.bytes
  | .returnHash h => "return:" ++ Hex.encode h.bytes

/-- A memo on the wire. -/
def codec : Codec Memo :=
  .union "MemoType" [
    .void 0 .none isNone,
    ⟨1, Bytes, .counted Limits.memoTextBytes, .text, fun | .text b => some b | _ => Option.none⟩,
    ⟨2, UInt64, .uint64, .id, fun | .id n => some n | _ => Option.none⟩,
    ⟨3, FixedBytes 32, .fixed 32, .hash, fun | .hash h => some h | _ => Option.none⟩,
    ⟨4, FixedBytes 32, .fixed 32, .returnHash,
      fun | .returnHash h => some h | _ => Option.none⟩]

end Memo

/-!
## Transactions

A transaction is what its signers agree to: a source account, a fee, a sequence number,
preconditions, a memo and one to one hundred operations. Signatures and the layout of the envelope
are not part of it. Two layouts exist; the older one has no place for the number beside an account
or for preconditions other than a window of time.
-/

/-- What the signers of a transaction agree to. -/
structure Transaction where
  /-- The account that pays and whose sequence number is used. -/
  source : MuxedAccount
  /-- The most that is paid in stroops. -/
  fee : UInt32
  /-- The sequence number. -/
  sequenceNumber : Int64
  /-- What must hold. -/
  preconditions : Preconditions
  /-- What is attached. -/
  memo : Memo
  /-- What is done. -/
  operations : List Operation
deriving DecidableEq

/-- Something to be signed, with the signatures collected so far. -/
structure Signed (α : Type) where
  /-- What is signed. -/
  content : α
  /-- The signatures, in the order in which they were added. -/
  signatures : List DecoratedSignature
deriving DecidableEq

namespace Transaction

/-- Fails when the number of operations is not from one to one hundred. -/
def validateCount (count : Nat) : Except TransactionFault Unit :=
  if count = 0 ∨ Limits.maxOperations < count then .error (.invalidOperationCount count)
  else .ok ()

/-- Fails at the first operation that breaks a rule; the first of them has the given index. -/
def validateOperations (index : Nat) : List Operation → Except TransactionFault Unit
  | [] => .ok ()
  | op :: ops =>
    match op.body.validate with
    | .error fault => .error (.invalidOperation index fault)
    | .ok () => validateOperations (index + 1) ops

/-- A transaction that satisfies every rule. The number of operations is examined first, then each
operation, then the preconditions, then the memo. -/
def make (source : MuxedAccount) (fee : UInt32) (sequenceNumber : Int64)
    (operations : List Operation) (memo : Memo) (preconditions : Preconditions) :
    Except TransactionFault Transaction := do
  validateCount operations.length
  validateOperations 0 operations
  preconditions.validate.mapError .validation
  memo.validate
  return ⟨source, fee, sequenceNumber, preconditions, memo, operations⟩

/-- The operations of a transaction on the wire; there is at least one. -/
def operationsCodec : Codec (List Operation) :=
  (Codec.list Limits.maxOperations Operation.codec).check
    (fun ops => if ops.isEmpty then .error .noOperations else .ok ops) id

/-- A transaction on the wire, in the layout under which it is signed. -/
def codec : Codec Transaction :=
  (Codec.pair MuxedAccount.codec <| .pair .uint32 <| .pair .int64 <|
    .pair Preconditions.codec <| .pair Memo.codec <| .pair operationsCodec <|
    .versioned "TransactionExt" .void).map
    (fun (source, fee, sequence, preconditions, memo, operations, _) =>
      ⟨source, fee, sequence, preconditions, memo, operations⟩)
    (fun t => (t.source, t.fee, t.sequenceNumber, t.preconditions, t.memo, t.operations, ()))

/-- A transaction on the wire in the older layout, which keeps of the source the key and of the
preconditions the window of time. -/
def legacyCodec : Codec Transaction :=
  (Codec.pair (.fixed 32) <| .pair .uint32 <| .pair .int64 <|
    .pair (.optional TimeBounds.codec) <| .pair Memo.codec <| .pair operationsCodec <|
    .versioned "TransactionV0Ext" .void).map
    (fun (key, fee, sequence, time, memo, operations, _) =>
      ⟨⟨key, none⟩, fee, sequence, { Preconditions.none with timeBounds := time }, memo,
        operations⟩)
    (fun t => (t.source.key, t.fee, t.sequenceNumber, t.preconditions.timeBounds, t.memo,
      t.operations, ()))

end Transaction

/-- The signatures of an envelope on the wire. -/
def DecoratedSignature.listCodec : Codec (List DecoratedSignature) :=
  .list Limits.maxSignatures DecoratedSignature.codec

/-- Something signed on the wire: the content, then the signatures. -/
def Signed.codec {α : Type} (content : Codec α) : Codec (Signed α) :=
  (Codec.pair content DecoratedSignature.listCodec).map
    (fun (content, signatures) => ⟨content, signatures⟩) (fun s => (s.content, s.signatures))

end LedgerWire
