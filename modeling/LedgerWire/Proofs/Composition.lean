import LedgerWire.Proofs.RoundTrip
import LedgerWire.Proofs.Wire.Composition
import LedgerWire.Transaction.Envelope

/-!
# The readers of all types are composed

The codec of a type is composed because its definition is: once those of its parts are known to be,
the instances of the ways of putting codecs together find it. Only the reader of predicates is a
recursion of its own.
-/

namespace LedgerWire

section Identity

instance : AccountId.codec.Composed := by
  unfold AccountId.codec
  infer_instance

instance : MuxedAccount.codec.Composed := by
  unfold MuxedAccount.codec
  infer_instance

instance : SignedPayload.codec.Composed := by
  unfold SignedPayload.codec
  infer_instance

instance : SignerKey.codec.Composed := by
  unfold SignerKey.codec
  infer_instance

instance : Signer.codec.Composed := by
  unfold Signer.codec
  infer_instance

instance : DecoratedSignature.codec.Composed := by
  unfold DecoratedSignature.codec
  infer_instance

end Identity

section Assets

instance (shortest longest : Nat) : (Credit.codec shortest longest).Composed := by
  unfold Credit.codec
  infer_instance

instance : Arm.AllComposed Asset.arms := by
  unfold Asset.arms
  infer_instance

instance : Asset.codec.Composed := by
  unfold Asset.codec
  infer_instance

instance : PoolParameters.codec.Composed := by
  unfold PoolParameters.codec
  infer_instance

instance : PoolId.codec.Composed := by
  unfold PoolId.codec
  infer_instance

instance : ChangeTrustAsset.codec.Composed := by
  unfold ChangeTrustAsset.codec
  infer_instance

instance : TrustLineAsset.codec.Composed := by
  unfold TrustLineAsset.codec
  infer_instance

instance : Price.codec.Composed := by
  unfold Price.codec
  infer_instance

end Assets

section Claims

/-- The number of operands is read by a composed reader. -/
lemma ClaimPredicate.operands_composed : operands.Composed := by
  refine .bind .uint32 fun count => ?_
  split
  case isTrue => exact .forbidden _
  case isFalse => exact .pure ()

/-- The mark of an operand is read by a composed reader. -/
lemma ClaimPredicate.operand_composed : operand.Composed := by
  refine .bind .bool fun present => ?_
  cases present with
  | false => exact .forbidden _
  | true => exact .pure ()

/-- A reader of so many levels is composed, by induction on the levels. -/
lemma ClaimPredicate.readWithin_composed (levels : Nat) : (readWithin levels).Composed := by
  induction levels with
  | zero => exact .forbidden _
  | succ levels ih =>
    refine .bind .int32 fun tag => ?_
    split
    case h_1 => exact .pure _
    case h_2 => exact .bind operands_composed fun _ => .bind ih fun left => ih.map (and left)
    case h_3 => exact .bind operands_composed fun _ => .bind ih fun left => ih.map (or left)
    case h_4 => exact .bind operand_composed fun _ => ih.map not
    case h_5 => exact Decode.Composed.int64.map _
    case h_6 => exact Decode.Composed.int64.map _
    case h_7 => exact .unknownTag _ tag

instance : ClaimPredicate.codec.Composed := ⟨ClaimPredicate.readWithin_composed _⟩

instance : Claimant.codec.Composed := by
  unfold Claimant.codec
  infer_instance

instance : BalanceId.codec.Composed := by
  unfold BalanceId.codec
  infer_instance

instance : LedgerKey.codec.Composed := by
  unfold LedgerKey.codec
  infer_instance

instance : RevokeSponsorship.codec.Composed := by
  unfold RevokeSponsorship.codec
  infer_instance

end Claims

section Operations

instance : CreateAccount.codec.Composed := by
  unfold CreateAccount.codec
  infer_instance

instance : Payment.codec.Composed := by
  unfold Payment.codec
  infer_instance

instance : PathPayment.codec.Composed := by
  unfold PathPayment.codec
  infer_instance

instance : Offer.codec.Composed := by
  unfold Offer.codec
  infer_instance

instance : PassiveOffer.codec.Composed := by
  unfold PassiveOffer.codec
  infer_instance

instance : SetOptions.codec.Composed := by
  unfold SetOptions.codec
  infer_instance

instance : ChangeTrust.codec.Composed := by
  unfold ChangeTrust.codec
  infer_instance

instance (shortest width : Nat) : (AllowTrust.codeField shortest width).Composed := by
  unfold AllowTrust.codeField
  infer_instance

instance : AllowTrust.codeCodec.Composed := by
  unfold AllowTrust.codeCodec
  infer_instance

instance : AllowTrust.codec.Composed := by
  unfold AllowTrust.codec
  infer_instance

instance : ManageData.codec.Composed := by
  unfold ManageData.codec
  infer_instance

instance : CreateClaimableBalance.codec.Composed := by
  unfold CreateClaimableBalance.codec
  infer_instance

instance : Clawback.codec.Composed := by
  unfold Clawback.codec
  infer_instance

instance : SetTrustLineFlags.codec.Composed := by
  unfold SetTrustLineFlags.codec
  infer_instance

instance : PoolDeposit.codec.Composed := by
  unfold PoolDeposit.codec
  infer_instance

instance : PoolWithdrawal.codec.Composed := by
  unfold PoolWithdrawal.codec
  infer_instance

instance : Arm.AllComposed OperationBody.arms := by
  unfold OperationBody.arms
  infer_instance

instance : OperationBody.codec.Composed := by
  unfold OperationBody.codec
  infer_instance

instance : Operation.codec.Composed := by
  unfold Operation.codec
  infer_instance

end Operations

section Transactions

instance : TimeBounds.codec.Composed := by
  unfold TimeBounds.codec
  infer_instance

instance : LedgerBounds.codec.Composed := by
  unfold LedgerBounds.codec
  infer_instance

instance : Preconditions.fullCodec.Composed := by
  unfold Preconditions.fullCodec
  infer_instance

instance : PreconditionForm.codec.Composed := by
  unfold PreconditionForm.codec
  infer_instance

instance : Preconditions.codec.Composed := by
  unfold Preconditions.codec
  infer_instance

instance : Memo.codec.Composed := by
  unfold Memo.codec
  infer_instance

instance : Transaction.operationsCodec.Composed := by
  unfold Transaction.operationsCodec
  infer_instance

instance : Transaction.codec.Composed := by
  unfold Transaction.codec
  infer_instance

instance : Transaction.legacyCodec.Composed := by
  unfold Transaction.legacyCodec
  infer_instance

instance : DecoratedSignature.listCodec.Composed := by
  unfold DecoratedSignature.listCodec
  infer_instance

instance {α : Type} (content : Codec α) [content.Composed] : (Signed.codec content).Composed := by
  unfold Signed.codec
  infer_instance

instance : FeeBump.codec.Composed := by
  unfold FeeBump.codec
  infer_instance

instance : Envelope.codec.Composed := by
  unfold Envelope.codec
  infer_instance

end Transactions

/-- The codec of every type is composed. -/
theorem WireType.composed (t : WireType) : t.codec.Composed := by
  induction t with
  | optional inner ih => exact ⟨ih.read.optional⟩
  | _ =>
    dsimp only [codec, Value]
    infer_instance

end LedgerWire
