import LedgerWire.Proofs.Parts
import LedgerWire.Proofs.Wire.Alignment

/-!
# Everything is written in words

The codec of every type writes whole words of four bytes, and at least one: once that is known of
the codecs of its parts, the instances of the ways of putting codecs together find it. A union needs
an arm for each of its values besides. So whatever is written, in whatever order, the bytes of a
writer are those of the values one after another, and no value starts within a word.
-/

namespace LedgerWire

section Identity

instance : AccountId.codec.Filled := by
  unfold AccountId.codec
  exact .union fun _ => rfl

instance : MuxedAccount.codec.Filled := by
  unfold MuxedAccount.codec
  exact .union (by rintro ⟨_, _ | _⟩ <;> rfl)

instance : SignedPayload.codec.Filled := by
  unfold SignedPayload.codec
  infer_instance

instance : SignerKey.codec.Filled := by
  unfold SignerKey.codec
  exact .union fun v => by cases v <;> rfl

instance : Signer.codec.Filled := by
  unfold Signer.codec
  infer_instance

instance : DecoratedSignature.codec.Filled := by
  unfold DecoratedSignature.codec
  infer_instance

end Identity

section Assets

instance (shortest longest : Nat) : (Credit.codec shortest longest).Aligned := by
  unfold Credit.codec
  infer_instance

instance : Arm.AllAligned Asset.arms := by
  unfold Asset.arms
  infer_instance

instance : Asset.codec.Filled := by
  unfold Asset.codec
  exact .union fun v => by cases v <;> rfl

instance : PoolParameters.codec.Filled := by
  unfold PoolParameters.codec
  infer_instance

instance : PoolId.codec.Filled := by
  unfold PoolId.codec
  infer_instance

instance : ChangeTrustAsset.codec.Filled := by
  unfold ChangeTrustAsset.codec
  exact .union (by rintro ((_ | _ | _) | _) <;> rfl)

instance : TrustLineAsset.codec.Filled := by
  unfold TrustLineAsset.codec
  exact .union (by rintro ((_ | _ | _) | _) <;> rfl)

instance : Price.codec.Filled := by
  unfold Price.codec
  infer_instance

end Assets

section Claims

instance : ClaimPredicate.codec.Filled where
  words p w := by
    obtain ⟨n, size_le, length⟩ := p.length_encode
    have pos := p.size_pos
    refine ⟨n - 1, ?_⟩
    rw [Writer.length_eq, ClaimPredicate.appends, List.length_append, ← Writer.length_eq, length]
    omega

instance : Claimant.codec.Filled := by
  unfold Claimant.codec
  infer_instance

instance : BalanceId.codec.Filled := by
  unfold BalanceId.codec
  infer_instance

instance : LedgerKey.codec.Filled := by
  unfold LedgerKey.codec
  exact .union fun v => by cases v <;> rfl

instance : RevokeSponsorship.codec.Filled := by
  unfold RevokeSponsorship.codec
  exact .union fun v => by cases v <;> rfl

end Claims

section Operations

instance : CreateAccount.codec.Filled := by
  unfold CreateAccount.codec
  infer_instance

instance : Payment.codec.Filled := by
  unfold Payment.codec
  infer_instance

instance : PathPayment.codec.Filled := by
  unfold PathPayment.codec
  infer_instance

instance : Offer.codec.Filled := by
  unfold Offer.codec
  infer_instance

instance : PassiveOffer.codec.Filled := by
  unfold PassiveOffer.codec
  infer_instance

instance : SetOptions.codec.Filled := by
  unfold SetOptions.codec
  infer_instance

instance : ChangeTrust.codec.Filled := by
  unfold ChangeTrust.codec
  infer_instance

instance (shortest width : Nat) : (AllowTrust.codeField shortest width).Aligned := by
  unfold AllowTrust.codeField
  infer_instance

instance : AllowTrust.codeCodec.Filled := by
  unfold AllowTrust.codeCodec
  refine .union fun code => ?_
  rcases Nat.lt_or_ge AssetCode.shortWidth (Bytes.ofText code).length with long | short
  · simp [Nat.not_le_of_lt long]
  · simp [short]

instance : AllowTrust.codec.Filled := by
  unfold AllowTrust.codec
  infer_instance

instance : ManageData.codec.Filled := by
  unfold ManageData.codec
  infer_instance

instance : CreateClaimableBalance.codec.Filled := by
  unfold CreateClaimableBalance.codec
  infer_instance

instance : Clawback.codec.Filled := by
  unfold Clawback.codec
  infer_instance

instance : SetTrustLineFlags.codec.Filled := by
  unfold SetTrustLineFlags.codec
  infer_instance

instance : PoolDeposit.codec.Filled := by
  unfold PoolDeposit.codec
  infer_instance

instance : PoolWithdrawal.codec.Filled := by
  unfold PoolWithdrawal.codec
  infer_instance

instance : Arm.AllAligned OperationBody.arms := by
  unfold OperationBody.arms
  infer_instance

instance : OperationBody.codec.Filled := by
  unfold OperationBody.codec
  exact .union fun v => by cases v <;> rfl

instance : Operation.codec.Filled := by
  unfold Operation.codec
  infer_instance

end Operations

section Transactions

instance : TimeBounds.codec.Filled := by
  unfold TimeBounds.codec
  infer_instance

instance : LedgerBounds.codec.Filled := by
  unfold LedgerBounds.codec
  infer_instance

instance : Preconditions.fullCodec.Filled := by
  unfold Preconditions.fullCodec
  infer_instance

instance : PreconditionForm.codec.Filled := by
  unfold PreconditionForm.codec
  exact .union fun v => by cases v <;> rfl

instance : Preconditions.codec.Filled := by
  unfold Preconditions.codec
  infer_instance

instance : Memo.codec.Filled := by
  unfold Memo.codec
  exact .union fun v => by cases v <;> rfl

instance : Transaction.operationsCodec.Filled := by
  unfold Transaction.operationsCodec
  infer_instance

instance : Transaction.codec.Filled := by
  unfold Transaction.codec
  infer_instance

instance : Transaction.legacyCodec.Filled := by
  unfold Transaction.legacyCodec
  infer_instance

instance : DecoratedSignature.listCodec.Filled := by
  unfold DecoratedSignature.listCodec
  infer_instance

instance {α : Type} (content : Codec α) [content.Filled] : (Signed.codec content).Filled := by
  unfold Signed.codec
  infer_instance

instance : FeeBump.codec.Filled := by
  unfold FeeBump.codec
  infer_instance

instance : Envelope.codec.Filled := by
  unfold Envelope.codec
  exact .union (by rintro (⟨_, _ | _⟩ | _) <;> rfl)

end Transactions

/-- The codec of every type writes in words. -/
lemma WireType.aligned (t : WireType) : t.codec.Aligned := by
  induction t with
  | optional inner ih =>
    dsimp only [codec, Value]
    infer_instance
  | _ =>
    dsimp only [codec, Value]
    infer_instance

/-- Every type but that of no bytes writes at least one word. -/
lemma WireType.filled {t : WireType} (other : t ≠ .fixed 0) : t.codec.Filled := by
  cases t with
  | fixed n =>
    have some : NeZero n := ⟨fun zero => other (congrArg fixed zero)⟩
    exact inferInstanceAs (Codec.fixed n).Filled
  | optional inner =>
    have aligned := inner.aligned
    exact inferInstanceAs (Codec.optional inner.codec).Filled
  | _ =>
    dsimp only [codec, Value]
    infer_instance

namespace WirePart

/-- Every part is written in words. -/
lemma aligned (part : WirePart) : part.codec.Aligned := by
  induction part with
  | value t => exact t.aligned
  | optional inner ih => exact inferInstanceAs (Codec.optional inner.codec).Aligned
  | list max inner ih => exact inferInstanceAs (Codec.list max inner.codec).Aligned
  | _ =>
    dsimp only [codec, Value]
    infer_instance

/-- Every part but that of no bytes fills at least one word. -/
lemma filled {part : WirePart} (other : part ≠ .value (.fixed 0)) : part.codec.Filled := by
  cases part with
  | value t => exact WireType.filled fun same => other (congrArg value same)
  | optional inner =>
    have aligned := inner.aligned
    exact inferInstanceAs (Codec.optional inner.codec).Filled
  | list max inner =>
    have aligned := inner.aligned
    exact inferInstanceAs (Codec.list max inner.codec).Filled
  | _ =>
    dsimp only [codec, Value]
    infer_instance

/-- A value of some part. -/
structure Item where
  /-- The part. -/
  part : WirePart
  /-- The value. -/
  value : part.Value

/-- The wire form of a value. -/
def Item.encode (item : Item) : Bytes := item.part.codec.encode item.value

/-- Writes values of any parts one after another. -/
def writeAll (items : List Item) (w : Writer) : Writer :=
  w.repeated (fun item => item.part.codec.write item.value) items

/-- Values one after another leave the wire forms one after another. -/
lemma bytes_writeAll (items : List Item) (w : Writer) :
    (writeAll items w).bytes = w.bytes ++ items.flatMap Item.encode :=
  Writer.bytes_repeated (fun item w => item.part.appends item.value w) items w

/-- A writer at the end of a word is at the end of one after any values. -/
lemma four_dvd_writeAll (items : List Item) {w : Writer} (start : 4 ∣ w.length) :
    4 ∣ (writeAll items w).length := by
  obtain ⟨n, written⟩ :=
    Writer.length_repeated (fun item : Item => item.part.aligned.words item.value) items w
  have sum : (writeAll items w).length = w.length + 4 * n := written
  rw [sum]
  exact Nat.dvd_add start (Nat.dvd_mul_right 4 n)

/-- Every value is written behind what a writer holds, and everywhere in the same way: in whole
words of four bytes, and in at least one, unless it is a string of a fixed number of bytes which is
zero. So values of any parts are written one after another, each from the start of a word. -/
theorem written_in_words :
    (∀ (part : WirePart) (v : part.Value) (w : Writer),
      (part.codec.write v w).bytes = w.bytes ++ part.codec.encode v ∧
        4 ∣ (part.codec.encode v).length ∧
        (0 < (part.codec.encode v).length ↔ part ≠ .value (.fixed 0))) ∧
    ∀ (items : List Item) (w : Writer),
      (writeAll items w).bytes = w.bytes ++ items.flatMap Item.encode ∧
        (4 ∣ w.length → 4 ∣ (writeAll items w).length) := by
  constructor
  · intro part v w
    refine ⟨part.appends v w, part.aligned.four_dvd_encode v, ?_,
      fun other => (filled other).encode_pos v⟩
    intro pos none
    subst none
    have nothing : ((Codec.fixed 0).encode v).length = 0 := Codec.length_encode_fixed v
    exact Nat.ne_of_gt pos nothing
  · exact fun items w => ⟨bytes_writeAll items w, four_dvd_writeAll items⟩

/-- A byte string and a truth value, one after the other. -/
theorem written_in_words_two :
    let items : List Item := [⟨.counted 8, ([170] : Bytes)⟩, ⟨.value .bool, true⟩]
    4 ∣ Writer.empty.length ∧
      (writeAll items .empty).bytes = [0, 0, 0, 1, 170, 0, 0, 0, 0, 0, 0, 1] ∧
      4 ∣ (writeAll items .empty).length := by
  intro items
  have start : 4 ∣ Writer.empty.length := by decide
  obtain ⟨bytes, aligned⟩ := written_in_words.2 items .empty
  exact ⟨start, bytes, aligned start⟩

/-- No bytes are written as nothing, which is no word. -/
theorem encode_no_bytes :
    (codec (.value (.fixed 0))).encode (⟨[], rfl⟩ : FixedBytes 0) = [] ∧
      ¬ ∀ (part : WirePart) (v : part.Value), 0 < (part.codec.encode v).length := by
  have nothing : (codec (.value (.fixed 0))).encode (⟨[], rfl⟩ : FixedBytes 0) = [] := rfl
  refine ⟨nothing, fun filled => ?_⟩
  have pos := filled (.value (.fixed 0)) (⟨[], rfl⟩ : FixedBytes 0)
  rw [nothing] at pos
  exact absurd pos (Nat.lt_irrefl 0)

end WirePart

end LedgerWire
