import LedgerWire.Proofs.Transaction

/-!
# Round trips

`WireType` names the types of the wire below envelopes, so that a statement about all of them, or
about several of them in one buffer, can be made at once. A value of such a type is read back from
what is written exactly when it is within the limits of its type, and values within their limits
that are written one after another are read back one after another.
-/

namespace LedgerWire

/-- The types of the wire below envelopes. -/
inductive WireType where
  | uint32
  | int32
  | uint64
  | int64
  | bool
  | fixed (n : Nat)
  | optional (inner : WireType)
  | accountId
  | muxedAccount
  | signerKey
  | signer
  | decoratedSignature
  | asset
  | changeTrustAsset
  | trustLineAsset
  | poolParameters
  | poolId
  | price
  | timeBounds
  | ledgerBounds
  | preconditionForm
  | preconditions
  | memo
  | claimPredicate
  | claimant
  | balanceId
  | ledgerKey
  | revokeSponsorship
  | createAccount
  | payment
  | pathPayment
  | offer
  | passiveOffer
  | setOptions
  | changeTrust
  | allowTrust
  | manageData
  | createClaimableBalance
  | clawback
  | setTrustLineFlags
  | poolDeposit
  | poolWithdrawal
  | operationBody
  | operation

namespace WireType

/-- The values of a type. -/
def Value : WireType → Type
  | uint32 => UInt32
  | int32 => Int32
  | uint64 => UInt64
  | int64 => Int64
  | bool => Bool
  | fixed n => FixedBytes n
  | optional inner => Option inner.Value
  | accountId => AccountId
  | muxedAccount => MuxedAccount
  | signerKey => SignerKey
  | signer => Signer
  | decoratedSignature => DecoratedSignature
  | asset => Asset
  | changeTrustAsset => ChangeTrustAsset
  | trustLineAsset => TrustLineAsset
  | poolParameters => PoolParameters
  | poolId => PoolId
  | price => Price
  | timeBounds => TimeBounds
  | ledgerBounds => LedgerBounds
  | preconditionForm => PreconditionForm
  | preconditions => Preconditions
  | memo => Memo
  | claimPredicate => ClaimPredicate
  | claimant => Claimant
  | balanceId => BalanceId
  | ledgerKey => LedgerKey
  | revokeSponsorship => RevokeSponsorship
  | createAccount => CreateAccount
  | payment => Payment
  | pathPayment => PathPayment
  | offer => Offer
  | passiveOffer => PassiveOffer
  | setOptions => SetOptions
  | changeTrust => ChangeTrust
  | allowTrust => AllowTrust
  | manageData => ManageData
  | createClaimableBalance => CreateClaimableBalance
  | clawback => Clawback
  | setTrustLineFlags => SetTrustLineFlags
  | poolDeposit => PoolDeposit
  | poolWithdrawal => PoolWithdrawal
  | operationBody => OperationBody
  | operation => Operation

/-- The codec of a type. -/
def codec : (t : WireType) → Codec t.Value
  | uint32 => .uint32
  | int32 => .int32
  | uint64 => .uint64
  | int64 => .int64
  | bool => .bool
  | fixed n => .fixed n
  | optional inner => .optional inner.codec
  | accountId => AccountId.codec
  | muxedAccount => MuxedAccount.codec
  | signerKey => SignerKey.codec
  | signer => Signer.codec
  | decoratedSignature => DecoratedSignature.codec
  | asset => Asset.codec
  | changeTrustAsset => ChangeTrustAsset.codec
  | trustLineAsset => TrustLineAsset.codec
  | poolParameters => PoolParameters.codec
  | poolId => PoolId.codec
  | price => Price.codec
  | timeBounds => TimeBounds.codec
  | ledgerBounds => LedgerBounds.codec
  | preconditionForm => PreconditionForm.codec
  | preconditions => Preconditions.codec
  | memo => Memo.codec
  | claimPredicate => ClaimPredicate.codec
  | claimant => Claimant.codec
  | balanceId => BalanceId.codec
  | ledgerKey => LedgerKey.codec
  | revokeSponsorship => RevokeSponsorship.codec
  | createAccount => CreateAccount.codec
  | payment => Payment.codec
  | pathPayment => PathPayment.codec
  | offer => Offer.codec
  | passiveOffer => PassiveOffer.codec
  | setOptions => SetOptions.codec
  | changeTrust => ChangeTrust.codec
  | allowTrust => AllowTrust.codec
  | manageData => ManageData.codec
  | createClaimableBalance => CreateClaimableBalance.codec
  | clawback => Clawback.codec
  | setTrustLineFlags => SetTrustLineFlags.codec
  | poolDeposit => PoolDeposit.codec
  | poolWithdrawal => PoolWithdrawal.codec
  | operationBody => OperationBody.codec
  | operation => Operation.codec

/-- Whether a value is within the limits of its type. Types that are not named have no limit. -/
def Fits : (t : WireType) → t.Value → Prop
  | optional inner => fun v : Option inner.Value => ∀ x ∈ v, inner.Fits x
  | preconditionForm => PreconditionForm.Fits
  | preconditions => Preconditions.Fits
  | memo => Memo.Fits
  | claimPredicate => fun p : ClaimPredicate => p.depth ≤ Limits.readablePredicateDepth
  | claimant => Claimant.Fits
  | ledgerKey => LedgerKey.Fits
  | revokeSponsorship => RevokeSponsorship.Fits
  | pathPayment => PathPayment.Fits
  | setOptions => SetOptions.Fits
  | allowTrust => AllowTrust.Fits
  | manageData => ManageData.Fits
  | createClaimableBalance => CreateClaimableBalance.Fits
  | operationBody => OperationBody.Fits
  | operation => Operation.Fits
  | _ => fun _ => True

/-- The type of the value itself, whatever marks of its presence stand in front of it. -/
def core : WireType → WireType
  | optional inner => inner.core
  | t => t

end WireType

/-- A value of some type of the wire. -/
structure WireItem where
  /-- The type. -/
  type : WireType
  /-- The value. -/
  value : type.Value

namespace WireItem

/-- Writes values of any types one after another. -/
def writeAll (items : List WireItem) (w : Writer) : Writer :=
  items.foldl (fun w item => item.type.codec.write item.value w) w

/-- Reads values of the given types one after another. -/
def readAll : List WireType → Decode (List WireItem)
  | [] => return []
  | t :: ts => do
    let value ← t.codec.read
    let items ← readAll ts
    return ⟨t, value⟩ :: items

end WireItem

namespace WireType

/-- Every type but that of preconditions is lawful. -/
lemma lawful {t : WireType} (other : t.core ≠ .preconditions) : t.codec.Lawful t.Fits := by
  induction t with
  | optional inner ih => exact (ih other).optional
  | preconditions => exact absurd rfl other
  | uint32 => exact Codec.Lawful.uint32
  | int32 => exact Codec.Lawful.int32
  | uint64 => exact Codec.Lawful.uint64
  | int64 => exact Codec.Lawful.int64
  | bool => exact Codec.Lawful.bool
  | fixed n => exact Codec.Lawful.fixed n
  | accountId => exact AccountId.lawful
  | muxedAccount => exact MuxedAccount.lawful
  | signerKey => exact SignerKey.lawful
  | signer => exact Signer.lawful
  | decoratedSignature => exact DecoratedSignature.lawful
  | asset => exact Asset.lawful
  | changeTrustAsset => exact ChangeTrustAsset.lawful
  | trustLineAsset => exact TrustLineAsset.lawful
  | poolParameters => exact PoolParameters.lawful
  | poolId => exact PoolId.lawful
  | price => exact Price.lawful
  | timeBounds => exact TimeBounds.lawful
  | ledgerBounds => exact LedgerBounds.lawful
  | preconditionForm => exact PreconditionForm.lawful
  | memo => exact Memo.lawful
  | claimPredicate => exact ClaimPredicate.lawful
  | claimant => exact Claimant.lawful
  | balanceId => exact BalanceId.lawful
  | ledgerKey => exact LedgerKey.lawful
  | revokeSponsorship => exact RevokeSponsorship.lawful
  | createAccount => exact CreateAccount.lawful
  | payment => exact Payment.lawful
  | pathPayment => exact PathPayment.lawful
  | offer => exact Offer.lawful
  | passiveOffer => exact PassiveOffer.lawful
  | setOptions => exact SetOptions.lawful
  | changeTrust => exact ChangeTrust.lawful
  | allowTrust => exact AllowTrust.lawful
  | manageData => exact ManageData.lawful
  | createClaimableBalance => exact CreateClaimableBalance.lawful
  | clawback => exact Clawback.lawful
  | setTrustLineFlags => exact SetTrustLineFlags.lawful
  | poolDeposit => exact PoolDeposit.lawful
  | poolWithdrawal => exact PoolWithdrawal.lawful
  | operationBody => exact OperationBody.lawful
  | operation => exact Operation.lawful

/-- Every type reads back what is within its limits. -/
lemma roundTrips (t : WireType) : t.codec.RoundTrips t.Fits := by
  induction t with
  | optional inner ih => exact ih.optional
  -- Preconditions are read from several spellings, so they are not lawful as the others are.
  | preconditions => exact Preconditions.roundTrips
  | _ => exact (lawful (by simp [core])).roundTrips

end WireType

namespace WireItem

/-- The wire form of a value. -/
def encode (item : WireItem) : Bytes := item.type.codec.encode item.value

/-- Whether a value is within the limits of its type. -/
def Fits (item : WireItem) : Prop := item.type.Fits item.value

/-- Values written one after another add their wire forms one after another. -/
lemma bytes_writeAll (items : List WireItem) (w : Writer) :
    (writeAll items w).bytes = w.bytes ++ items.flatMap encode :=
  Writer.bytes_repeated (fun item w => item.type.roundTrips.appends item.value w) items w

/-- Wire forms that stand one after another are read one after another. -/
lemma readAll_append {items : List WireItem} (fits : ∀ item ∈ items, item.Fits) (pos : Nat)
    (rest : Bytes) :
    readAll (items.map type) ⟨pos, items.flatMap encode ++ rest⟩ =
      .ok items ⟨pos + (items.flatMap encode).length, rest⟩ := by
  induction items generalizing pos with
  | nil => rfl
  | cons item items ih =>
    obtain ⟨S, accepts, spelled⟩ := item.type.roundTrips.spelled
    have first := (spelled item.value).2 (fits item List.mem_cons_self)
    have head : item.type.codec.read ⟨pos, item.encode ++ (items.flatMap encode ++ rest)⟩ =
        .ok item.value ⟨pos + item.encode.length, items.flatMap encode ++ rest⟩ :=
      accepts.read_append first pos _
    have tail := ih (fun other mem => fits other (List.mem_cons_of_mem _ mem))
      (pos + item.encode.length)
    rw [List.map_cons, readAll, List.flatMap_cons, List.append_assoc, Decode.bind_eq_ok]
    refine ⟨item.value, _, head, Decode.bind_eq_ok.2 ⟨items, _, tail, ?_⟩⟩
    rw [Decode.pure_eq_ok, List.length_append, Nat.add_assoc]
    exact ⟨rfl, rfl⟩

/-- Every value is read back from its wire form exactly when it is within the limits of its type,
and any values within their limits, of any types and in any order, that are written one after
another into one buffer are read back one after another, with nothing left in it. -/
theorem round_trip :
    (∀ (t : WireType) (v : t.Value), t.codec.decode (t.codec.encode v) = .ok v ↔ t.Fits v) ∧
      ∀ items : List WireItem, (∀ item ∈ items, item.Fits) →
        Decode.runAll (readAll (items.map type)) (writeAll items .empty).bytes = .ok items := by
  refine ⟨fun t v => t.roundTrips.decode_encode_iff, fun items fits => ?_⟩
  have read := readAll_append fits 0 []
  rw [List.append_nil] at read
  rw [bytes_writeAll, Writer.bytes_empty, List.nil_append, Decode.runAll_eq_ok]
  exact ⟨_, read⟩

/-- Values of four types that are within their limits. -/
def samples : List WireItem :=
  [⟨.memo, .text [104, 105]⟩, ⟨.optional .uint32, some (7 : UInt32)⟩,
    ⟨.claimPredicate, .not (.beforeRelativeTime 60)⟩, ⟨.manageData, ⟨"name", some [1, 2, 3]⟩⟩]

/-- Values of four types are read back one after another. -/
theorem round_trip_samples :
    (∀ item ∈ samples, item.Fits) ∧
      Decode.runAll (readAll (samples.map type)) (writeAll samples .empty).bytes = .ok samples := by
  have fits : ∀ item ∈ samples, item.Fits := by
    simp only [samples, List.forall_mem_cons]
    refine ⟨?memo, ?number, ?predicate, ?data, nofun⟩
    case memo => exact show (2 : Nat) ≤ Limits.memoTextBytes by decide
    case number => exact fun _ _ => trivial
    case predicate => exact show (2 : Nat) ≤ Limits.readablePredicateDepth by decide
    case data =>
      refine show ManageData.Fits _ from ⟨by decide, fun value mem => ?_⟩
      cases mem
      decide
  exact ⟨fits, round_trip.2 samples fits⟩

end WireItem

/-!
## Canonical reading

Whatever a reader gets through is the wire form of the value that it returns, so the bytes of an
input are determined by the values in it. This holds of every type of the wire but one:
preconditions can come in forms larger than they need.
-/

namespace Codec
variable {α : Type} {c : Codec α} {Fits : α → Prop}

/-- What is read of an input, from any position on, is the wire form of the value, and inputs that
are read as one value are one input. -/
structure Canonical (c : Codec α) : Prop where
  consumed : ∀ (input : Bytes) (start : Nat) (v : α) (r : Reader),
    c.read ⟨start, input.drop start⟩ = .ok v r →
      input.extract start r.position = c.encode v ∧ r.rest = input.drop r.position
  unique : ∀ (input input' : Bytes) (v : α),
    c.decode input = .ok v → c.decode input' = .ok v → input = input'

/-- A codec with one wire form for each value reads nothing else. -/
lemma Lawful.canonical (h : c.Lawful Fits) : c.Canonical := by
  constructor
  case consumed =>
    intro input start v r read
    obtain ⟨_, ⟨-, rfl⟩, rest, position⟩ := (h.accepts _ _ _ _).1 read
    have behind : input.drop r.position = r.rest := by
      rw [position, ← List.drop_drop, rest, List.drop_left]
    refine ⟨?_, behind.symm⟩
    rw [List.extract_eq_take_drop, position, Nat.add_sub_cancel_left, rest, List.take_left]
  case unique =>
    intro input input' v read read'
    rw [(h.decode_eq_ok.1 read).2, (h.decode_eq_ok.1 read').2]

/-- A value that is read from an input is also read behind the mark of its presence. -/
lemma RoundTrips.decode_optional {c : Codec α} (h : c.RoundTrips Fits) {input : Bytes} {v : α}
    (read : c.decode input = .ok v) :
    c.optional.decode (Bytes.bigEndian 4 1 ++ input) = .ok (some v) := by
  obtain ⟨S, accepts, -⟩ := h.spelled
  have spelled : S v input := accepts.runAll_eq_ok.1 read
  exact (Decode.Accepts.optional accepts).runAll_eq_ok.2 (.inr ⟨v, input, rfl, spelled, rfl⟩)

end Codec

namespace WireType

/-- Missing preconditions are read from the shortest form and from the full one. -/
lemma two_inputs_of_core {t : WireType} (same : t.core = .preconditions) :
    ∃ v input input', input ≠ input' ∧ t.codec.decode input = .ok v ∧
      t.codec.decode input' = .ok v := by
  induction t with
  | preconditions =>
    have reads : ∀ form : PreconditionForm, form.Fits → Preconditions.ofForm form = .none →
        Preconditions.codec.decode (PreconditionForm.codec.encode form) = .ok .none :=
      fun form fits carries => Preconditions.accepts.runAll_eq_ok.2 ⟨form, carries, fits, rfl⟩
    have shortFits : PreconditionForm.none.Fits := trivial
    have fullFits : (PreconditionForm.full .none).Fits := Nat.zero_le _
    refine ⟨.none, _, _, ?_, reads .none shortFits rfl, reads (.full .none) fullFits rfl⟩
    exact fun alike => nomatch PreconditionForm.lawful.encode_inj shortFits fullFits alike
  | optional inner ih =>
    obtain ⟨v, input, input', other, read, read'⟩ := ih same
    refine ⟨some v, _, _, ?_, inner.roundTrips.decode_optional read,
      inner.roundTrips.decode_optional read'⟩
    exact fun alike => other (List.append_cancel_left alike)
  | _ => cases same

/-- Reading a type is canonical exactly when the type is not that of preconditions, be they
optional or not. The forms in which preconditions come are a type of their own, and reading them
is canonical. -/
theorem canonical_iff (t : WireType) : t.codec.Canonical ↔ t.core ≠ .preconditions := by
  apply Iff.intro
  · intro canonical same
    obtain ⟨v, input, input', other, read, read'⟩ := two_inputs_of_core same
    exact other (canonical.unique input input' v read read')
  · intro other
    exact (lawful other).canonical

end WireType

end LedgerWire
