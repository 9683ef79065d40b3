import LedgerWire.Operation.Basic

/-!
# Operations on the wire

The fields of an operation in order, behind the tag of its type. The code of an asset whose issuer
is understood has a union of its own: a field of four or of twelve bytes.
-/

namespace LedgerWire

/-- A new account on the wire. -/
def CreateAccount.codec : Codec CreateAccount :=
  (Codec.pair AccountId.codec .int64).map (fun (a, b) => ⟨a, b⟩)
    (fun op => (op.destination, op.startingBalance))

/-- A payment on the wire. -/
def Payment.codec : Codec Payment :=
  (Codec.pair MuxedAccount.codec <| .pair Asset.codec .int64).map
    (fun (destination, asset, amount) => ⟨destination, asset, amount⟩)
    (fun op => (op.destination, op.asset, op.amount))

/-- A path payment on the wire. -/
def PathPayment.codec : Codec PathPayment :=
  (Codec.pair Asset.codec <| .pair .int64 <| .pair MuxedAccount.codec <|
    .pair Asset.codec <| .pair .int64 <| .list Limits.maxPathLength Asset.codec).map
    (fun (sendAsset, sendAmount, destination, destAsset, destAmount, path) =>
      ⟨sendAsset, sendAmount, destination, destAsset, destAmount, path⟩)
    (fun op => (op.sendAsset, op.sendAmount, op.destination, op.destAsset, op.destAmount, op.path))

/-- An offer on the wire. -/
def Offer.codec : Codec Offer :=
  (Codec.pair Asset.codec <| .pair Asset.codec <| .pair .int64 <| .pair Price.codec .int64).map
    (fun (selling, buying, amount, price, offerId) => ⟨selling, buying, amount, price, offerId⟩)
    (fun op => (op.selling, op.buying, op.amount, op.price, op.offerId))

/-- A passive offer on the wire. -/
def PassiveOffer.codec : Codec PassiveOffer :=
  (Codec.pair Asset.codec <| .pair Asset.codec <| .pair .int64 Price.codec).map
    (fun (selling, buying, amount, price) => ⟨selling, buying, amount, price⟩)
    (fun op => (op.selling, op.buying, op.amount, op.price))

/-- Settings on the wire. -/
def SetOptions.codec : Codec SetOptions :=
  (Codec.pair (.optional AccountId.codec) <| .pair (.optional .uint32) <|
    .pair (.optional .uint32) <| .pair (.optional .uint32) <| .pair (.optional .uint32) <|
    .pair (.optional .uint32) <| .pair (.optional .uint32) <|
    .pair (.optional (.text Limits.homeDomainBytes)) (.optional Signer.codec)).map
    (fun (inflation, clear, set, master, low, medium, high, domain, signer) =>
      ⟨inflation, clear, set, master, low, medium, high, domain, signer⟩)
    (fun op => (op.inflationDestination, op.clearFlags, op.setFlags, op.masterKeyWeight,
      op.lowThreshold, op.mediumThreshold, op.highThreshold, op.homeDomain, op.signer))

/-- A trust line on the wire. -/
def ChangeTrust.codec : Codec ChangeTrust :=
  (Codec.pair ChangeTrustAsset.codec .int64).map (fun (line, limit) => ⟨line, limit⟩)
    (fun op => (op.line, op.limit))

/-- The text of a code in a field of `width` bytes, which must have at least `shortest`
characters. A text that is too long for the field is cut, and one with other characters is written
as it is; reading refuses both. -/
def AllowTrust.codeField (shortest width : Nat) : Codec String :=
  (Codec.fixed width).check
    (fun field =>
      match AssetCode.unpad field.bytes with
      | .error fault => .error (.asset fault)
      | .ok symbols =>
        if symbols.length < shortest then .error (.shortAssetCode (Bytes.toLatin symbols))
        else .ok (Bytes.toLatin symbols))
    (fun code => .padded width (Bytes.ofText code))

/-- The code of an asset whose issuer is understood, on the wire. -/
def AllowTrust.codeCodec : Codec String :=
  .union "AssetCode" [
    ⟨1, String, codeField 1 4, id, fun code =>
      if (Bytes.ofText code).length ≤ AssetCode.shortWidth then some code else none⟩,
    ⟨2, String, codeField 5 12, id, fun code =>
      if (Bytes.ofText code).length ≤ AssetCode.shortWidth then none else some code⟩]

/-- The authorization of a trust line on the wire. -/
def AllowTrust.codec : Codec AllowTrust :=
  (Codec.pair AccountId.codec <| .pair AllowTrust.codeCodec .uint32).map
    (fun (trustor, code, authorize) => ⟨trustor, code, authorize⟩)
    (fun op => (op.trustor, op.assetCode, op.authorize))

/-- A data entry on the wire. -/
def ManageData.codec : Codec ManageData :=
  (Codec.pair (.text Limits.dataEntryBytes) (.optional (.counted Limits.dataEntryBytes))).map
    (fun (name, value) => ⟨name, value⟩) (fun op => (op.name, op.value))

/-- An amount set aside for claimants, on the wire. -/
def CreateClaimableBalance.codec : Codec CreateClaimableBalance :=
  (Codec.pair Asset.codec <| .pair .int64 <| .list Limits.maxClaimants Claimant.codec).map
    (fun (asset, amount, claimants) => ⟨asset, amount, claimants⟩)
    (fun op => (op.asset, op.amount, op.claimants))

/-- An amount taken back, on the wire. -/
def Clawback.codec : Codec Clawback :=
  (Codec.pair Asset.codec <| .pair MuxedAccount.codec .int64).map
    (fun (asset, holder, amount) => ⟨asset, holder, amount⟩)
    (fun op => (op.asset, op.holder, op.amount))

/-- Flags of a trust line on the wire. -/
def SetTrustLineFlags.codec : Codec SetTrustLineFlags :=
  (Codec.pair AccountId.codec <| .pair Asset.codec <| .pair .uint32 .uint32).map
    (fun (trustor, asset, clear, set) => ⟨trustor, asset, clear, set⟩)
    (fun op => (op.trustor, op.asset, op.clearFlags, op.setFlags))

/-- Amounts put into a pool, on the wire. -/
def PoolDeposit.codec : Codec PoolDeposit :=
  (Codec.pair PoolId.codec <| .pair .int64 <| .pair .int64 <|
    .pair Price.codec Price.codec).map
    (fun (pool, a, b, min, max) => ⟨pool, a, b, min, max⟩)
    (fun op => (op.pool, op.maxAmountA, op.maxAmountB, op.minPrice, op.maxPrice))

/-- A share taken out of a pool, on the wire. -/
def PoolWithdrawal.codec : Codec PoolWithdrawal :=
  (Codec.pair PoolId.codec <| .pair .int64 <| .pair .int64 .int64).map
    (fun (pool, amount, a, b) => ⟨pool, amount, a, b⟩)
    (fun op => (op.pool, op.amount, op.minAmountA, op.minAmountB))

namespace OperationBody

/-- The arms of the union of operations, in the order of their tags. -/
def arms : List (Arm OperationBody) := [
  ⟨0, CreateAccount, CreateAccount.codec, .createAccount,
    fun | .createAccount op => some op | _ => none⟩,
  ⟨1, Payment, Payment.codec, .payment, fun | .payment op => some op | _ => none⟩,
  ⟨2, PathPayment, PathPayment.codec, .pathPaymentStrictReceive,
    fun | .pathPaymentStrictReceive op => some op | _ => none⟩,
  ⟨3, Offer, Offer.codec, .manageSellOffer, fun | .manageSellOffer op => some op | _ => none⟩,
  ⟨4, PassiveOffer, PassiveOffer.codec, .createPassiveSellOffer,
    fun | .createPassiveSellOffer op => some op | _ => none⟩,
  ⟨5, SetOptions, SetOptions.codec, .setOptions, fun | .setOptions op => some op | _ => none⟩,
  ⟨6, ChangeTrust, ChangeTrust.codec, .changeTrust,
    fun | .changeTrust op => some op | _ => none⟩,
  ⟨7, AllowTrust, AllowTrust.codec, .allowTrust, fun | .allowTrust op => some op | _ => none⟩,
  ⟨8, MuxedAccount, MuxedAccount.codec, .accountMerge,
    fun | .accountMerge destination => some destination | _ => none⟩,
  .void 9 .inflation (fun | .inflation => true | _ => false),
  ⟨10, ManageData, ManageData.codec, .manageData, fun | .manageData op => some op | _ => none⟩,
  ⟨11, Int64, .int64, .bumpSequence, fun | .bumpSequence n => some n | _ => none⟩,
  ⟨12, Offer, Offer.codec, .manageBuyOffer, fun | .manageBuyOffer op => some op | _ => none⟩,
  ⟨13, PathPayment, PathPayment.codec, .pathPaymentStrictSend,
    fun | .pathPaymentStrictSend op => some op | _ => none⟩,
  ⟨14, CreateClaimableBalance, CreateClaimableBalance.codec, .createClaimableBalance,
    fun | .createClaimableBalance op => some op | _ => none⟩,
  ⟨15, BalanceId, BalanceId.codec, .claimClaimableBalance,
    fun | .claimClaimableBalance balance => some balance | _ => none⟩,
  ⟨16, AccountId, AccountId.codec, .beginSponsoringFutureReserves,
    fun | .beginSponsoringFutureReserves account => some account | _ => none⟩,
  .void 17 .endSponsoringFutureReserves
    (fun | .endSponsoringFutureReserves => true | _ => false),
  ⟨18, RevokeSponsorship, RevokeSponsorship.codec, .revokeSponsorship,
    fun | .revokeSponsorship target => some target | _ => none⟩,
  ⟨19, Clawback, Clawback.codec, .clawback, fun | .clawback op => some op | _ => none⟩,
  ⟨20, BalanceId, BalanceId.codec, .clawbackClaimableBalance,
    fun | .clawbackClaimableBalance balance => some balance | _ => none⟩,
  ⟨21, SetTrustLineFlags, SetTrustLineFlags.codec, .setTrustLineFlags,
    fun | .setTrustLineFlags op => some op | _ => none⟩,
  ⟨22, PoolDeposit, PoolDeposit.codec, .liquidityPoolDeposit,
    fun | .liquidityPoolDeposit op => some op | _ => none⟩,
  ⟨23, PoolWithdrawal, PoolWithdrawal.codec, .liquidityPoolWithdraw,
    fun | .liquidityPoolWithdraw op => some op | _ => none⟩]

/-- What an operation does, on the wire. -/
def codec : Codec OperationBody := .union "OperationType" arms

end OperationBody

/-- An operation on the wire: the account that stands in for the source, then what it does. -/
def Operation.codec : Codec Operation :=
  (Codec.pair (.optional MuxedAccount.codec) OperationBody.codec).map
    (fun (source, body) => ⟨source, body⟩) (fun op => (op.source, op.body))

end LedgerWire
