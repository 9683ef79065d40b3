import LedgerWire.Asset.Pool
import LedgerWire.Claim.Basic
import LedgerWire.Identity.Signer
import LedgerWire.Value.Price

/-!
# Operations

What a transaction can do, and the keys of ledger entries that some operations name.
-/

/-!
## Keys of ledger entries

What names one entry of the ledger, and what a sponsor can stop paying for: an entry, or a signer
of an account.
-/

namespace LedgerWire

/-- The key of an entry of the ledger. -/
inductive LedgerKey where
  /-- An account. -/
  | account (account : AccountId)
  /-- A trust line of an account. -/
  | trustLine (account : AccountId) (asset : TrustLineAsset)
  /-- An offer of a seller. -/
  | offer (seller : AccountId) (offer : Int64)
  /-- A data entry of an account. -/
  | data (account : AccountId) (name : String)
  /-- A claimable balance. -/
  | claimableBalance (balance : BalanceId)
  /-- A liquidity pool. -/
  | liquidityPool (pool : PoolId)
deriving DecidableEq

/-- What a sponsor stops paying for. -/
inductive RevokeSponsorship where
  /-- An entry of the ledger. -/
  | entry (key : LedgerKey)
  /-- A signer of an account. -/
  | signer (account : AccountId) (key : SignerKey)
deriving DecidableEq

/-- A key of an entry on the wire. -/
def LedgerKey.codec : Codec LedgerKey :=
  .union "LedgerEntryType" [
    ⟨0, AccountId, AccountId.codec, .account, fun | .account a => some a | _ => none⟩,
    ⟨1, AccountId × TrustLineAsset, .pair AccountId.codec TrustLineAsset.codec,
      fun (a, x) => .trustLine a x, fun | .trustLine a x => some (a, x) | _ => none⟩,
    ⟨2, AccountId × Int64, .pair AccountId.codec .int64,
      fun (s, o) => .offer s o, fun | .offer s o => some (s, o) | _ => none⟩,
    ⟨3, AccountId × String, .pair AccountId.codec (.text Limits.dataEntryBytes),
      fun (a, n) => .data a n, fun | .data a n => some (a, n) | _ => none⟩,
    ⟨4, BalanceId, BalanceId.codec, .claimableBalance,
      fun | .claimableBalance b => some b | _ => none⟩,
    ⟨5, PoolId, PoolId.codec, .liquidityPool, fun | .liquidityPool p => some p | _ => none⟩]

/-- What a sponsor stops paying for, on the wire. -/
def RevokeSponsorship.codec : Codec RevokeSponsorship :=
  .union "RevokeSponsorshipType" [
    ⟨0, LedgerKey, LedgerKey.codec, .entry, fun | .entry k => some k | _ => none⟩,
    ⟨1, AccountId × SignerKey, .pair AccountId.codec SignerKey.codec,
      fun (a, k) => .signer a k, fun | .signer a k => some (a, k) | _ => none⟩]

/-!
## Operations

What a transaction does: one of twenty-four operations, each with an account of its own that may
stand in for the source of the transaction.
-/

/-- A new account and what it starts with. -/
structure CreateAccount where
  destination : AccountId
  startingBalance : Int64
deriving DecidableEq

/-- An amount of an asset for a destination. -/
structure Payment where
  destination : MuxedAccount
  asset : Asset
  amount : Int64
deriving DecidableEq

/-- A payment through a chain of offers. One end of it is exact and the other a limit: where the
amount received is exact, the amount sent is the most, and where the amount sent is exact, the
amount received is the least. -/
structure PathPayment where
  /-- What is sent. -/
  sendAsset : Asset
  /-- How much is sent. -/
  sendAmount : Int64
  /-- Who receives. -/
  destination : MuxedAccount
  /-- What is received. -/
  destAsset : Asset
  /-- How much is received. -/
  destAmount : Int64
  /-- The assets in between. -/
  path : List Asset
deriving DecidableEq

/-- An offer to sell one asset for another, or to buy one with another. Amount zero withdraws it;
offer number zero makes a new one. -/
structure Offer where
  selling : Asset
  buying : Asset
  amount : Int64
  price : Price
  offerId : Int64
deriving DecidableEq

/-- An offer that does not take offers at the same price. -/
structure PassiveOffer where
  selling : Asset
  buying : Asset
  amount : Int64
  price : Price
deriving DecidableEq

/-- Settings of an account; what is absent stays as it is. -/
structure SetOptions where
  inflationDestination : Option AccountId
  clearFlags : Option UInt32
  setFlags : Option UInt32
  masterKeyWeight : Option UInt32
  lowThreshold : Option UInt32
  mediumThreshold : Option UInt32
  highThreshold : Option UInt32
  homeDomain : Option String
  signer : Option Signer
deriving DecidableEq

/-- A trust line and its limit; limit zero removes it. -/
structure ChangeTrust where
  line : ChangeTrustAsset
  limit : Int64
deriving DecidableEq

/-- The authorization of a trust line of an asset that the source issues. -/
structure AllowTrust where
  trustor : AccountId
  assetCode : String
  authorize : UInt32
deriving DecidableEq

/-- A data entry and its value; without a value the entry is removed. -/
structure ManageData where
  name : String
  value : Option Bytes
deriving DecidableEq

/-- An amount set aside for claimants. -/
structure CreateClaimableBalance where
  asset : Asset
  amount : Int64
  claimants : List Claimant
deriving DecidableEq

/-- An amount that an issuer takes back. -/
structure Clawback where
  asset : Asset
  holder : MuxedAccount
  amount : Int64
deriving DecidableEq

/-- Flags of a trust line to be cleared and to be set. -/
structure SetTrustLineFlags where
  trustor : AccountId
  asset : Asset
  clearFlags : UInt32
  setFlags : UInt32
deriving DecidableEq

/-- Amounts put into a pool, and the prices between which that may happen. -/
structure PoolDeposit where
  pool : PoolId
  maxAmountA : Int64
  maxAmountB : Int64
  minPrice : Price
  maxPrice : Price
deriving DecidableEq

/-- A share taken out of a pool, and the least amounts it must yield. -/
structure PoolWithdrawal where
  pool : PoolId
  amount : Int64
  minAmountA : Int64
  minAmountB : Int64
deriving DecidableEq

/-- What an operation does. -/
inductive OperationBody where
  | createAccount (op : CreateAccount)
  | payment (op : Payment)
  /-- The amount received is exact. -/
  | pathPaymentStrictReceive (op : PathPayment)
  /-- The amount is of the asset sold. -/
  | manageSellOffer (op : Offer)
  | createPassiveSellOffer (op : PassiveOffer)
  | setOptions (op : SetOptions)
  | changeTrust (op : ChangeTrust)
  | allowTrust (op : AllowTrust)
  | accountMerge (destination : MuxedAccount)
  | inflation
  | manageData (op : ManageData)
  | bumpSequence (bumpTo : Int64)
  /-- The amount is of the asset bought. -/
  | manageBuyOffer (op : Offer)
  /-- The amount sent is exact. -/
  | pathPaymentStrictSend (op : PathPayment)
  | createClaimableBalance (op : CreateClaimableBalance)
  | claimClaimableBalance (balance : BalanceId)
  | beginSponsoringFutureReserves (sponsored : AccountId)
  | endSponsoringFutureReserves
  | revokeSponsorship (target : RevokeSponsorship)
  | clawback (op : Clawback)
  | clawbackClaimableBalance (balance : BalanceId)
  | setTrustLineFlags (op : SetTrustLineFlags)
  | liquidityPoolDeposit (op : PoolDeposit)
  | liquidityPoolWithdraw (op : PoolWithdrawal)
deriving DecidableEq

/-- An operation. -/
structure Operation where
  /-- The account that stands in for the source of the transaction. -/
  source : Option MuxedAccount
  /-- What it does. -/
  body : OperationBody
deriving DecidableEq

namespace OperationBody

/-- The tag of an operation on the wire. -/
def typeCode : OperationBody → Int32
  | .createAccount _ => 0
  | .payment _ => 1
  | .pathPaymentStrictReceive _ => 2
  | .manageSellOffer _ => 3
  | .createPassiveSellOffer _ => 4
  | .setOptions _ => 5
  | .changeTrust _ => 6
  | .allowTrust _ => 7
  | .accountMerge _ => 8
  | .inflation => 9
  | .manageData _ => 10
  | .bumpSequence _ => 11
  | .manageBuyOffer _ => 12
  | .pathPaymentStrictSend _ => 13
  | .createClaimableBalance _ => 14
  | .claimClaimableBalance _ => 15
  | .beginSponsoringFutureReserves _ => 16
  | .endSponsoringFutureReserves => 17
  | .revokeSponsorship _ => 18
  | .clawback _ => 19
  | .clawbackClaimableBalance _ => 20
  | .setTrustLineFlags _ => 21
  | .liquidityPoolDeposit _ => 22
  | .liquidityPoolWithdraw _ => 23

/-- The name of an operation. -/
def name : OperationBody → String
  | .createAccount _ => "create_account"
  | .payment _ => "payment"
  | .pathPaymentStrictReceive _ => "path_payment_strict_receive"
  | .manageSellOffer _ => "manage_sell_offer"
  | .createPassiveSellOffer _ => "create_passive_sell_offer"
  | .setOptions _ => "set_options"
  | .changeTrust _ => "change_trust"
  | .allowTrust _ => "allow_trust"
  | .accountMerge _ => "account_merge"
  | .inflation => "inflation"
  | .manageData _ => "manage_data"
  | .bumpSequence _ => "bump_sequence"
  | .manageBuyOffer _ => "manage_buy_offer"
  | .pathPaymentStrictSend _ => "path_payment_strict_send"
  | .createClaimableBalance _ => "create_claimable_balance"
  | .claimClaimableBalance _ => "claim_claimable_balance"
  | .beginSponsoringFutureReserves _ => "begin_sponsoring_future_reserves"
  | .endSponsoringFutureReserves => "end_sponsoring_future_reserves"
  | .revokeSponsorship _ => "revoke_sponsorship"
  | .clawback _ => "clawback"
  | .clawbackClaimableBalance _ => "clawback_claimable_balance"
  | .setTrustLineFlags _ => "set_trust_line_flags"
  | .liquidityPoolDeposit _ => "liquidity_pool_deposit"
  | .liquidityPoolWithdraw _ => "liquidity_pool_withdraw"

/-- Whether the operation sets an amount aside for claimants. -/
def createsBalance : OperationBody → Bool
  | .createClaimableBalance _ => true
  | _ => false

end OperationBody

end LedgerWire
