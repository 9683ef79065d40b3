import LedgerWire.Operation.Basic
import LedgerWire.Transaction.Fault

/-!
# Rules for the fields of operations

What an operation must satisfy before a transaction takes it: lists and texts stay within the
limits that reading enforces, amounts are not negative where the ledger has no meaning for that,
and prices are positive. The rules are examined in the order of the fields.
-/

namespace LedgerWire

namespace OperationFault

/-- An amount that must not be negative. -/
def nonNegative (field : String) (value : Int64) : Except OperationFault Unit :=
  if value < 0 then .error (.negative field value) else .ok ()

/-- An amount that must be positive. -/
def positive (field : String) (value : Int64) : Except OperationFault Unit :=
  if value ≤ 0 then .error (.notPositive field value) else .ok ()

/-- A price that must be positive. -/
def positivePrice (field : String) (price : Price) : Except OperationFault Unit :=
  if price.isPositive then .ok () else .error (.badPrice field price.n price.d)

/-- A path that must not be too long. -/
def shortPath (path : List Asset) : Except OperationFault Unit :=
  if Limits.maxPathLength < path.length then .error (.pathTooLong path.length) else .ok ()

end OperationFault

namespace OperationBody
open OperationFault

/-- Fails when a field breaks a rule. -/
def validate : OperationBody → Except OperationFault Unit
  | .createAccount op => nonNegative "starting_balance" op.startingBalance
  | .payment op => positive "amount" op.amount
  | .pathPaymentStrictReceive op => do
    positive "send_max" op.sendAmount
    positive "dest_amount" op.destAmount
    shortPath op.path
  | .pathPaymentStrictSend op => do
    positive "send_amount" op.sendAmount
    positive "dest_min" op.destAmount
    shortPath op.path
  | .manageSellOffer op => do
    nonNegative "amount" op.amount
    nonNegative "offer_id" op.offerId
    positivePrice "price" op.price
  | .manageBuyOffer op => do
    nonNegative "buy_amount" op.amount
    nonNegative "offer_id" op.offerId
    positivePrice "price" op.price
  | .createPassiveSellOffer op => do
    positive "amount" op.amount
    positivePrice "price" op.price
  | .setOptions op =>
    let length := ((op.homeDomain.map Bytes.ofText).getD []).length
    if Limits.homeDomainBytes < length then .error (.homeDomainTooLong length) else .ok ()
  | .changeTrust op => nonNegative "limit" op.limit
  | .allowTrust op =>
    match AssetCode.validate op.assetCode with
    | .ok _ => .ok ()
    | .error fault => .error (.assetCode fault)
  | .manageData op =>
    let length := (Bytes.ofText op.name).length
    let valueLength := (op.value.getD []).length
    if length = 0 ∨ Limits.dataEntryBytes < length then .error .dataNameLength
    else if Limits.dataEntryBytes < valueLength then .error (.dataValueTooLong valueLength)
    else .ok ()
  | .bumpSequence bumpTo => nonNegative "bump_to" bumpTo
  | .createClaimableBalance op => do
    positive "amount" op.amount
    let count := op.claimants.length
    if count = 0 ∨ Limits.maxClaimants < count then throw (.claimantCount count)
  | .clawback op => positive "amount" op.amount
  | .liquidityPoolDeposit op => do
    positive "max_amount_a" op.maxAmountA
    positive "max_amount_b" op.maxAmountB
    positivePrice "min_price" op.minPrice
    positivePrice "max_price" op.maxPrice
  | .liquidityPoolWithdraw op => do
    positive "amount" op.amount
    nonNegative "min_amount_a" op.minAmountA
    nonNegative "min_amount_b" op.minAmountB
  | .accountMerge _ | .inflation | .claimClaimableBalance _ | .beginSponsoringFutureReserves _
  | .endSponsoringFutureReserves | .revokeSponsorship _ | .clawbackClaimableBalance _
  | .setTrustLineFlags _ => .ok ()

end OperationBody

end LedgerWire
