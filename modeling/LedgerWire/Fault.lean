import LedgerWire.Claim.Basic
import LedgerWire.History.Toid
import LedgerWire.Identity.Signer
import LedgerWire.Transaction.Fault

/-!
# Faults

Every part of the library has faults of its own; this is their sum, for whoever uses several parts.
The wording of a fault starts with the part that it comes from.
-/

namespace LedgerWire

/-- Why something is refused, by any part of the library. -/
inductive Fault where
  /-- Wire data cannot be read. -/
  | wire (fault : WireFault)
  /-- A text is not a StrKey. -/
  | strKey (fault : StrKey.Fault)
  /-- A key is refused. -/
  | key (fault : KeyFault)
  /-- A signature is refused. -/
  | signature (fault : SignatureFault)
  /-- An account or a signer is refused. -/
  | identity (fault : IdentityFault)
  /-- An asset or a pool is refused. -/
  | asset (fault : AssetFault)
  /-- Preconditions are refused. -/
  | preconditions (fault : ValidationFault)
  /-- A transaction is refused. -/
  | transaction (fault : TransactionFault)
  /-- A claimable balance has no name, or a text is none. -/
  | balanceId (fault : BalanceIdFault)
  /-- There is no such position in the history. -/
  | toid (fault : ToidFault)
deriving DecidableEq, Repr

/-- The wording of a fault. -/
def Fault.message : Fault → String
  | .wire fault => "xdr: " ++ fault.message
  | .strKey fault => "strkey: " ++ fault.message
  | .key fault => "key: " ++ fault.message
  | .signature fault => "signature: " ++ fault.message
  | .identity fault => "identity: " ++ fault.message
  | .asset fault => "asset: " ++ fault.message
  | .preconditions fault => "preconditions: " ++ fault.message
  | .transaction fault => "transaction: " ++ fault.message
  | .balanceId fault => "claimable balance id: " ++ fault.message
  | .toid fault => "toid: " ++ fault.message

end LedgerWire
