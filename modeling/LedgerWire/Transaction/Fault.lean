import LedgerWire.Keys.Derivation
import LedgerWire.Wire.Fault

/-!
# Faults of transactions

The reasons for which a transaction, a part of one, or a request to change one is refused.
-/

namespace LedgerWire

/-- Why preconditions or bounds are refused. -/
inductive ValidationFault where
  /-- Something other than time bounds is set, but time bounds are not. -/
  | missingTimeBounds
  /-- There are more extra signers than two. -/
  | tooManyExtraSigners (count : Nat)
  /-- The first time lies after the last. -/
  | invalidTimeBounds (min max : UInt64)
  /-- The first ledger lies after the last. -/
  | invalidLedgerBounds (min max : UInt32)
deriving DecidableEq, Repr

/-- The wording of a fault. -/
def ValidationFault.message : ValidationFault → String
  | .missingTimeBounds => "time bounds are required once any other precondition is set"
  | .tooManyExtraSigners count => s!"at most 2 extra signers are allowed, got {count}"
  | .invalidTimeBounds min max => s!"time bounds min {min} is after max {max}"
  | .invalidLedgerBounds min max => s!"ledger bounds min {min} is after max {max}"

/-- Why the fields of an operation are refused. The names are those of the fields. -/
inductive OperationFault where
  /-- The amount is below zero. -/
  | negative (field : String) (value : Int64)
  /-- The amount is not above zero. -/
  | notPositive (field : String) (value : Int64)
  /-- The price is not a fraction of two positive numbers. -/
  | badPrice (field : String) (numerator denominator : Int32)
  /-- The path has more assets than five. -/
  | pathTooLong (hops : Nat)
  /-- The home domain has more bytes than 32. -/
  | homeDomainTooLong (length : Nat)
  /-- The asset code is not one. -/
  | assetCode (fault : AssetFault)
  /-- The name of the data entry is empty or has more bytes than 64. -/
  | dataNameLength
  /-- The value of the data entry has more bytes than 64. -/
  | dataValueTooLong (length : Nat)
  /-- There is no claimant, or there are more than ten. -/
  | claimantCount (count : Nat)
deriving DecidableEq, Repr

/-- The wording of a fault. -/
def OperationFault.message : OperationFault → String
  | .negative field value => s!"{field} must not be negative, got {value}"
  | .notPositive field value => s!"{field} must be positive, got {value}"
  | .badPrice field numerator denominator =>
    s!"{field} must be a positive fraction, got {numerator}/{denominator}"
  | .pathTooLong hops =>
    s!"payment path has {hops} hops, maximum is {Limits.maxPathLength}"
  | .homeDomainTooLong length =>
    s!"home domain is {length} bytes, maximum is {Limits.homeDomainBytes}"
  | .assetCode fault => fault.message
  | .dataNameLength => s!"data name must be 1 to {Limits.dataEntryBytes} bytes"
  | .dataValueTooLong length =>
    s!"data value is {length} bytes, maximum is {Limits.dataEntryBytes}"
  | .claimantCount count =>
    s!"claimable balance needs 1 to {Limits.maxClaimants} claimants, got {count}"

/-- Why a transaction cannot have the wanted envelope. -/
inductive EnvelopeFault where
  /-- The old layout has no place for the number beside an account. -/
  | muxedSource
  /-- The old layout has no place for preconditions other than time bounds. -/
  | beyondTimeBounds
  /-- A fee bump is another kind of value. -/
  | feeBump
deriving DecidableEq, Repr

/-- The wording of a fault. -/
def EnvelopeFault.message : EnvelopeFault → String
  | .muxedSource => "a V0 envelope cannot carry a muxed source account"
  | .beyondTimeBounds => "a V0 envelope can only carry time bounds"
  | .feeBump => "wrap the transaction in a FeeBumpTransaction instead"

/-- Why a transaction, or a part of one, is refused. -/
inductive TransactionFault where
  /-- There is no operation, or there are more than one hundred. -/
  | invalidOperationCount (count : Nat)
  /-- The transaction does not fit the wanted envelope. -/
  | invalidConstruction (fault : EnvelopeFault)
  /-- The operation at the index breaks a rule of its fields. -/
  | invalidOperation (index : Nat) (fault : OperationFault)
  /-- The preconditions are refused. -/
  | validation (fault : ValidationFault)
  /-- The fee offered for an operation is below the least. -/
  | feeTooLow (offered least : Int64)
  /-- The total fee does not fit its field. -/
  | feeOverflow
  /-- The account has used its last sequence number. -/
  | sequenceOverflow
  /-- The envelope has twenty signatures already. -/
  | tooManySignatures
  /-- The secret of a hash signer has more than 64 bytes. -/
  | preimageTooLong (length : Nat)
  /-- The text of a memo has more than 28 bytes. -/
  | memoTooLong (length : Nat)
  /-- The text is not an amount. -/
  | invalidAmount (text : String)
  /-- The text is not a price. -/
  | invalidPrice (text : String)
  /-- The key cannot sign. -/
  | key (fault : KeyFault)
deriving DecidableEq, Repr

/-- The wording of a fault. -/
def TransactionFault.message : TransactionFault → String
  | .invalidOperationCount count =>
    s!"transaction must have between 1 and 100 operations, got {count}"
  | .invalidConstruction fault => "invalid transaction: " ++ fault.message
  | .invalidOperation index fault =>
    s!"invalid operation at index {index}: " ++ fault.message
  | .validation fault => fault.message
  | .feeTooLow offered least => s!"base fee {offered} is too low, minimum is {least}"
  | .feeOverflow => "total fee overflows"
  | .sequenceOverflow => "sequence number overflows"
  | .tooManySignatures => "signature list is full (maximum 20)"
  | .preimageTooLong length =>
    s!"hash-x preimage too long: {length} bytes, maximum is 64"
  | .memoTooLong length => s!"memo text too long: {length} bytes, maximum is 28"
  | .invalidAmount text => "invalid amount " ++ Text.quoted text
  | .invalidPrice text => "invalid price " ++ Text.quoted text
  | .key fault => fault.message

end LedgerWire
