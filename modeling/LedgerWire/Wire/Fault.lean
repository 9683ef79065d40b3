import LedgerWire.Bytes.Encodings
import LedgerWire.StrKey.Kind
import LedgerWire.Text.Basic

/-!
# Faults of what is read

The reasons for which a text or a value is refused as an account, a signer, an asset or a pool, and
the reasons for which wire data is refused, these among them.
-/

/-!
## Faults of accounts and signers

The reasons for which a text or a value is refused as an account or a signer.
-/

namespace LedgerWire

/-- Why an account or a signer is refused. -/
inductive IdentityFault where
  /-- The text is not the StrKey it should be. -/
  | strKey (fault : StrKey.Fault)
  /-- The payload of a signed-payload signer is longer than 64 bytes. -/
  | payloadTooLong (length : Nat)
  /-- The payload of a signed-payload signer has no bytes. -/
  | emptyPayload
  /-- The StrKey names something that cannot stand here. -/
  | unsupportedAddress (text : String)
deriving DecidableEq, Repr

/-- The wording of a fault. -/
def IdentityFault.message : IdentityFault → String
  | .strKey fault => fault.message
  | .payloadTooLong length =>
    s!"signed payload too long: {length} bytes, maximum is 64"
  | .emptyPayload => "signed payload must not be empty"
  | .unsupportedAddress text =>
    Text.quoted text ++ " is not a valid address for this context"

/-!
## Faults of assets

The reasons for which an asset, a pool or a text of either is refused.
-/

/-- Why an asset or a pool is refused. -/
inductive AssetFault where
  /-- The code is not one to twelve ASCII letters and digits. -/
  | invalidCode (text : String)
  /-- The assets of a pool do not stand in ascending order. -/
  | invalidOrder
  /-- The issuer is not an account. -/
  | invalidIssuer (fault : IdentityFault)
  /-- The text is not of the form of an asset or of a pool identifier. -/
  | invalidText (text : String)
deriving DecidableEq, Repr

/-- The wording of a fault. -/
def AssetFault.message : AssetFault → String
  | .invalidCode text =>
    "invalid asset code " ++ Text.quoted text ++ ": must be 1-12 ASCII letters or digits"
  | .invalidOrder =>
    "liquidity pool assets are not in canonical order (asset_a must be < asset_b)"
  | .invalidIssuer fault => "invalid issuer: " ++ fault.message
  | .invalidText text => "invalid canonical asset string " ++ Text.quoted text

/-!
## Faults of wire data

Reading fails for one of four reasons: the bytes break the rules of the format, a union has no arm
for a tag, the bytes describe a value that is not allowed, or the base64 text around them is not
base64.
-/

/-- How bytes can break the rules of the format. -/
inductive Malformed where
  /-- The input ends before the value does. -/
  | truncated (needed remaining : Nat)
  /-- A padding byte, at the offset from the start of the input, is not zero. -/
  | nonZeroPadding (offset : Nat)
  /-- The length in front of a list or a string is greater than its type allows. -/
  | lengthExceedsMax (length max : Nat)
  /-- Bytes are left after the value. -/
  | trailingBytes (count : Nat)
  /-- A truth value is neither 0 nor 1. -/
  | invalidBool (value : UInt32)
deriving DecidableEq, Repr

/-- The wording of a broken rule. -/
def Malformed.message : Malformed → String
  | .truncated needed remaining =>
    s!"unexpected end of input: needed {needed} bytes, {remaining} remaining"
  | .nonZeroPadding offset => s!"non-zero padding byte at offset {offset}"
  | .lengthExceedsMax length max => s!"length {length} exceeds maximum {max}"
  | .trailingBytes count => s!"{count} trailing bytes after value"
  | .invalidBool value => s!"invalid boolean encoding {value}"

/-- Why a value that was read is not allowed. -/
inductive Forbidden where
  /-- The value breaks a rule of assets. -/
  | asset (fault : AssetFault)
  /-- A code of at most four characters stands in a field of twelve. -/
  | shortAssetCode (code : String)
  /-- The value breaks a rule of signers. -/
  | identity (fault : IdentityFault)
  /-- A predicate has more levels than are read. -/
  | predicateTooDeep
  /-- A combining predicate does not have two operands. -/
  | predicateOperands (count : UInt32)
  /-- A negation has no operand. -/
  | missingNegatedPredicate
  /-- A transaction has no operation. -/
  | noOperations
  /-- A text is not UTF-8. -/
  | notUtf8 (defect : Utf8.Defect)
deriving DecidableEq, Repr

/-- The wording of a broken rule. -/
def Forbidden.message : Forbidden → String
  | .asset fault => fault.message
  | .shortAssetCode code => "alphanum12 code " ++ Text.quoted code ++ " is too short"
  | .identity fault => fault.message
  | .predicateTooDeep => "claim predicate nested too deeply"
  | .predicateOperands count =>
    s!"claim predicate combinator needs 2 operands, got {count}"
  | .missingNegatedPredicate => "negated claim predicate is missing"
  | .noOperations => "transaction has no operations"
  | .notUtf8 defect => "string is not UTF-8: " ++ defect.message

/-- Why wire data cannot be read. -/
inductive WireFault where
  /-- The bytes break the rules of the format. -/
  | malformed (fault : Malformed)
  /-- The union has no arm for the tag. -/
  | unknownTag (union : String) (tag : Int32)
  /-- The value is not allowed. -/
  | forbidden (fault : Forbidden)
  /-- The text is not base64. -/
  | base64 (fault : Base64.Fault)
deriving DecidableEq, Repr

namespace WireFault

/-- Whether the bytes break the rules of the format. -/
def isMalformed : WireFault → Bool
  | .malformed _ => true
  | _ => false

/-- The wording of a fault. -/
def message : WireFault → String
  | .malformed fault => "malformed encoding: " ++ fault.message
  | .unknownTag union tag => s!"unknown discriminant {tag} for {union}"
  | .forbidden fault => "invalid value: " ++ fault.message
  | .base64 fault => "invalid base64: " ++ fault.message

end WireFault

end LedgerWire
