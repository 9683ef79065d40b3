import LedgerWire.Identity.Account
import LedgerWire.Wire.Codec

/-!
# Claimable balances
-/

/-!
## Claim predicates

The condition under which a claimant may take a claimable balance: a tree of conjunctions,
disjunctions and negations over points in time. Trees of any depth can be written; reading gives up
at the thirty-third level, before it takes a byte of it.
-/

namespace LedgerWire

/-- A condition on a claim. -/
inductive ClaimPredicate where
  /-- Always holds. -/
  | unconditional
  /-- Both conditions hold. -/
  | and (left right : ClaimPredicate)
  /-- One of the conditions holds. -/
  | or (left right : ClaimPredicate)
  /-- The condition does not hold. -/
  | not (inner : ClaimPredicate)
  /-- The claim closes before a time, in seconds of the Unix clock. -/
  | beforeAbsoluteTime (time : Int64)
  /-- The claim closes before so many seconds have passed since the balance was created. -/
  | beforeRelativeTime (seconds : Int64)
deriving DecidableEq

/-- Who may take a balance, and under which condition. -/
structure Claimant where
  /-- The account that may take it. -/
  destination : AccountId
  /-- The condition. -/
  predicate : ClaimPredicate
deriving DecidableEq

namespace ClaimPredicate

/-- The number of levels of the tree; a single condition has one. -/
def depth : ClaimPredicate → Nat
  | .and left right => 1 + max left.depth right.depth
  | .or left right => 1 + max left.depth right.depth
  | .not inner => 1 + inner.depth
  | _ => 1

/-- The number of conditions in the tree, combinations included. -/
def size : ClaimPredicate → Nat
  | .and left right => 1 + left.size + right.size
  | .or left right => 1 + left.size + right.size
  | .not inner => 1 + inner.size
  | _ => 1

/-- Writes a tree. The operands of a combination are a list of two, that of a negation an option
that is present. -/
def write : ClaimPredicate → Writer → Writer
  | .unconditional, w => w.int32 0
  | .and left right, w => right.write (left.write ((w.int32 1).count 2))
  | .or left right, w => right.write (left.write ((w.int32 2).count 2))
  | .not inner, w => inner.write ((w.int32 3).bool true)
  | .beforeAbsoluteTime time, w => (w.int32 4).int64 time
  | .beforeRelativeTime seconds, w => (w.int32 5).int64 seconds

/-- Reads the number of operands of a combination, which is two. -/
def operands : Decode Unit := do
  let count ← Decode.uint32
  if count ≠ 2 then Decode.forbidden (.predicateOperands count)

/-- Reads the mark in front of the operand of a negation. -/
def operand : Decode Unit := do
  if !(← Decode.bool) then Decode.forbidden .missingNegatedPredicate

/-- Reads a tree of at most the given number of levels. -/
def readWithin : (levels : Nat) → Decode ClaimPredicate
  | 0 => Decode.forbidden .predicateTooDeep
  | levels + 1 => do
    let tag ← Decode.int32
    match tag.toInt with
    | 0 => return .unconditional
    | 1 => do
      operands
      let left ← readWithin levels
      let right ← readWithin levels
      return .and left right
    | 2 => do
      operands
      let left ← readWithin levels
      let right ← readWithin levels
      return .or left right
    | 3 => do
      operand
      return .not (← readWithin levels)
    | 4 => return .beforeAbsoluteTime (← Decode.int64)
    | 5 => return .beforeRelativeTime (← Decode.int64)
    | _ => throw (.unknownTag "ClaimPredicateType" tag)

/-- A condition on the wire. -/
def codec : Codec ClaimPredicate := ⟨write, readWithin Limits.readablePredicateDepth⟩

end ClaimPredicate

/-- A claimant on the wire. -/
def Claimant.codec : Codec Claimant :=
  .versioned "ClaimantType"
    ((Codec.pair AccountId.codec ClaimPredicate.codec).map
      (fun (destination, predicate) => ⟨destination, predicate⟩)
      (fun c => (c.destination, c.predicate)))

/-!
## Names of claimable balances

A claimable balance is named by a hash. In text it is the hexadecimal form of its wire form, so
the tag in front of the hash shows.
-/

/-- The name of a claimable balance. -/
structure BalanceId where
  /-- The hash. -/
  hash : FixedBytes 32
deriving DecidableEq

/-- Why a claimable balance has no name, or a text is none. -/
inductive BalanceIdFault where
  /-- The transaction has no operation at the index. -/
  | indexOutOfRange (index count : Nat)
  /-- The operation at the index is of another type. -/
  | wrongOperationType (index : Nat) (found : String)
  /-- The text is not the name of a claimable balance. -/
  | invalidText (text : String)
deriving DecidableEq, Repr

/-- The wording of a fault. -/
def BalanceIdFault.message : BalanceIdFault → String
  | .indexOutOfRange index count =>
    s!"index {index} is outside the {count} operations of this transaction"
  | .wrongOperationType index found =>
    s!"operation at index {index} is {found}, not create_claimable_balance"
  | .invalidText text => "invalid claimable balance ID " ++ Text.quoted text

namespace BalanceId

/-- Names are ordered as byte strings. -/
instance : Ord BalanceId := ⟨fun a b => compare a.hash b.hash⟩

/-- A name on the wire. -/
def codec : Codec BalanceId :=
  .versioned "ClaimableBalanceIDType" ((Codec.fixed 32).map .mk BalanceId.hash)

/-- The hexadecimal text of a name. -/
def toText (id : BalanceId) : String := Hex.encode (codec.encode id)

/-- The name with the given hexadecimal text. -/
def ofText (text : String) : Except BalanceIdFault BalanceId :=
  match Hex.decodeFixed? 36 text with
  | none => .error (.invalidText text)
  | some bytes =>
    match codec.decode bytes.bytes with
    | .ok id => .ok id
    | .error _ => .error (.invalidText text)

/-- The text of a name in diagnostics. -/
def debugText (id : BalanceId) : String := "ClaimableBalanceId(" ++ id.toText ++ ")"

end BalanceId

end LedgerWire
