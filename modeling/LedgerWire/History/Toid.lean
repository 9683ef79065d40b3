import LedgerWire.Network

/-!
# Positions in the history

Every operation of the history has a position: its ledger, its transaction in the ledger and its
index in the transaction. A position is packed into the 63 bits of a nonnegative integer, the
ledger in the highest 31, the transaction in the next 20 and the operation in the last 12, so that
packed positions are ordered as the history is.
-/

namespace LedgerWire

/-- A position in the history, called a total-order identifier. -/
structure Toid where
  /-- The ledger. -/
  ledger : Nat
  /-- The transaction in the ledger. -/
  transaction : Nat
  /-- The operation in the transaction. -/
  operation : Nat
  ledger_le : ledger ≤ Limits.maxLedgerSequence
  transaction_le : transaction ≤ Limits.maxTransactionOrder
  operation_le : operation ≤ Limits.maxOperationIndex
deriving DecidableEq

/-- Why there is no such position, or no such range of positions. -/
inductive ToidFault where
  /-- A component, or the packed position, is not within its limits. -/
  | outOfRange (component : String) (value max : Int)
  /-- The ledger ends with this position. -/
  | overflow
  /-- The ledgers are no range. -/
  | invalidRange (first last : UInt32)
deriving DecidableEq, Repr

/-- The wording of a fault. -/
def ToidFault.message : ToidFault → String
  | .outOfRange component value max => s!"{component} {value} exceeds the maximum of {max}"
  | .overflow => "operation index rolled past the last transaction of the ledger"
  | .invalidRange first last => s!"invalid ledger range {first}..={last}"

namespace Toid

/-- Positions are ordered by ledger, then by transaction, then by operation. -/
instance : Ord Toid :=
  ⟨compareLex (compareOn ledger) (compareLex (compareOn transaction) (compareOn operation))⟩

/-- Fails when a component is greater than its limit. -/
private def bounded (component : String) (value : UInt32) (max : Nat) :
    Except ToidFault { n : Nat // n ≤ max } :=
  if h : value.toNat ≤ max then .ok ⟨value.toNat, h⟩
  else .error (.outOfRange component value.toNat max)

/-- A component is accepted as itself, when it is not above its greatest value. -/
@[simp] theorem bounded_eq_ok {component : String} {value : UInt32} {max : Nat}
    {n : { n : Nat // n ≤ max }} : bounded component value max = .ok n ↔ n.1 = value.toNat := by
  rw [bounded]
  split
  case isTrue le =>
    rw [Except.ok.injEq, Subtype.ext_iff]
    exact eq_comm
  case isFalse greater => exact ⟨nofun, fun same => (greater (same ▸ n.2)).elim⟩

/-- The position with the given components, which are examined from left to right. -/
def make (ledger transaction operation : UInt32) : Except ToidFault Toid := do
  let ledger ← bounded "ledger sequence" ledger Limits.maxLedgerSequence
  let transaction ← bounded "transaction order" transaction Limits.maxTransactionOrder
  let operation ← bounded "operation index" operation Limits.maxOperationIndex
  return ⟨ledger, transaction, operation, ledger.2, transaction.2, operation.2⟩

/-- The number of bits below the ledger in a packed position. -/
def ledgerShift : Int64 := 32

/-- The number of bits below the transaction in a packed position. -/
def transactionShift : Int64 := 12

/-- The packed position: the components, each shifted to its place. -/
def toInt64 (t : Toid) : Int64 :=
  Int64.ofNat t.ledger <<< ledgerShift ||| Int64.ofNat t.transaction <<< transactionShift |||
    Int64.ofNat t.operation

/-- The lowest 32 bits of an integer, as a number. -/
def low32 (value : Int64) : Nat := value.toUInt64.toUInt32.toNat

/-- The sign bit of a number that is not negative is not set. -/
theorem msb_of_nonneg {value : Int64} (nonneg : ¬ value < 0) : value.toBitVec.msb = false := by
  rw [BitVec.msb_eq_toInt, Int64.toInt_toBitVec]
  exact decide_eq_false fun negative => nonneg (Int64.lt_iff_toInt_lt.2 negative)

/-- The bits of an integer that is not negative are those of the number that it is. -/
theorem toInt_of_nonneg {value : Int64} (nonneg : ¬ value < 0) :
    value.toInt = value.toUInt64.toNat := by
  rw [← Int64.toInt_toBitVec, BitVec.toInt_eq_toNat_of_msb (msb_of_nonneg nonneg),
    Int64.toNat_toBitVec]

/-- An integer that is not negative is shifted to the right as a number is. -/
theorem toNat_shiftRight {value shift : Int64} (nonneg : ¬ value < 0) :
    (value >>> shift).toUInt64.toNat =
      value.toUInt64.toNat >>> (shift.toBitVec.smod 64).toNat := by
  rw [← Int64.toNat_toBitVec, Int64.toBitVec_shiftRight, BitVec.sshiftRight_eq',
    BitVec.sshiftRight_eq_of_msb_false (msb_of_nonneg nonneg), BitVec.toNat_ushiftRight,
    Int64.toNat_toBitVec]

/-- The ledger of a packed position needs no mask: the sign bit is not set. -/
theorem low32_ledger_le {value : Int64} (nonneg : ¬ value < 0) :
    low32 (value >>> ledgerShift) ≤ Limits.maxLedgerSequence := by
  have same := toInt_of_nonneg nonneg
  have bound := value.toInt_lt
  have shift : (ledgerShift.toBitVec.smod 64).toNat = 32 := by decide
  rw [low32, UInt64.toNat_toUInt32, toNat_shiftRight nonneg, shift, Limits.maxLedgerSequence]
  omega

/-- Nothing greater than the mask is left behind it. -/
theorem low32_and_le (value : Int64) (mask : Nat) : low32 (value &&& Int64.ofNat mask) ≤ mask := by
  rw [low32, UInt64.toNat_toUInt32, Int64.toUInt64_and, UInt64.toNat_and, Int64.toUInt64_ofNat',
    UInt64.toNat_ofNat']
  exact Nat.le_trans (Nat.mod_le _ _) (Nat.le_trans Nat.and_le_right (Nat.mod_le _ _))

/-- The position that is packed into an integer, which must not be negative. -/
def ofInt64 (value : Int64) : Except ToidFault Toid :=
  if negative : value < 0 then .error (.outOfRange "toid" value.toInt Int64.maxValue.toInt)
  else
    .ok {
      ledger := low32 (value >>> ledgerShift)
      transaction := low32 (value >>> transactionShift &&& Int64.ofNat Limits.maxTransactionOrder)
      operation := low32 (value &&& Int64.ofNat Limits.maxOperationIndex)
      ledger_le := low32_ledger_le negative
      transaction_le := low32_and_le _ _
      operation_le := low32_and_le _ _ }

/-- The text of a position is its packed form in decimal. -/
def toText (t : Toid) : String := toString t.toInt64

/-- The position of the next operation of the same ledger, after the last operation of a
transaction that of the first of the next transaction. -/
def next (t : Toid) : Except ToidFault Toid :=
  if h : t.operation < Limits.maxOperationIndex then
    .ok { t with operation := t.operation + 1, operation_le := h }
  else if h : t.transaction < Limits.maxTransactionOrder then
    .ok { t with
      transaction := t.transaction + 1
      transaction_le := h
      operation := 0
      operation_le := Nat.zero_le _ }
  else .error .overflow

/-- The last position of a ledger; whatever is greater belongs to a later one. -/
def lastOf (ledger : UInt32) : Except ToidFault Toid := do
  let ledger ← bounded "ledger sequence" ledger Limits.maxLedgerSequence
  return ⟨ledger, Limits.maxTransactionOrder, Limits.maxOperationIndex, ledger.2, Nat.le_refl _,
    Nat.le_refl _⟩

/-- The first position of a ledger. -/
def firstOf (ledger : UInt32) : Except ToidFault Toid := make ledger 0 0

end Toid

/-!
## Ranges of positions

The positions of consecutive ledgers fill a half-open range of packed positions. Ranges of
adjoining ledgers adjoin.
-/

/-- The packed positions from `start` up to, but not including, `stop`. -/
structure ToidRange where
  /-- The first packed position. -/
  start : Int64
  /-- The first packed position behind the range. -/
  stop : Int64
deriving DecidableEq

namespace ToidRange

/-- Whether a packed position is in the range. -/
def contains (range : ToidRange) (position : Int64) : Bool :=
  range.start ≤ position && position < range.stop

/-- The positions of the ledgers from `first` to `last`, both included. The first ledger of all has
no transactions of its own, so a range that starts there starts at zero. -/
def ofLedgers (first last : UInt32) : Except ToidFault ToidRange := do
  if first = 0 || last < first then throw (.invalidRange first last)
  let start ← if first = 1 then pure 0 else (Toid.firstOf first).map Toid.toInt64
  if last.toNat + 1 = UInt32.size then throw (.invalidRange first last)
  let stop ← Toid.firstOf (last + 1)
  return ⟨start, stop.toInt64⟩

end ToidRange

end LedgerWire

/-!
## Moving on in the history

A position is moved on in place. Moving on fails at the last position of a ledger, and whether it
leaves the position as it was then depends on the order of what it does: both components are
examined before either of them is changed.
-/

namespace LedgerWire.Toid

/-- Moves a position on to that of the next operation of the same ledger. -/
def advance : EStateM ToidFault Toid Unit := do
  let t ← get
  if h : t.operation < Limits.maxOperationIndex then
    set { t with operation := t.operation + 1, operation_le := h }
  else if h : t.transaction < Limits.maxTransactionOrder then
    set { t with transaction := t.transaction + 1, transaction_le := h }
    modify fun t => { t with operation := 0, operation_le := Nat.zero_le _ }
  else throw .overflow

/-- What moving on gives, and the position after it, whether or not it fails. -/
def attemptAdvance (t : Toid) : Except ToidFault Unit × Toid :=
  match advance.run t with
  | .ok _ t' => (.ok (), t')
  | .error fault t' => (.error fault, t')

/-- The position after any number of attempts to move on. -/
def advanceBy (t : Toid) : Nat → Toid
  | 0 => t
  | k + 1 => (t.advanceBy k).attemptAdvance.2

end LedgerWire.Toid
