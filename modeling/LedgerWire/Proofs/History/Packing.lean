import Mathlib.Algebra.Group.Int.Defs
import Mathlib.Algebra.Group.Nat.Defs
import Mathlib.Data.Prod.Lex
import Mathlib.Data.Set.Function
import LedgerWire.History.Toid
import LedgerWire.Proofs.Basic

/-!
# Packed positions

A packed position is a number whose digits are the components of the position: the shifts put each
component behind the highest bit of the one below it, so that the bits of no two components meet.
The order of the packed positions is therefore the order of the history, and every nonnegative
integer is the packed form of one position.
-/

namespace LedgerWire.Toid

/-- The number whose digits are the components. -/
def packed (t : Toid) : Nat := (t.ledger * 2 ^ 20 + t.transaction) * 2 ^ 12 + t.operation

/-- A position is told by its components. -/
lemma ext {a b : Toid} (ledger : a.ledger = b.ledger) (transaction : a.transaction = b.transaction)
    (operation : a.operation = b.operation) : a = b := by
  cases a
  cases b
  cases ledger
  cases transaction
  cases operation
  rfl

/-- The components have room in their bits. -/
lemma digits (t : Toid) : t.ledger < 2 ^ 31 ∧ t.transaction < 2 ^ 20 ∧ t.operation < 2 ^ 12 :=
  ⟨Nat.lt_succ_of_le t.ledger_le, Nat.lt_succ_of_le t.transaction_le,
    Nat.lt_succ_of_le t.operation_le⟩

/-- A position is made of the components that it has. -/
@[simp] lemma make_eq_ok {ledger transaction operation : UInt32} {t : Toid} :
    make ledger transaction operation = .ok t ↔
      t.ledger = ledger.toNat ∧ t.transaction = transaction.toNat ∧
        t.operation = operation.toNat := by
  rw [make]
  simp only [bind_eq_ok, bounded_eq_ok]
  apply Iff.intro
  · intro h
    obtain ⟨_, first, _, second, _, third, made⟩ := h
    cases made
    exact ⟨first, second, third⟩
  · intro h
    obtain ⟨first, second, third⟩ := h
    exact ⟨⟨_, t.ledger_le⟩, first, ⟨_, t.transaction_le⟩, second, ⟨_, t.operation_le⟩, third, rfl⟩

/-- Every position is made of its components. -/
lemma exists_make (t : Toid) :
    ∃ ledger transaction operation, make ledger transaction operation = .ok t := by
  obtain ⟨ledger, transaction, operation⟩ := t.digits
  refine ⟨.ofNat t.ledger, .ofNat t.transaction, .ofNat t.operation, make_eq_ok.2 ⟨?_, ?_, ?_⟩⟩
  all_goals exact (UInt32.toNat_ofNat_of_lt' (by simp only [UInt32.size]; omega)).symm

/-- A packed position has room in 63 bits. -/
lemma packed_lt (t : Toid) : t.packed < 2 ^ 63 := by
  obtain ⟨ledger, transaction, operation⟩ := t.digits
  rw [packed]
  omega

/-! ### Packing -/

/-- A number that stays below the highest bit is shifted to the left as a number is. -/
lemma toNat_shiftLeft {n k : Nat} {shift : Int64} (amount : (shift.toBitVec.smod 64).toNat = k)
    (small : n < 2 ^ 64) (room : n * 2 ^ k < 2 ^ 64) :
    (Int64.ofNat n <<< shift).toUInt64.toNat = n <<< k := by
  rw [← Int64.toNat_toBitVec, Int64.toBitVec_shiftLeft, BitVec.shiftLeft_eq', amount,
    BitVec.toNat_shiftLeft, Int64.toBitVec_ofNat', BitVec.toNat_ofNat, Nat.mod_eq_of_lt small,
    Nat.shiftLeft_eq, Nat.mod_eq_of_lt room]

/-- The components are put together as digits are, since their bits do not meet. -/
@[simp] lemma toNat_toInt64 (t : Toid) : t.toInt64.toUInt64.toNat = t.packed := by
  obtain ⟨ledger, transaction, operation⟩ := t.digits
  have high : (Int64.ofNat t.ledger <<< ledgerShift).toUInt64.toNat = t.ledger <<< 32 :=
    toNat_shiftLeft (by decide) (by omega) (by omega)
  have middle : (Int64.ofNat t.transaction <<< transactionShift).toUInt64.toNat =
      t.transaction <<< 12 := toNat_shiftLeft (by decide) (by omega) (by omega)
  have low : (Int64.ofNat t.operation).toUInt64.toNat = t.operation := by
    rw [Int64.toUInt64_ofNat', UInt64.toNat_ofNat_of_lt' (Nat.lt_trans operation (by decide))]
  have upper : t.ledger <<< 32 ||| t.transaction <<< 12 =
      (t.ledger * 2 ^ 20 + t.transaction) <<< 12 := by
    rw [Nat.shiftLeft_add t.ledger 20 12, ← Nat.shiftLeft_or_distrib,
      ← Nat.shiftLeft_add_eq_or_of_lt transaction, Nat.shiftLeft_eq t.ledger]
  rw [toInt64, Int64.toUInt64_or, Int64.toUInt64_or, UInt64.toNat_or, UInt64.toNat_or, high, middle,
    low, upper, ← Nat.shiftLeft_add_eq_or_of_lt operation, Nat.shiftLeft_eq, packed]

/-- A packed position is not negative. -/
lemma toInt64_nonneg (t : Toid) : ¬ t.toInt64 < 0 := by
  have bits : 2 * t.toInt64.toBitVec.toNat < 2 ^ 64 := by
    rw [Int64.toNat_toBitVec, toNat_toInt64]
    have := t.packed_lt
    omega
  rw [Int64.lt_iff_toInt_lt, ← Int64.toInt_toBitVec]
  exact Int.not_lt.2 (BitVec.toInt_pos_iff.2 bits)

/-- A packed position is kept in its 64 bits. -/
@[simp] lemma toInt_toInt64 (t : Toid) : t.toInt64.toInt = t.packed := by
  rw [toInt_of_nonneg t.toInt64_nonneg, toNat_toInt64]

/-! ### Unpacking -/

/-- A mask of `k` bits keeps the `k` lowest bits. -/
lemma low32_and {value : Int64} {k : Nat} (narrow : k ≤ 32) :
    low32 (value &&& Int64.ofNat (2 ^ k - 1)) = value.toUInt64.toNat % 2 ^ k := by
  have power : 2 ^ k ≤ 2 ^ 32 := Nat.pow_le_pow_right (by decide) narrow
  have mask : (UInt64.ofNat (2 ^ k - 1)).toNat = 2 ^ k - 1 :=
    UInt64.toNat_ofNat_of_lt' (show 2 ^ k - 1 < 2 ^ 64 by omega)
  have digit : value.toUInt64.toNat % 2 ^ k < 2 ^ k := Nat.mod_lt _ (Nat.two_pow_pos k)
  rw [low32, UInt64.toNat_toUInt32, Int64.toUInt64_and, UInt64.toNat_and, Int64.toUInt64_ofNat',
    mask, Nat.and_two_pow_sub_one_eq_mod, Nat.mod_eq_of_lt (Nat.lt_of_lt_of_le digit power)]

/-- The components that are taken out of an integer are its digits. -/
lemma ofInt64_of_nonneg {value : Int64} (nonneg : ¬ value < 0) :
    ∃ t, ofInt64 value = .ok t ∧ t.ledger = value.toUInt64.toNat / 2 ^ 32 ∧
      t.transaction = value.toUInt64.toNat / 2 ^ 12 % 2 ^ 20 ∧
      t.operation = value.toUInt64.toNat % 2 ^ 12 := by
  have below : value.toUInt64.toNat < 2 ^ 63 := by
    have same := toInt_of_nonneg nonneg
    have bound := value.toInt_lt
    omega
  have shifted : (value >>> ledgerShift).toUInt64.toNat = value.toUInt64.toNat / 2 ^ 32 :=
    (toNat_shiftRight nonneg).trans (Nat.shiftRight_eq_div_pow _ 32)
  have shifted' : (value >>> transactionShift).toUInt64.toNat = value.toUInt64.toNat / 2 ^ 12 :=
    (toNat_shiftRight nonneg).trans (Nat.shiftRight_eq_div_pow _ 12)
  have ledger : low32 (value >>> ledgerShift) = value.toUInt64.toNat / 2 ^ 32 := by
    rw [low32, UInt64.toNat_toUInt32, shifted]
    omega
  have transaction : low32 (value >>> transactionShift &&& Int64.ofNat Limits.maxTransactionOrder) =
      value.toUInt64.toNat / 2 ^ 12 % 2 ^ 20 := by
    have mask : Limits.maxTransactionOrder = 2 ^ 20 - 1 := rfl
    rw [mask, low32_and (by decide), shifted']
  have operation : low32 (value &&& Int64.ofNat Limits.maxOperationIndex) =
      value.toUInt64.toNat % 2 ^ 12 := by
    have mask : Limits.maxOperationIndex = 2 ^ 12 - 1 := rfl
    rw [mask, low32_and (by decide)]
  exact ⟨_, dif_neg nonneg, ledger, transaction, operation⟩

/-- A position is read from its packed form alone. -/
@[simp]
lemma ofInt64_eq_ok {value : Int64} {t : Toid} : ofInt64 value = .ok t ↔ value = t.toInt64 := by
  apply Iff.intro
  · intro h
    have nonneg : ¬ value < 0 := by
      intro negative
      rw [ofInt64, dif_pos negative] at h
      cases h
    obtain ⟨t', read, ledger, transaction, operation⟩ := ofInt64_of_nonneg nonneg
    cases read.symm.trans h
    apply Int64.toBitVec_inj.1
    apply BitVec.eq_of_toNat_eq
    rw [Int64.toNat_toBitVec, Int64.toNat_toBitVec, toNat_toInt64, packed, ledger, transaction,
      operation]
    omega
  · intro same
    subst same
    obtain ⟨t', read, ledger, transaction, operation⟩ := ofInt64_of_nonneg t.toInt64_nonneg
    rw [toNat_toInt64, packed] at ledger transaction operation
    obtain ⟨_, below, low⟩ := t.digits
    have same : t' = t := ext (by omega) (by omega) (by omega)
    rw [read, same]

/-- Exactly the negative integers are no packed positions. -/
lemma ofInt64_eq_error {value : Int64} {fault : ToidFault} :
    ofInt64 value = .error fault ↔
      value < 0 ∧ fault = .outOfRange "toid" value.toInt (2 ^ 63 - 1) := by
  apply Iff.intro
  · intro h
    by_cases negative : value < 0
    · rw [ofInt64, dif_pos negative] at h
      cases h
      exact ⟨negative, rfl⟩
    · obtain ⟨t, read, -⟩ := ofInt64_of_nonneg negative
      cases read.symm.trans h
  · intro h
    obtain ⟨negative, rfl⟩ := h
    exact dif_pos negative

/-! ### Order -/

/-- Of two numbers with digits below a base, the upper digits are compared first. -/
lemma compare_digits {base x x' y y' : Nat} (hy : y < base) (hy' : y' < base) :
    compare (x * base + y) (x' * base + y') = (compare x x').then (compare y y') := by
  obtain less | rfl | greater := Nat.lt_trichotomy x x'
  · have room : (x + 1) * base ≤ x' * base := Nat.mul_le_mul_right base less
    rw [Nat.compare_eq_lt.2 less, Nat.compare_eq_lt.2 (by rw [Nat.add_mul] at room; omega)]
    rfl
  · rw [Nat.compare_eq_eq.2 rfl, Nat.compare_eq_ite_lt, Nat.compare_eq_ite_lt y]
    simp only [Nat.add_lt_add_iff_left]
    rfl
  · have room : (x' + 1) * base ≤ x * base := Nat.mul_le_mul_right base greater
    rw [Nat.compare_eq_gt.2 greater, Nat.compare_eq_gt.2 (by rw [Nat.add_mul] at room; omega)]
    rfl

/-- Positions are ordered as they are packed. -/
lemma compare_packed (a b : Toid) : compare a b = compare a.packed b.packed := by
  obtain ⟨-, transaction, operation⟩ := a.digits
  obtain ⟨-, transaction', operation'⟩ := b.digits
  rw [packed, packed, compare_digits operation operation', compare_digits transaction transaction',
    Ordering.then_assoc]
  rfl

/-- Packing is an isomorphism of orders. It maps the positions that can be made onto the nonnegative
integers, one to one, and unpacking takes it back and refuses the negative integers only. The
position that comes first, by ledger, then by transaction, then by operation, has the lesser packed
form. -/
theorem toInt64_orderIso :
    Set.BijOn toInt64
        {t | ∃ ledger transaction operation, make ledger transaction operation = .ok t}
        {value | 0 ≤ value} ∧
      (∀ t : Toid, ofInt64 t.toInt64 = .ok t) ∧
      (∀ value t, ofInt64 value = .ok t ↔ value = t.toInt64) ∧
      (∀ value fault, ofInt64 value = .error fault ↔
        value < 0 ∧ fault = .outOfRange "toid" value.toInt (2 ^ 63 - 1)) ∧
      (∀ a b : Toid, compare a b = .lt ↔ a.toInt64 < b.toInt64) ∧
      ∀ a b : Toid, compare a b = .lt ↔
        toLex (a.ledger, toLex (a.transaction, a.operation)) <
          toLex (b.ledger, toLex (b.transaction, b.operation)) := by
  have nonneg : ∀ {value : Int64}, 0 ≤ value ↔ ¬ value < 0 := Int64.not_lt.symm
  refine ⟨⟨?maps, ?injective, ?onto⟩, fun t => ofInt64_eq_ok.2 rfl, fun _ _ => ofInt64_eq_ok,
    fun _ _ => ofInt64_eq_error, fun a b => ?packed, fun a b => ?components⟩
  case maps => exact fun t _ => nonneg.2 t.toInt64_nonneg
  case injective =>
    intro a _ b _ same
    have read : ofInt64 a.toInt64 = .ok b := ofInt64_eq_ok.2 same
    cases read.symm.trans (ofInt64_eq_ok.2 rfl)
    rfl
  case onto =>
    intro value notNegative
    obtain ⟨t, read, -⟩ := ofInt64_of_nonneg (nonneg.1 notNegative)
    exact ⟨t, t.exists_make, (ofInt64_eq_ok.1 read).symm⟩
  case packed =>
    rw [compare_packed, Nat.compare_eq_lt, Int64.lt_iff_toInt_lt, toInt_toInt64, toInt_toInt64,
      Int.ofNat_lt]
  case components =>
    have parts : compare a b = (compare a.ledger b.ledger).then
        ((compare a.transaction b.transaction).then (compare a.operation b.operation)) := rfl
    rw [parts, Ordering.then_eq_lt, Ordering.then_eq_lt, Prod.Lex.toLex_lt_toLex,
      Prod.Lex.toLex_lt_toLex]
    simp only [Nat.compare_eq_lt, Nat.compare_eq_eq]

end LedgerWire.Toid
