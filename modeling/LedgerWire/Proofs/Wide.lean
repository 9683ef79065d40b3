import Mathlib.Tactic.Positivity
import LedgerWire.Proofs.Decimal
import LedgerWire.Value.Price

/-!
# Computing with wide numbers

A sum or a product of wide numbers is given exactly when 128 bits are enough for it, and then it is
the one of the natural numbers.
-/

namespace LedgerWire.Wide
variable {a b n : Wide}

/-- A sum of 128 bits is given when it is the sum of the two numbers. -/
lemma add?_eq_some : add? a b = some n ↔ n.toNat = a.toNat + b.toNat := by
  rw [add?]
  split
  case isTrue trap =>
    rw [BitVec.uaddOverflow, decide_eq_true_iff] at trap
    have room := n.isLt
    exact iff_of_false nofun (by omega)
  case isFalse room =>
    have sum : (a + b).toNat = a.toNat + b.toNat := BitVec.toNat_add_of_not_uaddOverflow room
    rw [Option.some_inj, ← BitVec.toNat_inj, sum]
    exact eq_comm

/-- A product of 128 bits is given when it is the product of the two numbers. -/
lemma mul?_eq_some : mul? a b = some n ↔ n.toNat = a.toNat * b.toNat := by
  rw [mul?]
  split
  case isTrue trap =>
    rw [BitVec.umulOverflow, decide_eq_true_iff] at trap
    have room := n.isLt
    exact iff_of_false nofun (by omega)
  case isFalse room =>
    have product : (a * b).toNat = a.toNat * b.toNat := BitVec.toNat_mul_of_not_umulOverflow room
    rw [Option.some_inj, ← BitVec.toNat_inj, product]
    exact eq_comm

/-- A number with room in 128 bits is kept. -/
lemma toNat_ofNat {k : ℕ} (room : k < 2 ^ 128) : (BitVec.ofNat 128 k).toNat = k :=
  (BitVec.toNat_ofNat k 128).trans (Nat.mod_eq_of_lt room)

/-- A sum with room does not trap. -/
lemma add_ofNat {j k : ℕ} (room : j + k < 2 ^ 128) :
    add (BitVec.ofNat 128 j) (BitVec.ofNat 128 k) = .ok (BitVec.ofNat 128 (j + k)) := by
  have sum : add? (BitVec.ofNat 128 j) (BitVec.ofNat 128 k) = some (BitVec.ofNat 128 (j + k)) := by
    rw [add?_eq_some, toNat_ofNat room, toNat_ofNat (by omega), toNat_ofNat (by omega)]
  rw [add, sum]
  rfl

/-- Ten times a number does not trap when there is room for it. -/
lemma mul_ten_ofNat {k : ℕ} (room : k * 10 < 2 ^ 128) :
    mul (BitVec.ofNat 128 k) 10 = .ok (BitVec.ofNat 128 (k * 10)) := by
  have product : mul? (BitVec.ofNat 128 k) 10 = some (BitVec.ofNat 128 (k * 10)) := by
    rw [mul?_eq_some, toNat_ofNat room, toNat_ofNat (by omega)]
    rfl
  rw [mul, product]
  rfl

/-- A division by anything but zero does not trap. -/
lemma div_of_pos (pos : 0 < b.toNat) : div a b = .ok (a / b) :=
  if_neg fun zero => by rw [zero] at pos; exact Nat.lt_irrefl 0 pos

/-- A remainder by anything but zero does not trap. -/
lemma mod_of_pos (pos : 0 < b.toNat) : mod a b = .ok (a % b) :=
  if_neg fun zero => by rw [zero] at pos; exact Nat.lt_irrefl 0 pos

/-- A power of ten does not trap when there is room for it. -/
lemma tenPow_of_lt {k : ℕ} (room : 10 ^ k < 2 ^ 128) :
    tenPow k = .ok (BitVec.ofNat 128 (10 ^ k)) := by
  induction k with
  | zero => rfl
  | succ k ih =>
    rw [Nat.pow_succ] at room
    rw [tenPow, ih (by omega)]
    exact mul_ten_ofNat room

/-- Digits are read behind a number that is there already as long as 128 bits are enough. -/
lemma foldlM_of_lt {cs : List Char} {k : ℕ} (room : Nat.ofDigitChars 10 cs k < 2 ^ 128) :
    cs.foldlM (fun n c => do add (← mul n 10) (BitVec.ofNat 128 (c.toNat - 48)))
        (BitVec.ofNat 128 k) =
      .ok (BitVec.ofNat 128 (Nat.ofDigitChars 10 cs k)) := by
  induction cs generalizing k with
  | nil => rfl
  | cons c cs ih =>
    have digit : '0'.toNat = 48 := rfl
    rw [Nat.ofDigitChars_cons, digit, Nat.mul_comm] at room ⊢
    have small : k * 10 + (c.toNat - 48) < 2 ^ 128 := by
      have pos : 0 < 10 ^ cs.length := by positivity
      have le := Nat.le_mul_of_pos_left (k * 10 + (c.toNat - 48)) pos
      rw [Nat.ofDigitChars_eq_ofDigitChars_zero] at room
      omega
    rw [List.foldlM_cons, mul_ten_ofNat (by omega)]
    change (add (BitVec.ofNat 128 (k * 10)) (BitVec.ofNat 128 (c.toNat - 48)) >>= _) = _
    rw [add_ofNat small]
    exact ih room

/-- Digits are read as the number that they write as long as 128 bits are enough. -/
lemma ofDigits_of_lt {cs : List Char} (room : Nat.ofDigitChars 10 cs 0 < 2 ^ 128) :
    ofDigits cs = .ok (BitVec.ofNat 128 (Nat.ofDigitChars 10 cs 0)) :=
  foldlM_of_lt room

end LedgerWire.Wide
