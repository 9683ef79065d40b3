import Mathlib.Algebra.Order.Field.Rat
import Mathlib.Tactic.Positivity
import Mathlib.Tactic.Ring
import LedgerWire.Proofs.Text

/-!
# Decimals

The decimals without sign, and what their texts and their digits say about the number they are.
-/

namespace LedgerWire

/-- A decimal without sign: the digits before its point and the digits behind it. -/
structure Decimal where
  (whole fraction : List Char)
  digits : ∀ c ∈ whole ++ fraction, c.isDigit

namespace Text

/-- The number that digits write is the one of the standard library. -/
lemma ofDigits_eq (cs : List Char) : ofDigits cs = Nat.ofDigitChars 10 cs 0 := rfl

/-- Characters are all digits when each of them is. -/
lemma all_isDigit_iff {cs : List Char} : cs.all isDigit ↔ ∀ c ∈ cs, c.isDigit :=
  List.all_eq_true

/-- Characters write a number when there are some and they are digits. -/
lemma number?_eq_some {cs : List Char} {n : Nat} :
    number? cs = some n ↔ cs ≠ [] ∧ (∀ c ∈ cs, c.isDigit) ∧ n = Nat.ofDigitChars 10 cs 0 := by
  rw [number?, Option.ite_none_right_eq_some, Bool.and_eq_true, all_isDigit_iff,
    Bool.not_eq_true', List.isEmpty_eq_false_iff, ofDigits_eq, Option.some_inj, and_assoc,
    eq_comm (a := n)]

/-- The point is no digit. -/
lemma point_not_mem {cs : List Char} (digits : ∀ c ∈ cs, c.isDigit) : '.' ∉ cs :=
  fun mem => absurd (digits _ mem) (by decide)

/-- The value of a digit is at most nine. -/
lemma digit_le_nine {c : Char} (digit : c.isDigit) : c.toNat - '0'.toNat ≤ 9 :=
  Nat.sub_le_sub_right (Char.isDigit_iff_toNat.1 digit).2 _

/-- A run of digits is less than the power of ten that its length says. -/
lemma ofDigitChars_lt {cs : List Char} (digits : ∀ c ∈ cs, c.isDigit) :
    Nat.ofDigitChars 10 cs 0 < 10 ^ cs.length := by
  induction cs with
  | nil => exact Nat.one_pos
  | cons c cs ih =>
    have first := digit_le_nine (digits c List.mem_cons_self)
    have rest := ih fun c mem => digits c (List.mem_cons_of_mem _ mem)
    rw [Nat.ofDigitChars_cons, Nat.ofDigitChars_eq_ofDigitChars_zero, List.length_cons,
      Nat.pow_succ]
    calc 10 ^ cs.length * (10 * 0 + (c.toNat - '0'.toNat)) + Nat.ofDigitChars 10 cs 0
        < 10 ^ cs.length * (10 * 0 + (c.toNat - '0'.toNat)) + 10 ^ cs.length :=
          Nat.add_lt_add_left rest _
      _ = 10 ^ cs.length * (c.toNat - '0'.toNat + 1) := by ring
      _ ≤ 10 ^ cs.length * 10 := Nat.mul_le_mul_left _ (Nat.succ_le_succ first)

end Text

namespace Decimal

/-- The digits read as one number, without the point. -/
def coefficient (x : Decimal) : ℕ := Nat.ofDigitChars 10 (x.whole ++ x.fraction) 0

/-- The number that a decimal is. -/
def value (x : Decimal) : ℚ := x.coefficient / 10 ^ x.fraction.length

/-- The texts of a decimal. Where no digits are behind the point, it can be left out. -/
def Writes (x : Decimal) (cs : List Char) : Prop :=
  cs = x.whole ++ '.' :: x.fraction ∨ x.fraction = [] ∧ cs = x.whole

variable {x : Decimal} {cs : List Char}

/-- A decimal without its point is the number that all its digits write. -/
lemma value_mul_pow (x : Decimal) : x.value * 10 ^ x.fraction.length = x.coefficient :=
  div_mul_cancel₀ _ (by positivity)

/-- What stands before the point are digits. -/
lemma digits_whole (x : Decimal) : ∀ c ∈ x.whole, c.isDigit :=
  fun c mem => x.digits c (List.mem_append_left _ mem)

/-- What stands behind the point are digits. -/
lemma digits_fraction (x : Decimal) : ∀ c ∈ x.fraction, c.isDigit :=
  fun c mem => x.digits c (List.mem_append_right _ mem)

/-- The point does not stand before itself. -/
lemma point_not_mem_whole (x : Decimal) : '.' ∉ x.whole := Text.point_not_mem x.digits_whole

/-- A text is cut at its first point into the digits of the decimal that it writes. -/
lemma writes_iff :
    x.Writes cs ↔ (Text.splitFirst? '.' cs).getD (cs, []) = (x.whole, x.fraction) := by
  apply Iff.intro
  · intro h
    cases h with
    | inl pointed =>
      rw [Text.splitFirst?_eq_some.2 ⟨x.point_not_mem_whole, pointed⟩, Option.getD_some]
    | inr plain =>
      obtain ⟨none, rfl⟩ := plain
      rw [Text.splitFirst?_eq_none.2 x.point_not_mem_whole, Option.getD_none, none]
  · intro h
    cases cut : Text.splitFirst? '.' cs with
    | none =>
      rw [cut, Option.getD_none] at h
      obtain ⟨whole, fraction⟩ := Prod.mk.inj h
      exact .inr ⟨fraction.symm, whole⟩
    | some parts =>
      rw [cut, Option.getD_some] at h
      subst h
      exact .inl (Text.splitFirst?_eq_some.1 cut).2

end Decimal

end LedgerWire
