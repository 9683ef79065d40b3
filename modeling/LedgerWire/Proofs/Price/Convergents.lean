import Mathlib.Data.Int.Order.Units
import Mathlib.RingTheory.Coprime.Lemmas
import Mathlib.Tactic.Linarith
import LedgerWire.Proofs.Price.Rounds

/-!
# The last convergents

Numerator and denominator of a fraction, written as a sum of multiples of the last two convergents,
say how far the fraction is from the decimal and on which side of it. Within the bound the next
convergents cannot be reached, and this leaves no better fraction in the sense in which convergents
are best: the one closest to the decimal, its distance taken as often as the denominator says.
Without the multiple, one fraction can be closer, on the other side of the decimal. It is reached
from the convergents before the last by adding the last ones as often as the bound allows.
-/

namespace LedgerWire.Price
variable {N D num den : ℕ} {c : Convergents} {p q α β : ℤ}

/-- A fraction of two positive 32-bit integers. -/
def Fits (p q : ℤ) : Prop := (0 < p ∧ p ≤ bound) ∧ 0 < q ∧ q ≤ bound

namespace Expansion

/-- A convergent is in lowest terms. -/
lemma coprime (h : Expansion N D num den c) : Nat.Coprime c.n.toNat c.d.toNat := by
  have unit := Int.isUnit_mul_self h.determinant
  refine Nat.isCoprime_iff_coprime.1
    ⟨c.determinant * c.lastD.toNat, -(c.determinant * c.lastN.toNat), ?_⟩
  rw [← unit]
  nth_rewrite 4 [Convergents.determinant]
  ring

/-- What is left of the fraction is less than its `d`-th part. -/
lemma den_mul_le (h : Expansion N D num den c) : den * c.d.toNat ≤ D := by
  cases h.descent with
  | inl zero =>
    rw [zero]
    exact Nat.zero_le D
  | inr less =>
    calc den * c.d.toNat
        ≤ num * c.d.toNat := Nat.mul_le_mul_right _ less.le
      _ = c.d.toNat * num := Nat.mul_comm _ _
      _ ≤ D := by
        rw [h.denominator]
        exact Nat.le_add_right _ _

/-- Two convergents in a row have determinant one, but for the sign. -/
lemma abs_determinant (h : Expansion N D num den c) : |c.determinant| = 1 :=
  Int.isUnit_iff_abs_eq.1 h.determinant

/-- Every fraction is made up of the last two convergents. -/
lemma coordinates (h : Expansion N D num den c) (p q : ℤ) :
    ∃ α β : ℤ, p = α * c.n.toNat + β * c.lastN.toNat ∧ q = α * c.d.toNat + β * c.lastD.toNat := by
  have unit := Int.isUnit_mul_self h.determinant
  refine ⟨c.determinant * (c.lastD.toNat * p - c.lastN.toNat * q),
    c.determinant * (c.n.toNat * q - c.d.toNat * p), ?_, ?_⟩
  · have expand : (c.lastD.toNat * p - c.lastN.toNat * q) * c.n.toNat +
        (c.n.toNat * q - c.d.toNat * p) * c.lastN.toNat = p * c.determinant := by
      rw [Convergents.determinant]
      ring
    linear_combination -p * unit - c.determinant * expand
  · have expand : (c.lastD.toNat * p - c.lastN.toNat * q) * c.d.toNat +
        (c.n.toNat * q - c.d.toNat * p) * c.lastD.toNat = q * c.determinant := by
      rw [Convergents.determinant]
      ring
    linear_combination -q * unit - c.determinant * expand

/-- How far a fraction is off, told by its coordinates between two convergents. -/
lemma sub_eq (h : Expansion N D num den c) (α β : ℤ) :
    N * (α * c.d.toNat + β * c.lastD.toNat) - D * (α * c.n.toNat + β * c.lastN.toNat) =
      c.determinant * (num * β - den * α) := by
  rw [h.numerator, h.denominator, Convergents.determinant]
  push_cast
  ring

/-- The same without the sign. -/
lemma abs_sub_eq (h : Expansion N D num den c) (α β : ℤ) :
    |N * (α * c.d.toNat + β * c.lastD.toNat) - D * (α * c.n.toNat + β * c.lastN.toNat)| =
      |num * β - den * α| := by
  rw [h.sub_eq, abs_mul, h.abs_determinant, one_mul]

/-- How far the last convergent is off is the denominator that is left. -/
lemma abs_sub_last_eq (h : Expansion N D num den c) :
    |(N : ℤ) * c.d.toNat - D * c.n.toNat| = den := by
  have last := h.abs_sub_eq 1 0
  rw [one_mul, one_mul, zero_mul, zero_mul, add_zero, add_zero, mul_zero, mul_one, zero_sub,
    abs_neg, Nat.abs_cast] at last
  exact last

/-- The sides on which a fraction can be that is made up of the last convergents: behind them as
seen from `N / D`, or across from them. Its distance is no less than theirs on both. -/
inductive Side (num den : ℕ) (α β : ℤ) : Prop where
  | behind : β ≤ 0 → num * β - den * α ≤ -den → Side num den α β
  | across : 0 < β → den ≤ num * β - den * α → Side num den α β

/-- A fraction that fits, where no further convergent does, lies on one of the two sides. -/
lemma side_of_fits (stuck : c.Stuck (num / den))
    (fits : Fits (α * c.n.toNat + β * c.lastN.toNat) (α * c.d.toNat + β * c.lastD.toNat)) :
    Side num den α β := by
  obtain ⟨⟨pos, p⟩, -, q⟩ := fits
  cases le_or_gt β 0 with
  | inl le =>
    have one : 0 < α := not_le.1 fun none => by
      have first := mul_nonpos_of_nonpos_of_nonneg none (Int.natCast_nonneg c.n.toNat)
      have second := mul_nonpos_of_nonpos_of_nonneg le (Int.natCast_nonneg c.lastN.toNat)
      omega
    have first := mul_nonpos_of_nonneg_of_nonpos (Int.natCast_nonneg num) le
    have second := le_mul_of_one_le_right (Int.natCast_nonneg den) one
    exact .behind le (by omega)
  | inr one =>
    -- As many of the last convergents as there are in the term would lead beyond the bound.
    have less : α < (num / den : ℕ) := not_le.1 fun far => by
      have firstN := mul_le_mul_of_nonneg_right far (Int.natCast_nonneg c.n.toNat)
      have firstD := mul_le_mul_of_nonneg_right far (Int.natCast_nonneg c.d.toNat)
      have secondN := le_mul_of_one_le_left (Int.natCast_nonneg c.lastN.toNat) one
      have secondD := le_mul_of_one_le_left (Int.natCast_nonneg c.lastD.toNat) one
      cases stuck with
      | inl stuck =>
        have beyond : (bound : ℤ) < (num / den : ℕ) * c.n.toNat + c.lastN.toNat := by
          exact_mod_cast stuck
        omega
      | inr stuck =>
        have beyond : (bound : ℤ) < (num / den : ℕ) * c.d.toNat + c.lastD.toNat := by
          exact_mod_cast stuck
        omega
    have whole : (den : ℤ) * (num / den : ℕ) ≤ num := by exact_mod_cast Nat.mul_div_le num den
    have first := le_mul_of_one_le_right (Int.natCast_nonneg num) one
    have second := mul_le_mul_of_nonneg_left (Int.add_one_le_of_lt less) (Int.natCast_nonneg den)
    rw [mul_add, mul_one] at second
    exact .across one (by omega)

/-- On either side a fraction is at least as far off as the last convergent. -/
lemma Side.le_abs_residual (h : Side num den α β) : (den : ℤ) ≤ |num * β - den * α| := by
  cases h with
  | behind _ far => exact le_abs.2 (.inr (le_neg_of_le_neg far))
  | across _ far => exact le_abs.2 (.inl far)

/-- On either side the second coordinate has the sign of the distance. -/
lemma Side.mul_nonneg (h : Side num den α β) : 0 ≤ β * (num * β - den * α) := by
  have pos := Int.natCast_nonneg den
  cases h with
  | behind le far => exact mul_nonneg_of_nonpos_of_nonpos le (by omega)
  | across one far => exact Int.mul_nonneg one.le (pos.trans far)

/-- Whether a fraction lies between the last convergents and `N / D` is seen on its coordinates. -/
lemma between_eq (h : Expansion N D num den c) (p_eq : p = α * c.n.toNat + β * c.lastN.toNat)
    (q_eq : q = α * c.d.toNat + β * c.lastD.toNat) :
    (p * c.d.toNat - c.n.toNat * q) * (p * D - N * q) = β * (num * β - den * α) := by
  have unit := Int.isUnit_mul_self h.determinant
  have side : p * c.d.toNat - c.n.toNat * q = -(β * c.determinant) := by
    rw [p_eq, q_eq, Convergents.determinant]
    ring
  have far := h.sub_eq α β
  rw [← p_eq, ← q_eq] at far
  have far : p * D - N * q = -(c.determinant * (num * β - den * α)) := by rw [← far]; ring
  rw [side, far]
  linear_combination β * (num * β - den * α) * unit

end Expansion

namespace Convergents

/-- How often the last convergents can be added to the ones before within the bound. -/
def mediateTerm (c : Convergents) : ℕ :=
  min ((bound - c.lastN.toNat) / c.n.toNat) ((bound - c.lastD.toNat) / c.d.toNat)

/-- The numerator of the last fraction before the next convergents that is within the bound. -/
def mediateN (c : Convergents) : ℕ := c.mediateTerm * c.n.toNat + c.lastN.toNat

/-- The denominator of the last fraction before the next convergents that is within the bound. -/
def mediateD (c : Convergents) : ℕ := c.mediateTerm * c.d.toNat + c.lastD.toNat

/-- The numerator of the mediate is its place between the two convergents. -/
lemma mediateN_eq (c : Convergents) :
    (c.mediateN : ℤ) = c.mediateTerm * c.n.toNat + 1 * c.lastN.toNat := by
  rw [mediateN, Nat.cast_add, Nat.cast_mul, one_mul]

/-- The denominator of the mediate is its place between the two convergents. -/
lemma mediateD_eq (c : Convergents) :
    (c.mediateD : ℤ) = c.mediateTerm * c.d.toNat + 1 * c.lastD.toNat := by
  rw [mediateD, Nat.cast_add, Nat.cast_mul, one_mul]

end Convergents

namespace Expansion

/-- The mediate stays within the bound. -/
lemma mediate_le (h : Expansion N D num den c) : c.mediateN ≤ bound ∧ c.mediateD ≤ bound := by
  have n : c.mediateTerm * c.n.toNat ≤ bound - c.lastN.toNat :=
    (Nat.mul_le_mul_right _ (Nat.min_le_left _ _)).trans (Nat.div_mul_le_self _ _)
  have d : c.mediateTerm * c.d.toNat ≤ bound - c.lastD.toNat :=
    (Nat.mul_le_mul_right _ (Nat.min_le_right _ _)).trans (Nat.div_mul_le_self _ _)
  have last := h.lastBounded
  rw [Convergents.mediateN, Convergents.mediateD]
  omega

/-- A fraction that fits behind the last convergent is no further than the mediate. -/
lemma le_mediateTerm (n : 0 < c.n.toNat) (d : 0 < c.d.toNat) (one : 0 < β)
    (fits : Fits (α * c.n.toNat + β * c.lastN.toNat) (α * c.d.toNat + β * c.lastD.toNat)) :
    α ≤ c.mediateTerm := by
  cases le_or_gt α 0 with
  | inl none => exact none.trans (Int.natCast_nonneg _)
  | inr some =>
    lift α to ℕ using some.le
    obtain ⟨⟨-, p⟩, -, q⟩ := fits
    have lastN := le_mul_of_one_le_left (Int.natCast_nonneg c.lastN.toNat) one
    have lastD := le_mul_of_one_le_left (Int.natCast_nonneg c.lastD.toNat) one
    have roomN : α * c.n.toNat ≤ bound - c.lastN.toNat := by
      zify at p ⊢
      omega
    have roomD : α * c.d.toNat ≤ bound - c.lastD.toNat := by
      zify at q ⊢
      omega
    exact Int.ofNat_le.2
      (Nat.le_min.2 ⟨(Nat.le_div_iff_mul_le n).2 roomN, (Nat.le_div_iff_mul_le d).2 roomD⟩)

/-- What is positive stays so when the first coordinate grows. -/
lemma pos_of_coordinates {k n last : ℕ} (le : α ≤ k) (pos : 0 < α * n + β * last) :
    0 < k * n + last := by
  by_contra none
  have zero : k * n = 0 ∧ last = 0 := by omega
  have less := mul_le_mul_of_nonneg_right le (Int.natCast_nonneg n)
  rw [zero.2, Nat.cast_zero, mul_zero, add_zero] at pos
  rw [← Nat.cast_mul, zero.1, Nat.cast_zero] at less
  omega

/-- The mediate fits if a fraction before it does. -/
lemma fits_mediate (h : Expansion N D num den c) (le : α ≤ c.mediateTerm)
    (fits : Fits (α * c.n.toNat + β * c.lastN.toNat) (α * c.d.toNat + β * c.lastD.toNat)) :
    Fits c.mediateN c.mediateD := by
  obtain ⟨n, d⟩ := h.mediate_le
  exact ⟨⟨Int.natCast_pos.2 (pos_of_coordinates le fits.1.1), Int.ofNat_le.2 n⟩,
    Int.natCast_pos.2 (pos_of_coordinates le fits.2.1), Int.ofNat_le.2 d⟩

end Expansion

namespace Final

/-- The last convergent comes from an expansion. -/
lemma expansion (h : Final N D c) : ∃ num den, Expansion N D num den c := by
  cases h with
  | done h => exact ⟨_, _, h⟩
  | stuck h => exact ⟨_, _, h⟩

/-- How far the last convergent is off, times its denominator, is at most that of the value. -/
lemma abs_sub_mul_le (h : Final N D c) :
    |(N : ℤ) * c.d.toNat - D * c.n.toNat| * c.d.toNat ≤ D := by
  obtain ⟨num, den, h⟩ := h.expansion
  rw [h.abs_sub_last_eq]
  exact_mod_cast h.den_mul_le

/-- No fraction within the bound comes closer to `N / D` than the last convergents do when its
distance is taken as often as its denominator says. -/
lemma abs_sub_le (h : Final N D c) (fits : Fits p q) :
    |(N : ℤ) * c.d.toNat - D * c.n.toNat| ≤ |N * q - D * p| := by
  cases h with
  | done h =>
    rw [h.abs_sub_last_eq]
    exact abs_nonneg _
  | stuck h _ stuck =>
    obtain ⟨α, β, rfl, rfl⟩ := h.coordinates p q
    rw [h.abs_sub_last_eq, h.abs_sub_eq]
    exact (Expansion.side_of_fits stuck fits).le_abs_residual

/-- No fraction within the bound lies between the last convergents and `N / D`. -/
lemma between_nonneg (h : Final N D c) (fits : Fits p q) :
    0 ≤ (p * c.d.toNat - c.n.toNat * q) * (p * D - N * q) := by
  cases h with
  | @done num h =>
    obtain ⟨α, β, p_eq, q_eq⟩ := h.coordinates p q
    rw [h.between_eq p_eq q_eq, Nat.cast_zero, zero_mul, sub_zero, mul_left_comm]
    exact mul_nonneg (Int.natCast_nonneg num) (mul_self_nonneg β)
  | @stuck num den h _ stuck =>
    obtain ⟨α, β, p_eq, q_eq⟩ := h.coordinates p q
    rw [h.between_eq p_eq q_eq]
    rw [p_eq, q_eq] at fits
    exact (Expansion.side_of_fits stuck fits).mul_nonneg

/-- A fraction within the bound is no closer to `N / D` than the last convergents are, or the last
fraction before the next convergents is at least as close as it is. -/
lemma closest (h : Final N D c) (n : 0 < c.n.toNat) (d : 0 < c.d.toNat) (fits : Fits p q) :
    |(N : ℤ) * c.d.toNat - D * c.n.toNat| * q ≤ |N * q - D * p| * c.d.toNat ∨
      Fits c.mediateN c.mediateD ∧
        |(N : ℤ) * c.mediateD - D * c.mediateN| * q ≤ |N * q - D * p| * c.mediateD := by
  cases h with
  | done h =>
    rw [h.abs_sub_last_eq, Nat.cast_zero, zero_mul]
    exact .inl (mul_nonneg (abs_nonneg _) (Int.natCast_nonneg _))
  | @stuck num den h pos stuck =>
    obtain ⟨α, β, rfl, rfl⟩ := h.coordinates p q
    have D_eq : (D : ℤ) = c.d.toNat * num + c.lastD.toNat * den := by exact_mod_cast h.denominator
    cases Expansion.side_of_fits stuck fits with
    | behind le far =>
      left
      rw [h.abs_sub_last_eq, h.abs_sub_eq, abs_of_nonpos (by omega)]
      have away := mul_nonpos_of_nonpos_of_nonneg le (Int.natCast_nonneg D)
      rw [D_eq] at away
      linarith
    | across one far =>
      right
      have le := Expansion.le_mediateTerm n d one fits
      have mediate := h.fits_mediate le fits
      rw [c.mediateN_eq, c.mediateD_eq] at mediate ⊢
      cases Expansion.side_of_fits stuck mediate with
      | behind no => cases no
      | across _ near =>
        have pos := Int.natCast_nonneg den
        refine ⟨mediate, ?_⟩
        rw [h.abs_sub_eq, h.abs_sub_eq, abs_of_nonneg (pos.trans near),
          abs_of_nonneg (pos.trans far)]
        have more : α ≤ β * c.mediateTerm :=
          le.trans (le_mul_of_one_le_left (Int.natCast_nonneg _) one)
        have away := mul_nonneg (sub_nonneg.2 more) (Int.natCast_nonneg D)
        rw [D_eq] at away
        linarith

end Final

/-! ### The range of the prices -/

section range
variable {n d lastN lastD : ℕ}

/-- Natural numbers whose product is a unit are one. -/
lemma eq_one_of_isUnit (unit : IsUnit ((n : ℤ) * lastD)) : n = 1 ∧ lastD = 1 := by
  rw [← Nat.cast_mul, Int.isUnit_iff_natAbs_eq, Int.natAbs_natCast] at unit
  exact mul_eq_one.1 unit

/-- What is made up of two convergents within the bound is within the range too. One that has no
denominator does no harm, as less is taken of it than of the other. -/
lemma lt_of_bounded (unit : IsUnit ((n : ℤ) * lastD - lastN * d)) (pos : 0 < d)
    (bounded : n ≤ bound) (lastBounded : lastN ≤ bound) (less : den < num) :
    n * num + lastN * den < (bound + 1) * (d * num + lastD * den) := by
  cases Nat.eq_zero_or_pos lastD with
  | inl zero =>
    rw [zero, Nat.cast_zero, mul_zero, zero_sub, IsUnit.neg_iff] at unit
    obtain ⟨rfl, rfl⟩ := eq_one_of_isUnit unit
    rw [zero, Nat.one_mul, Nat.one_mul, Nat.zero_mul, Nat.add_zero, Nat.add_one_mul]
    exact Nat.add_lt_add_of_le_of_lt (Nat.mul_le_mul_right _ bounded) less
  | inr some =>
    have positive : 0 < d * num + lastD * den :=
      Nat.add_pos_left (Nat.mul_pos pos (Nat.zero_lt_of_lt less)) _
    have first : n ≤ bound * d := bounded.trans (Nat.le_mul_of_pos_right _ pos)
    have second : lastN ≤ bound * lastD := lastBounded.trans (Nat.le_mul_of_pos_right _ some)
    calc n * num + lastN * den
        ≤ bound * d * num + bound * lastD * den :=
          Nat.add_le_add (Nat.mul_le_mul_right _ first) (Nat.mul_le_mul_right _ second)
      _ = bound * (d * num + lastD * den) := by ring
      _ < (bound + 1) * (d * num + lastD * den) :=
        Nat.mul_lt_mul_of_pos_right (Nat.lt_succ_self bound) positive

/-- Where the last convergent has no denominator and the next ones are beyond the bound, so is the
fraction. -/
lemma le_of_stuck (unit : IsUnit ((n : ℤ) * lastD - lastN * d)) (zero : d = 0)
    (stuck : bound < num / den * n + lastN ∨ bound < num / den * d + lastD) :
    (bound + 1) * (d * num + lastD * den) ≤ n * num + lastN * den := by
  rw [zero, Nat.cast_zero, mul_zero, sub_zero] at unit
  obtain ⟨rfl, rfl⟩ := eq_one_of_isUnit unit
  rw [zero, Nat.mul_zero, Nat.zero_add, Nat.mul_one] at stuck
  have beyond : bound + 1 ≤ num / den + lastN := stuck.resolve_right (by decide)
  rw [zero, Nat.zero_mul, Nat.zero_add, Nat.one_mul, Nat.one_mul]
  calc (bound + 1) * den
      ≤ (num / den + lastN) * den := Nat.mul_le_mul_right _ beyond
    _ = num / den * den + lastN * den := Nat.add_mul _ _ _
    _ ≤ num + lastN * den := Nat.add_le_add_right (Nat.div_mul_le_self num den) _

end range

namespace Expansion

/-- The determinant of two convergents in a row is a unit, upside down, too. -/
lemma swapped (h : Expansion N D num den c) :
    IsUnit ((c.d.toNat : ℤ) * c.lastN.toNat - c.lastD.toNat * c.n.toNat) := by
  have turned : (c.d.toNat : ℤ) * c.lastN.toNat - c.lastD.toNat * c.n.toNat = -c.determinant := by
    rw [Convergents.determinant]
    ring
  rw [turned]
  exact h.determinant.neg

/-- A value whose last convergent is positive is within the bound, either way up. -/
lemma within (h : Expansion N D num den c) (n : 0 < c.n.toNat) (d : 0 < c.d.toNat) :
    D < (bound + 1) * N ∧ N < (bound + 1) * D := by
  have less := h.descent.resolve_left d.ne.symm
  rw [h.numerator, h.denominator]
  exact ⟨lt_of_bounded h.swapped n h.bounded.2 h.lastBounded.2 less,
    lt_of_bounded h.determinant d h.bounded.1 h.lastBounded.1 less⟩

end Expansion

/-- Numerator and denominator of the last convergent are positive exactly when the fraction is
within the range of prices. -/
lemma Final.pos_iff (h : Final N D c) (pos : 0 < D) :
    0 < c.n.toNat ∧ 0 < c.d.toNat ↔ D < (bound + 1) * N ∧ N < (bound + 1) * D := by
  apply Iff.intro
  · intro positive
    obtain ⟨num, den, h⟩ := h.expansion
    exact h.within positive.1 positive.2
  · intro range
    refine ⟨Nat.pos_of_ne_zero fun n => ?numerator, Nat.pos_of_ne_zero fun d => ?denominator⟩
    case numerator =>
      cases h with
      | done h =>
        have zero := h.numerator
        rw [n, Nat.zero_mul, Nat.mul_zero] at zero
        rw [zero] at range
        exact Nat.not_lt_zero D range.1
      | stuck h _ stuck =>
        have beyond := le_of_stuck h.swapped n stuck.symm
        rw [← h.denominator, ← h.numerator] at beyond
        exact Nat.not_lt.2 beyond range.1
    case denominator =>
      cases h with
      | done h =>
        have zero := h.denominator
        rw [d, Nat.zero_mul, Nat.mul_zero] at zero
        exact pos.ne zero.symm
      | stuck h _ stuck =>
        have beyond := le_of_stuck h.determinant d stuck
        rw [← h.denominator, ← h.numerator] at beyond
        exact Nat.not_lt.2 beyond range.2

end LedgerWire.Price
