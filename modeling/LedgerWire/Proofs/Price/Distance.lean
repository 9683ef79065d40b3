import Mathlib.Algebra.Order.Field.Rat
import Mathlib.Order.Interval.Set.UnorderedInterval
import Mathlib.Tactic.FieldSimp
import LedgerWire.Proofs.Price.Convergents

/-!
# How far fractions are from each other

The distances of the fractions around `N / D`, read off the integers that the convergents are made
of.
-/

namespace LedgerWire.Price
variable {c : Convergents} {N D : ℕ} {p q p' q' : ℤ}

/-- The distance of two fractions over their common denominator. -/
lemma abs_sub_div (pos : 0 < D) (q_pos : 0 < q) :
    |(N / D : ℚ) - p / q| = (|N * q - D * p| : ℤ) / (D * q) := by
  have pos : (0 : ℚ) < D := Nat.cast_pos.2 pos
  have q_pos : (0 : ℚ) < q := Int.cast_pos.2 q_pos
  rw [div_sub_div _ _ pos.ne' q_pos.ne', abs_div, abs_of_pos (mul_pos pos q_pos)]
  push_cast
  rfl

/-- Distances to one fraction are compared over the common denominators. -/
lemma abs_sub_div_le_iff (pos : 0 < D) (q_pos : 0 < q) (q'_pos : 0 < q') :
    |(N / D : ℚ) - p / q| ≤ |(N / D : ℚ) - p' / q'| ↔
      |N * q - D * p| * q' ≤ |N * q' - D * p'| * q := by
  have scale : (0 : ℚ) < D := Nat.cast_pos.2 pos
  have left : (0 : ℚ) < D * q := mul_pos scale (Int.cast_pos.2 q_pos)
  have right : (0 : ℚ) < D * q' := mul_pos scale (Int.cast_pos.2 q'_pos)
  rw [abs_sub_div pos q_pos, abs_sub_div pos q'_pos, div_le_div_iff₀ left right, mul_left_comm,
    mul_left_comm _ (D : ℚ), mul_le_mul_iff_right₀ scale]
  exact_mod_cast Iff.rfl

/-- A fraction that misses by a small multiple is close. -/
lemma abs_sub_div_le_one_div_sq (pos : 0 < D) (q_pos : 0 < q) (near : |N * q - D * p| * q ≤ D) :
    |(N / D : ℚ) - p / q| ≤ 1 / q ^ 2 := by
  have scale : (0 : ℚ) < D := Nat.cast_pos.2 pos
  have denominator : (0 : ℚ) < q := Int.cast_pos.2 q_pos
  have near : ((|N * q - D * p| : ℤ) : ℚ) * q ≤ D := by exact_mod_cast near
  rw [abs_sub_div pos q_pos, div_le_div_iff₀ (mul_pos scale denominator) (pow_pos denominator 2),
    one_mul, pow_two, ← mul_assoc]
  exact mul_le_mul_of_nonneg_right near denominator.le

/-- The last convergents are the fraction itself exactly when it has room within the bound. -/
lemma Final.eq_iff (h : Final N D c) (pos : 0 < D) (n_pos : 0 < c.n.toNat) (d_pos : 0 < c.d.toNat)
    {v : ℚ} (value : v = N / D) :
    (c.n.toNat / c.d.toNat : ℚ) = v ↔ v.num ≤ bound ∧ v.den ≤ bound := by
  obtain ⟨num, den, expansion⟩ := h.expansion
  have D_pos : (0 : ℚ) < D := Nat.cast_pos.2 pos
  have scale : (0 : ℚ) < c.d.toNat := Nat.cast_pos.2 d_pos
  apply Iff.intro
  · intro same
    have num_eq :=
      @Rat.num_div_eq_of_coprime c.n.toNat c.d.toNat (Int.natCast_pos.2 d_pos) expansion.coprime
    have den_eq :=
      @Rat.den_div_eq_of_coprime c.n.toNat c.d.toNat (Int.natCast_pos.2 d_pos) expansion.coprime
    rw [Int.cast_natCast, Int.cast_natCast, same] at num_eq den_eq
    rw [num_eq]
    exact ⟨Int.ofNat_le.2 expansion.bounded.1, (Int.ofNat.inj den_eq).trans_le expansion.bounded.2⟩
  · intro room
    have N_pos : (0 : ℚ) < N := by
      have range := (expansion.within n_pos d_pos).1
      exact Nat.cast_pos.2 (Nat.pos_of_mul_pos_left (Nat.zero_lt_of_lt range))
    have v_pos : 0 < v := value ▸ div_pos N_pos D_pos
    have fits : Fits v.num v.den :=
      ⟨⟨Rat.num_pos.2 v_pos, room.1⟩, Int.natCast_pos.2 v.den_pos, Int.ofNat_le.2 room.2⟩
    have cross : (N : ℤ) * v.den - D * v.num = 0 := by
      have lowest := value.symm.trans v.num_div_den.symm
      rw [div_eq_div_iff D_pos.ne' (Nat.cast_ne_zero.2 v.den_nz), mul_comm (v.num : ℚ)] at lowest
      rw [sub_eq_zero]
      exact_mod_cast lowest
    have near := h.abs_sub_le fits
    rw [cross, abs_zero, abs_nonpos_iff, sub_eq_zero] at near
    rw [value, div_eq_div_iff scale.ne' D_pos.ne', mul_comm]
    exact_mod_cast near.symm

/-- The last convergent fits, is in lowest terms, is near, and is exact where it can be. -/
lemma Final.accurate (h : Final N D c) (pos : 0 < D) (n_pos : 0 < c.n.toNat) (d_pos : 0 < c.d.toNat)
    {v : ℚ} (value : v = N / D) :
    Fits c.n.toNat c.d.toNat ∧ Int.gcd c.n.toNat c.d.toNat = 1 ∧
      |v - ((c.n.toNat : ℤ) : ℚ) / (c.d.toNat : ℤ)| ≤ 1 / ((c.d.toNat : ℤ) : ℚ) ^ 2 ∧
      (((c.n.toNat : ℤ) : ℚ) / (c.d.toNat : ℤ) = v ↔ v.num ≤ bound ∧ v.den ≤ bound) := by
  obtain ⟨num, den, expansion⟩ := h.expansion
  have n_pos' : (0 : ℤ) < c.n.toNat := Int.natCast_pos.2 n_pos
  have d_pos' : (0 : ℤ) < c.d.toNat := Int.natCast_pos.2 d_pos
  have fits : Fits c.n.toNat c.d.toNat :=
    ⟨⟨n_pos', Int.ofNat_le.2 expansion.bounded.1⟩, d_pos', Int.ofNat_le.2 expansion.bounded.2⟩
  have near := abs_sub_div_le_one_div_sq pos d_pos' h.abs_sub_mul_le
  rw [← value] at near
  exact ⟨fits, expansion.coprime, near, h.eq_iff pos n_pos d_pos value⟩

/-- A point on the same side of both ends does not lie between them. -/
lemma not_mem_uIoo {a b y : ℚ} (h : 0 ≤ (y - a) * (y - b)) : y ∉ Set.uIoo a b := by
  intro mem
  rw [Set.uIoo, Set.mem_Ioo] at mem
  cases le_total a b with
  | inl le =>
    rw [min_eq_left le, max_eq_right le] at mem
    exact h.not_gt (mul_neg_of_pos_of_neg (sub_pos.2 mem.1) (sub_neg.2 mem.2))
  | inr le =>
    rw [min_eq_right le, max_eq_left le] at mem
    exact h.not_gt (mul_neg_of_neg_of_pos (sub_neg.2 mem.2) (sub_pos.2 mem.1))

namespace Final

/-- No fraction that fits lies between the last convergent and the value. -/
lemma not_between (h : Final N D c) (pos : 0 < D) (d_pos : 0 < c.d.toNat) (fits : Fits p q) :
    (p / q : ℚ) ∉ Set.uIoo (c.n.toNat / c.d.toNat : ℚ) (N / D) := by
  have scale : (0 : ℚ) < D := Nat.cast_pos.2 pos
  have d_pos : (0 : ℚ) < c.d.toNat := Nat.cast_pos.2 d_pos
  have q_pos : (0 : ℚ) < q := Int.cast_pos.2 fits.2.1
  apply not_mem_uIoo
  rw [div_sub_div _ _ q_pos.ne' d_pos.ne', div_sub_div _ _ q_pos.ne' scale.ne', div_mul_div_comm]
  apply div_nonneg _ (by positivity)
  have apart : (0 : ℚ) ≤ (p * c.d.toNat - c.n.toNat * q) * (p * D - N * q) := by
    exact_mod_cast h.between_nonneg fits
  linarith

/-- No multiple of a denominator that fits is nearer than that of the last convergent. -/
lemma nearest_of_multiples (h : Final N D c) (pos : 0 < D) (fits : Fits p q) :
    |(c.n.toNat : ℚ) - N / D * c.d.toNat| ≤ |(p : ℚ) - N / D * q| := by
  have scale : (0 : ℚ) < D := Nat.cast_pos.2 pos
  have distance : ∀ u v : ℚ, |u - N / D * v| = |N * v - D * u| / D := by
    intro u v
    have whole : u - N / D * v = -((N * v - D * u) / D) := by
      field_simp
      ring
    rw [whole, abs_neg, abs_div, abs_of_pos scale]
  rw [distance, distance]
  apply div_le_div_of_nonneg_right _ scale.le
  exact_mod_cast h.abs_sub_le fits

/-- Whether a fraction is closer than the last convergents is seen on the last fraction within the
bound that comes before the next ones. -/
lemma nearest_iff (h : Final N D c) (pos : 0 < D) (n_pos : 0 < c.n.toNat) (d_pos : 0 < c.d.toNat) :
    (∀ p q : ℤ, Fits p q → |(N / D : ℚ) - c.n.toNat / c.d.toNat| ≤ |(N / D : ℚ) - p / q|) ↔
      (Fits c.mediateN c.mediateD →
        |(N / D : ℚ) - c.n.toNat / c.d.toNat| ≤ |(N / D : ℚ) - c.mediateN / c.mediateD|) := by
  have d_pos' : (0 : ℤ) < c.d.toNat := Int.natCast_pos.2 d_pos
  apply Iff.intro
  · intro nearest fits
    have near := nearest _ _ fits
    rw [Int.cast_natCast, Int.cast_natCast] at near
    exact near
  · intro mediate p q fits
    have closer : ∀ {u v : ℕ}, (0 : ℤ) < v → |(N : ℤ) * v - D * u| * q ≤ |N * q - D * p| * v →
        |(N / D : ℚ) - u / v| ≤ |(N / D : ℚ) - p / q| := by
      intro u v v_pos near
      have near := (abs_sub_div_le_iff pos v_pos fits.2.1).2 near
      rw [Int.cast_natCast, Int.cast_natCast] at near
      exact near
    cases h.closest n_pos d_pos fits with
    | inl near => exact closer (Int.natCast_pos.2 d_pos) near
    | inr near => exact (mediate near.1).trans (closer near.1.2.1 near.2)

end Final

end LedgerWire.Price
