import LedgerWire.Proofs.Price.Distance

/-!
# Reading a price

A text of at most thirty digits is read as a fraction of wide numbers, and its approximation comes
to an end without a trap. Whether the last convergents are a price is decided by the range of the
decimal alone.
-/

namespace LedgerWire.Price
variable {x : Decimal} {cs : List Char} {text : String} {price : Price} {c : Convergents}
  {rounds : ℕ}

/-- The text of a price: a decimal with at least one digit and at most thirty. -/
def Writes (x : Decimal) (cs : List Char) : Prop :=
  x.Writes cs ∧ 0 < (x.whole ++ x.fraction).length ∧ (x.whole ++ x.fraction).length ≤ 30

/-- The digits of a text that is read have room in 128 bits. -/
lemma Writes.coefficient_lt (h : Writes x cs) : x.coefficient < 2 ^ 128 :=
  calc x.coefficient
      < 10 ^ (x.whole ++ x.fraction).length := Text.ofDigitChars_lt x.digits
    _ ≤ 10 ^ 30 := Nat.pow_le_pow_right (by decide) h.2.2
    _ < 2 ^ 128 := by decide

/-- The places of a text that is read have room in 128 bits. -/
lemma Writes.scale_lt (h : Writes x cs) : 10 ^ x.fraction.length < 2 ^ 128 := by
  have short := h.2.2
  rw [List.length_append] at short
  calc 10 ^ x.fraction.length
      ≤ 10 ^ 30 := Nat.pow_le_pow_right (by decide) (by omega)
    _ < 2 ^ 128 := by decide

/-- The text of a decimal is read as its digits over a power of ten. -/
lemma fraction?_of_writes (h : Writes x cs) :
    fraction? cs =
      .ok (some (BitVec.ofNat 128 x.coefficient, BitVec.ofNat 128 (10 ^ x.fraction.length))) := by
  have given : ((x.whole ++ x.fraction).isEmpty || !(x.whole ++ x.fraction).all Text.isDigit ||
      30 < (x.whole ++ x.fraction).length) = false := by
    rw [Text.all_isDigit_iff.2 x.digits, List.isEmpty_eq_false_iff.2 (List.length_pos_iff.1 h.2.1),
      decide_eq_false (Nat.not_lt.2 h.2.2)]
    rfl
  have digits : Wide.ofDigits (x.whole ++ x.fraction) = .ok (BitVec.ofNat 128 x.coefficient) :=
    Wide.ofDigits_of_lt h.coefficient_lt
  rw [fraction?, Decimal.writes_iff.1 h.1]
  dsimp only
  rw [given, digits, Wide.tenPow_of_lt h.scale_lt]
  rfl

/-- No other text is read as a fraction. -/
lemma fraction?_of_not_writes (h : ∀ x, ¬ Writes x cs) : fraction? cs = .ok none := by
  obtain ⟨parts, cut⟩ : ∃ parts, (Text.splitFirst? '.' cs).getD (cs, []) = parts := ⟨_, rfl⟩
  rw [fraction?, cut]
  refine if_pos (by_contra fun given => ?_)
  rw [Bool.or_eq_true, Bool.or_eq_true, not_or, not_or, List.isEmpty_iff, Bool.not_eq_true',
    Bool.not_eq_false, decide_eq_true_iff, Nat.not_lt] at given
  obtain ⟨⟨some, digits⟩, short⟩ := given
  exact h ⟨parts.1, parts.2, Text.all_isDigit_iff.1 digits⟩
    ⟨Decimal.writes_iff.2 cut, List.length_pos_iff.2 some, short⟩

/-- The approximation that a decimal is given. -/
def approximation (x : Decimal) : Approximation :=
  ⟨BitVec.ofNat 128 x.coefficient, BitVec.ofNat 128 (10 ^ x.fraction.length), .start⟩

/-- The expansion of a decimal ends after at most 47 rounds. -/
lemma ends_of_writes (h : Writes x cs) :
    ∃ rounds c, Ends (approximation x) rounds c ∧ rounds ≤ 47 ∧
      Final x.coefficient (10 ^ x.fraction.length) c := by
  have num := Wide.toNat_ofNat h.coefficient_lt
  have den := Wide.toNat_ofNat h.scale_lt
  have pos : 0 < (BitVec.ofNat 128 (10 ^ x.fraction.length)).toNat := by
    rw [den]
    exact Nat.pow_pos (by decide)
  have reached := @Reached.start (BitVec.ofNat 128 x.coefficient) _ pos
  rw [num, den] at reached
  obtain ⟨rounds, c, ends, few, final⟩ := reached.ends
  exact ⟨rounds, c, ends, by omega, final⟩

/-- The price of a decimal is its last convergent, if that is not zero. -/
lemma ofText?_of_writes (h : Writes x text.toList) (ends : Ends (approximation x) rounds c) :
    ofText? text =
      .ok (if c.n = 0 ∨ c.d = 0 then none
        else some ⟨Int32.ofNat c.n.toNat, Int32.ofNat c.d.toNat⟩) := by
  have finish := ends.finish_eq
  rw [approximation] at finish
  rw [ofText?, fraction?_of_writes h]
  dsimp only [bind, Except.bind]
  rw [finish]
  exact (apply_ite Except.ok _ _ _).symm

/-- No other text is read as a price, and none traps. -/
lemma ofText?_of_not_writes (h : ∀ x, ¬ Writes x text.toList) : ofText? text = .ok none := by
  rw [ofText?, fraction?_of_not_writes h]
  rfl

/-- What is read as a fraction is the text of a decimal. -/
lemma exists_writes_of_fraction? {num den : Wide} (h : fraction? cs = .ok (some (num, den))) :
    ∃ x, Writes x cs ∧ ⟨num, den, .start⟩ = approximation x := by
  by_cases written : ∃ x, Writes x cs
  case pos =>
    obtain ⟨x, written⟩ := written
    rw [fraction?_of_writes written] at h
    cases h
    exact ⟨x, written, rfl⟩
  case neg =>
    rw [fraction?_of_not_writes (not_exists.1 written)] at h
    cases h

/-- What is read as a price is the text of a decimal. -/
lemma exists_writes_of_ofText (h : ofText text = .ok price) : ∃ x, Writes x text.toList := by
  by_contra written
  rw [ofText, ofText?_of_not_writes (not_exists.1 written)] at h
  cases h

/-- A number is positive when it is not zero. -/
lemma pos_iff_ne_zero {w : Wide} : 0 < w.toNat ↔ w ≠ 0 := by
  rw [Nat.pos_iff_ne_zero, ne_eq, ne_eq, ← BitVec.toNat_inj]
  rfl

/-- The last convergent has room in the fields of a price. -/
lemma Final.toInt_ofNat {N D : ℕ} (h : Final N D c) :
    (Int32.ofNat c.n.toNat).toInt = c.n.toNat ∧ (Int32.ofNat c.d.toNat).toInt = c.d.toNat := by
  obtain ⟨num, den, expansion⟩ := h.expansion
  have small : bound < 2 ^ 31 := by decide
  exact ⟨Int32.toInt_ofNat_of_lt (expansion.bounded.1.trans_lt small),
    Int32.toInt_ofNat_of_lt (expansion.bounded.2.trans_lt small)⟩

/-- A decimal has the price that its last convergents are, if these are positive. -/
lemma ofText_eq_ok_of_writes (h : Writes x text.toList) (ends : Ends (approximation x) rounds c)
    (final : Final x.coefficient (10 ^ x.fraction.length) c) :
    ofText text = .ok price ↔
      (0 < c.n.toNat ∧ 0 < c.d.toNat) ∧
        price.n.toInt = c.n.toNat ∧ price.d.toInt = c.d.toNat := by
  obtain ⟨n, d⟩ := final.toInt_ofNat
  rw [ofText, ofText?_of_writes h ends, pos_iff_ne_zero, pos_iff_ne_zero]
  by_cases rejected : c.n = 0 ∨ c.d = 0
  case pos =>
    rw [if_pos rejected]
    exact iff_of_false nofun fun h => rejected.elim h.1.1 h.1.2
  case neg =>
    rw [if_neg rejected]
    apply Iff.intro
    · intro h
      cases h
      exact ⟨not_or.1 rejected, n, d⟩
    · intro h
      obtain ⟨-, sameN, sameD⟩ := h
      have price_eq : price = ⟨Int32.ofNat c.n.toNat, Int32.ofNat c.d.toNat⟩ := by
        obtain ⟨_, _⟩ := price
        rw [Price.mk.injEq, ← Int32.toInt_inj, ← Int32.toInt_inj, n, d]
        exact ⟨sameN, sameD⟩
      rw [price_eq]

/-! ### The range of the prices -/

/-- The value of a decimal is its digits over a power of ten. -/
lemma value_eq (x : Decimal) : x.value = (x.coefficient : ℚ) / (10 ^ x.fraction.length : ℕ) := by
  rw [Decimal.value, Nat.cast_pow]
  rfl

/-- A decimal is within the range of prices. -/
lemma value_range (x : Decimal) :
    1 / 2 ^ 31 < x.value ∧ x.value < 2 ^ 31 ↔
      10 ^ x.fraction.length < (bound + 1) * x.coefficient ∧
        x.coefficient < (bound + 1) * 10 ^ x.fraction.length := by
  have pos : (0 : ℚ) < (10 ^ x.fraction.length : ℕ) := Nat.cast_pos.2 (Nat.pow_pos (by decide))
  have limit : (2 : ℚ) ^ 31 = (bound + 1 : ℕ) := by norm_num [bound]
  rw [value_eq, div_lt_div_iff₀ (by positivity) pos, div_lt_iff₀ pos, limit, one_mul,
    mul_comm (x.coefficient : ℚ)]
  exact_mod_cast Iff.rfl

/-- Every text is read without a trap, in at most 47 rounds. It has a price exactly when it is a
decimal with one to thirty digits above `1 / 2 ^ 31` and below `2 ^ 31`. The price is a fraction of
positive 32-bit integers in lowest terms, it misses the decimal by at most one part in the square of
its denominator, and it is the decimal exactly when the lowest terms of the decimal have room. -/
theorem decimals_approximated (text : String) :
    (∃ result, ofText? text = .ok result) ∧
      (∀ num den, fraction? text.toList = .ok (some (num, den)) →
        ∃ rounds c, Ends ⟨num, den, .start⟩ rounds c ∧ rounds ≤ 47) ∧
      ((∃ price, ofText text = .ok price) ↔
        ∃ x, Writes x text.toList ∧ 1 / 2 ^ 31 < x.value ∧ x.value < 2 ^ 31) ∧
      ∀ price x, ofText text = .ok price → Writes x text.toList →
        Fits price.n.toInt price.d.toInt ∧ Int.gcd price.n.toInt price.d.toInt = 1 ∧
          |x.value - price.n.toInt / price.d.toInt| ≤ 1 / price.d.toInt ^ 2 ∧
          ((price.n.toInt / price.d.toInt : ℚ) = x.value ↔
            x.value.num ≤ bound ∧ x.value.den ≤ bound) := by
  refine ⟨?total, fun num den fraction => ?rounds, ⟨?read, ?within⟩,
    fun price x read written => ?price⟩
  case total =>
    by_cases written : ∃ x, Writes x text.toList
    case pos =>
      obtain ⟨x, written⟩ := written
      obtain ⟨rounds, c, ends, -⟩ := ends_of_writes written
      exact ⟨_, ofText?_of_writes written ends⟩
    case neg => exact ⟨_, ofText?_of_not_writes (not_exists.1 written)⟩
  case rounds =>
    obtain ⟨x, written, same⟩ := exists_writes_of_fraction? fraction
    obtain ⟨rounds, c, ends, few, -⟩ := ends_of_writes written
    rw [same]
    exact ⟨rounds, c, ends, few⟩
  case read =>
    intro h
    obtain ⟨price, read⟩ := h
    obtain ⟨x, written⟩ := exists_writes_of_ofText read
    obtain ⟨rounds, c, ends, -, final⟩ := ends_of_writes written
    have positive := ((ofText_eq_ok_of_writes written ends final).1 read).1
    exact ⟨x, written, (value_range x).2 ((final.pos_iff (Nat.pow_pos (by decide))).1 positive)⟩
  case within =>
    intro h
    obtain ⟨x, written, range⟩ := h
    obtain ⟨rounds, c, ends, -, final⟩ := ends_of_writes written
    have positive := (final.pos_iff (Nat.pow_pos (by decide))).2 ((value_range x).1 range)
    exact ⟨⟨Int32.ofNat c.n.toNat, Int32.ofNat c.d.toNat⟩,
      (ofText_eq_ok_of_writes written ends final).2 ⟨positive, final.toInt_ofNat⟩⟩
  case price =>
    obtain ⟨rounds, c, ends, -, final⟩ := ends_of_writes written
    obtain ⟨positive, n, d⟩ := (ofText_eq_ok_of_writes written ends final).1 read
    rw [n, d]
    exact final.accurate (Nat.pow_pos (by decide)) positive.1 positive.2 (value_eq x)

/-- One and a quarter. -/
def quarter : Decimal := ⟨['1'], ['2', '5'], Text.all_isDigit_iff.1 rfl⟩

/-- The text of five quarters. -/
lemma writes_quarter : Writes quarter "1.25".toList := ⟨.inl rfl, by decide, by decide⟩

/-- It is read as five quarters. -/
lemma ofText_quarter : ofText "1.25" = .ok ⟨5, 4⟩ := by
  have ends : Ends (approximation quarter) 2 ⟨1, 1, 5, 4⟩ := .more rfl (.last rfl)
  rw [ofText, ofText?_of_writes writes_quarter ends]
  rfl

/-- One and a quarter is the fraction of five and four. -/
theorem decimals_approximated_quarter :
    (fraction? "1.25".toList = .ok (some (125, 100)) ∧
        ∃ rounds c, Ends ⟨125, 100, .start⟩ rounds c ∧ rounds ≤ 47) ∧
      ofText "1.25" = .ok ⟨5, 4⟩ ∧ Writes quarter "1.25".toList ∧
      |quarter.value - (5 : Int32).toInt / (4 : Int32).toInt| ≤ 1 / (4 : Int32).toInt ^ 2 := by
  obtain ⟨-, rounds, -, price⟩ := decimals_approximated "1.25"
  have fraction := fraction?_of_writes writes_quarter
  obtain ⟨-, -, near, -⟩ := price _ _ ofText_quarter writes_quarter
  exact ⟨⟨fraction, rounds _ _ fraction⟩, ofText_quarter, writes_quarter, near⟩

end LedgerWire.Price

/-!
## The fractions around a decimal

No fraction within the bound lies between a decimal and its price, and none is better when distances
are taken as often as the denominator says. On the other side of the decimal a fraction can be
closer than the price: an approximation puts whole terms behind its convergents, and stops where
the next term has no room, although a smaller one may have. Whether there is such a fraction is seen
on a single one of them.
-/

namespace LedgerWire.Price
variable {x : Decimal} {text : String} {price : Price}

/-- The price of a decimal is on its side the closest fraction of positive 32-bit integers, and the
closest of all when distances are taken as often as the denominator says. It is the closest of all
exactly when the last fraction within the bound before the next convergents, if it is positive, is
no closer. -/
theorem nearest_iff_mediate (read : ofText text = .ok price) (written : Writes x text.toList) :
    ∃ num den c, fraction? text.toList = .ok (some (num, den)) ∧
      Approximation.finish ⟨num, den, .start⟩ = .ok c ∧
      (price.n.toInt = c.n.toNat ∧ price.d.toInt = c.d.toNat) ∧
      (∀ p q : ℤ, Fits p q →
        (p / q : ℚ) ∉ Set.uIoo (price.n.toInt / price.d.toInt : ℚ) x.value) ∧
      (∀ p q : ℤ, Fits p q →
        |(price.n.toInt : ℚ) - x.value * price.d.toInt| ≤ |(p : ℚ) - x.value * q|) ∧
      ((∀ p q : ℤ, Fits p q → |x.value - price.n.toInt / price.d.toInt| ≤ |x.value - p / q|) ↔
        (Fits c.mediateN c.mediateD →
          |x.value - price.n.toInt / price.d.toInt| ≤ |x.value - c.mediateN / c.mediateD|)) := by
  obtain ⟨rounds, c, ends, -, final⟩ := ends_of_writes written
  obtain ⟨⟨n_pos, d_pos⟩, n, d⟩ := (ofText_eq_ok_of_writes written ends final).1 read
  have scale : 0 < 10 ^ x.fraction.length := Nat.pow_pos (by decide)
  refine ⟨_, _, c, fraction?_of_writes written, ends.finish_eq, ⟨n, d⟩, ?_⟩
  rw [n, d, value_eq]
  exact ⟨fun p q => final.not_between scale d_pos, fun p q => final.nearest_of_multiples scale,
    final.nearest_iff scale n_pos d_pos⟩

/-- A decimal a little below half the bound. -/
def nearHalf : Decimal := ⟨"1073741823".toList, ['3'], Text.all_isDigit_iff.1 rfl⟩

/-- The text of a value just below half of the bound. -/
lemma writes_nearHalf : Writes nearHalf "1073741823.3".toList := ⟨.inl rfl, by decide, by decide⟩

/-- It is read as a whole number. -/
lemma ofText_nearHalf : ofText "1073741823.3" = .ok ⟨1073741823, 1⟩ := by
  have ends : Ends (approximation nearHalf) 2 ⟨1, 0, 1073741823, 1⟩ := .more rfl (.last rfl)
  rw [ofText, ofText?_of_writes writes_nearHalf ends]
  rfl

/-- The price of the decimal misses it by less than any multiple of a fraction within the bound. -/
theorem nearest_iff_mediate_nearHalf :
    ofText "1073741823.3" = .ok ⟨1073741823, 1⟩ ∧ Writes nearHalf "1073741823.3".toList ∧
      ∀ p q : ℤ, Fits p q →
        |((1073741823 : Int32).toInt : ℚ) - nearHalf.value * (1 : Int32).toInt| ≤
          |(p : ℚ) - nearHalf.value * q| := by
  obtain ⟨_, _, _, -, -, -, -, multiples, -⟩ := nearest_iff_mediate ofText_nearHalf writes_nearHalf
  exact ⟨ofText_nearHalf, writes_nearHalf, multiples⟩

/-- Half the bound is closer to the decimal than its price is: it is a fifth away from it, and the
price three tenths. -/
theorem half_bound_closer :
    ofText "1073741823.3" = .ok ⟨1073741823, 1⟩ ∧ Writes nearHalf "1073741823.3".toList ∧
      Fits 2147483647 2 ∧
      |nearHalf.value - 2147483647 / 2| <
        |nearHalf.value - (1073741823 : Int32).toInt / (1 : Int32).toInt| := by
  have value : nearHalf.value = 10737418233 / 10 := by
    have digits : nearHalf.coefficient = 10737418233 := rfl
    have places : nearHalf.fraction.length = 1 := rfl
    rw [Decimal.value, digits, places, pow_one]
    rfl
  have n : (1073741823 : Int32).toInt = 1073741823 := rfl
  have d : (1 : Int32).toInt = 1 := rfl
  refine ⟨ofText_nearHalf, writes_nearHalf, ⟨by decide, by decide⟩, ?_⟩
  rw [value, n, d]
  norm_num [abs_of_pos, abs_of_neg]

end LedgerWire.Price
