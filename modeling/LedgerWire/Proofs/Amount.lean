import LedgerWire.Proofs.Decimal
import LedgerWire.Value.Amount

/-!
# Amounts and their texts

A computation with 64 bits has a result exactly when the integers have it within these bits. So an
amount is read exactly from a decimal with at most seven places that is a number of stroops with
room in the 64 bits, and the seven places that are written read back as the same stroops.
-/

namespace LedgerWire.Amount
variable {a b n : Int64} {cs : List Char}

/-! ### Computing with room -/

/-- A sum of 64 bits is given when it is the sum of the two numbers. -/
lemma add?_eq_some : add? a b = some n ↔ n.toInt = a.toInt + b.toInt := by
  rw [add?]
  split
  case isTrue trap =>
    refine iff_of_false nofun fun same => ?_
    have low := Int64.le_toInt n
    have high := Int64.toInt_lt n
    simp only [BitVec.saddOverflow, Bool.or_eq_true, decide_eq_true_iff,
      Int64.toInt_toBitVec] at trap
    omega
  case isFalse room =>
    have sum : (a + b).toInt = a.toInt + b.toInt := BitVec.toInt_add_of_not_saddOverflow room
    rw [Option.some_inj, ← Int64.toInt_inj, sum]
    exact eq_comm

/-- A product of 64 bits is given when it is the product of the two numbers. -/
lemma mul?_eq_some : mul? a b = some n ↔ n.toInt = a.toInt * b.toInt := by
  rw [mul?]
  split
  case isTrue trap =>
    refine iff_of_false nofun fun same => ?_
    have low := Int64.le_toInt n
    have high := Int64.toInt_lt n
    simp only [BitVec.smulOverflow, Bool.or_eq_true, decide_eq_true_iff,
      Int64.toInt_toBitVec] at trap
    omega
  case isFalse room =>
    have product : (a * b).toInt = a.toInt * b.toInt := BitVec.toInt_mul_of_not_smulOverflow room
    rw [Option.some_inj, ← Int64.toInt_inj, product]
    exact eq_comm

/-- A number with room in 63 bits is kept. -/
lemma toInt_ofNat {k : ℕ} (room : k < 0x8000000000000000) : (Int64.ofNat k).toInt = k :=
  Int64.toInt_ofNat_of_lt room

/-- Digits give the number that they write, if it has room. -/
lemma ofDigits?_eq_some : ofDigits? cs = some n ↔ n.toInt = Nat.ofDigitChars 10 cs 0 := by
  rw [ofDigits?, Text.ofDigits_eq]
  split
  case isTrue room =>
    rw [Option.some_inj, ← Int64.toInt_inj, toInt_ofNat room]
    exact eq_comm
  case isFalse room =>
    have high := Int64.toInt_lt n
    exact iff_of_false nofun (by omega)

/-! ### Reading an amount -/

/-- The text of an amount: at least one digit, and where there is a point, digits behind it. -/
def Writes (x : Decimal) (cs : List Char) : Prop :=
  x.whole ≠ [] ∧
    (x.fraction = [] ∧ cs = x.whole ∨ x.fraction ≠ [] ∧ cs = x.whole ++ '.' :: x.fraction)

/-- The text of a decimal is cut into its two parts. -/
lemma parts?_of_writes {x : Decimal} (h : Writes x cs) :
    parts? cs = some (x.whole, x.fraction) := by
  obtain ⟨some, h⟩ := h
  have whole : x.whole.all Text.isDigit := Text.all_isDigit_iff.2 x.digits_whole
  have fraction : x.fraction.all Text.isDigit := Text.all_isDigit_iff.2 x.digits_fraction
  cases h with
  | inl h =>
    obtain ⟨none, rfl⟩ := h
    rw [none] at fraction
    simp [parts?, Text.splitFirst?_eq_none.2 x.point_not_mem_whole, whole, none, some]
  | inr h =>
    obtain ⟨places, rfl⟩ := h
    simp [parts?, Text.splitFirst?_eq_some.2 ⟨x.point_not_mem_whole, rfl⟩, whole, fraction, some,
      places]

/-- Whatever is cut into two parts is the text of a decimal. -/
lemma writes_of_parts? {whole fraction : List Char} (h : parts? cs = some (whole, fraction)) :
    ∃ x : Decimal, Writes x cs ∧ x.whole = whole ∧ x.fraction = fraction := by
  cases cut : Text.splitFirst? '.' cs with
  | none =>
    have parts : (cs ≠ [] ∧ ∀ c ∈ cs, Text.isDigit c) ∧ cs = whole ∧ fraction = [] := by
      simpa [parts?, cut] using h
    obtain ⟨⟨some, digits⟩, rfl, rfl⟩ := parts
    rw [← List.append_nil cs] at digits
    exact ⟨⟨cs, [], digits⟩, ⟨some, .inl ⟨rfl, rfl⟩⟩, rfl, rfl⟩
  | some parts =>
    obtain ⟨before, behind⟩ := parts
    have parts : (((before ≠ [] ∧ ∀ c ∈ before, Text.isDigit c) ∧ ∀ c ∈ behind, Text.isDigit c) ∧
        behind ≠ []) ∧ before = whole ∧ behind = fraction := by
      simpa [parts?, cut] using h
    obtain ⟨⟨⟨⟨some, left⟩, right⟩, places⟩, rfl, rfl⟩ := parts
    have digits : ∀ c ∈ before ++ behind, c.isDigit := fun c mem =>
      (List.mem_append.1 mem).elim (left c) (right c)
    have text := (Text.splitFirst?_eq_some.1 cut).2
    exact ⟨⟨before, behind, digits⟩, ⟨some, .inr ⟨places, text⟩⟩, rfl, rfl⟩

/-- Digits from a place on make the number that they write, scaled up to seven places. -/
lemma fractionStroops_eq {place : ℕ} (room : place + cs.length ≤ 7) :
    fractionStroops place cs = Nat.ofDigitChars 10 cs 0 * 10 ^ (7 - place - cs.length) := by
  induction cs generalizing place with
  | nil => exact (Nat.zero_mul _).symm
  | cons c cs ih =>
    rw [List.length_cons] at room
    have behind : 7 - (place + 1) - cs.length = 7 - place - (cs.length + 1) := by omega
    have scale : Limits.amountDecimals - 1 - place = cs.length + (7 - place - (cs.length + 1)) := by
      change 7 - 1 - place = _
      omega
    rw [fractionStroops, ih (by omega), Nat.ofDigitChars_cons,
      @Nat.ofDigitChars_eq_ofDigitChars_zero cs (10 * 0 + _), List.length_cons, behind, scale]
    change (c.toNat - 48) * 10 ^ _ + _ = (10 ^ cs.length * (10 * 0 + (c.toNat - 48)) + _) * _
    ring

/-- A unit has seven places of stroops. -/
lemma stroopsPerUnit_eq : Limits.stroopsPerUnit = 10 ^ 7 := rfl

/-- The stroops of a decimal, which may have no room in an amount. -/
def stroopsOf (x : Decimal) : ℕ :=
  Nat.ofDigitChars 10 x.whole 0 * Limits.stroopsPerUnit + fractionStroops 0 x.fraction

/-- A decimal with at most seven places is a number of whole stroops. -/
lemma value_mul {x : Decimal} (room : x.fraction.length ≤ 7) : x.value * 10 ^ 7 = stroopsOf x := by
  have scale : 7 = x.fraction.length + (7 - x.fraction.length) := by omega
  have whole : Limits.stroopsPerUnit = 10 ^ x.fraction.length * 10 ^ (7 - x.fraction.length) := by
    rw [← pow_add, ← scale, stroopsPerUnit_eq]
  rw [stroopsOf, fractionStroops_eq (by omega), whole, Nat.sub_zero]
  calc x.value * 10 ^ 7
      = x.value * 10 ^ x.fraction.length * 10 ^ (7 - x.fraction.length) := by
        rw [mul_assoc, ← pow_add, ← scale]
    _ = x.coefficient * 10 ^ (7 - x.fraction.length) := by rw [x.value_mul_pow]
    _ = _ := by
      rw [Decimal.coefficient, Nat.ofDigitChars_append, Nat.ofDigitChars_eq_ofDigitChars_zero]
      push_cast
      ring

/-- The digits behind the point are less than a unit. -/
lemma fractionStroops_lt {x : Decimal} (room : x.fraction.length ≤ 7) :
    fractionStroops 0 x.fraction < 10 ^ 7 := by
  rw [fractionStroops_eq (by omega)]
  calc Nat.ofDigitChars 10 x.fraction 0 * 10 ^ (7 - 0 - x.fraction.length)
      < 10 ^ x.fraction.length * 10 ^ (7 - 0 - x.fraction.length) :=
        Nat.mul_lt_mul_of_pos_right (Text.ofDigitChars_lt x.digits_fraction) (by positivity)
    _ = 10 ^ 7 := by
      rw [← pow_add]
      congr 1
      omega

/-- The three steps of a computation have room for what they come to exactly when the last one has:
none of them is more than the sum at the end. -/
lemma computed_iff {x : Decimal} (places : x.fraction.length ≤ 7) :
    (∃ units, ofDigits? x.whole = some units ∧
        ∃ scaled, mul? units (Int64.ofNat Limits.stroopsPerUnit) = some scaled ∧
          add? scaled (Int64.ofNat (fractionStroops 0 x.fraction)) = some n) ↔
      n.toInt = stroopsOf x := by
  have small := fractionStroops_lt places
  have unit : (Int64.ofNat (10 ^ 7)).toInt = (10 ^ 7 : ℕ) := toInt_ofNat (by decide)
  have rest : (Int64.ofNat (fractionStroops 0 x.fraction)).toInt = fractionStroops 0 x.fraction :=
    toInt_ofNat (by omega)
  rw [stroopsOf, stroopsPerUnit_eq]
  apply Iff.intro
  · intro h
    obtain ⟨units, read, scaled, times, sum⟩ := h
    rw [add?_eq_some.1 sum, mul?_eq_some.1 times, ofDigits?_eq_some.1 read, unit, rest,
      Nat.cast_add, Nat.cast_mul]
  · intro same
    have high := Int64.toInt_lt n
    rw [same] at high
    have units := @toInt_ofNat (Nat.ofDigitChars 10 x.whole 0) (by omega)
    have scaled := @toInt_ofNat (Nat.ofDigitChars 10 x.whole 0 * 10 ^ 7) (by omega)
    refine ⟨_, ofDigits?_eq_some.2 units, _, mul?_eq_some.2 (scaled.trans ?_), add?_eq_some.2 ?_⟩
    · rw [units, unit, Nat.cast_mul]
    · rw [same, scaled, rest, Nat.cast_add]

/-- Stroops are read from the decimals with at most seven places that write them. -/
lemma stroops?_eq_some :
    stroops? cs = some n ↔
      ∃ x : Decimal, Writes x cs ∧ x.fraction.length ≤ 7 ∧ n.toInt = stroopsOf x := by
  apply Iff.intro
  · intro h
    obtain ⟨⟨whole, fraction⟩, cut, h⟩ := Option.bind_eq_some_iff.1 h
    obtain ⟨x, text, rfl, rfl⟩ := writes_of_parts? cut
    dsimp only at h
    split at h
    case isTrue => cases h
    case isFalse few =>
      have places := Nat.le_of_not_lt few
      obtain ⟨units, read, h⟩ := Option.bind_eq_some_iff.1 h
      exact ⟨x, text, places, (computed_iff places).1 ⟨units, read, Option.bind_eq_some_iff.1 h⟩⟩
  · intro h
    obtain ⟨x, text, places, same⟩ := h
    obtain ⟨units, read, computed⟩ := (computed_iff places).2 same
    have few : ¬ Limits.amountDecimals < x.fraction.length := Nat.not_lt.2 places
    refine Option.bind_eq_some_iff.2 ⟨_, parts?_of_writes text, ?_⟩
    dsimp only
    rw [if_neg few]
    exact Option.bind_eq_some_iff.2 ⟨units, read, Option.bind_eq_some_iff.2 computed⟩

/-- A text is an amount exactly when it is a decimal with at most seven places that is a number of
stroops with room in 64 bits. -/
lemma ofText_eq_ok {text : String} :
    ofText text = .ok n ↔
      ∃ x : Decimal, Writes x text.toList ∧ x.fraction.length ≤ 7 ∧ n.toInt = stroopsOf x := by
  rw [← stroops?_eq_some, ofText]
  cases stroops? text.toList with
  | none => exact iff_of_false nofun nofun
  | some stroops => exact ⟨fun h => by cases h; rfl, fun h => by cases h; rfl⟩

/-! ### Writing an amount -/

/-- Less than a unit is written in seven places. -/
@[simp] lemma length_places {k : ℕ} (room : k < 10 ^ 7) : (places k).length = 7 := by
  have short := (Nat.length_toDigits_le_iff (by decide) (by decide)).2 room
  change (List.replicate (7 - _) '0' ++ _).length = 7
  rw [List.length_append, List.length_replicate]
  omega

/-- Zeros in front leave the number that is written alone. -/
@[simp] lemma ofDigitChars_places (k : ℕ) : Nat.ofDigitChars 10 (places k) 0 = k := by
  rw [places, Nat.ofDigitChars_append, Nat.ofDigitChars_replicate_zero, Nat.mul_zero,
    Nat.ofDigitChars_ten_toDigits]

/-- Numbers are written in digits. -/
lemma isDigit_of_mem_toDigits {k : ℕ} {c : Char} (mem : c ∈ Nat.toDigits 10 k) : c.isDigit :=
  Nat.isDigit_of_mem_toDigits (by decide) (by decide) mem

/-- Places are filled with digits. -/
lemma isDigit_of_mem_places {k : ℕ} {c : Char} (mem : c ∈ places k) : c.isDigit := by
  cases List.mem_append.1 mem with
  | inl zero =>
    rw [List.eq_of_mem_replicate zero]
    rfl
  | inr digit => exact isDigit_of_mem_toDigits digit

/-- The decimal that a number of stroops is written as. -/
def decimalOf (stroops : ℕ) : Decimal where
  whole := Nat.toDigits 10 (stroops / Limits.stroopsPerUnit)
  fraction := places (stroops % Limits.stroopsPerUnit)
  digits _ mem := (List.mem_append.1 mem).elim isDigit_of_mem_toDigits isDigit_of_mem_places

variable {stroops : ℕ}

/-- Stroops are written with seven places. -/
@[simp] lemma length_fraction_decimalOf : (decimalOf stroops).fraction.length = 7 :=
  length_places (Nat.mod_lt _ (by decide))

/-- The text of a number of stroops writes its decimal. -/
lemma writes_decimalOf : Writes (decimalOf stroops) (unsignedText stroops).toList := by
  refine ⟨Nat.toDigits_ne_nil, .inr ⟨fun none => ?_, String.toList_ofList⟩⟩
  have length := @length_fraction_decimalOf stroops
  rw [none] at length
  cases length

/-- The decimal of a number of stroops has as many of them. -/
@[simp] lemma stroopsOf_decimalOf : stroopsOf (decimalOf stroops) = stroops := by
  have places := @length_fraction_decimalOf stroops
  rw [stroopsOf, fractionStroops_eq (by omega), places]
  change Nat.ofDigitChars 10 (Nat.toDigits 10 _) 0 * _ +
    Nat.ofDigitChars 10 (Amount.places _) 0 * 1 = _
  rw [Nat.ofDigitChars_ten_toDigits, ofDigitChars_places, Nat.mul_one]
  exact Nat.div_add_mod' _ _

/-- An amount that is not negative has no sign. -/
lemma toText_of_nonneg (h : 0 ≤ n) : toText n = unsignedText n.toInt.natAbs := by
  have pos : ¬ n.toInt < 0 := Int.not_lt.2 (Int64.le_iff_toInt_le.1 h)
  rw [toText, if_neg pos]
  exact String.empty_append

/-- An amount that is negative has a sign in front. -/
lemma toText_of_neg (h : n < 0) : toText n = "-" ++ unsignedText n.toInt.natAbs := by
  have neg : n.toInt < 0 := Int64.lt_iff_toInt_lt.1 h
  rw [toText, if_pos neg]

/-- A text is read as an amount exactly when it is a decimal with one to seven places, or none and
no point, that has room as a number of stroops, and it is read as this number. What an amount that
is not negative is written as reads back as the amount, and a minus stands before the others. The
number behind the sign always has seven places, and no zeros before it but the one of a whole part
that is zero. -/
theorem amounts_exact :
    (∀ (text : String) (v : ℤ),
      (∃ n : Int64, ofText text = .ok n ∧ n.toInt = v) ↔
        ∃ x : Decimal, Writes x text.toList ∧ x.fraction.length ≤ 7 ∧
          (v : ℚ) = x.value * 10 ^ 7 ∧ v ≤ 2 ^ 63 - 1) ∧
      (∀ n : Int64, 0 ≤ n → ofText (toText n) = .ok n) ∧
      (∀ n : Int64, 0 ≤ n → toText n = unsignedText n.toInt.natAbs) ∧
      (∀ n : Int64, n < 0 → toText n = "-" ++ unsignedText n.toInt.natAbs) ∧
      ∀ stroops : ℕ, ∃ x : Decimal,
        (unsignedText stroops).toList = x.whole ++ '.' :: x.fraction ∧
          x.whole = Nat.toDigits 10 (stroops / 10 ^ 7) ∧ x.fraction.length = 7 ∧
          x.value * 10 ^ 7 = stroops := by
  refine ⟨fun text v => ⟨?read, ?room⟩, ?back, fun _ => toText_of_nonneg, fun _ => toText_of_neg,
    ?text⟩
  case read =>
    intro h
    obtain ⟨n, read, rfl⟩ := h
    obtain ⟨x, text, places, same⟩ := ofText_eq_ok.1 read
    refine ⟨x, text, places, ?_, Int.le_sub_one_of_lt (Int64.toInt_lt n)⟩
    rw [value_mul places, same, Int.cast_natCast]
  case room =>
    intro h
    obtain ⟨x, text, places, same, room⟩ := h
    rw [value_mul places] at same
    have same : v = stroopsOf x := by exact_mod_cast same
    have toInt : (Int64.ofNat (stroopsOf x)).toInt = stroopsOf x := toInt_ofNat (by omega)
    exact ⟨_, ofText_eq_ok.2 ⟨x, text, places, toInt⟩, toInt.trans same.symm⟩
  case back =>
    intro n h
    have pos : 0 ≤ n.toInt := Int64.le_iff_toInt_le.1 h
    rw [toText_of_nonneg h, ofText_eq_ok]
    refine ⟨_, writes_decimalOf, length_fraction_decimalOf.le, ?_⟩
    rw [stroopsOf_decimalOf, Int.natAbs_of_nonneg pos]
  case text =>
    intro stroops
    have places := @length_fraction_decimalOf stroops
    refine ⟨decimalOf stroops, String.toList_ofList, rfl, places, ?_⟩
    rw [value_mul places.le, stroopsOf_decimalOf]

/-- Twelve and a half units. -/
theorem amounts_exact_half :
    (∃ n : Int64, ofText "12.5" = .ok n ∧ n.toInt = 125000000) ∧
      ofText (toText 125000000) = .ok 125000000 := by
  refine ⟨(amounts_exact.1 _ _).2 ?_, amounts_exact.2.1 _ (by decide)⟩
  refine ⟨⟨['1', '2'], ['5'], Text.all_isDigit_iff.1 rfl⟩, ⟨by decide, .inr ⟨by decide, rfl⟩⟩,
    by decide, ?_, by decide⟩
  have digits : Nat.ofDigitChars 10 ['1', '2', '5'] 0 = 125 := rfl
  norm_num [Decimal.value, Decimal.coefficient, digits]

end LedgerWire.Amount
