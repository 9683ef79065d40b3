import LedgerWire.Bytes.Encodings
import LedgerWire.Proofs.Basic

/-!
# Hexadecimal text up to case

Reading takes the digits of either case, writing gives those of the lower one. So the texts that are
read as a byte string are the spellings of one text, and putting them into lower case gives it.
-/

namespace LedgerWire.Hex

/-- The case of a digit is the only thing that its value does not tell. -/
lemma digitValue?_ascii : ∀ n < 128, ∀ v < 16,
    digitValue? (Char.ofNat n) = some v ↔ (Char.ofNat n).toLower = digit v := by
  decide +kernel

/-- The value of an ASCII digit is below sixteen. -/
lemma digitValue?_lt : ∀ n < 128, ∀ v ∈ digitValue? (Char.ofNat n), v < 16 := by
  decide +kernel

/-- The digits that are written are ASCII characters. -/
lemma digit_lt : ∀ v < 16, (digit v).toNat < 128 := by
  decide

/-- Characters are ordered by their code points. -/
lemma le_iff_toNat_le {a b : Char} : a ≤ b ↔ a.toNat ≤ b.toNat :=
  UInt32.le_iff_toNat_le

/-- No character behind the letter f is a digit. -/
lemma toNat_le_of_digitValue? {c : Char} {v : Nat} (h : digitValue? c = some v) :
    c.toNat ≤ 102 := by
  rw [digitValue?] at h
  split at h
  case isTrue decimal => exact (le_iff_toNat_le.1 decimal.2).trans (by decide)
  case isFalse =>
    split at h
    case isTrue lower => exact le_iff_toNat_le.1 lower.2
    case isFalse =>
      split at h
      case isTrue upper => exact (le_iff_toNat_le.1 upper.2).trans (by decide)
      case isFalse => cases h

/-- Characters outside ASCII have no lower case here. -/
lemma toLower_of_le {c : Char} (h : 128 ≤ c.toNat) : c.toLower = c := by
  refine dif_neg fun upper => ?_
  have bound : c.toNat ≤ 90 := UInt32.le_iff_toNat_le.1 upper.2
  omega

/-- A character is a digit when its lower case is the digit that is written. -/
lemma digitValue?_eq_some {c : Char} {v : Nat} :
    digitValue? c = some v ↔ v < 16 ∧ c.toLower = digit v := by
  have same := Char.ofNat_toNat c
  apply Iff.intro
  · intro h
    have ascii : c.toNat < 128 := Nat.lt_of_le_of_lt (toNat_le_of_digitValue? h) (by decide)
    rw [← same] at h ⊢
    have small := digitValue?_lt c.toNat ascii v h
    exact ⟨small, (digitValue?_ascii c.toNat ascii v small).1 h⟩
  · intro h
    obtain ⟨small, lower⟩ := h
    have ascii : c.toNat < 128 := by
      by_contra large
      rw [toLower_of_le (Nat.le_of_not_lt large)] at lower
      rw [lower] at large
      exact large (digit_lt v small)
    rw [← same] at lower ⊢
    exact (digitValue?_ascii c.toNat ascii v small).2 lower

/-- The digits of the first byte come first. -/
@[simp] lemma digits_cons (b : UInt8) (bytes : Bytes) :
    digits (b :: bytes) = digit (b.toNat / 16) :: digit (b.toNat % 16) :: digits bytes := rfl

/-- Two values of digits are the halves of the byte that they make. -/
lemma ofNat_eq_iff {high low : Nat} {b : UInt8} (small : high < 16) (small' : low < 16) :
    UInt8.ofNat (16 * high + low) = b ↔ high = b.toNat / 16 ∧ low = b.toNat % 16 := by
  have bound := b.toNat_lt
  have code : (UInt8.ofNat (16 * high + low)).toNat = 16 * high + low :=
    UInt8.toNat_ofNat_of_lt' (by simp only [UInt8.size]; omega)
  rw [← UInt8.toNat_inj, code]
  omega

/-- Digits are read as a byte string exactly when they are its digits in either case. -/
lemma ofDigits?_eq_some {cs : List Char} {bytes : Bytes} :
    ofDigits? cs = some bytes ↔ cs.map Char.toLower = digits bytes := by
  induction cs using ofDigits?.induct generalizing bytes with
  | case1 =>
    cases bytes with
    | nil => exact iff_of_true rfl rfl
    | cons b bytes => exact iff_of_false nofun nofun
  | case2 c =>
    cases bytes with
    | nil => exact iff_of_false nofun nofun
    | cons b bytes => exact iff_of_false nofun fun h => nomatch (List.cons.inj h).2
  | case3 high low rest ih =>
    rw [ofDigits?]
    simp only [Option.bind_eq_bind, Option.bind_eq_some_iff, digitValue?_eq_some, ih]
    apply Iff.intro
    · intro h
      obtain ⟨m, ⟨small, upper⟩, n, ⟨small', lower⟩, bytes, written, made⟩ := h
      cases made
      obtain ⟨first, second⟩ := (ofNat_eq_iff small small').1 rfl
      rw [digits_cons, ← first, ← second, List.map_cons, List.map_cons, upper, lower, written]
    · intro h
      cases bytes with
      | nil => cases h
      | cons b bytes =>
        rw [digits_cons, List.map_cons, List.map_cons] at h
        obtain ⟨upper, h⟩ := List.cons.inj h
        obtain ⟨lower, written⟩ := List.cons.inj h
        have high16 : b.toNat / 16 < 16 := by
          have bound := b.toNat_lt
          omega
        have low16 : b.toNat % 16 < 16 := Nat.mod_lt _ (by decide)
        refine ⟨_, ⟨high16, upper⟩, _, ⟨low16, lower⟩, bytes, written, ?_⟩
        rw [(ofNat_eq_iff high16 low16).2 ⟨rfl, rfl⟩]
        rfl

/-- Digits are written in lower case. -/
lemma toLower_digit : ∀ v < 16, (digit v).toLower = digit v := by
  decide

/-- A text is put in lower case character by character. -/
lemma toList_toLower (text : String) : text.toLower.toList = text.toList.map Char.toLower :=
  String.toList_map

/-- The text of a byte string is in lower case. -/
lemma toLower_encode (bytes : Bytes) : (encode bytes).toLower = encode bytes := by
  have lower : (digits bytes).map Char.toLower = digits bytes := by
    induction bytes with
    | nil => rfl
    | cons b bytes ih =>
      have bound := b.toNat_lt
      rw [digits_cons, List.map_cons, List.map_cons, ih, toLower_digit _ (by omega),
        toLower_digit _ (Nat.mod_lt _ (by decide))]
  rw [← String.toList_inj, toList_toLower, encode, String.toList_ofList, lower]

/-- A text is read as a byte string of a given length exactly when it is its text in either case. -/
theorem decodeFixed?_eq_some {n : Nat} {text : String} {bytes : FixedBytes n} :
    decodeFixed? n text = some bytes ↔ text.toLower = encode bytes.bytes := by
  have lower : text.toLower = encode bytes.bytes ↔
      text.toList.map Char.toLower = digits bytes.bytes := by
    rw [← String.toList_inj, toList_toLower, encode, String.toList_ofList]
  rw [decodeFixed?, Option.bind_eq_some_iff, lower]
  apply Iff.intro
  · intro h
    obtain ⟨found, read, made⟩ := h
    rw [FixedBytes.ofBytes?] at made
    split at made
    case isTrue =>
      cases made
      exact ofDigits?_eq_some.1 read
    case isFalse => cases made
  · intro written
    exact ⟨bytes.bytes, ofDigits?_eq_some.2 written, FixedBytes.ofBytes?_bytes bytes⟩

end LedgerWire.Hex
