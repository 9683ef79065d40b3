import LedgerWire.Bytes.Encodings
import LedgerWire.Proofs.Basic
import LedgerWire.Proofs.Bits

/-!
# Base32

Strict reading undoes writing and refuses everything that writing does not give, so a byte string
has one base32 form.
-/

namespace LedgerWire.Base32

/-- Every symbol has the value that it was chosen for. -/
lemma value?_symbol {v : Nat} (small : v < 32) : value? (symbol v) = some v := by
  have all : ∀ v < 32, value? (symbol v) = some v := by decide
  exact all v small

/-- A byte has a value below 32 when it is the symbol of that value. -/
lemma value?_eq_some {b : UInt8} {v : Nat} : value? b = some v ↔ v < 32 ∧ b = symbol v := by
  apply Iff.intro
  · intro h
    rw [value?] at h
    split at h
    case isTrue letter =>
      cases h
      have low : 65 ≤ b.toNat := UInt8.le_iff_toNat_le.1 letter.1
      have high : b.toNat ≤ 90 := UInt8.le_iff_toNat_le.1 letter.2
      have code : 65 + (b.toNat - 65) = b.toNat := by omega
      refine ⟨by omega, ?_⟩
      rw [symbol, if_pos (by omega), code, UInt8.ofNat_toNat]
    case isFalse =>
      split at h
      case isTrue digit =>
        cases h
        have low : 50 ≤ b.toNat := UInt8.le_iff_toNat_le.1 digit.1
        have high : b.toNat ≤ 55 := UInt8.le_iff_toNat_le.1 digit.2
        have code : 24 + (b.toNat - 24) = b.toNat := by omega
        refine ⟨by omega, ?_⟩
        rw [symbol, if_neg (by omega), code, UInt8.ofNat_toNat]
      case isFalse => cases h
  · intro h
    obtain ⟨small, rfl⟩ := h
    exact value?_symbol small

/-- Symbols are ASCII characters. -/
lemma symbol_lt {v : Nat} (small : v < 32) : symbol v < 128 := by
  have all : ∀ v < 32, symbol v < 128 := by decide
  exact all v small

/-- Characters have values when they are the symbols of these. -/
lemma mapM_value?_eq_some {symbols : Bytes} {values : List Nat} :
    symbols.mapM value? = some values ↔ (∀ v ∈ values, v < 32) ∧ symbols = values.map symbol := by
  induction symbols generalizing values with
  | nil =>
    rw [List.mapM_nil, eq_comm (a := []), List.map_eq_nil_iff]
    apply Iff.intro
    · intro h
      cases h
      exact ⟨nofun, rfl⟩
    · intro h
      rw [h.2]
      rfl
  | cons b symbols ih =>
    rw [List.mapM_cons, Option.bind_eq_bind, Option.bind_eq_some_iff]
    simp only [Option.bind_eq_bind, Option.bind_eq_some_iff, ih, value?_eq_some]
    apply Iff.intro
    · intro h
      obtain ⟨v, ⟨small, rfl⟩, vs, ⟨all, rfl⟩, h⟩ := h
      cases h
      exact ⟨List.forall_mem_cons.2 ⟨small, all⟩, rfl⟩
    · intro h
      obtain ⟨all, same⟩ := h
      cases values with
      | nil => cases same
      | cons v vs =>
        cases same
        obtain ⟨small, all⟩ := List.forall_mem_cons.1 all
        exact ⟨v, ⟨small, rfl⟩, vs, ⟨all, rfl⟩, rfl⟩

/-- Symbols are read when their bits are whole bytes and fewer zeros than a symbol has bits. -/
lemma decode?_eq_some_iff {symbols bytes : Bytes} :
    decode? symbols = some bytes ↔
      ∃ values, symbols.mapM value? = some values ∧ ∃ zeros < 5,
        Bits.ofDigits 5 values = Bits.ofBytes bytes ++ List.replicate zeros false := by
  rw [decode?, Option.bind_eq_bind, Option.bind_eq_some_iff]
  refine exists_congr fun values => and_congr_right fun _ => ?_
  rw [← Bits.toBytes_zeros_iff (by decide)]
  rcases Bits.toBytes (Bits.ofDigits 5 values) with ⟨front, unused⟩
  dsimp only
  rw [Option.ite_none_right_eq_some]
  apply Iff.intro
  · intro h
    obtain ⟨⟨few, clear⟩, h⟩ := h
    cases h
    exact ⟨unused, rfl, few, clear⟩
  · intro h
    obtain ⟨rest, same, few, clear⟩ := h
    cases same
    exact ⟨⟨few, clear⟩, rfl⟩

/-- Symbols are read as a byte string exactly when they are its base32 form. -/
theorem decode?_eq_some {symbols bytes : Bytes} :
    decode? symbols = some bytes ↔ symbols = encode bytes := by
  rw [decode?_eq_some_iff]
  apply Iff.intro
  · intro h
    obtain ⟨values, read, written⟩ := h
    obtain ⟨small, rfl⟩ := mapM_value?_eq_some.1 read
    rw [encode, (Bits.toDigits_eq_iff (by decide)).2 ⟨small, written⟩]
  · intro h
    obtain ⟨small, written⟩ := Bits.ofDigits_toDigits (Bits.ofBytes bytes) (by decide : 0 < 5)
    exact ⟨_, mapM_value?_eq_some.2 ⟨small, h⟩, written⟩

/-- A byte string is written in ASCII characters. -/
lemma encode_ascii (bytes : Bytes) : ∀ b ∈ encode bytes, b < 128 := by
  intro b mem
  obtain ⟨v, inside, rfl⟩ := List.mem_map.1 mem
  exact symbol_lt ((Bits.ofDigits_toDigits _ (by decide)).1 v inside)

/-- The first symbol holds the upper five bits of the first byte. -/
lemma head?_encode (b : UInt8) (bytes : Bytes) :
    (encode (b :: bytes)).head? = some (symbol (b.toNat / 8)) := by
  obtain ⟨small, zeros, -, written⟩ :=
    Bits.ofDigits_toDigits (Bits.ofBytes (b :: bytes)) (by decide : 0 < 5)
  have first : Bits.ofBytes (b :: bytes) =
      Bits.ofNat 5 (b.toNat / 8) ++ Bits.ofNat 3 b.toNat ++ Bits.ofBytes bytes :=
    congrArg (· ++ Bits.ofBytes bytes) (Bits.ofNat_add 5 3 b.toNat)
  rw [encode]
  generalize Bits.toDigits 5 (Bits.ofBytes (b :: bytes)) = digits at small written
  cases digits with
  | nil =>
    rw [first] at written
    cases written
  | cons d digits =>
    rw [Bits.ofDigits_cons, first, List.append_assoc, List.append_assoc] at written
    have bits := (List.append_inj written
      ((Bits.length_ofNat _ _).trans (Bits.length_ofNat _ _).symm)).1
    have same : d = b.toNat / 8 := by
      apply Bits.ofNat_inj (small d List.mem_cons_self) _ bits
      exact Nat.div_lt_of_lt_mul b.toNat_lt
    rw [List.map_cons, List.head?_cons, same]

end LedgerWire.Base32
