import Mathlib.Tactic.Lemma
import Mathlib.Tactic.Ring
import LedgerWire.Bytes.Basic
import LedgerWire.Text.Basic

/-!
# Outcomes, byte strings and texts

What is used everywhere about computations that can fail, and about byte strings.
-/

/-!
## Outcomes

When a computation that can fail does not: its steps succeed one after another. What is done with a
result does not undo a failure.
-/

namespace LedgerWire

/-- A change of the fault leaves every value alone. -/
@[simp] lemma mapError_eq_ok {ε ε' α : Type} {x : Except ε α} {f : ε → ε'} {a : α} :
    x.mapError f = .ok a ↔ x = .ok a := by
  cases x with
  | ok b => exact ⟨fun h => by cases h; rfl, fun h => by cases h; rfl⟩
  | error fault => exact ⟨nofun, nofun⟩

/-- What is made of an outcome is made of a value. -/
@[simp] lemma map_eq_ok {ε α β : Type} {x : Except ε α} {f : α → β} {b : β} :
    x.map f = .ok b ↔ ∃ a, x = .ok a ∧ f a = b := by
  cases x with
  | ok a => exact ⟨fun h => ⟨a, rfl, Except.ok.inj h⟩, fun ⟨_, e, h⟩ => by cases e; cases h; rfl⟩
  | error fault => exact ⟨nofun, fun ⟨_, e, _⟩ => nomatch e⟩

/-- What is made of an outcome fails as the outcome does. -/
@[simp] lemma map_eq_error {ε α β : Type} {x : Except ε α} {f : α → β} {fault : ε} :
    x.map f = .error fault ↔ x = .error fault := by
  cases x with
  | ok a => exact ⟨nofun, nofun⟩
  | error fault' => exact ⟨fun h => by cases h; rfl, fun h => by cases h; rfl⟩

/-- One step after another gives a value when both give one. -/
@[simp] lemma bind_eq_ok {ε α β : Type} {x : Except ε α} {f : α → Except ε β} {b : β} :
    (x >>= f) = .ok b ↔ ∃ a, x = .ok a ∧ f a = .ok b := by
  cases x with
  | ok a => exact ⟨fun h => ⟨a, rfl, h⟩, fun ⟨_, e, h⟩ => by cases e; exact h⟩
  | error fault => exact ⟨nofun, fun ⟨_, e, _⟩ => nomatch e⟩

/-- A step that only gives a value gives that one. -/
@[simp] lemma pure_eq_ok {ε α : Type} {a b : α} : (pure a : Except ε α) = .ok b ↔ a = b :=
  ⟨Except.ok.inj, congrArg Except.ok⟩

/-- What is made of the value of a step is made of a value. -/
@[simp] lemma fmap_eq_ok {ε α β : Type} {x : Except ε α} {f : α → β} {b : β} :
    f <$> x = .ok b ↔ ∃ a, x = .ok a ∧ f a = b := map_eq_ok

/-- A step that only fails gives its fault. -/
@[simp] lemma throw_eq {ε α : Type} {fault : ε} : (throw fault : Except ε α) = .error fault := rfl

/-- A fault ends a sequence of steps. -/
@[simp] lemma error_bind_eq {ε α β : Type} {fault : ε} {f : α → Except ε β} :
    (.error fault >>= f) = .error fault := rfl

/-- A check in front of other steps is passed where there is nothing to object to. -/
@[simp] lemma if_error_eq_ok {ε α : Type} {objection : Prop} [Decidable objection] {fault : ε}
    {x : Except ε α} {a : α} :
    (if objection then .error fault else x) = .ok a ↔ ¬ objection ∧ x = .ok a := by
  split <;> simp [*]

/-- A check of a condition is passed where it holds. -/
@[simp] lemma if_else_error_eq_ok {ε α : Type} {condition : Prop} [Decidable condition] {fault : ε}
    {x : Except ε α} {a : α} :
    (if condition then x else .error fault) = .ok a ↔ condition ∧ x = .ok a := by
  split <;> simp [*]

/-- A check gives nothing but that it is passed. -/
@[simp] lemma exists_unit_eq_ok {ε : Type} {x : Except ε Unit} :
    (∃ u, x = .ok u) ↔ x = .ok () :=
  ⟨fun ⟨_, h⟩ => h, fun h => ⟨_, h⟩⟩

end LedgerWire

/-!
## Byte strings, numbers and texts

The two ways of reading a byte string, as a big-endian number and as a UTF-8 text, and their
inverses. A byte string of a given width stands for exactly one number below `256 ^ width`, and a
well-formed byte string for exactly one text, so neither reading loses anything.
-/

namespace LedgerWire.Bytes

/-- The accumulator of the big-endian value only shifts the value of the rest. -/
lemma foldl_toNat (bytes : Bytes) (acc : Nat) :
    bytes.foldl (fun n b => 256 * n + b.toNat) acc = acc * 256 ^ bytes.length + toNat bytes := by
  induction bytes generalizing acc with
  | nil => simp [toNat]
  | cons b bytes ih =>
    have head := ih (256 * acc + b.toNat)
    have value := ih (256 * 0 + b.toNat)
    have cons : toNat (b :: bytes) = (256 * 0 + b.toNat) * 256 ^ bytes.length + toNat bytes :=
      value
    rw [List.foldl_cons, head, cons, List.length_cons]
    ring

/-- The first byte is the digit of the greatest weight. -/
lemma toNat_cons (b : UInt8) (bytes : Bytes) :
    toNat (b :: bytes) = b.toNat * 256 ^ bytes.length + toNat bytes := by
  have h := foldl_toNat bytes (256 * 0 + b.toNat)
  rw [toNat, List.foldl_cons, h]
  ring

/-- A byte string of a given length stands for a number below a power of 256. -/
lemma toNat_lt (bytes : Bytes) : toNat bytes < 256 ^ bytes.length := by
  induction bytes with
  | nil => simp [toNat]
  | cons b bytes ih =>
    have hb := b.toNat_lt
    rw [toNat_cons, List.length_cons, pow_succ]
    calc b.toNat * 256 ^ bytes.length + toNat bytes
        < b.toNat * 256 ^ bytes.length + 256 ^ bytes.length := by omega
      _ = (b.toNat + 1) * 256 ^ bytes.length := by ring
      _ ≤ 256 * 256 ^ bytes.length := Nat.mul_le_mul_right _ (by omega)
      _ = 256 ^ bytes.length * 256 := by ring

/-- The first byte of a number is its digit of the greatest weight. -/
lemma bigEndian_succ (width n : Nat) :
    bigEndian (width + 1) n = UInt8.ofNat (n / 256 ^ width) :: bigEndian width n := rfl

/-- Laying out a number keeps what its width has room for. -/
@[simp] lemma toNat_bigEndian (width n : Nat) : toNat (bigEndian width n) = n % 256 ^ width := by
  induction width with
  | zero => simp [bigEndian, toNat, Nat.mod_one]
  | succ width ih =>
    have top : (UInt8.ofNat (n / 256 ^ width)).toNat = n / 256 ^ width % 256 := rfl
    rw [bigEndian_succ, toNat_cons, length_bigEndian, ih, top, pow_succ, Nat.mod_mul]
    ring

/-- A number that fits its bytes is read back from them. -/
lemma toNat_bigEndian_of_lt {width n : Nat} (h : n < 256 ^ width) :
    toNat (bigEndian width n) = n := by
  rw [toNat_bigEndian, Nat.mod_eq_of_lt h]

/-- Only the lowest digits of a number are laid out. -/
lemma bigEndian_add_mul (width n k : Nat) :
    bigEndian width (k * 256 ^ width + n) = bigEndian width n := by
  induction width generalizing k with
  | zero => rfl
  | succ width ih =>
    have split : k * 256 ^ (width + 1) + n = (k * 256) * 256 ^ width + n := by ring
    have digit : (k * 256 * 256 ^ width + n) / 256 ^ width = k * 256 + n / 256 ^ width := by
      rw [Nat.add_comm, Nat.add_mul_div_right _ _ (Nat.pow_pos (by omega)), Nat.add_comm]
    have byte : UInt8.ofNat (k * 256 + n / 256 ^ width) = UInt8.ofNat (n / 256 ^ width) := by
      apply UInt8.toNat_inj.1
      rw [UInt8.toNat_ofNat', UInt8.toNat_ofNat', Nat.mul_add_mod_self_right]
    rw [split, bigEndian_succ, bigEndian_succ, digit, byte, ih]

/-- A byte string is the layout of its number. -/
lemma bigEndian_toNat (bytes : Bytes) : bigEndian bytes.length (toNat bytes) = bytes := by
  induction bytes with
  | nil => rfl
  | cons b bytes ih =>
    have small := toNat_lt bytes
    have top : (b.toNat * 256 ^ bytes.length + toNat bytes) / 256 ^ bytes.length = b.toNat := by
      rw [Nat.add_comm, Nat.add_mul_div_right _ _ (Nat.pow_pos (by omega)),
        Nat.div_eq_of_lt small, Nat.zero_add]
    rw [List.length_cons, bigEndian_succ, toNat_cons, top, bigEndian_add_mul, ih,
      UInt8.ofNat_toNat]

/-- The bytes of a text tell the text. -/
lemma ofText_inj {s t : String} (h : ofText s = ofText t) : s = t := by
  apply String.toByteArray_inj.1
  apply ByteArray.ext
  exact Array.toList_inj.1 h

/-- Characters below 128 are their own UTF-8 form. -/
lemma ofText_toLatin {bytes : Bytes} (ascii : ∀ b ∈ bytes, b < 128) :
    ofText (toLatin bytes) = bytes := by
  have single : ∀ b ∈ bytes, String.utf8EncodeChar (Char.ofNat b.toNat) = [b] := by
    intro b hb
    have small : b.toNat < 128 := UInt8.lt_iff_toNat_lt.1 (ascii b hb)
    have valid : b.toNat.isValidChar := Or.inl (by omega)
    have code : (Char.ofNat b.toNat).val.toNat = b.toNat := by
      rw [Char.ofNat, dif_pos valid]
      rfl
    rw [String.utf8EncodeChar, code, if_pos (by omega), UInt8.ofNat_toNat]
  have text : ofText (toLatin bytes) =
      (bytes.map fun b => Char.ofNat b.toNat).flatMap String.utf8EncodeChar := by
    simp [ofText, toLatin, List.utf8Encode]
  rw [text, List.flatMap_map, List.flatMap_def, List.map_congr_left single, ← List.flatMap_def,
    List.flatMap_singleton']

/-- A text of characters below 128 is read from their codes. -/
lemma toLatin_ofText {text : String} (ascii : ∀ b ∈ ofText text, b < 128) :
    toLatin (ofText text) = text :=
  ofText_inj (ofText_toLatin ascii)

end LedgerWire.Bytes

namespace LedgerWire.Utf8

/-- A text is the reading of its own bytes. -/
lemma decode_ofText (text : String) : decode (Bytes.ofText text) = .ok text := by
  have whole : (⟨(Bytes.ofText text).toArray⟩ : ByteArray) = text.toByteArray := by
    apply ByteArray.ext
    simp [Bytes.ofText]
  rw [decode, whole, String.fromUTF8?, dif_pos text.isValidUTF8]
  rfl

/-- Bytes that are read as a text are the bytes of that text. -/
lemma ofText_of_decode {bytes : Bytes} {text : String} (h : decode bytes = .ok text) :
    Bytes.ofText text = bytes := by
  rw [decode, String.fromUTF8?] at h
  split at h
  case h_1 read =>
    cases h
    split at read
    · cases read
      rfl
    · cases read
  case h_2 => cases h

end LedgerWire.Utf8

namespace LedgerWire.Bytes

/-- Padding never fills a word of its own. -/
lemma padLength_lt (length : Nat) : padLength length < 4 :=
  Nat.mod_lt _ (by decide)

/-- With its padding, every length is made of whole words. -/
lemma four_dvd_add_padLength (length : Nat) : 4 ∣ length + padLength length := by
  rw [padLength]
  omega

/-- Bytes and the zeros that fill them up to a multiple of four. -/
def padded (bytes : Bytes) : Bytes := bytes ++ List.replicate (padLength bytes.length) 0

end LedgerWire.Bytes

namespace LedgerWire.FixedBytes
variable {n : Nat}

/-- Bytes that are not too many get zeros behind them. -/
lemma bytes_padded_of_le {bytes : Bytes} (h : bytes.length ≤ n) :
    (padded n bytes).bytes = bytes ++ List.replicate (n - bytes.length) 0 := by
  simp only [padded, List.take_of_length_le h]

/-- A string of the right length is neither cut nor filled up. -/
lemma bytes_padded {bytes : Bytes} (h : bytes.length = n) : (padded n bytes).bytes = bytes := by
  rw [bytes_padded_of_le (Nat.le_of_eq h), h, Nat.sub_self, List.replicate_zero, List.append_nil]

/-- A string of a fixed length is made of its own bytes. -/
@[simp] lemma padded_bytes (a : FixedBytes n) : padded n a.bytes = a :=
  ext (bytes_padded a.length_eq)

end LedgerWire.FixedBytes
