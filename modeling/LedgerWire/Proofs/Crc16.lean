import LedgerWire.Proofs.Bits
import LedgerWire.StrKey.Body

/-!
# Errors that the check value shows

The register is linear in what it takes in, and a step back is possible because the generator ends
in one. Up to sixteen bits in a row only multiply their number by a power of x, so two messages
that differ nowhere else leave different registers. A message with its check value behind it leaves
the register empty, but only with the more significant byte of the value first. The bytes are
swapped when they are written, so an error that runs over the end of the message into the value is
taken apart by the byte between its two parts, and eight bits is what is shown wherever they stand.
-/

namespace LedgerWire.Crc16

/-- To shift is linear but for the generator, which the leading bit decides on. -/
lemma shift_eq (a : BitVec 16) :
    shift a = (a <<< 1) ^^^ (if a.msb then generator else 0#16) := by
  rw [shift]
  cases a.msb with
  | true => rfl
  | false => exact BitVec.xor_zero.symm

/-- To shift is additive. -/
lemma shift_xor (a b : BitVec 16) : shift (a ^^^ b) = shift a ^^^ shift b := by
  have select : (if (a ^^^ b).msb then generator else 0#16) =
      (if a.msb then generator else 0#16) ^^^ (if b.msb then generator else 0#16) := by
    rw [BitVec.msb_xor]
    cases a.msb <;> cases b.msb <;> rfl
  rw [shift_eq, shift_eq, shift_eq, BitVec.shiftLeft_xor_distrib, select]
  ac_rfl

/-- Nothing but zero is shifted to zero, since the generator ends in a one. -/
lemma eq_zero_of_shift {a : BitVec 16} (h : shift a = 0#16) : a = 0#16 := by
  rw [shift] at h
  cases top : a.msb with
  | true =>
    -- The lowest bit comes from the generator.
    rw [top, if_pos rfl] at h
    have low := congrArg (BitVec.getLsbD · 0) h
    rw [BitVec.getLsbD_xor, BitVec.getLsbD_shiftLeft] at low
    exact nomatch low
  | false =>
    rw [top, if_neg nofun] at h
    have small := BitVec.msb_eq_false_iff_two_mul_lt.1 top
    have doubled := congrArg BitVec.toNat h
    rw [BitVec.toNat_shiftLeft, Nat.shiftLeft_eq, pow_one, Nat.mul_comm,
      Nat.mod_eq_of_lt small] at doubled
    apply BitVec.eq_of_toNat_eq
    rw [BitVec.toNat_zero] at doubled ⊢
    omega

variable {n : Nat}

/-- To shift by any number of places is additive. -/
lemma shiftBy_xor (n : Nat) (a b : BitVec 16) :
    shiftBy n (a ^^^ b) = shiftBy n a ^^^ shiftBy n b := by
  induction n generalizing a b with
  | zero => rfl
  | succ n ih => rw [shiftBy, shiftBy, shiftBy, shift_xor, ih]

/-- Nothing but zero is shifted to zero by any number of places. -/
lemma eq_zero_of_shiftBy {a : BitVec 16} (h : shiftBy n a = 0#16) : a = 0#16 := by
  induction n generalizing a with
  | zero => exact h
  | succ n ih => exact eq_zero_of_shift (ih h)

/-- A register is told by what it is shifted to. -/
lemma shiftBy_inj {a b : BitVec 16} (same : shiftBy n a = shiftBy n b) : a = b := by
  have none : shiftBy n (a ^^^ b) = 0#16 := by rw [shiftBy_xor, same, BitVec.xor_self]
  exact BitVec.xor_eq_zero_iff.1 (eq_zero_of_shiftBy none)

/-- Zero stays zero. -/
@[simp] lemma shiftBy_zero (n : Nat) : shiftBy n 0#16 = 0#16 := by
  induction n with
  | zero => rfl
  | succ n ih => exact ih

/-- The leading bit of a register. -/
def top (bit : Bool) : BitVec 16 := if bit then 0x8000#16 else 0#16

/-- Takes in one bit of a message. -/
def takeBit (register : BitVec 16) (bit : Bool) : BitVec 16 := shift (register ^^^ top bit)

/-- What more bits of a message make of the register. -/
def remainder (register : BitVec 16) (bits : List Bool) : BitVec 16 :=
  bits.foldl takeBit register

/-- Bits are taken in one after another. -/
lemma remainder_append (register : BitVec 16) (bits bits' : List Bool) :
    remainder register (bits ++ bits') = remainder (remainder register bits) bits' :=
  List.foldl_append

/-- A number of sixteen bits is its leading bit beside the others. -/
lemma ofNat_add_top {b : Bool} {m : Nat} (small : m < 2 ^ 15) :
    BitVec.ofNat 16 (2 ^ 15 * b.toNat + m) = top b ^^^ BitVec.ofNat 16 m := by
  have apart : 2 ^ 15 * b.toNat + m = (2 ^ 15 * b.toNat) ^^^ m := by
    apply Nat.eq_of_testBit_eq
    intro j
    rw [Nat.testBit_two_pow_mul_add _ small, Nat.testBit_xor, Nat.testBit_two_pow_mul]
    split
    case isTrue low => rw [decide_eq_false (by omega), Bool.false_and, Bool.false_xor]
    case isFalse high =>
      have less : m < 2 ^ j :=
        Nat.lt_of_lt_of_le small (Nat.pow_le_pow_right (by decide) (by omega))
      rw [decide_eq_true (by omega), Bool.true_and, Nat.testBit_lt_two_pow less, Bool.xor_false]
  rw [apart, BitVec.ofNat_xor]
  cases b <;> rfl

/-- To shift a register without its leading bit is to double it. -/
lemma shift_ofNat {m : Nat} (small : m < 2 ^ 15) :
    shift (BitVec.ofNat 16 m) = BitVec.ofNat 16 (2 * m) := by
  have value : (BitVec.ofNat 16 m).toNat = m := by
    rw [BitVec.toNat_ofNat, Nat.mod_eq_of_lt (by omega)]
  have low : (BitVec.ofNat 16 m).msb = false := by
    rw [BitVec.msb_eq_false_iff_two_mul_lt, value]
    omega
  apply BitVec.eq_of_toNat_eq
  rw [shift, low, if_neg nofun, BitVec.toNat_shiftLeft, value, Nat.shiftLeft_eq, pow_one,
    Nat.mul_comm, BitVec.toNat_ofNat]

/-- The number that bits make up when they are the upper ones of a word. -/
def aligned (width : Nat) (bits : List Bool) : Nat :=
  Bits.toNat bits * 2 ^ (width - bits.length)

section Aligned
variable {width : Nat} {bits bits' : List Bool}

/-- Bits and the room behind them fill the width. -/
lemma room_eq (short : bits.length ≤ width) :
    2 ^ bits.length * 2 ^ (width - bits.length) = 2 ^ width := by
  rw [← pow_add, Nat.add_sub_cancel' short]

/-- Bits that are moved to the front of a width stay within it. -/
lemma aligned_lt (short : bits.length ≤ width) : aligned width bits < 2 ^ width := by
  rw [aligned, ← room_eq short]
  exact Nat.mul_lt_mul_of_pos_right (Bits.toNat_lt bits) (Nat.two_pow_pos _)

/-- The first bit of what is moved to the front has the greatest weight. -/
lemma aligned_cons {b : Bool} (short : bits.length ≤ width) :
    aligned (width + 1) (b :: bits) = 2 ^ width * b.toNat + aligned width bits := by
  rw [aligned, aligned, List.length_cons, Nat.add_sub_add_right, Bits.toNat_cons, ← room_eq short]
  ring

/-- One more place of room doubles what is moved to the front. -/
lemma two_mul_aligned (short : bits.length ≤ width) :
    2 * aligned width bits = aligned (width + 1) bits := by
  rw [aligned, aligned, Nat.sub_add_comm short, pow_succ]
  ring

/-- Bits of one length are told by where they are moved to. -/
lemma aligned_inj (size : bits.length = bits'.length)
    (same : aligned width bits = aligned width bits') : bits = bits' := by
  rw [aligned, aligned, ← size] at same
  have number := Nat.eq_of_mul_eq_mul_right (Nat.two_pow_pos _) same
  rw [← Bits.ofNat_toNat bits, number, size, Bits.ofNat_toNat]

end Aligned

/-- Up to sixteen bits meet the register all at once. -/
lemma remainder_eq (register : BitVec 16) {bits : List Bool} (short : bits.length ≤ 16) :
    remainder register bits =
      shiftBy bits.length (register ^^^ BitVec.ofNat 16 (aligned 16 bits)) := by
  induction bits generalizing register with
  | nil => exact BitVec.xor_zero.symm
  | cons b bits ih =>
    have less : bits.length ≤ 15 := Nat.le_of_succ_le_succ short
    have small := aligned_lt less
    calc remainder (takeBit register b) bits
      _ = shiftBy bits.length (takeBit register b ^^^ BitVec.ofNat 16 (aligned 16 bits)) :=
        ih _ (Nat.le_succ_of_le less)
      _ = shiftBy bits.length
          (takeBit register b ^^^ shift (BitVec.ofNat 16 (aligned 15 bits))) := by
        rw [shift_ofNat small, two_mul_aligned less]
      _ = shiftBy (bits.length + 1)
          (register ^^^ (top b ^^^ BitVec.ofNat 16 (aligned 15 bits))) := by
        rw [takeBit, ← shift_xor, BitVec.xor_assoc, shiftBy]
      _ = shiftBy (bits.length + 1) (register ^^^ BitVec.ofNat 16 (aligned 16 (b :: bits))) := by
        rw [aligned_cons less, ofNat_add_top small]

/-- The register before some bits is told by the register behind them. -/
lemma remainder_inj {register register' : BitVec 16} {bits : List Bool}
    (same : remainder register bits = remainder register' bits) : register = register' := by
  induction bits generalizing register register' with
  | nil => exact same
  | cons b bits ih =>
    have shifted : shiftBy 1 (register ^^^ top b) = shiftBy 1 (register' ^^^ top b) := ih same
    exact (BitVec.xor_left_inj _).1 (shiftBy_inj shifted)

/-- Messages that differ in no more than sixteen bits in a row leave different registers. -/
theorem eq_of_remainder {register : BitVec 16} {front window window' rest : List Bool}
    (size : window.length = window'.length) (short : window.length ≤ 16)
    (same : remainder register (front ++ window ++ rest) =
      remainder register (front ++ window' ++ rest)) : window = window' := by
  rw [remainder_append, remainder_append, remainder_append, remainder_append] at same
  have inside := remainder_inj same
  have short' : window'.length ≤ 16 := size ▸ short
  rw [remainder_eq _ short, remainder_eq _ short', ← size] at inside
  have numbers := congrArg BitVec.toNat ((BitVec.xor_right_inj _).1 (shiftBy_inj inside))
  rw [BitVec.toNat_ofNat, BitVec.toNat_ofNat, Nat.mod_eq_of_lt (aligned_lt short),
    Nat.mod_eq_of_lt (aligned_lt short')] at numbers
  exact aligned_inj size numbers

/-- To take in a byte is to take in its bits. -/
lemma step_eq (register : BitVec 16) (b : UInt8) :
    step register b = remainder register (Bits.ofNat 8 b.toNat) := by
  have size := Bits.length_ofNat 8 b.toNat
  have upper : BitVec.ofNat 16 b.toNat <<< 8 =
      BitVec.ofNat 16 (aligned 16 (Bits.ofNat 8 b.toNat)) := by
    rw [aligned, size, Bits.toNat_ofNat_of_lt b.toNat_lt]
    apply BitVec.eq_of_toNat_eq
    rw [BitVec.toNat_shiftLeft, BitVec.toNat_ofNat, BitVec.toNat_ofNat, Nat.shiftLeft_eq,
      Nat.mod_mul_mod]
  rw [remainder_eq _ (by omega), size, step, upper]

/-- To take in a byte string is to take in its bits. -/
lemma foldl_step (register : BitVec 16) (bytes : Bytes) :
    bytes.foldl step register = remainder register (Bits.ofBytes bytes) := by
  induction bytes generalizing register with
  | nil => rfl
  | cons b bytes ih =>
    rw [List.foldl_cons, ih, step_eq, Bits.ofBytes_cons, remainder_append]

/-- The check value is what the bits of the message make of an empty register. -/
lemma checksum_eq (bytes : Bytes) : checksum bytes = remainder 0#16 (Bits.ofBytes bytes) :=
  foldl_step 0#16 bytes

/-- A register that takes in its own bits becomes zero. -/
lemma remainder_own (register : BitVec 16) :
    remainder register (Bits.ofNat 16 register.toNat) = 0#16 := by
  have size := Bits.length_ofNat 16 register.toNat
  have own : aligned 16 (Bits.ofNat 16 register.toNat) = register.toNat := by
    rw [aligned, size, Bits.toNat_ofNat_of_lt register.isLt]
    exact Nat.mul_one _
  rw [remainder_eq _ (by omega), own, BitVec.ofNat_toNat, BitVec.setWidth_eq, BitVec.xor_self,
    shiftBy_zero]

/-- The low and the high byte of a check value that belongs to a message, all as bits. The register
is emptied with the high byte in front, whatever the order in which the two are written. -/
structure Checked (message low high : List Bool) : Prop where
  low_length : low.length = 8
  high_length : high.length = 8
  empties : remainder 0#16 (message ++ (high ++ low)) = 0#16

/-- A byte string with its check value is a message followed by the two check bytes. -/
lemma ofBytes_checked (bytes : Bytes) :
    ∃ low high, Checked (Bits.ofBytes bytes) low high ∧
      Bits.ofBytes (bytes ++ (checksumBytes bytes).bytes) =
        Bits.ofBytes bytes ++ (low ++ high) := by
  refine ⟨Bits.ofNat 8 (checksum bytes).toNat, Bits.ofNat 8 ((checksum bytes).toNat / 256),
    ⟨Bits.length_ofNat _ _, Bits.length_ofNat _ _, ?_⟩, ?_⟩
  · have value : Bits.ofNat 16 (checksum bytes).toNat =
        Bits.ofNat 8 ((checksum bytes).toNat / 256) ++ Bits.ofNat 8 (checksum bytes).toNat :=
      Bits.ofNat_add 8 8 _
    rw [remainder_append, ← checksum_eq, ← value, remainder_own]
  · rw [Bits.ofBytes_append, ← Bits.ofNat_toNat_ofNat, ← Bits.ofNat_toNat_ofNat (_ / 256)]
    rfl

/-- The longer of two beginnings goes on after the shorter one. -/
lemma split_of_append {α : Type} {a b c d : List α} (same : a ++ b = c ++ d)
    (le : c.length ≤ a.length) : ∃ x, a = c ++ x ∧ d = x ++ b := by
  obtain ⟨x, rfl, rfl⟩ | h := List.append_eq_append_iff.1 same
  · rw [List.length_append] at le
    obtain rfl := List.length_eq_zero_iff.1 (by omega : x.length = 0)
    exact ⟨[], by simp, rfl⟩
  · exact h

namespace Checked
variable {message message' low low' high high' front window window' rest pad : List Bool}

/-- Two texts that differ in a window of the message alone do not differ. -/
lemma eq_of_before (checked : Checked message low high) (checked' : Checked message' low' high')
    (long : message.length = message'.length) (size : window.length = window'.length)
    (short : window.length ≤ 16) (before : front.length + window.length ≤ message.length)
    (whole : message ++ (low ++ (high ++ pad)) = front ++ window ++ rest)
    (whole' : message' ++ (low' ++ (high' ++ pad)) = front ++ window' ++ rest) :
    window = window' := by
  obtain ⟨x, rfl, behind⟩ := split_of_append whole (by rw [List.length_append]; exact before)
  obtain ⟨x', rfl, behind'⟩ := split_of_append whole' (by rw [List.length_append]; omega)
  simp only [List.length_append] at long
  have lows := checked.low_length.trans checked'.low_length.symm
  have highs := checked.high_length.trans checked'.high_length.symm
  obtain ⟨rfl, written⟩ := List.append_inj (behind.symm.trans behind') (by omega)
  obtain ⟨rfl, others⟩ := List.append_inj written lows
  obtain ⟨rfl, -⟩ := List.append_inj others highs
  have same := checked.empties.trans checked'.empties.symm
  rw [List.append_assoc (front ++ window), List.append_assoc (front ++ window')] at same
  exact eq_of_remainder size short same

/-- A window that begins in the message and ends behind it has a part in either. -/
lemma cut (checked : Checked message low high) (short : window.length ≤ 8)
    (starts : front.length ≤ message.length)
    (ends : message.length ≤ front.length + window.length)
    (whole : message ++ (low ++ (high ++ pad)) = front ++ window ++ rest) :
    ∃ x y z, message = front ++ x ∧ window = x ++ y ∧ low = y ++ z ∧ rest = z ++ (high ++ pad) := by
  rw [List.append_assoc] at whole
  have room := checked.low_length
  obtain ⟨x, rfl, fromStart⟩ := split_of_append whole starts
  rw [List.length_append] at ends
  obtain ⟨y, rfl, fromEnd⟩ := split_of_append fromStart (by omega)
  rw [List.length_append] at short
  obtain ⟨z, rfl, behind⟩ := split_of_append fromEnd (by omega)
  exact ⟨x, y, z, rfl, rfl, rfl, behind⟩

/-- Two texts that differ in a window across the end of the message do not differ. -/
lemma eq_of_across (checked : Checked message low high) (checked' : Checked message' low' high')
    (long : message.length = message'.length) (size : window.length = window'.length)
    (short : window.length ≤ 8) (starts : front.length ≤ message.length)
    (ends : message.length ≤ front.length + window.length)
    (whole : message ++ (low ++ (high ++ pad)) = front ++ window ++ rest)
    (whole' : message' ++ (low' ++ (high' ++ pad)) = front ++ window' ++ rest) :
    window = window' := by
  obtain ⟨x, y, z, rfl, rfl, rfl, behind⟩ := checked.cut short starts ends whole
  obtain ⟨x', y', z', rfl, rfl, rfl, behind'⟩ :=
    checked'.cut (by omega) (by omega) (by omega) whole'
  have lows := checked.low_length.trans checked'.low_length.symm
  have highs := checked.high_length.trans checked'.high_length.symm
  simp only [List.length_append] at long size short lows
  obtain ⟨rfl, others⟩ := List.append_inj (behind.symm.trans behind') (by omega)
  obtain ⟨rfl, -⟩ := List.append_inj others highs
  -- With the high byte in front, it stands between the two parts of the window.
  have same := checked.empties.trans checked'.empties.symm
  have window_eq : x ++ (high ++ y) = x' ++ (high ++ y') := by
    apply @eq_of_remainder 0#16 front _ _ z
    · simp only [List.length_append]
      omega
    · rw [List.length_append, List.length_append, checked.high_length]
      omega
    · simpa only [List.append_assoc] using same
  obtain ⟨rfl, parts⟩ := List.append_inj window_eq (by omega)
  rw [List.append_cancel_left parts]

end Checked

/-- Messages with their check values are equal when they differ in no more than eight bits in a
row, whatever stands behind both. -/
theorem eq_of_window {bytes bytes' : Bytes} {front window window' rest pad : List Bool}
    (size : window.length = window'.length) (short : window.length ≤ 8)
    (whole : Bits.ofBytes (bytes ++ (checksumBytes bytes).bytes) ++ pad = front ++ window ++ rest)
    (whole' : Bits.ofBytes (bytes' ++ (checksumBytes bytes').bytes) ++ pad =
      front ++ window' ++ rest) : window = window' := by
  obtain ⟨low, high, checked, written⟩ := ofBytes_checked bytes
  obtain ⟨low', high', checked', written'⟩ := ofBytes_checked bytes'
  rw [written, List.append_assoc, List.append_assoc] at whole
  rw [written', List.append_assoc, List.append_assoc] at whole'
  have long : (Bits.ofBytes bytes).length = (Bits.ofBytes bytes').length := by
    have total := congrArg List.length whole
    have total' := congrArg List.length whole'
    simp only [List.length_append, checked.low_length, checked.high_length] at total
    simp only [List.length_append, checked'.low_length, checked'.high_length] at total'
    omega
  obtain starts | after := Nat.le_total front.length (Bits.ofBytes bytes).length
  · obtain before | ends :=
      Nat.le_total (front.length + window.length) (Bits.ofBytes bytes).length
    · exact checked.eq_of_before checked' long size (by omega) before whole whole'
    · exact checked.eq_of_across checked' long size short starts ends whole whole'
  · -- The messages stand before the window, so they are equal, and what is written behind them.
    rw [List.append_assoc] at whole whole'
    obtain ⟨x, same, -⟩ := split_of_append whole.symm after
    obtain ⟨x', same', -⟩ := split_of_append whole'.symm (long ▸ after)
    obtain ⟨messages, -⟩ := List.append_inj (same.symm.trans same') long
    obtain rfl := Bits.ofBytes_inj messages
    have values := List.append_cancel_left (written.symm.trans written')
    rw [← List.append_assoc low, values, List.append_assoc, whole'] at whole
    exact (List.append_cancel_right (List.append_cancel_left whole)).symm

end LedgerWire.Crc16
