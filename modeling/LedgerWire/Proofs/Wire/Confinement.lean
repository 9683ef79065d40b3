import LedgerWire.Proofs.Wire.Composition
import LedgerWire.Proofs.Wire.Reading

/-!
# What a reading step can see

A reading step takes some of the bytes in front of it and then stands behind them, even when it
fails. What comes of it depends on the bytes that it took and on the number of those that are left,
on nothing else, and the numbers in a fault are those of the input. This is `Decode.Confined`. Each
step of the format is confined, and so is one step after another, hence every composed reader.
-/

namespace LedgerWire

/-- Whether a reader stands behind bytes that another has in front of it. -/
structure Reader.Passes (r : Reader) (taken : Bytes) (s : Reader) : Prop where
  rest : r.rest = taken ++ s.rest
  position : s.position = r.position + taken.length

/-- Whether the numbers in a fault are right when bytes were taken from a position on and so many
are left. -/
def WireFault.Accurate (start : Nat) (taken : Bytes) (left : Nat) : WireFault → Prop
  | .malformed (.truncated needed remaining) => remaining = left ∧ remaining < needed
  | .malformed (.nonZeroPadding offset) =>
    ∃ i b, taken[i]? = some b ∧ b ≠ 0 ∧ offset = start + i
  | .malformed (.trailingBytes count) => count = left ∧ count ≠ 0
  | _ => True

/-- As many bytes are left in front of other bytes of the same number. -/
lemma Reader.remaining_congr {r : Reader} {position : Nat} {other : Bytes}
    (same : other.length = r.remaining) : Reader.remaining ⟨position, other⟩ = r.remaining := same

namespace Reader.Passes
variable {r s t : Reader} {x y : Bytes}

/-- A reader that takes nothing stands where it stood. -/
lemma refl (r : Reader) : r.Passes [] r := ⟨rfl, rfl⟩

/-- What two steps pass stands one behind the other. -/
lemma trans (first : r.Passes x s) (second : s.Passes y t) : r.Passes (x ++ y) t where
  rest := by rw [first.rest, second.rest, List.append_assoc]
  position := by rw [second.position, first.position, List.length_append, Nat.add_assoc]

end Reader.Passes

/-- A fault that is accurate behind some bytes is so when these are counted among those taken. -/
lemma WireFault.Accurate.behind {fault : WireFault} {start left : Nat} {x y : Bytes}
    (h : fault.Accurate (start + x.length) y left) : fault.Accurate start (x ++ y) left := by
  unfold Accurate at h ⊢
  split at h
  case h_2 =>
    obtain ⟨i, b, found, nonzero, rfl⟩ := h
    refine ⟨x.length + i, b, ?_, nonzero, Nat.add_assoc _ _ _⟩
    rwa [List.getElem?_append_right (Nat.le_add_right _ _), Nat.add_sub_cancel_left]
  all_goals exact h

namespace Decode
variable {α β : Type}

/-- A step passes the bytes that it takes, and gives the same for any others of the same number
behind them. -/
structure Confined (d : Decode α) : Prop where
  ok {r s : Reader} {v : α} (read : d r = .ok v s) :
    ∃ taken, r.Passes taken s ∧ ∀ other : Bytes, other.length = s.remaining →
      d ⟨r.position, taken ++ other⟩ = .ok v ⟨s.position, other⟩
  error {r s : Reader} {fault : WireFault} (failed : d r = .error fault s) :
    ∃ taken, (r.Passes taken s ∧ fault.Accurate r.position taken s.remaining) ∧
      ∀ other : Bytes, other.length = s.remaining →
        d ⟨r.position, taken ++ other⟩ = .error fault ⟨s.position, other⟩

/-- Bytes that are taken are passed, whatever is behind them. -/
lemma take_passes {n : Nat} {r s : Reader} {v : Bytes} (taken : take n r = .ok v s) :
    r.Passes v s ∧ ∀ other, take n ⟨r.position, v ++ other⟩ = .ok v ⟨s.position, other⟩ := by
  obtain ⟨length, rest, position⟩ := take_eq_ok.1 taken
  refine ⟨⟨rest, by rw [position, length]⟩, fun other => ?_⟩
  exact take_eq_ok.2 ⟨length, rfl, position⟩

section Padding
variable {length : Nat} {r s : Reader} {bytes : Bytes} {fault : WireFault}

/-- Padding is not looked at where it is not there in full. -/
lemma padding_of_short (short : take (Bytes.padLength length) r = .error fault s) :
    padding length r = .error fault s := by
  rw [padding, get_bind_eq]
  exact bind_of_error short

/-- Padding that is all zeros is passed. -/
lemma padding_of_zeros (taken : take (Bytes.padLength length) r = .ok bytes s)
    (zeros : bytes.findIdx? (· != 0) = none) : padding length r = .ok () s := by
  rw [padding, get_bind_eq, bind_of_ok taken, zeros]
  rfl

/-- The first byte of padding that is not zero is reported with its place. -/
lemma padding_of_found {i : Nat} (taken : take (Bytes.padLength length) r = .ok bytes s)
    (found : bytes.findIdx? (· != 0) = some i) :
    padding length r = .error (.malformed (.nonZeroPadding (r.position + i))) s := by
  rw [padding, get_bind_eq, bind_of_ok taken, found]
  rfl

end Padding

namespace Confined

/-- To give a value takes nothing. -/
lemma pure (a : α) : (Pure.pure a : Decode α).Confined where
  ok {r s v} read := by
    cases read
    exact ⟨[], .refl r, fun _ _ => rfl⟩
  error failed := nomatch failed

/-- To fail takes nothing. -/
lemma fault {fault : WireFault} (accurate : ∀ start left, fault.Accurate start [] left) :
    (throw fault : Decode α).Confined where
  ok read := nomatch read
  error {r s fault} failed := by
    cases failed
    exact ⟨[], ⟨.refl r, accurate _ _⟩, fun _ _ => rfl⟩

/-- Of two steps the second sees what the first has left, in as great a number. -/
lemma bind {d : Decode α} {f : α → Decode β} (first : d.Confined) (next : ∀ a, (f a).Confined) :
    (d >>= f).Confined := by
  have between : ∀ {s t : Reader} {y other : Bytes}, s.Passes y t →
      other.length = t.remaining → (y ++ other).length = s.remaining := by
    intro s t y other passes same
    rw [Reader.remaining, passes.rest, List.length_append, List.length_append, same,
      Reader.remaining]
  constructor
  · intro r t v read
    obtain ⟨a, s, read, then_read⟩ := bind_eq_ok.1 read
    obtain ⟨x, passes, again⟩ := first.ok read
    obtain ⟨y, passes', again'⟩ := (next a).ok then_read
    refine ⟨x ++ y, passes.trans passes', fun other same => ?_⟩
    rw [List.append_assoc, bind_of_ok (again _ (between passes' same)), again' other same]
  · intro r t fault failed
    obtain failed | ⟨a, s, read, failed⟩ := bind_eq_error.1 failed
    · obtain ⟨x, accurate, again⟩ := first.error failed
      exact ⟨x, accurate, fun other same => bind_of_error (again other same)⟩
    · obtain ⟨x, passes, again⟩ := first.ok read
      obtain ⟨y, ⟨passes', accurate⟩, again'⟩ := (next a).error failed
      rw [passes.position] at accurate
      refine ⟨x ++ y, ⟨passes.trans passes', accurate.behind⟩, fun other same => ?_⟩
      rw [List.append_assoc, bind_of_ok (again _ (between passes' same)), again' other same]

/-- To make something of a value takes what the value takes. -/
lemma map {d : Decode α} (h : d.Confined) (f : α → β) :
    (do return f (← d) : Decode β).Confined :=
  h.bind fun a => pure (f a)

/-- Bytes are taken only where there are as many. -/
lemma take (n : Nat) : (Decode.take n).Confined where
  ok {r s v} read := by
    obtain ⟨passes, again⟩ := take_passes read
    exact ⟨v, passes, fun other _ => again other⟩
  error {r s fault} failed := by
    rw [Decode.take] at failed
    split at failed
    case isTrue => cases failed
    case isFalse short =>
      cases failed
      refine ⟨[], ⟨.refl r, rfl, Nat.lt_of_not_le short⟩, fun other same => ?_⟩
      rw [List.nil_append, Decode.take, Reader.remaining_congr same, if_neg short]

/-- A padding byte that is not zero is found among those that were taken. -/
lemma padding (length : Nat) : (Decode.padding length).Confined where
  ok {r s v} read := by
    cases taken : Decode.take (Bytes.padLength length) r with
    | error fault t => cases (padding_of_short taken).symm.trans read
    | ok bytes t =>
      cases zeros : bytes.findIdx? (· != 0) with
      | some i => cases (padding_of_found taken zeros).symm.trans read
      | none =>
        cases (padding_of_zeros taken zeros).symm.trans read
        obtain ⟨passes, again⟩ := take_passes taken
        exact ⟨bytes, passes, fun other _ => padding_of_zeros (again other) zeros⟩
  error {r s fault} failed := by
    cases taken : Decode.take (Bytes.padLength length) r with
    | error fault t =>
      cases (padding_of_short taken).symm.trans failed
      obtain ⟨x, accurate, again⟩ := (take _).error taken
      exact ⟨x, accurate, fun other same => padding_of_short (again other same)⟩
    | ok bytes t =>
      cases zeros : bytes.findIdx? (· != 0) with
      | some i =>
        cases (padding_of_found taken zeros).symm.trans failed
        obtain ⟨passes, again⟩ := take_passes taken
        obtain ⟨inside, nonzero, -⟩ := List.findIdx?_eq_some_iff_getElem.1 zeros
        have found : bytes[i]? = some bytes[i] := List.getElem?_eq_getElem inside
        refine ⟨bytes, ⟨passes, i, bytes[i], found, ?_, rfl⟩, fun other _ => ?_⟩
        · simpa using nonzero
        · exact padding_of_found (again other) zeros
      | none => cases (padding_of_zeros taken zeros).symm.trans failed

/-- A length is told from its own bytes, and compared with the number of those left. -/
lemma length (max : Nat) : (Decode.length max).Confined := by
  have enough : ∀ n : Nat, Confined (do
      let remaining := (← get).remaining
      if remaining < n then malformed (.truncated n remaining)
      return n) := by
    intro n
    constructor
    · intro r s v read
      rw [get_bind_eq] at read
      split at read
      case isTrue => exact (fault_bind_ne_ok read).elim
      case isFalse long =>
        cases read
        refine ⟨[], .refl r, fun other same => ?_⟩
        rw [List.nil_append, get_bind_eq, Reader.remaining_congr same, if_neg long]
        rfl
    · intro r s fault failed
      rw [get_bind_eq] at failed
      split at failed
      case isTrue short =>
        cases failed
        refine ⟨[], ⟨.refl r, rfl, short⟩, fun other same => ?_⟩
        rw [List.nil_append, get_bind_eq, Reader.remaining_congr same, if_pos short]
        rfl
      case isFalse => cases failed
  refine (((take 4).map _).map _).bind fun n => ?_
  dsimp only
  split
  case isTrue =>
    refine .bind (fault ?_) fun _ => enough n.toNat
    exact fun _ _ => trivial
  case isFalse => exact enough n.toNat

/-- The end of the input is told from the number of bytes that are left. -/
lemma finish : Decode.finish.Confined where
  ok {r s v} read := by
    obtain ⟨none, rfl⟩ := finish_eq_ok.1 read
    refine ⟨[], .refl s, fun other same => finish_eq_ok.2 ⟨?_, rfl⟩⟩
    rw [Reader.remaining, none] at same
    exact List.length_eq_zero_iff.1 same
  error {r s fault} failed := by
    rw [Decode.finish, get_bind_eq] at failed
    split at failed
    case isTrue => cases failed
    case isFalse some =>
      cases failed
      refine ⟨[], ⟨.refl r, rfl, some⟩, fun other same => ?_⟩
      rw [List.nil_append, Decode.finish, get_bind_eq, Reader.remaining_congr same, if_neg some]
      rfl

end Confined

/-- Composed readers are confined, as each step is and one step after another is. -/
theorem Composed.confined {d : Decode α} (h : d.Composed) : d.Confined := by
  induction h with
  | pure a => exact .pure a
  | invalidBool n => exact .fault fun _ _ => trivial
  | forbidden fault => exact .fault fun _ _ => trivial
  | unknownTag union tag => exact .fault fun _ _ => trivial
  | take n => exact .take n
  | padding length => exact .padding length
  | length max => exact .length max
  | bind _ _ first next => exact first.bind next

end Decode

end LedgerWire
