import LedgerWire.Proofs.Composition
import LedgerWire.Proofs.Requests
import LedgerWire.Proofs.Wire.Composition
import LedgerWire.Proofs.Wire.Reading

/-!
# Inputs and parts of inputs

What reading makes of an accepted input that is cut, or behind which something is put.
-/

/-!
## Reading with more input behind

A composed reader does not look beyond what it reads. With more input behind, it gives the same
value and leaves the additional input; where it fails, it fails in the same way, unless it failed
because the input ended. This is `Decode.Steady`. An input that is accepted as a whole can therefore
be neither cut nor extended, and the fault tells which of the two was done.
-/

namespace LedgerWire

/-- The reader with more input behind. -/
def Reader.extend (r : Reader) (more : Bytes) : Reader := ⟨r.position, r.rest ++ more⟩

/-- Whether a fault is that more bytes were needed than the input had left. -/
def WireFault.IsTruncated (fault : WireFault) : Prop :=
  ∃ needed remaining, remaining < needed ∧ fault = .malformed (.truncated needed remaining)

namespace Decode
variable {α β : Type}

/-- Reading does not depend on what is behind, but for the end of the input. -/
structure Steady (d : Decode α) : Prop where
  ok {r s : Reader} {v : α} (more : Bytes) (read : d r = .ok v s) :
    d (r.extend more) = .ok v (s.extend more)
  error {r s : Reader} {fault : WireFault} (more : Bytes) (failed : d r = .error fault s) :
    fault.IsTruncated ∨ d (r.extend more) = .error fault (s.extend more)

namespace Steady

/-- To give a value does not depend on how long the input is. -/
lemma pure (a : α) : (Pure.pure a : Decode α).Steady where
  ok _ read := by
    cases read
    rfl
  error _ failed := nomatch failed

/-- To fail does not depend on how long the input is. -/
lemma fault (fault : WireFault) : (throw fault : Decode α).Steady where
  ok _ read := nomatch read
  error _ failed := by
    cases failed
    exact .inr rfl

/-- One steady step after another is steady. -/
lemma bind {d : Decode α} {f : α → Decode β} (first : d.Steady) (next : ∀ a, (f a).Steady) :
    (d >>= f).Steady where
  ok more read := by
    obtain ⟨a, s, read, then_read⟩ := bind_eq_ok.1 read
    exact bind_eq_ok.2 ⟨a, _, first.ok more read, (next a).ok more then_read⟩
  error more failed := by
    obtain failed | ⟨a, s, read, failed⟩ := bind_eq_error.1 failed
    · exact (first.error more failed).imp_right fun h => bind_eq_error.2 (.inl h)
    · refine ((next a).error more failed).imp_right fun h => bind_eq_error.2 (.inr ?_)
      exact ⟨a, _, first.ok more read, h⟩

/-- To make something of a value is as steady as to read it. -/
lemma map {d : Decode α} (h : d.Steady) (f : α → β) : (do return f (← d) : Decode β).Steady :=
  h.bind fun a => pure (f a)

/-- To take bytes fails only where they are not there. -/
lemma take (n : Nat) : (Decode.take n).Steady where
  ok {r s v} more read := by
    obtain ⟨length, rest, position⟩ := take_eq_ok.1 read
    refine take_eq_ok.2 ⟨length, ?_, position⟩
    rw [Reader.extend, Reader.extend, rest, List.append_assoc]
  error more failed := by
    rw [Decode.take] at failed
    split at failed
    case isTrue => cases failed
    case isFalse short =>
      cases failed
      exact .inl ⟨_, _, Nat.lt_of_not_le short, rfl⟩

/-- An unsigned integer of 32 bits is refused only where its bytes are not there. -/
lemma uint32 : Decode.uint32.Steady := ((take 4).map _).map _

/-- A reader may look at where it stands, but not at what is behind. -/
lemma get_bind {f : Reader → Decode α} (next : ∀ r, (f r).Steady)
    (same : ∀ r more, f (r.extend more) = f r) : (get >>= f : Decode α).Steady where
  ok {r s v} more read := by
    rw [get_bind_eq] at read ⊢
    rw [same]
    exact (next r).ok more read
  error {r s fault} more failed := by
    rw [get_bind_eq] at failed ⊢
    rw [same]
    exact (next r).error more failed

/-- Padding is told from its own bytes and from where it starts. -/
lemma padding (length : Nat) : (Decode.padding length).Steady := by
  refine get_bind (fun start => (take _).bind fun bytes => ?_) fun _ _ => rfl
  split
  case h_1 => exact fault _
  case h_2 => exact pure ()

/-- A length is compared with its bound first, and then with the input that is left. That only fails
because the input ends. -/
lemma length (max : Nat) : (Decode.length max).Steady := by
  have enough : ∀ n : Nat, Steady (do
      let remaining := (← get).remaining
      if remaining < n then malformed (.truncated n remaining)
      return n) := by
    intro n
    constructor
    · intro r s v more read
      rw [get_bind_eq] at read ⊢
      split at read
      case isTrue => exact (fault_bind_ne_ok read).elim
      case isFalse long =>
        cases read
        have longer : ¬ (r.extend more).remaining < n := by
          rw [Reader.remaining, Reader.extend, List.length_append]
          exact fun short => long (by rw [Reader.remaining]; omega)
        rw [if_neg longer]
        rfl
    · intro r s fault more failed
      rw [get_bind_eq] at failed
      split at failed
      case isTrue short =>
        cases failed
        exact .inl ⟨_, _, short, rfl⟩
      case isFalse => cases failed
  refine uint32.bind fun n => ?_
  dsimp only
  split
  case isTrue => exact (fault _).bind fun _ => enough n.toNat
  case isFalse => exact enough n.toNat

end Steady

/-- Composed readers are steady, as each step is and one step after another is. -/
theorem Composed.steady {d : Decode α} (h : d.Composed) : d.Steady := by
  induction h with
  | pure a => exact .pure a
  | invalidBool n => exact .fault _
  | forbidden fault => exact .fault _
  | unknownTag union tag => exact .fault _
  | take n => exact .take n
  | padding length => exact .padding length
  | length max => exact .length max
  | bind _ _ first next => exact first.bind next

namespace Steady
variable {d : Decode α} {input : Bytes} {v : α}

/-- A part of an input that is accepted ends too early. -/
lemma runAll_cut (h : d.Steady) (read : runAll d input = .ok v) {front : Bytes}
    (part : front <+: input) (proper : front ≠ input) :
    ∃ fault : WireFault, fault.IsTruncated ∧ runAll d front = .error fault := by
  obtain ⟨more, rfl⟩ := part
  obtain ⟨n, all⟩ := runAll_eq_ok.1 read
  cases attempt : d (.ofBytes front) with
  | ok v' s =>
    -- With the rest of the input behind, the reader would leave that rest.
    have left : d (.ofBytes (front ++ more)) = .ok v' (s.extend more) := h.ok more attempt
    rw [all] at left
    injection left with _ same
    have none : [] = s.rest ++ more := congrArg Reader.rest same
    rw [(List.append_eq_nil_iff.1 none.symm).2, List.append_nil] at proper
    exact absurd rfl proper
  | error fault s =>
    obtain truncated | failed := h.error more attempt
    · exact ⟨fault, truncated, runAll_of_error attempt⟩
    · cases all.symm.trans failed

/-- What stands behind an input that is accepted is left. -/
lemma runAll_extended (h : d.Steady) (read : runAll d input = .ok v) {extra : Bytes}
    (some : extra ≠ []) :
    runAll d (input ++ extra) = .error (.malformed (.trailingBytes extra.length)) := by
  obtain ⟨n, all⟩ := runAll_eq_ok.1 read
  exact runAll_of_rest (h.ok extra all) some

end Steady

end Decode

/-!
## Inputs that are cut or go on

An input that is accepted is accepted as a whole. Wherever it is cut, what is left ends too early,
and whatever is put behind it, all of that is left over. No other fault comes before these two: the
checks of values and bounds see only bytes that were read, and those are the same in every case.
-/

/-- Whether accepted inputs can be neither cut nor extended, and the faults say which was done. -/
structure Codec.Exact {α : Type} (c : Codec α) : Prop where
  /-- A proper part of an accepted input, from its start on, ends too early. -/
  cut {input front : Bytes} {v : α} (read : c.decode input = .ok v) (part : front <+: input)
    (proper : front ≠ input) :
    ∃ fault : WireFault, fault.IsTruncated ∧ c.decode front = .error fault
  /-- Bytes behind an accepted input are left over. -/
  extended {input extra : Bytes} {v : α} (read : c.decode input = .ok v) (some : extra ≠ []) :
    c.decode (input ++ extra) = .error (.malformed (.trailingBytes extra.length))

/-- A composed reader takes an input as it is, neither cut nor extended. -/
lemma Codec.exact_of_composed {α : Type} {c : Codec α} (h : c.Composed) : c.Exact where
  cut read := h.read.steady.runAll_cut read
  extended read := h.read.steady.runAll_extended read

/-- Of every type, envelopes included, each part of an accepted input is refused because it ends too
early, and each longer input because of what is left over. -/
theorem inputs_exact : (∀ t : WireType, t.codec.Exact) ∧ Envelope.codec.Exact :=
  ⟨fun t => Codec.exact_of_composed t.composed, Codec.exact_of_composed inferInstance⟩

/-- The envelope of a transaction of one operation is accepted, but not without its last byte, and
not with a byte behind it. -/
theorem inputs_exact_bare :
    let input := Envelope.codec.encode .bare
    Envelope.codec.decode input = .ok .bare ∧
      (∃ fault : WireFault, fault.IsTruncated ∧
        Envelope.codec.decode input.dropLast = .error fault) ∧
      Envelope.codec.decode (input ++ [0]) = .error (.malformed (.trailingBytes 1)) := by
  intro input
  have read : Envelope.codec.decode input = .ok .bare :=
    Envelope.decode_encode_iff.2 ⟨Envelope.bareTransaction_fits, Nat.zero_le _⟩
  refine ⟨read, inputs_exact.2.cut read (List.dropLast_prefix _) ?_,
    inputs_exact.2.extended read (List.cons_ne_nil _ _)⟩
  -- An input without a last byte is empty, and nothing is read from that.
  intro same
  have length := congrArg List.length same
  rw [List.length_dropLast] at length
  have empty : input = [] := List.length_eq_zero_iff.1 (by omega)
  rw [empty] at read
  have refused : Envelope.codec.decode [] = .error (.malformed (.truncated 4 0)) := rfl
  cases refused.symm.trans read

end LedgerWire
