import LedgerWire.Proofs.Composition
import LedgerWire.Proofs.Truncation
import LedgerWire.Proofs.Wire.Answers
import LedgerWire.Proofs.Wire.Confinement

/-!
# Predicates that are nested too deeply

Bytes bound the tree that is read from them, in depth by the number of levels that are read and in
size by their own number. A tree with more levels is refused for its depth and for nothing else: what
is in front of the level that is one too many is the front of a wire form, in which no other fault
is found, and what is behind it is never looked at.
-/

namespace LedgerWire

/-- Bytes that are refused, and not because more of them were needed, are refused before their end,
whatever is behind them. -/
lemma Decode.Composed.refused_within {α : Type} {d : Decode α} (h : d.Composed) {bytes : Bytes}
    {fault : WireFault} (refused : d.Answers bytes (.error fault)) (other : ¬ fault.IsTruncated)
    (position : Nat) (after : Bytes) :
    ∃ front back, bytes = front ++ back ∧ d ⟨position, bytes ++ after⟩ =
      .error fault ⟨position + front.length, back ++ after⟩ := by
  obtain ⟨s, failed⟩ := refused position []
  rw [List.append_nil] at failed
  obtain ⟨front, ⟨passes, -⟩, -⟩ := h.confined.error failed
  obtain truncated | failed' := h.steady.error after failed
  · exact absurd truncated other
  · refine ⟨front, s.rest, passes.rest, failed'.trans ?_⟩
    rw [Reader.extend, passes.position]

namespace ClaimPredicate

/-- A combination is refused as its operands are, the first of them first. -/
lemma combination_refuses {d : Decode ClaimPredicate} {left right : ClaimPredicate}
    {fault : WireFault}
    (h : d.Answers (codec.encode left) (.error fault) ∨
      d.Answers (codec.encode left) (.ok left) ∧ d.Answers (codec.encode right) (.error fault))
    (combine : ClaimPredicate → ClaimPredicate → ClaimPredicate) :
    (do operands
        let left ← d
        let right ← d
        return combine left right : Decode ClaimPredicate).Answers
      (Bytes.bigEndian 4 2 ++ (codec.encode left ++ codec.encode right)) (.error fault) := by
  have announced : operands.Answers (Bytes.bigEndian 4 2) (.ok ()) :=
    operands_accepts.read_append rfl
  apply announced.bind
  obtain refused | ⟨read, refused⟩ := h
  · exact refused.bind_error
  · exact read.bind (refused.map (combine left))

/-- A tree with more levels than are read is refused for its depth. -/
theorem readWithin_refuses {levels : Nat} {p : ClaimPredicate} (deep : levels < p.depth) :
    (readWithin levels).Answers (codec.encode p) (.error (.forbidden .predicateTooDeep)) := by
  induction levels generalizing p with
  | zero => exact fun _ _ => ⟨_, rfl⟩
  | succ levels ih =>
    -- One of the operands has more levels than are left, and those in front of it are read.
    have operands : ∀ left right : ClaimPredicate, levels < max left.depth right.depth →
        (readWithin levels).Answers (codec.encode left) (.error (.forbidden .predicateTooDeep)) ∨
          (readWithin levels).Answers (codec.encode left) (.ok left) ∧ (readWithin levels).Answers
            (codec.encode right) (.error (.forbidden .predicateTooDeep)) := by
      intro left right deep
      rcases Nat.lt_or_ge levels left.depth with first | shallow
      · exact .inl (ih first)
      · have second : levels < right.depth := by omega
        exact .inr ⟨(readWithin_accepts levels).read_append ⟨shallow, rfl⟩, ih second⟩
    have tagged : Decode.int32.Answers (Codec.int32.encode p.tag) (.ok p.tag) :=
      Codec.Lawful.int32.answers trivial
    rw [encode_eq]
    apply tagged.bind
    cases p with
    | and left right =>
      rw [depth] at deep
      exact combination_refuses (operands left right (by omega)) .and
    | or left right =>
      rw [depth] at deep
      exact combination_refuses (operands left right (by omega)) .or
    | not inner =>
      rw [depth] at deep
      have announced : operand.Answers (Bytes.bigEndian 4 1) (.ok ()) :=
        operand_accepts.read_append rfl
      have refused : (readWithin levels).Answers (codec.encode inner)
          (.error (.forbidden .predicateTooDeep)) := ih (by omega)
      exact announced.bind (refused.map not)
    | unconditional | beforeAbsoluteTime | beforeRelativeTime =>
      -- A single condition has one level, and one is left.
      exact absurd deep (Nat.not_lt_of_le (Nat.le_add_left 1 levels))

/-- A tree that is read has at most 32 levels, and takes at least four bytes for each of its
conditions. A tree with more levels is refused for its depth, whatever is behind its wire form, and
at most the wire form is read. -/
theorem nesting_bounded :
    (∀ (r s : Reader) (p : ClaimPredicate), codec.read r = .ok p s →
      p.depth ≤ Limits.readablePredicateDepth ∧ r.position + 4 * p.size ≤ s.position) ∧
    ∀ p : ClaimPredicate, Limits.readablePredicateDepth < p.depth → ∀ after : Bytes,
      codec.decode (codec.encode p ++ after) = .error (.forbidden .predicateTooDeep) ∧
        ∀ position : Nat, ∃ front back, codec.encode p = front ++ back ∧
          codec.read ⟨position, codec.encode p ++ after⟩ =
            .error (.forbidden .predicateTooDeep) ⟨position + front.length, back ++ after⟩ := by
  constructor
  · intro r s p read
    obtain ⟨_, ⟨shallow, rfl⟩, -, position⟩ := (readWithin_accepts _ _ _ _ _).1 read
    obtain ⟨n, few, length⟩ := p.length_encode
    refine ⟨shallow, ?_⟩
    rw [position, length]
    exact Nat.add_le_add_left (Nat.mul_le_mul_left 4 few) _
  · intro p deep after
    have within : ∀ position : Nat, ∃ front back, codec.encode p = front ++ back ∧
        codec.read ⟨position, codec.encode p ++ after⟩ =
          .error (.forbidden .predicateTooDeep) ⟨position + front.length, back ++ after⟩ :=
      fun position => (readWithin_composed _).refused_within (readWithin_refuses deep)
        (fun ⟨_, _, _, truncated⟩ => nomatch truncated) position after
    obtain ⟨front, back, -, refused⟩ := within 0
    exact ⟨Decode.runAll_of_error refused, within⟩

/-- A condition is read, and takes no fewer than four bytes. Behind 32 negations it is refused, with
another byte behind it all. -/
theorem nesting_bounded_negations :
    let p := Nat.repeat not 32 (beforeRelativeTime 60)
    (∃ s, codec.read (.ofBytes (codec.encode (beforeRelativeTime 60))) =
        .ok (beforeRelativeTime 60) s ∧ 0 + 4 * (beforeRelativeTime 60).size ≤ s.position) ∧
      Limits.readablePredicateDepth < p.depth ∧
      codec.decode (codec.encode p ++ [0]) = .error (.forbidden .predicateTooDeep) := by
  intro p
  have deep : Limits.readablePredicateDepth < p.depth := by decide
  have read : codec.read (.ofBytes (codec.encode (beforeRelativeTime 60))) =
      .ok (beforeRelativeTime 60) ⟨12, []⟩ := rfl
  exact ⟨⟨_, read, (nesting_bounded.1 _ _ _ read).2⟩, deep, (nesting_bounded.2 p deep [0]).1⟩

end ClaimPredicate

end LedgerWire
