import LedgerWire.History.Toid
import LedgerWire.Proofs.History.Packing

/-!
# Moving on is counting

Packed positions of a ledger are consecutive numbers, and moving on adds one to them: a carry from
the operation to the transaction is the carry of the number. It stops at the last position of the
ledger, so any number of attempts leads as far as that number says, but not beyond the ledger.
-/

namespace LedgerWire.Toid
variable {t t' last : Toid} {ledger : UInt32}

/-- Whether a position is the last one of its ledger. -/
def IsLast (t : Toid) : Prop :=
  t.transaction = Limits.maxTransactionOrder ∧ t.operation = Limits.maxOperationIndex

/-- The last position of a ledger is the one with the greatest components. -/
lemma lastOf_eq_ok : lastOf ledger = .ok last ↔ last.ledger = ledger.toNat ∧ last.IsLast := by
  rw [lastOf]
  simp only [bind_eq_ok, bounded_eq_ok]
  apply Iff.intro
  · intro h
    obtain ⟨_, same, made⟩ := h
    cases made
    exact ⟨same, rfl, rfl⟩
  · intro h
    obtain ⟨same, transaction, operation⟩ := h
    exact ⟨⟨_, last.ledger_le⟩, same, congrArg Except.ok (ext rfl transaction.symm operation.symm)⟩

/-- Every ledger has a last position. -/
lemma exists_isLast (t : Toid) : ∃ last : Toid, last.ledger = t.ledger ∧ last.IsLast :=
  ⟨⟨t.ledger, Limits.maxTransactionOrder, Limits.maxOperationIndex, t.ledger_le, Nat.le_refl _,
    Nat.le_refl _⟩, rfl, rfl, rfl⟩

/-- The last position of a ledger lies just below the first one of the next. -/
lemma IsLast.packed_eq (h : last.IsLast) : last.packed + 1 = (last.ledger + 1) * 2 ^ 32 := by
  obtain ⟨transaction, operation⟩ := h
  rw [packed, transaction, operation, Limits.maxTransactionOrder, Limits.maxOperationIndex]
  omega

/-- No position of a ledger is behind the last one. -/
lemma IsLast.packed_le (h : last.IsLast) (same : t.ledger = last.ledger) :
    t.packed ≤ last.packed := by
  obtain ⟨-, transaction, operation⟩ := t.digits
  have top := h.packed_eq
  rw [packed]
  omega

/-- A ledger has one last position. -/
lemma IsLast.eq_iff (h : last.IsLast) (same : t.ledger = last.ledger) : t = last ↔ t.IsLast := by
  apply Iff.intro
  · intro eq
    rw [eq]
    exact h
  · intro h'
    exact ext same (h'.1.trans h.1.symm) (h'.2.trans h.2.symm)

/-! ### One attempt -/

/-- What moving on can do: it gives the position that is one more as a number, or it stands at the
last position of the ledger and changes nothing. -/
lemma next_cases (t : Toid) :
    (∃ t', t.next = .ok t' ∧ t'.ledger = t.ledger ∧ t'.packed = t.packed + 1 ∧ ¬ t.IsLast) ∨
      (t.next = .error .overflow ∧ t.IsLast) := by
  obtain ⟨-, transaction, operation⟩ := t.digits
  by_cases more : t.operation < Limits.maxOperationIndex
  · refine .inl ⟨_, dif_pos more, rfl, (Nat.add_assoc _ _ _).symm, fun h => ?_⟩
    exact Nat.ne_of_lt more h.2
  · have top : t.operation = Limits.maxOperationIndex :=
      Nat.le_antisymm t.operation_le (Nat.le_of_not_lt more)
    by_cases room : t.transaction < Limits.maxTransactionOrder
    · refine .inl ⟨_, (dif_neg more).trans (dif_pos room), rfl, ?_, fun h => ?_⟩
      · -- The digit of the operation was the greatest, so the carry is one of the transaction.
        have greatest : t.operation = 2 ^ 12 - 1 := top
        rw [packed, packed, greatest]
        dsimp only
        omega
      · exact Nat.ne_of_lt room h.1
    · refine .inr ⟨(dif_neg more).trans (dif_neg room), ?_, top⟩
      exact Nat.le_antisymm t.transaction_le (Nat.le_of_not_lt room)

/-- Moving on in place puts the next position in the place of the position. -/
lemma attemptAdvance_of_next (h : t.next = .ok t') : t.attemptAdvance = (.ok (), t') := by
  have run : advance.run t = .ok () t' := by
    rw [next] at h
    split at h
    case isTrue more =>
      cases h
      exact congrFun (dif_pos more) t
    case isFalse full =>
      split at h
      case isTrue room =>
        cases h
        exact (congrFun (dif_neg full) t).trans (congrFun (dif_pos room) t)
      case isFalse => cases h
  rw [attemptAdvance, run]

/-- Moving on in place examines everything before it changes anything. -/
lemma attemptAdvance_of_fault {fault : ToidFault} (h : t.next = .error fault) :
    t.attemptAdvance = (.error fault, t) := by
  have run : advance.run t = .error fault t := by
    rw [next] at h
    split at h
    case isTrue => cases h
    case isFalse full =>
      split at h
      case isTrue => cases h
      case isFalse last =>
        cases h
        exact (congrFun (dif_neg full) t).trans (congrFun (dif_neg last) t)
  rw [attemptAdvance, run]

/-- What an attempt to move on can do. -/
lemma attemptAdvance_cases (t : Toid) :
    (t.attemptAdvance = (.error .overflow, t) ∧ t.IsLast) ∨
      ∃ t', t.attemptAdvance = (.ok (), t') ∧ ¬ t.IsLast ∧ t'.ledger = t.ledger ∧
        t'.packed = t.packed + 1 := by
  obtain ⟨t', next, same, one, notLast⟩ | ⟨stuck, isLast⟩ := t.next_cases
  · exact .inr ⟨t', attemptAdvance_of_next next, notLast, same, one⟩
  · exact .inl ⟨attemptAdvance_of_fault stuck, isLast⟩

/-! ### Any number of attempts -/

/-- Attempts to move on stay in the ledger and count up to its last position. -/
lemma packed_advanceBy (isLast : last.IsLast) (same : t.ledger = last.ledger) (k : Nat) :
    (t.advanceBy k).ledger = last.ledger ∧
      (t.advanceBy k).packed = min (t.packed + k) last.packed := by
  induction k with
  | zero =>
    rw [advanceBy, Nat.add_zero]
    exact ⟨same, (Nat.min_eq_left (isLast.packed_le same)).symm⟩
  | succ k ih =>
    obtain ⟨ledger, count⟩ := ih
    rw [advanceBy]
    obtain ⟨stuck, atLast⟩ | ⟨t', moved, notLast, ledger', one⟩ :=
      (t.advanceBy k).attemptAdvance_cases
    · -- The end was reached before, and the minimum is the last position from then on.
      have reached := (isLast.eq_iff ledger).2 atLast
      rw [reached] at count
      rw [stuck, reached]
      dsimp only
      exact ⟨rfl, by omega⟩
    · have below := isLast.packed_le (ledger'.trans ledger)
      rw [moved]
      dsimp only
      exact ⟨ledger'.trans ledger, by omega⟩

/-- After any number of attempts to move on, a position is one of the same ledger, and its packed
form has grown by as much, up to that of the last position of the ledger. Each attempt either adds
one to the packed form, or the position is the last one of its ledger, and then the attempt fails
and changes nothing. -/
theorem toInt64_advanceBy {transaction operation : UInt32}
    (made : make ledger transaction operation = .ok t) :
    ∃ last, lastOf ledger = .ok last ∧ ∀ k,
      (∃ transaction' operation', make ledger transaction' operation' = .ok (t.advanceBy k)) ∧
        (t.advanceBy k).toInt64.toInt = min (t.toInt64.toInt + k) last.toInt64.toInt ∧
        ((t.advanceBy k = last ∧
            (t.advanceBy k).attemptAdvance = (.error .overflow, t.advanceBy k)) ∨
          (t.advanceBy k ≠ last ∧ ∃ t', (t.advanceBy k).attemptAdvance = (.ok (), t') ∧
            t'.toInt64.toInt = (t.advanceBy k).toInt64.toInt + 1)) := by
  obtain ⟨here, -, -⟩ := make_eq_ok.1 made
  obtain ⟨last, same, isLast⟩ := t.exists_isLast
  refine ⟨last, lastOf_eq_ok.2 ⟨same.trans here, isLast⟩, fun k => ?_⟩
  obtain ⟨ledger', count⟩ := packed_advanceBy isLast same.symm k
  have last_iff := isLast.eq_iff ledger'
  refine ⟨?valid, ?count, ?step⟩
  case valid =>
    obtain ⟨_, transaction', operation', remade⟩ := (t.advanceBy k).exists_make
    obtain ⟨there, order, index⟩ := make_eq_ok.1 remade
    refine ⟨transaction', operation', make_eq_ok.2 ⟨?_, order, index⟩⟩
    rw [ledger', same, here]
  case count =>
    rw [toInt_toInt64, toInt_toInt64, toInt_toInt64, count]
    omega
  case step =>
    obtain ⟨stuck, atLast⟩ | ⟨t', moved, notLast, -, one⟩ :=
      (t.advanceBy k).attemptAdvance_cases
    · exact .inl ⟨last_iff.2 atLast, stuck⟩
    · refine .inr ⟨fun same => notLast (last_iff.1 same), t', moved, ?_⟩
      rw [toInt_toInt64, toInt_toInt64, one, Int.natCast_succ]

/-- Two operations before the end of a ledger, three attempts lead to its last position. -/
theorem toInt64_advanceBy_nearEnd :
    ∃ t last, make 5 0xFFFFF 0xFFD = .ok t ∧ lastOf 5 = .ok last ∧ t.advanceBy 3 = last ∧
      (t.advanceBy 3).toInt64.toInt = min (t.toInt64.toInt + 3) last.toInt64.toInt := by
  have made : make 5 0xFFFFF 0xFFD = .ok ⟨5, 0xFFFFF, 0xFFD, by decide, by decide, by decide⟩ := rfl
  obtain ⟨last, top, attempts⟩ := toInt64_advanceBy made
  obtain ⟨-, count, -⟩ := attempts 3
  cases top
  exact ⟨_, _, made, rfl, by decide, count⟩

end LedgerWire.Toid
