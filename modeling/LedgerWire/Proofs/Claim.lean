import LedgerWire.Claim.Basic
import LedgerWire.Proofs.Identity

/-!
# Claims on the wire

A predicate is written whatever its depth, and `ClaimPredicate.readWithin` accepts the wire forms of
the predicates with as many levels as it may read, no others. The induction is on the levels: a
combination that is read with one more level has operands that are read with one less.
-/

namespace LedgerWire

/-- Names of balances have one wire form each and are read back from it. -/
lemma BalanceId.lawful : BalanceId.codec.Lawful fun _ => True :=
  .versioned (((Codec.Lawful.fixed 32).map fun _ _ => rfl).congr fun _ => by simp) _

namespace ClaimPredicate

/-- The tag of a condition. -/
def tag : ClaimPredicate → Int32
  | .unconditional => 0
  | .and _ _ => 1
  | .or _ _ => 2
  | .not _ => 3
  | .beforeAbsoluteTime _ => 4
  | .beforeRelativeTime _ => 5

/-- What stands behind the tag of a condition. -/
def body : ClaimPredicate → Bytes
  | .unconditional => []
  | .and left right | .or left right =>
    Bytes.bigEndian 4 2 ++ (codec.encode left ++ codec.encode right)
  | .not inner => Bytes.bigEndian 4 1 ++ codec.encode inner
  | .beforeAbsoluteTime n | .beforeRelativeTime n => Codec.int64.encode n

/-- A predicate adds its tag and what is behind it, wherever it is written. -/
lemma bytes_write (p : ClaimPredicate) (w : Writer) :
    (p.write w).bytes = w.bytes ++ (Codec.int32.encode p.tag ++ p.body) := by
  have encode : ∀ q : ClaimPredicate, codec.encode q = (q.write .empty).bytes := fun _ => rfl
  have int64 : ∀ n : Int64, Codec.int64.encode n = Bytes.bigEndian 8 n.toUInt64.toNat :=
    fun n => Writer.bytes_number 8 n.toUInt64.toNat .empty
  induction p generalizing w with
  | unconditional => simp [write, body, tag, Codec.encode_int32]
  | and left right ihl ihr | or left right ihl ihr =>
    rw [write, ihr, ihl, body, encode, encode, ihl, ihr]
    simp [tag, Codec.encode_int32]
  | not inner ih =>
    rw [write, ih, body, encode, ih]
    simp [tag, Codec.encode_int32]
  | beforeAbsoluteTime n | beforeRelativeTime n =>
    rw [write, body, int64, Writer.int64, Writer.uint64, Writer.bytes_number, Writer.bytes_int32]
    simp [tag, Codec.encode_int32]

/-- The wire form of a tree is the tag of its root and what stands behind it. -/
lemma encode_eq (p : ClaimPredicate) :
    codec.encode p = Codec.int32.encode p.tag ++ p.body :=
  bytes_write p .empty

/-- Trees are written behind what is there. -/
lemma appends : codec.Appends := by
  intro p w
  rw [encode_eq]
  exact bytes_write p w

/-- A tree has at least one condition. -/
lemma size_pos (p : ClaimPredicate) : 0 < p.size := by
  cases p <;> simp [size, Nat.add_assoc]

/-- A tree is written in words, and has no more conditions than these. -/
lemma length_encode (p : ClaimPredicate) :
    ∃ n, p.size ≤ n ∧ (codec.encode p).length = 4 * n := by
  have length_eq : ∀ q : ClaimPredicate, (codec.encode q).length = 4 + q.body.length := by
    intro q
    simp [encode_eq]
  induction p with
  | unconditional => exact ⟨1, Nat.le_refl 1, length_eq _⟩
  | and left right ihl ihr | or left right ihl ihr =>
    obtain ⟨m, few, length_left⟩ := ihl
    obtain ⟨n, few', length_right⟩ := ihr
    refine ⟨m + n + 2, by rw [size]; omega, ?_⟩
    rw [length_eq, body]
    simp only [List.length_append, Bytes.length_bigEndian, length_left, length_right]
    omega
  | not inner ih =>
    obtain ⟨n, few, length_inner⟩ := ih
    refine ⟨n + 2, by rw [size]; omega, ?_⟩
    rw [length_eq, body]
    simp only [List.length_append, Bytes.length_bigEndian, length_inner]
    omega
  | beforeAbsoluteTime time | beforeRelativeTime time =>
    refine ⟨3, (by decide : 1 ≤ 3), ?_⟩
    rw [length_eq, body, Codec.length_encode_int64]

/-- Two operands are announced by their number. -/
lemma operands_accepts : operands.Accepts fun _ bytes => bytes = Bytes.bigEndian 4 2 := by
  have outcome : ∀ count : UInt32, Decode.Accepts
      (if count ≠ 2 then Decode.forbidden (.predicateOperands count) else pure ())
      fun _ rest => count = 2 ∧ rest = [] := by
    intro count
    split
    case isTrue other =>
      exact .fault fun v rest ⟨e, _⟩ => other e
    case isFalse two =>
      refine (Decode.Accepts.pure ()).congr fun v rest => ?_
      simp [not_not.1 two]
  refine (Decode.Accepts.uint32.bind outcome).congr fun v bytes => ?_
  apply Iff.intro
  · intro h
    obtain ⟨_, _, _, rfl, ⟨rfl, rfl⟩, rfl⟩ := h
    rfl
  · intro same
    subst same
    exact ⟨2, _, [], rfl, ⟨rfl, rfl⟩, rfl⟩

/-- The operand of a negation is announced by a mark that it is there. -/
lemma operand_accepts : operand.Accepts fun _ bytes => bytes = Bytes.bigEndian 4 1 := by
  have outcome : ∀ present : Bool, Decode.Accepts
      (if !present then Decode.forbidden .missingNegatedPredicate else pure ())
      fun _ rest => present = true ∧ rest = [] := by
    intro present
    cases present with
    | false => exact .fault fun v rest ⟨e, _⟩ => nomatch e
    | true => exact (Decode.Accepts.pure ()).congr fun v rest => by simp
  refine (Decode.Accepts.bool.bind outcome).congr fun v bytes => ?_
  apply Iff.intro
  · intro h
    obtain ⟨_, _, _, rfl, ⟨rfl, rfl⟩, rfl⟩ := h
    rfl
  · intro same
    subst same
    exact ⟨true, _, [], rfl, ⟨rfl, rfl⟩, rfl⟩

/-- A combination of two predicates is read behind the announcement of its operands. -/
lemma combination_accepts {d : Decode ClaimPredicate} {P : ClaimPredicate → Prop}
    (h : d.Accepts fun p bytes => P p ∧ bytes = codec.encode p)
    (combine : ClaimPredicate → ClaimPredicate → ClaimPredicate) :
    (do operands
        let left ← d
        let right ← d
        return combine left right : Decode ClaimPredicate).Accepts
      fun p rest => ∃ left right, p = combine left right ∧ (P left ∧ P right) ∧
        rest = Bytes.bigEndian 4 2 ++ (codec.encode left ++ codec.encode right) := by
  refine (operands_accepts.bind fun _ => h.bind fun left => h.map (combine left)).congr
    fun p rest => ?_
  apply Iff.intro
  · intro h
    obtain ⟨_, _, _, rfl, ⟨left, _, _, ⟨hl, rfl⟩, ⟨right, ⟨hr, rfl⟩, rfl⟩, rfl⟩, rfl⟩ := h
    exact ⟨left, right, rfl, ⟨hl, hr⟩, rfl⟩
  · intro h
    obtain ⟨left, right, rfl, ⟨hl, hr⟩, rfl⟩ := h
    exact ⟨(), _, _, rfl, ⟨left, _, _, ⟨hl, rfl⟩, ⟨right, ⟨hr, rfl⟩, rfl⟩, rfl⟩, rfl⟩

/-- A conjunction has one level more than its operands. -/
lemma depth_and_le {left right : ClaimPredicate} {n : Nat} :
    (and left right).depth ≤ n + 1 ↔ left.depth ≤ n ∧ right.depth ≤ n := by
  rw [depth]
  omega

/-- A disjunction has one level more than its operands. -/
lemma depth_or_le {left right : ClaimPredicate} {n : Nat} :
    (or left right).depth ≤ n + 1 ↔ left.depth ≤ n ∧ right.depth ≤ n := by
  rw [depth]
  omega

/-- A negation has one level more than its operand. -/
lemma depth_not_le {inner : ClaimPredicate} {n : Nat} :
    (not inner).depth ≤ n + 1 ↔ inner.depth ≤ n := by
  rw [depth]
  omega

/-- Trees of so many levels, and no others, are read from their wire forms. -/
theorem readWithin_accepts (levels : Nat) :
    (readWithin levels).Accepts fun p bytes => p.depth ≤ levels ∧ bytes = codec.encode p := by
  induction levels with
  | zero =>
    -- Nothing is read where no level is left, and every tree has a level.
    refine .fault fun p bytes ⟨le, _⟩ => ?_
    have pos : 0 < p.depth := by cases p <;> simp [depth]
    omega
  | succ levels ih =>
    have tagged : ∀ {tag n : Int32}, tag.toInt = n.toInt → tag = n := Int32.toInt_inj.1
    refine (Decode.Accepts.int32.bind (T := fun tag p rest =>
      p.tag = tag ∧ p.depth ≤ levels + 1 ∧ rest = p.body) fun tag => ?_).congr fun p bytes => ?_
    -- The tag tells the kind of predicate, so one constructor is left in each case.
    · split
      case h_1 is =>
        obtain rfl : tag = 0 := tagged is
        refine (Decode.Accepts.pure _).congr fun p rest => ?_
        cases p <;> simp [ClaimPredicate.tag, depth, body]
      case h_2 is =>
        obtain rfl : tag = 1 := tagged is
        refine (combination_accepts ih .and).congr fun p rest => ?_
        cases p <;> simp [ClaimPredicate.tag, depth_and_le, body, and_assoc]
      case h_3 is =>
        obtain rfl : tag = 2 := tagged is
        refine (combination_accepts ih .or).congr fun p rest => ?_
        cases p <;> simp [ClaimPredicate.tag, depth_or_le, body, and_assoc]
      case h_4 is =>
        obtain rfl : tag = 3 := tagged is
        refine (operand_accepts.bind fun _ => ih.map not).congr fun p rest => ?_
        cases p <;> simp [ClaimPredicate.tag, depth_not_le, body]
      case h_5 is =>
        obtain rfl : tag = 4 := tagged is
        refine (Codec.Lawful.int64.accepts.map beforeAbsoluteTime).congr fun p rest => ?_
        cases p <;> simp [ClaimPredicate.tag, depth, body]
      case h_6 is =>
        obtain rfl : tag = 5 := tagged is
        refine (Codec.Lawful.int64.accepts.map beforeRelativeTime).congr fun p rest => ?_
        cases p <;> simp [ClaimPredicate.tag, depth, body]
      case h_7 no0 no1 no2 no3 no4 no5 =>
        -- No predicate has another tag.
        refine .fault fun p rest ⟨same, _⟩ => ?_
        subst same
        cases p with
        | unconditional => exact no0 rfl
        | and => exact no1 rfl
        | or => exact no2 rfl
        | not => exact no3 rfl
        | beforeAbsoluteTime => exact no4 rfl
        | beforeRelativeTime => exact no5 rfl
    · rw [encode_eq, Codec.encode_int32]
      apply Iff.intro
      · intro h
        obtain ⟨_, _, _, rfl, ⟨rfl, le, rfl⟩, rfl⟩ := h
        exact ⟨le, rfl⟩
      · intro h
        obtain ⟨le, rfl⟩ := h
        exact ⟨p.tag, _, p.body, rfl, ⟨rfl, le, rfl⟩, rfl⟩

/-- Trees of at most 32 levels are read back from their one wire form. -/
lemma lawful : codec.Lawful fun p => p.depth ≤ Limits.readablePredicateDepth :=
  ⟨appends, readWithin_accepts _⟩

end ClaimPredicate

namespace Claimant

/-- Whether a claimant is within the limits of the wire. -/
def Fits (claimant : Claimant) : Prop := claimant.predicate.depth ≤ Limits.readablePredicateDepth

/-- Claimants are read back from their one wire form when their condition is. -/
lemma lawful : codec.Lawful Fits :=
  .versioned (((AccountId.lawful.pair ClaimPredicate.lawful).map fun _ _ => rfl).congr
    fun _ => by simp [Fits]) _

end Claimant

end LedgerWire
