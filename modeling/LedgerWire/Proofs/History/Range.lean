import LedgerWire.History.Toid
import LedgerWire.Proofs.History.Packing

/-!
# Ranges hold whole ledgers

A range of packed positions is bounded by two numbers, and it is made from two ledgers. It holds
exactly the positions of the ledgers from the one to the other, and ranges of consecutive ledgers
meet without a gap, so a history that is read page by page is read once.
-/

namespace LedgerWire

/-- The first position of a ledger has zeros behind it. -/
@[simp] lemma Toid.firstOf_eq_ok {ledger : UInt32} {t : Toid} :
    Toid.firstOf ledger = .ok t ↔ t.ledger = ledger.toNat ∧ t.transaction = 0 ∧ t.operation = 0 :=
  Toid.make_eq_ok

/-- The first position of a ledger is the ledger in front of 32 bits. -/
lemma Toid.toInt_of_firstOf {ledger : UInt32} {t : Toid} (made : Toid.firstOf ledger = .ok t) :
    t.toInt64.toInt = ledger.toNat * 2 ^ 32 := by
  obtain ⟨same, transaction, operation⟩ := Toid.firstOf_eq_ok.1 made
  rw [Toid.toInt_toInt64, Toid.packed, same, transaction, operation]
  omega

/-- Every ledger that has a place in a position has a first one. -/
lemma Toid.exists_firstOf {ledger : UInt32} :
    (∃ t, Toid.firstOf ledger = .ok t) ↔ ledger.toNat ≤ Limits.maxLedgerSequence := by
  apply Iff.intro
  · intro h
    obtain ⟨t, made⟩ := h
    rw [← (Toid.firstOf_eq_ok.1 made).1]
    exact t.ledger_le
  · intro h
    exact ⟨⟨ledger.toNat, 0, 0, h, Nat.zero_le _, Nat.zero_le _⟩,
      Toid.firstOf_eq_ok.2 ⟨rfl, rfl, rfl⟩⟩

namespace ToidRange
variable {first last : UInt32} {range : ToidRange}

/-- The ledger where the positions of a range start. The first one has no transactions of its own,
and the positions before it belong to it. -/
def startLedger (first : UInt32) : Nat := if first = 1 then 0 else first.toNat

/-- A range starts no later than its first ledger. -/
lemma startLedger_le (first : UInt32) : startLedger first ≤ first.toNat := by
  rw [startLedger]
  split <;> omega

/-- The start of a range that starts with a ledger. -/
lemma start_eq_ok {start : Int64} :
    (if first = 1 then pure 0 else (Toid.firstOf first).map Toid.toInt64) = .ok start ↔
      startLedger first ≤ Limits.maxLedgerSequence ∧ start.toInt = startLedger first * 2 ^ 32 := by
  rw [startLedger]
  split
  case isTrue one =>
    rw [Int.natCast_zero, Int.zero_mul]
    apply Iff.intro
    · intro h
      cases h
      exact ⟨Nat.zero_le _, rfl⟩
    · intro h
      exact congrArg Except.ok (Int64.toInt_inj.1 h.2.symm)
  case isFalse =>
    rw [map_eq_ok, ← Toid.exists_firstOf]
    apply Iff.intro
    · intro h
      obtain ⟨t, made, same⟩ := h
      rw [← same]
      exact ⟨⟨t, made⟩, Toid.toInt_of_firstOf made⟩
    · intro h
      obtain ⟨⟨t, made⟩, same⟩ := h
      exact ⟨t, made, Int64.toInt_inj.1 ((Toid.toInt_of_firstOf made).trans same.symm)⟩

/-- The next ledger is one more, but for the last. -/
lemma toNat_next (notFull : last.toNat + 1 ≠ UInt32.size) : (last + 1).toNat = last.toNat + 1 := by
  have bound := last.toNat_lt
  rw [UInt32.toNat_add, UInt32.toNat_one]
  exact Nat.mod_eq_of_lt (Nat.lt_of_le_of_ne bound notFull)

/-- The end of a range that ends with a ledger, which must not be the greatest one. -/
lemma stop_eq_ok {start : Int64} :
    (if last.toNat + 1 = UInt32.size then .error (.invalidRange first last)
      else (Toid.firstOf (last + 1)).map fun stop => ⟨start, stop.toInt64⟩) = .ok range ↔
      last.toNat < Limits.maxLedgerSequence ∧ range.start = start ∧
        range.stop.toInt = (last.toNat + 1 : Nat) * 2 ^ 32 := by
  have room : Limits.maxLedgerSequence + 1 < UInt32.size := by decide
  split
  case isTrue full => exact ⟨nofun, fun h => by omega⟩
  case isFalse notFull =>
    have next := toNat_next notFull
    rw [map_eq_ok]
    apply Iff.intro
    · intro h
      obtain ⟨t, made, same⟩ := h
      cases same
      have bound := Toid.exists_firstOf.1 ⟨t, made⟩
      rw [next] at bound
      rw [Toid.toInt_of_firstOf made, next]
      exact ⟨bound, rfl, rfl⟩
    · intro h
      obtain ⟨bound, rfl, stop⟩ := h
      obtain ⟨t, made⟩ := Toid.exists_firstOf.2 (Nat.le_trans (Nat.le_of_eq next) bound)
      have same := Toid.toInt_of_firstOf made
      rw [next, ← stop] at same
      exact ⟨t, made, congrArg (ToidRange.mk range.start) (Int64.toInt_inj.1 same)⟩

/-- Which ledgers have a range, and what its bounds are as numbers. -/
lemma ofLedgers_eq_ok :
    ofLedgers first last = .ok range ↔
      (1 ≤ first ∧ first ≤ last ∧ last.toNat < Limits.maxLedgerSequence) ∧
        range.start.toInt = startLedger first * 2 ^ 32 ∧
        range.stop.toInt = (last.toNat + 1 : Nat) * 2 ^ 32 := by
  have low := startLedger_le first
  have zero : first = 0 ↔ first.toNat = 0 := UInt32.toNat_inj.symm
  have steps : ofLedgers first last =
      if first = 0 ∨ last < first then .error (.invalidRange first last)
      else (if first = 1 then pure 0 else (Toid.firstOf first).map Toid.toInt64) >>= fun start =>
        if last.toNat + 1 = UInt32.size then .error (.invalidRange first last)
        else (Toid.firstOf (last + 1)).map fun stop => ⟨start, stop.toInt64⟩ := by
    rw [ofLedgers]
    simp only [Bool.or_eq_true, decide_eq_true_eq]
    split
    case isTrue => rfl
    case isFalse => split <;> rfl
  rw [steps]
  split
  case isTrue bad =>
    rw [zero, UInt32.lt_iff_toNat_lt] at bad
    refine ⟨nofun, fun h => ?_⟩
    obtain ⟨⟨some, order, -⟩, -⟩ := h
    have some : 1 ≤ first.toNat := UInt32.le_iff_toNat_le.1 some
    have order := UInt32.le_iff_toNat_le.1 order
    omega
  case isFalse good =>
    rw [zero, UInt32.lt_iff_toNat_lt, not_or] at good
    have some : 1 ≤ first := UInt32.le_iff_toNat_le.2 (Nat.pos_of_ne_zero good.1)
    have order : first ≤ last := UInt32.le_iff_toNat_le.2 (Nat.le_of_not_lt good.2)
    rw [bind_eq_ok]
    simp only [start_eq_ok, stop_eq_ok]
    apply Iff.intro
    · intro h
      obtain ⟨start, ⟨-, value⟩, bound, rfl, stop⟩ := h
      exact ⟨⟨some, order, bound⟩, value, stop⟩
    · intro h
      obtain ⟨⟨-, -, bound⟩, start, stop⟩ := h
      exact ⟨range.start, ⟨by omega, start⟩, bound, rfl, stop⟩

/-- A range is made of ledgers in order, from the first to the last but one. -/
lemma exists_ofLedgers :
    (∃ range, ofLedgers first last = .ok range) ↔
      1 ≤ first ∧ first ≤ last ∧ last.toNat < Limits.maxLedgerSequence := by
  apply Iff.intro
  · intro h
    obtain ⟨range, made⟩ := h
    exact (ofLedgers_eq_ok.1 made).1
  · intro h
    have order := UInt32.le_iff_toNat_le.1 h.2.1
    have low := startLedger_le first
    have bound : last.toNat < 2 ^ 31 - 1 := h.2.2
    refine ⟨⟨.ofInt (startLedger first * 2 ^ 32), .ofInt ((last.toNat + 1 : Nat) * 2 ^ 32)⟩,
      ofLedgers_eq_ok.2 ⟨h, ?_, ?_⟩⟩
    all_goals exact Int64.toInt_ofInt_of_le (by omega) (by omega)

/-! ### What a range holds -/

/-- A range contains what is between its ends, without the second. -/
lemma contains_iff {position : Int64} :
    range.contains position = true ↔
      range.start.toInt ≤ position.toInt ∧ position.toInt < range.stop.toInt := by
  rw [contains, Bool.and_eq_true, decide_eq_true_iff, decide_eq_true_iff, Int64.le_iff_toInt_le,
    Int64.lt_iff_toInt_lt]

/-- The bounds of a range are the first positions of two ledgers, and all bits below the ledger are
free for the positions between them. -/
lemma contains_of_ofLedgers (made : ofLedgers first last = .ok range) (position : Int64) :
    range.contains position = true ↔
      0 ≤ position ∧ ∃ t, Toid.ofInt64 position = .ok t ∧
        startLedger first ≤ t.ledger ∧ t.ledger ≤ last.toNat := by
  obtain ⟨-, start, stop⟩ := ofLedgers_eq_ok.1 made
  rw [contains_iff, start, stop]
  apply Iff.intro
  · intro h
    have nonneg : ¬ position < 0 := by
      rw [Int64.lt_iff_toInt_lt, Int64.toInt_zero]
      omega
    obtain ⟨t, read, -⟩ := Toid.ofInt64_of_nonneg nonneg
    have value := t.toInt_toInt64
    rw [← Toid.ofInt64_eq_ok.1 read, Toid.packed] at value
    obtain ⟨-, transaction, operation⟩ := t.digits
    exact ⟨Int64.not_lt.1 nonneg, t, read, by omega, by omega⟩
  · intro h
    obtain ⟨-, t, read, low, high⟩ := h
    have value := t.toInt_toInt64
    rw [← Toid.ofInt64_eq_ok.1 read, Toid.packed] at value
    obtain ⟨-, transaction, operation⟩ := t.digits
    omega

/-! ### Pages -/

/-- The ranges of a history that is read page by page: a page ends with each of the given ledgers
and starts behind the page before it, the first page with the first ledger. -/
def pages (first : UInt32) : List UInt32 → Except ToidFault (List ToidRange)
  | [] => .ok []
  | last :: lasts => do
    let page ← ofLedgers first last
    let behind ← pages (last + 1) lasts
    return page :: behind

/-- Consecutive ranges meet, and put together they are the range of all their ledgers. -/
lemma ofLedgers_join {last' : UInt32} {range' : ToidRange} (made : ofLedgers first last = .ok range)
    (made' : ofLedgers (last + 1) last' = .ok range') :
    range.stop = range'.start ∧ ofLedgers first last' = .ok ⟨range.start, range'.stop⟩ := by
  obtain ⟨⟨some, order, bound⟩, start, stop⟩ := ofLedgers_eq_ok.1 made
  obtain ⟨⟨-, order', bound'⟩, start', stop'⟩ := ofLedgers_eq_ok.1 made'
  have room : Limits.maxLedgerSequence + 1 < UInt32.size := by decide
  have next : (last + 1).toNat = last.toNat + 1 := toNat_next (by omega)
  rw [UInt32.le_iff_toNat_le] at order order'
  have later : first ≤ last' := UInt32.le_iff_toNat_le.2 (by omega)
  have second : startLedger (last + 1) = last.toNat + 1 := by
    have some : 1 ≤ first.toNat := UInt32.le_iff_toNat_le.1 some
    have notFirst : last + 1 ≠ 1 := by
      intro one
      rw [one, UInt32.toNat_one] at next
      omega
    rw [startLedger, if_neg notFirst, next]
  rw [second] at start'
  exact ⟨Int64.toInt_inj.1 (stop.trans start'.symm),
    ofLedgers_eq_ok.2 ⟨⟨some, later, bound'⟩, start, stop'⟩⟩

/-- The bounds of a range are in their order. -/
lemma ordered (made : ofLedgers first last = .ok range) : range.start.toInt ≤ range.stop.toInt := by
  obtain ⟨⟨-, order, -⟩, start, stop⟩ := ofLedgers_eq_ok.1 made
  have order := UInt32.le_iff_toNat_le.1 order
  have low := startLedger_le first
  omega

/-- Pages hold every position of their ledgers once, and no other position. -/
lemma countP_pages {lasts : List UInt32} {ranges : List ToidRange}
    (paged : pages first (last :: lasts) = .ok ranges) :
    ∃ whole, ofLedgers first (lasts.getLastD last) = .ok whole ∧
      ∀ position,
        ranges.countP (·.contains position) = if whole.contains position then 1 else 0 := by
  induction lasts generalizing first last ranges with
  | nil =>
    obtain ⟨page, made, h⟩ := bind_eq_ok.1 paged
    cases h
    refine ⟨page, made, fun position => ?_⟩
    rw [List.countP_singleton]
  | cons last' lasts ih =>
    obtain ⟨page, made, h⟩ := bind_eq_ok.1 paged
    obtain ⟨behind, paged', h⟩ := bind_eq_ok.1 h
    cases h
    obtain ⟨whole, made', once⟩ := ih paged'
    obtain ⟨meet, joined⟩ := ofLedgers_join made made'
    have low := ordered made
    have high := ordered made'
    rw [meet] at low
    rw [List.getLastD_cons]
    refine ⟨_, joined, fun position => ?_⟩
    rw [List.countP_cons, once]
    simp only [contains_iff, meet]
    -- The position is on one side of where the ranges meet.
    split <;> split <;> split <;> omega

/-- Ledgers have a range exactly when the first of them is not zero, they are in their order and
another ledger can follow. The range holds exactly the positions of these ledgers, together with
whatever comes before the first ledger of all where it starts with that. The ranges of consecutive
ledgers meet, so pages that follow each other hold each position of their ledgers once and no other
position. -/
theorem ofLedgers_exact :
    (∀ first last, (∃ range, ofLedgers first last = .ok range) ↔
        1 ≤ first ∧ first ≤ last ∧ last.toNat < Limits.maxLedgerSequence) ∧
      (∀ first last range, ofLedgers first last = .ok range → ∀ position,
        range.contains position = true ↔
          0 ≤ position ∧ ∃ t, Toid.ofInt64 position = .ok t ∧
            startLedger first ≤ t.ledger ∧ t.ledger ≤ last.toNat) ∧
      (∀ first last last' range range', ofLedgers first last = .ok range →
        ofLedgers (last + 1) last' = .ok range' → range.stop = range'.start) ∧
      ∀ first last lasts ranges, pages first (last :: lasts) = .ok ranges →
        ∃ whole, ofLedgers first (lasts.getLastD last) = .ok whole ∧ ∀ position,
          ranges.countP (·.contains position) = if whole.contains position then 1 else 0 :=
  ⟨fun _ _ => exists_ofLedgers, fun _ _ _ made => contains_of_ofLedgers made,
    fun _ _ _ _ _ made made' => (ofLedgers_join made made').1,
    fun _ _ _ _ paged => countP_pages paged⟩

/-- The first ledgers of the history on two pages: they meet where the third ledger starts, and the
position before that is on the first page only. -/
theorem ofLedgers_exact_two :
    let pageOne : ToidRange := ⟨0, 0x300000000⟩
    let pageTwo : ToidRange := ⟨0x300000000, 0xA00000000⟩
    ofLedgers 1 2 = .ok pageOne ∧ ofLedgers 3 9 = .ok pageTwo ∧ pageOne.stop = pageTwo.start ∧
      pageOne.contains 0x2FFFFFFFF = true ∧ pages 1 [2, 9] = .ok [pageOne, pageTwo] ∧
      [pageOne, pageTwo].countP (·.contains 0x2FFFFFFFF) = 1 := by
  intro pageOne pageTwo
  obtain ⟨-, holds, meet, once⟩ := ofLedgers_exact
  have made : ofLedgers 1 2 = .ok pageOne := rfl
  have made' : ofLedgers 3 9 = .ok pageTwo := rfl
  have paged : pages 1 [2, 9] = .ok [pageOne, pageTwo] := rfl
  have joined : ofLedgers 1 9 = .ok ⟨0, 0xA00000000⟩ := rfl
  obtain ⟨whole, made'', count⟩ := once _ _ _ _ paged
  cases joined.symm.trans made''
  exact ⟨made, made', meet _ _ _ _ _ made made',
    (holds _ _ _ made _).2 ⟨by decide, _, rfl, by decide, by decide⟩, paged, count _⟩

end ToidRange

end LedgerWire
