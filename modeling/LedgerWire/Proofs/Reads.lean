import LedgerWire.Proofs.Parts
import LedgerWire.Proofs.Wire.Confinement

/-!
# Reading on after faults

A program can go on reading after a fault, from wherever the reader then stands, which may be in the
middle of a value. `Reading` names what it can ask of a reader. Whatever it asks, and in whatever
order, the reader stays within the input and never goes back, an answer depends only on the bytes
that the reader passed for it, and the numbers in a fault are those of the input.
-/

namespace LedgerWire

/-- Whether a reader stands at a position of an input, with the rest of it in front. -/
structure Reader.Within (r : Reader) (input : Bytes) : Prop where
  position_le : r.position ≤ input.length
  rest : r.rest = input.drop r.position

namespace Reader.Within
variable {r s : Reader} {input taken : Bytes}

/-- A reader stands at the beginning of its input at first. -/
lemma ofBytes (input : Bytes) : (Reader.ofBytes input).Within input := ⟨Nat.zero_le _, rfl⟩

/-- What was passed and what is left are all of the input. -/
lemma position_add_remaining (h : r.Within input) : r.position + r.remaining = input.length := by
  rw [Reader.remaining, h.rest, List.length_drop]
  exact Nat.add_sub_of_le h.position_le

/-- A reader that passes bytes of an input stands behind them in the input. -/
lemma after (h : r.Within input) (passes : r.Passes taken s) : s.Within input := by
  have whole := h.position_add_remaining
  rw [Reader.remaining, passes.rest, List.length_append] at whole
  refine ⟨by rw [passes.position]; omega, ?_⟩
  rw [passes.position, ← List.drop_drop, ← h.rest, passes.rest, List.drop_left]

/-- The bytes that are passed are those of the input between the two positions. -/
lemma taken_eq (h : r.Within input) (passes : r.Passes taken s) :
    taken = input.extract r.position s.position := by
  rw [List.extract_eq_take_drop, ← h.rest, passes.rest, passes.position, Nat.add_sub_cancel_left,
    List.take_left]

end Reader.Within

/-- What can be asked of a reader. -/
inductive Reading where
  /-- The next bytes, as they are. -/
  | take (n : Nat)
  /-- The padding behind so many bytes. -/
  | padding (length : Nat)
  /-- The length in front of a list or a string. -/
  | length (max : Nat)
  /-- Whatever has a codec. -/
  | part (part : WirePart)
  /-- The end of the input. -/
  | finish

namespace Reading

/-- What a reader gives when it is asked. -/
def Result : Reading → Type
  | take _ => Bytes
  | padding _ => Unit
  | length _ => Nat
  | part p => p.Value
  | finish => Unit

/-- The step that a reader makes when it is asked. -/
def decode : (op : Reading) → Decode op.Result
  | take n => .take n
  | padding n => .padding n
  | length max => .length max
  | part p => p.codec.read
  | finish => .finish

/-- What a reader gives, and where it stands then, even when it fails. -/
def attempt (op : Reading) (r : Reader) : Except WireFault op.Result × Reader :=
  match op.decode r with
  | .ok v s => (.ok v, s)
  | .error fault s => (.error fault, s)

/-- Where a reader stands after it was asked, even when it failed. -/
def after (op : Reading) (r : Reader) : Reader := (op.attempt r).2

/-- Where a reader stands after it was asked one thing after another. -/
def afterAll (ops : List Reading) (r : Reader) : Reader := ops.foldl (fun r op => op.after r) r

/-- Whatever is asked, the step is confined. -/
lemma confined (op : Reading) : op.decode.Confined := by
  cases op with
  | take n => exact .take n
  | padding n => exact .padding n
  | length max => exact .length max
  | part p => exact p.composed.read.confined
  | finish => exact .finish

/-- Some bytes are passed, even when the reader fails. The outcome is the same with any others of
the same number behind them, and if it is a fault, the fault is accurate. -/
lemma attempt_passes (op : Reading) (r : Reader) :
    ∃ taken, r.Passes taken (op.after r) ∧
      (∀ other : Bytes, other.length = (op.after r).remaining →
        op.attempt ⟨r.position, taken ++ other⟩ =
          ((op.attempt r).1, ⟨(op.after r).position, other⟩)) ∧
      ∀ fault, (op.attempt r).1 = .error fault →
        fault.Accurate r.position taken (op.after r).remaining := by
  cases outcome : op.decode r with
  | ok v s =>
    have attempt : op.attempt r = (.ok v, s) := by rw [Reading.attempt, outcome]
    obtain ⟨taken, passes, again⟩ := op.confined.ok outcome
    rw [after, attempt]
    refine ⟨taken, passes, fun other same => ?_, nofun⟩
    rw [Reading.attempt, again other same]
  | error fault s =>
    have attempt : op.attempt r = (.error fault, s) := by rw [Reading.attempt, outcome]
    obtain ⟨taken, ⟨passes, accurate⟩, again⟩ := op.confined.error outcome
    rw [after, attempt]
    refine ⟨taken, passes, fun other same => ?_, ?_⟩
    · rw [Reading.attempt, again other same]
    · rintro _ ⟨⟩
      exact accurate

/-- A reader of an input stays in it, whatever it is asked. -/
lemma after_within {r : Reader} {input : Bytes} (h : r.Within input) (op : Reading) :
    (op.after r).Within input := by
  obtain ⟨taken, passes, -⟩ := op.attempt_passes r
  exact h.after passes

/-- A reader of an input stays in it through any requests. -/
lemma afterAll_within {r : Reader} {input : Bytes} (h : r.Within input) (ops : List Reading) :
    (afterAll ops r).Within input := by
  induction ops generalizing r with
  | nil => exact h
  | cons op ops ih => exact ih (after_within h op)

/-- What holds when a reader of an input is asked for something. -/
structure Contained (op : Reading) (r : Reader) (input : Bytes) : Prop where
  /-- What the reader has passed and what is left are all of the input. -/
  whole : r.position + r.remaining = input.length
  /-- They still are when it has answered, so it does not leave the input. -/
  whole_after : (op.after r).position + (op.after r).remaining = input.length
  /-- The reader does not go back. -/
  forward : r.position ≤ (op.after r).position
  /-- The answer is that of every input of the same length with the same bytes between the two
  positions, so it rests on no other bytes. -/
  confined : ∀ other : Bytes, other.length = input.length →
    other.extract r.position (op.after r).position =
      input.extract r.position (op.after r).position →
    op.attempt ⟨r.position, other.drop r.position⟩ =
      ((op.attempt r).1, ⟨(op.after r).position, other.drop (op.after r).position⟩)
  /-- An input that is too short is reported with the number of bytes that it has left. -/
  truncated : ∀ needed remaining : Nat,
    (op.attempt r).1 = .error (.malformed (.truncated needed remaining)) →
    remaining = (op.after r).remaining ∧ (op.after r).remaining < needed
  /-- Padding that is not zero is reported where it stands, among the bytes just passed. -/
  padding : ∀ offset : Nat, (op.attempt r).1 = .error (.malformed (.nonZeroPadding offset)) →
    r.position ≤ offset ∧ offset < (op.after r).position ∧
      ∃ b, input[offset]? = some b ∧ b ≠ 0
  /-- Bytes that are left over are reported with their number. -/
  trailing : ∀ count : Nat, (op.attempt r).1 = .error (.malformed (.trailingBytes count)) →
    count = (op.after r).remaining ∧ count ≠ 0

/-- In an input, a reader can be asked for anything. -/
lemma contained_of_within {r : Reader} {input : Bytes} (h : r.Within input) (op : Reading) :
    op.Contained r input := by
  obtain ⟨taken, passes, again, accurate⟩ := op.attempt_passes r
  have within := h.after passes
  have between := h.taken_eq passes
  have forward : r.position ≤ (op.after r).position := by
    rw [passes.position]
    exact Nat.le_add_right _ _
  constructor
  case whole => exact h.position_add_remaining
  case whole_after => exact within.position_add_remaining
  case forward => exact forward
  case confined =>
    intro other same alike
    have front : (other.drop r.position).take ((op.after r).position - r.position) = taken := by
      rw [← List.extract_eq_take_drop, alike, between]
    have behind : (other.drop r.position).drop ((op.after r).position - r.position) =
        other.drop (op.after r).position := by
      rw [List.drop_drop, Nat.add_sub_of_le forward]
    have cut : other.drop r.position = taken ++ other.drop (op.after r).position := by
      rw [← front, ← behind, List.take_append_drop]
    rw [cut]
    apply again
    rw [Reader.remaining, within.rest, List.length_drop, List.length_drop, same]
  case truncated =>
    intro needed remaining failed
    obtain ⟨rfl, short⟩ := accurate _ failed
    exact ⟨rfl, short⟩
  case padding =>
    intro offset failed
    obtain ⟨i, b, found, nonzero, rfl⟩ := accurate _ failed
    obtain ⟨inside, -⟩ := List.getElem?_eq_some_iff.1 found
    refine ⟨Nat.le_add_right _ _, ?_, b, ?_, nonzero⟩
    · rw [passes.position]
      omega
    · rw [← List.getElem?_drop, ← h.rest, passes.rest, List.getElem?_append_left inside, found]
  case trailing => exact fun count failed => accurate _ failed

/-- Whatever a reader of an input was asked before, and whether it failed or not, it can be asked
for anything. -/
theorem reads_contained (input : Bytes) (ops : List Reading) (op : Reading) :
    op.Contained (afterAll ops (.ofBytes input)) input :=
  contained_of_within (afterAll_within (.ofBytes input) ops) op

/-- A string is refused for its padding, and another behind it for what is left: the padding is
found at the offset that the first fault tells, and two bytes are left of the four that the second
asks for. -/
theorem reads_contained_strings :
    let input : Bytes := [0, 0, 0, 1, 170, 0, 1, 0, 0, 0]
    let string : Reading := .part (.counted 8)
    let first : Reader := .ofBytes input
    let second : Reader := afterAll [string] first
    (string.attempt first).1 = .error (.malformed (.nonZeroPadding 6)) ∧
      (string.attempt second).1 = .error (.malformed (.truncated 4 2)) ∧
      (∃ b, input[6]? = some b ∧ b ≠ 0) ∧ 2 = (string.after second).remaining := by
  intro input string first second
  have padding := (reads_contained input [] string).padding 6 rfl
  have truncated := (reads_contained input [string] string).truncated 4 2 rfl
  exact ⟨rfl, rfl, padding.2.2, truncated.1⟩

end Reading

end LedgerWire
