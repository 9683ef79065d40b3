import LedgerWire.Proofs.Identity
import LedgerWire.Transaction.Preconditions

/-!
# Preconditions on the wire

The three forms of preconditions have one wire form each, but the same preconditions can stand in
several forms: a window of time, and nothing at all, also fit into the full form. Reading does not
keep which form there was, and writing chooses the shortest.
-/

namespace LedgerWire

/-- Windows of time have one wire form each and are read back from it. -/
lemma TimeBounds.lawful : TimeBounds.codec.Lawful fun _ => True :=
  ((Codec.Lawful.pair .uint64 .uint64).map fun _ _ => rfl).congr fun _ => by simp

/-- Windows of ledgers have one wire form each and are read back from it. -/
lemma LedgerBounds.lawful : LedgerBounds.codec.Lawful fun _ => True :=
  ((Codec.Lawful.pair .uint32 .uint32).map fun _ _ => rfl).congr fun _ => by simp

namespace Preconditions

/-- Whether preconditions are within the limits of the wire. -/
def Fits (p : Preconditions) : Prop := p.extraSigners.length ≤ Limits.maxExtraSigners

/-- Preconditions with extra signers that are not too many are read back from the full form. -/
lemma fullCodec_lawful : fullCodec.Lawful Fits := by
  have signers : (Codec.list Limits.maxExtraSigners SignerKey.codec).Lawful _ :=
    SignerKey.lawful.list (by decide) SignerKey.lawful.union_pos
  exact ((TimeBounds.lawful.optional.pair <| LedgerBounds.lawful.optional.pair <|
    Codec.Lawful.int64.optional.pair <| Codec.Lawful.uint64.pair <|
    Codec.Lawful.uint32.pair signers).map fun _ _ => rfl).congr fun _ => by simp [Fits]

/-- Preconditions that ask for nothing but a window of time have nothing else. -/
lemma eq_of_not_beyondTime {p : Preconditions} (h : p.beyondTime = false) :
    p = { none with timeBounds := p.timeBounds } := by
  obtain ⟨time, ledger, sequence, age, gap, signers⟩ := p
  simp only [beyondTime, Bool.or_eq_false_iff, Option.isSome_eq_false_iff,
    Option.isNone_iff_eq_none, decide_eq_false_iff_not, Bool.not_eq_false', List.isEmpty_iff] at h
  obtain ⟨⟨⟨⟨rfl, rfl⟩, noAge⟩, noGap⟩, rfl⟩ := h
  obtain rfl := UInt64.le_zero_iff.1 (UInt64.not_lt.1 noAge)
  obtain rfl := UInt32.le_zero_iff.1 (UInt32.not_lt.1 noGap)
  rfl

/-- The shortest form carries the preconditions. -/
theorem ofForm_form (p : Preconditions) : ofForm p.form = p := by
  rw [form]
  split
  case isTrue => rfl
  case isFalse time =>
    have rest := eq_of_not_beyondTime (Bool.eq_false_of_not_eq_true time)
    split
    case h_1 bounds some =>
      rw [rest, some]
      rfl
    case h_2 empty =>
      rw [rest, empty]
      rfl

end Preconditions

namespace PreconditionForm

/-- The tag of a form. -/
def tag : PreconditionForm → Int32
  | .none => 0
  | .time _ => 1
  | .full _ => 2

/-- Whether a form is within the limits of the wire. -/
def Fits : PreconditionForm → Prop
  | .full p => p.Fits
  | _ => True

/-- Forms with extra signers that are not too many are read back. -/
lemma lawful : codec.Lawful Fits := by
  refine .union _ tag
    ⟨.void (fun v => by cases v <;> simp) rfl trivial, .of_inverse TimeBounds.lawful ?_,
      .of_inverse Preconditions.fullCodec_lawful ?_⟩ (by decide) fun v => by cases v <;> rfl
  all_goals exact ⟨fun v p known => by cases v <;> cases known; rfl, fun _ => rfl, fun _ => rfl⟩

end PreconditionForm

namespace Preconditions

/-- A form fits when what it carries does. -/
@[simp] lemma fits_ofForm {form : PreconditionForm} : (ofForm form).Fits ↔ form.Fits := by
  cases form with
  | none => exact iff_of_true (Nat.zero_le _) trivial
  | time bounds => exact iff_of_true (Nat.zero_le _) trivial
  | full p => exact Iff.rfl

/-- Preconditions are read from every form that carries them. -/
lemma accepts : codec.read.Accepts fun p bytes =>
    ∃ form, ofForm form = p ∧ form.Fits ∧ bytes = PreconditionForm.codec.encode form :=
  (PreconditionForm.lawful.accepts.map ofForm).congr fun p bytes => by
    simp only [and_comm, and_assoc]

/-- Preconditions are written behind what is there. -/
lemma appends : codec.Appends := PreconditionForm.lawful.appends.map ofForm form

/-- Preconditions are read back when their extra signers are not too many. -/
lemma roundTrips : codec.RoundTrips Fits := by
  refine ⟨appends, _, accepts, fun p => ?_⟩
  apply Iff.intro
  · intro h
    obtain ⟨form, rfl, fits, -⟩ := h
    exact fits_ofForm.2 fits
  · intro fits
    refine ⟨p.form, ofForm_form p, ?_, rfl⟩
    rwa [← fits_ofForm, ofForm_form]

end Preconditions

/-!
## The shortest form of preconditions

Preconditions can stand in several forms on the wire, and the form in which they are written is
shorter than every other that carries them. So writing again what was read never makes it longer,
and a second round of reading and writing changes nothing any more.
-/

namespace Codec
variable {α : Type}

/-- An unsigned integer of 32 bits has four bytes, whichever it is. -/
@[simp] lemma length_encode_uint32 (n : UInt32) : (uint32.encode n).length = 4 := by
  have digits : uint32.encode n = Bytes.bigEndian 4 n.toNat := Writer.bytes_uint32 n .empty
  simp [digits]

/-- An unsigned integer of 64 bits has eight bytes, whichever it is. -/
@[simp] lemma length_encode_uint64 (n : UInt64) : (uint64.encode n).length = 8 := by
  have digits : uint64.encode n = Bytes.bigEndian 8 n.toNat := Writer.bytes_number 8 n.toNat .empty
  simp [digits]

namespace Appends
variable {c : Codec α}

/-- A value that may be absent takes at least the bytes that say so. -/
lemma le_length_encode_optional (h : c.Appends) (v : Option α) :
    4 ≤ (c.optional.encode v).length := by
  cases v with
  | none => simp
  | some x => simp [h.encode_optional_some]

/-- A list takes at least the bytes of its length. -/
lemma le_length_encode_list (h : c.Appends) (max : Nat) (xs : List α) :
    4 ≤ ((c.list max).encode xs).length := by
  simp [h.encode_list]

end Appends

end Codec

/-- A window of time has sixteen bytes. -/
@[simp]
lemma TimeBounds.length_encode (bounds : TimeBounds) : (codec.encode bounds).length = 16 := by
  have fields : codec.encode bounds =
      Codec.uint64.encode bounds.minTime ++ Codec.uint64.encode bounds.maxTime :=
    Codec.Lawful.uint64.appends.encode_pair (bounds.minTime, bounds.maxTime)
  simp [fields]

/-- Everything takes more bytes than a window of time, even where nothing is set. -/
lemma Preconditions.le_length_encode_full (p : Preconditions) :
    28 ≤ (fullCodec.encode p).length := by
  have list := SignerKey.lawful.appends.list Limits.maxExtraSigners
  have from_gap := Codec.Lawful.uint32.appends.pair list
  have from_age := Codec.Lawful.uint64.appends.pair from_gap
  have from_sequence := Codec.Lawful.int64.appends.optional.pair from_age
  have from_ledger := LedgerBounds.lawful.appends.optional.pair from_sequence
  have time := TimeBounds.lawful.appends.le_length_encode_optional p.timeBounds
  have ledger := LedgerBounds.lawful.appends.le_length_encode_optional p.ledgerBounds
  have sequence := Codec.Lawful.int64.appends.le_length_encode_optional p.minSequenceNumber
  have signers := SignerKey.lawful.appends.le_length_encode_list Limits.maxExtraSigners
    p.extraSigners
  rw [fullCodec, Codec.encode_map, from_ledger.encode_pair, from_sequence.encode_pair,
    from_age.encode_pair, from_gap.encode_pair, list.encode_pair]
  simp only [List.length_append, Codec.length_encode_uint32, Codec.length_encode_uint64]
  omega

namespace PreconditionForm

/-- The form that carries nothing is a tag. -/
@[simp] lemma length_encode_none : (codec.encode .none).length = 4 := Codec.length_encode_int32 0

/-- The form that carries a window of time has twenty bytes. -/
@[simp]
lemma length_encode_time (bounds : TimeBounds) : (codec.encode (.time bounds)).length = 20 := by
  have tagged : codec.encode (.time bounds) =
      Codec.int32.encode 1 ++ TimeBounds.codec.encode bounds := TimeBounds.lawful.appends bounds _
  simp [tagged]

/-- The form that carries everything has at least 32 bytes. -/
lemma le_length_encode_full (p : Preconditions) : 32 ≤ (codec.encode (.full p)).length := by
  have tagged : codec.encode (.full p) =
      Codec.int32.encode 2 ++ Preconditions.fullCodec.encode p :=
    Preconditions.fullCodec_lawful.appends p _
  have fields := p.le_length_encode_full
  rw [tagged, List.length_append, Codec.length_encode_int32]
  omega

end PreconditionForm

namespace Preconditions

/-- A form other than the one in which its preconditions are written is longer. -/
lemma length_encode_lt {form : PreconditionForm} (other : form ≠ (ofForm form).form) :
    (codec.encode (ofForm form)).length < (PreconditionForm.codec.encode form).length := by
  cases form with
  | none => exact (other rfl).elim
  | time bounds => exact (other rfl).elim
  | full p =>
    have long := PreconditionForm.le_length_encode_full p
    have written : codec.encode p = PreconditionForm.codec.encode p.form := rfl
    rw [ofForm, written]
    rw [ofForm, Preconditions.form] at other
    rw [Preconditions.form]
    split at other
    case isTrue => exact (other rfl).elim
    case isFalse time =>
      rw [if_neg time]
      split
      case h_1 bounds _ =>
        rw [PreconditionForm.length_encode_time]
        omega
      case h_2 =>
        rw [PreconditionForm.length_encode_none]
        omega

/-- Preconditions are carried by the form in which they are written, and this is the only shortest
one: every other form that carries them is longer. Reading and writing what was read and written
once changes neither the bytes nor the preconditions. -/
theorem form_shortest :
    (∀ p : Preconditions, ofForm p.form = p) ∧
      (∀ form : PreconditionForm,
        (codec.encode (ofForm form)).length ≤ (PreconditionForm.codec.encode form).length) ∧
      (∀ form form' : PreconditionForm, ofForm form' = ofForm form →
        (form' = (ofForm form).form ∧
            PreconditionForm.codec.encode form' = codec.encode (ofForm form)) ∨
          (codec.encode (ofForm form)).length < (PreconditionForm.codec.encode form').length) ∧
      ∀ input output : Bytes, (codec.decode input).map codec.encode = .ok output →
        (codec.decode output).map codec.encode = .ok output ∧
          codec.decode output = codec.decode input := by
  have shortest : ∀ form form' : PreconditionForm, ofForm form' = ofForm form →
      (form' = (ofForm form).form ∧
          PreconditionForm.codec.encode form' = codec.encode (ofForm form)) ∨
        (codec.encode (ofForm form)).length < (PreconditionForm.codec.encode form').length := by
    intro form form' same
    rw [← same]
    by_cases written : form' = (ofForm form').form
    · exact .inl ⟨written, congrArg PreconditionForm.codec.encode written⟩
    · exact .inr (length_encode_lt written)
  refine ⟨ofForm_form, fun form => ?_, shortest, fun input output again => ?_⟩
  · obtain ⟨-, same⟩ | longer := shortest form form rfl
    · exact Nat.le_of_eq (congrArg List.length same.symm)
    · exact Nat.le_of_lt longer
  · cases read : codec.decode input with
    | error fault =>
      rw [read] at again
      cases again
    | ok p =>
      rw [read] at again
      cases again
      obtain ⟨form, carries, fits, -⟩ := accepts.runAll_eq_ok.1 read
      have back : codec.decode (codec.encode p) = .ok p := by
        rw [roundTrips.decode_encode_iff, ← carries, fits_ofForm]
        exact fits
      rw [back]
      exact ⟨rfl, rfl⟩

/-- A window of time that came in the full form is written in the form for such windows, which is
shorter, and then stays so. -/
theorem form_shortest_window :
    let full := PreconditionForm.codec.encode (.full (ofTimeBounds ⟨1, 2⟩))
    let short := PreconditionForm.codec.encode (.time ⟨1, 2⟩)
    (codec.decode full).map codec.encode = .ok short ∧
      (codec.decode short).map codec.encode = .ok short ∧ short.length < full.length := by
  obtain ⟨-, -, shortest, stable⟩ := form_shortest
  have normal : (codec.decode (PreconditionForm.codec.encode (.full (ofTimeBounds ⟨1, 2⟩)))).map
      codec.encode = .ok (PreconditionForm.codec.encode (.time ⟨1, 2⟩)) := by decide +kernel
  obtain ⟨same, -⟩ | longer := shortest (.time ⟨1, 2⟩) (.full (ofTimeBounds ⟨1, 2⟩)) rfl
  · cases same
  · exact ⟨normal, (stable _ _ normal).1, longer⟩

end Preconditions

end LedgerWire
