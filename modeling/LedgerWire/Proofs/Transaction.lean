import LedgerWire.Proofs.Operation
import LedgerWire.Proofs.Preconditions
import LedgerWire.Transaction.Basic

/-!
# Transactions on the wire

Every part of a transaction but its preconditions has one wire form. `Transaction.bytesWith` spells
out a transaction with its preconditions in a given form, and these are all the spellings from which
the transaction is read.
-/

namespace LedgerWire

namespace Memo

/-- The tag of a memo. -/
def tag : Memo → Int32
  | .none => 0
  | .text _ => 1
  | .id _ => 2
  | .hash _ => 3
  | .returnHash _ => 4

/-- Whether a memo is within the limits of the wire. -/
def Fits : Memo → Prop
  | .text bytes => bytes.length ≤ Limits.memoTextBytes
  | _ => True

/-- Memos have one wire form each and are read back from it when they are not too long. -/
lemma lawful : codec.Lawful Fits := by
  refine .union _ tag
    ⟨.void (fun v => by cases v <;> simp [isNone]) rfl trivial,
      .of_inverse (.counted (by decide)) ?_, .of_inverse .uint64 ?_, .of_inverse (.fixed 32) ?_,
      .of_inverse (.fixed 32) ?_⟩ (by decide) fun v => by cases v <;> rfl
  all_goals exact ⟨fun v p known => by cases v <;> cases known; rfl, fun _ => rfl, fun _ => rfl⟩

end Memo

namespace DecoratedSignature

/-- No signature has an empty wire form. -/
lemma encode_pos (signature : DecoratedSignature) : 0 < (codec.encode signature).length := by
  have parts : codec.encode signature = (Codec.fixed 4).encode signature.hint ++
      (Codec.counted Limits.signatureBytes).encode signature.signature :=
    (Codec.Appends.counted _).encode_pair _
  rw [parts, Codec.encode_counted, List.length_append, List.length_append,
    Bytes.length_bigEndian]
  omega

/-- Lists of signatures that are not too long are read back. -/
lemma listCodec_lawful : listCodec.Lawful fun list => list.length ≤ Limits.maxSignatures :=
  (lawful.list (by decide) fun signature _ => signature.encode_pos).congr fun _ => by simp

end DecoratedSignature

namespace Transaction

/-- Whether the operations of a transaction are within the limits of the wire. -/
def OperationsFit (operations : List Operation) : Prop :=
  operations ≠ [] ∧ operations.length ≤ Limits.maxOperations ∧ ∀ op ∈ operations, op.Fits

/-- Operations that are neither missing nor too many, and fit, are read back. -/
lemma operationsCodec_lawful : operationsCodec.Lawful OperationsFit := by
  have list : (Codec.list Limits.maxOperations Operation.codec).Lawful _ :=
    Operation.lawful.list (by decide) Operation.encode_pos
  refine (list.check ?_).congr fun ops => ?_
  · intro ops ops' _ h
    split at h <;> cases h
    rfl
  · cases ops with
    | nil => simp [OperationsFit]
    | cons op ops => simp [OperationsFit]

/-- Whether a transaction is within the limits of the wire. -/
structure Fits (t : Transaction) : Prop where
  preconditions : t.preconditions.Fits
  memo : t.memo.Fits
  operations : OperationsFit t.operations

/-- A transaction on the wire, with its preconditions in the given form. -/
def bytesWith (form : PreconditionForm) (t : Transaction) : Bytes :=
  MuxedAccount.codec.encode t.source ++ (Codec.uint32.encode t.fee ++
    (Codec.int64.encode t.sequenceNumber ++ (PreconditionForm.codec.encode form ++
      (Memo.codec.encode t.memo ++ (operationsCodec.encode t.operations ++
        Codec.int32.encode 0)))))

/-- Different forms of the same preconditions make different bytes. -/
lemma bytesWith_inj {t : Transaction} {form form' : PreconditionForm} (fits : form.Fits)
    (fits' : form'.Fits) : t.bytesWith form = t.bytesWith form' ↔ form = form' := by
  apply Iff.intro
  · intro same
    have front := List.append_cancel_left (List.append_cancel_left (List.append_cancel_left same))
    exact PreconditionForm.lawful.encode_inj fits fits' (List.append_cancel_right front)
  · intro same
    subst same
    rfl

/-- The fields behind the preconditions. -/
lemma tail_lawful (name : String) :
    (Codec.pair Memo.codec <| .pair operationsCodec <| .versioned name .void).Lawful
      fun p => p.1.Fits ∧ OperationsFit p.2.1 :=
  (Memo.lawful.pair <| operationsCodec_lawful.pair <|
    Codec.Lawful.void.versioned name).congr fun _ => by simp

/-- The wire form of the fields behind the preconditions. -/
lemma encode_tail (name : String) (p : Memo × List Operation × Unit) :
    (Codec.pair Memo.codec <| .pair operationsCodec <| .versioned name .void).encode p =
      Memo.codec.encode p.1 ++ (operationsCodec.encode p.2.1 ++ Codec.int32.encode 0) := by
  have void := Codec.Lawful.void.versioned name
  rw [(operationsCodec_lawful.appends.pair void.appends).encode_pair, void.appends.encode_pair]
  rfl

/-- Transactions are written behind what is there. -/
lemma appends : codec.Appends :=
  (MuxedAccount.lawful.appends.pair <| Codec.Lawful.uint32.appends.pair <|
    Codec.Lawful.int64.appends.pair <| Preconditions.appends.pair
      (tail_lawful _).appends).map _ _

/-- A transaction is written with the shortest form of its preconditions. -/
lemma encode_eq (t : Transaction) : codec.encode t = t.bytesWith t.preconditions.form := by
  have tail := (tail_lawful "TransactionExt").appends
  have from_preconditions := Preconditions.appends.pair tail
  have from_sequence := Codec.Lawful.int64.appends.pair from_preconditions
  have from_fee := Codec.Lawful.uint32.appends.pair from_sequence
  rw [codec, Codec.encode_map, from_fee.encode_pair, from_sequence.encode_pair,
    from_preconditions.encode_pair, tail.encode_pair, encode_tail]
  rfl

/-- A transaction is read from its wire form with its preconditions in any form. -/
theorem accepts : codec.read.Accepts fun t bytes =>
    t.Fits ∧ ∃ form, Preconditions.ofForm form = t.preconditions ∧ bytes = t.bytesWith form := by
  have from_preconditions := Codec.pair_accepts Preconditions.accepts
    (tail_lawful "TransactionExt").accepts
  have from_sequence := Codec.pair_accepts Codec.Lawful.int64.accepts from_preconditions
  have from_fee := Codec.pair_accepts Codec.Lawful.uint32.accepts from_sequence
  have fields := Codec.pair_accepts MuxedAccount.lawful.accepts from_fee
  refine (fields.map _).congr fun t bytes => ?_
  apply Iff.intro
  · intro h
    obtain ⟨⟨source, fee, sequence, preconditions, memo, operations, _⟩,
      ⟨_, _, ⟨-, rfl⟩, ⟨_, _, ⟨-, rfl⟩, ⟨_, _, ⟨-, rfl⟩, ⟨_, _, ⟨form, carries, fits, rfl⟩,
        ⟨⟨memoFits, operationsFit⟩, rfl⟩, rfl⟩, rfl⟩, rfl⟩, rfl⟩, rfl⟩ := h
    obtain rfl : Preconditions.ofForm form = preconditions := carries
    refine ⟨⟨Preconditions.fits_ofForm.2 fits, memoFits, operationsFit⟩, form, rfl, ?_⟩
    rw [encode_tail]
    rfl
  · intro h
    obtain ⟨⟨fits, memoFits, operationsFit⟩, form, carries, rfl⟩ := h
    rw [← carries, Preconditions.fits_ofForm] at fits
    refine ⟨(t.source, t.fee, t.sequenceNumber, t.preconditions, t.memo, t.operations, ()),
      ⟨_, _, ⟨trivial, rfl⟩, ⟨_, _, ⟨trivial, rfl⟩, ⟨_, _, ⟨trivial, rfl⟩, ⟨_, _,
        ⟨form, carries, fits, rfl⟩, ⟨⟨memoFits, operationsFit⟩, rfl⟩, rfl⟩, rfl⟩, rfl⟩, ?_⟩, rfl⟩
    rw [encode_tail]
    rfl

/-- Whether the older layout has a place for all that a transaction holds: there is no number beside
its source, and of its preconditions at most a window of time is set. -/
structure Plain (t : Transaction) : Prop where
  source : t.source.id = none
  preconditions :
    t.preconditions = { Preconditions.none with timeBounds := t.preconditions.timeBounds }

/-- A transaction is plain when the older layout has a place for all of it. -/
lemma plain_iff {t : Transaction} :
    t.Plain ↔ t.source.isMuxed = false ∧ t.preconditions.beyondTime = false := by
  apply Iff.intro
  · intro h
    obtain ⟨source, preconditions⟩ := h
    rw [MuxedAccount.isMuxed, source, preconditions]
    exact ⟨rfl, rfl⟩
  · intro h
    obtain ⟨plain, time⟩ := h
    refine ⟨?_, Preconditions.eq_of_not_beyondTime time⟩
    exact Option.isNone_iff_eq_none.1 (Option.isSome_eq_false_iff.1 plain)

/-- What the older layout keeps of a transaction is all of it. -/
lemma Plain.kept {t : Transaction} (h : t.Plain) :
    (⟨⟨t.source.key, none⟩, t.fee, t.sequenceNumber,
      { Preconditions.none with timeBounds := t.preconditions.timeBounds }, t.memo,
      t.operations⟩ : Transaction) = t := by
  rw [← h.source, ← h.preconditions]

/-- In the older layout a transaction is read back if it fits and has nothing that the layout has
no place for. -/
theorem legacyCodec_lawful : legacyCodec.Lawful fun t =>
    t.Fits ∧ t.source.isMuxed = false ∧ t.preconditions.beyondTime = false := by
  have fields := (Codec.Lawful.fixed 32).pair <| Codec.Lawful.uint32.pair <|
    Codec.Lawful.int64.pair <| TimeBounds.lawful.optional.pair (tail_lawful "TransactionV0Ext")
  refine (fields.map fun _ _ => rfl).congr fun t => ?_
  apply Iff.intro
  · intro h
    obtain ⟨⟨-, -, -, -, memoFits, operationsFit⟩, same⟩ := h
    rw [← same]
    exact ⟨⟨Nat.zero_le _, memoFits, operationsFit⟩, rfl, rfl⟩
  · intro h
    obtain ⟨⟨fits, memoFits, operationsFit⟩, lossless⟩ := h
    exact ⟨⟨trivial, trivial, trivial, by simp, memoFits, operationsFit⟩,
      (plain_iff.2 lossless).kept⟩

end Transaction

namespace Signed
variable {α : Type} {content : Codec α}

/-- Signatures stand behind what is signed. -/
lemma encode_eq (s : Signed α) :
    (Signed.codec content).encode s =
      content.encode s.content ++ DecoratedSignature.listCodec.encode s.signatures :=
  DecoratedSignature.listCodec_lawful.appends.encode_pair _

/-- What is signed is written behind what is there, with its signatures. -/
lemma appends (h : content.Appends) : (Signed.codec content).Appends :=
  (h.pair DecoratedSignature.listCodec_lawful.appends).map _ _

/-- Something signed is read from a spelling of its content, if the signatures are not too many. -/
lemma accepts {S : α → Bytes → Prop} (h : content.read.Accepts S) :
    (Signed.codec content).read.Accepts fun s bytes =>
      s.signatures.length ≤ Limits.maxSignatures ∧ ∃ x, S s.content x ∧
        bytes = x ++ DecoratedSignature.listCodec.encode s.signatures := by
  have fields := Codec.pair_accepts h DecoratedSignature.listCodec_lawful.accepts
  refine (fields.map _).congr fun s bytes => ?_
  apply Iff.intro
  · intro h
    obtain ⟨_, ⟨x, _, hx, ⟨le, rfl⟩, rfl⟩, rfl⟩ := h
    exact ⟨le, x, hx, rfl⟩
  · intro h
    obtain ⟨le, x, hx, rfl⟩ := h
    exact ⟨(s.content, s.signatures), ⟨x, _, hx, ⟨le, rfl⟩, rfl⟩, rfl⟩

end Signed

end LedgerWire
