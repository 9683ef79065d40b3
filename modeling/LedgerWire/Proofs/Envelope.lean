import LedgerWire.Proofs.Transaction
import LedgerWire.Transaction.Signing

/-!
# Envelopes on the wire

An envelope in the older layout has one wire form. In the others the preconditions of the
transaction, which is that inside of a fee bump, can stand in each form that carries them, and
everything else has one wire form. So an envelope that was received is written again as it was
exactly when its preconditions were received in the shortest form.
-/

namespace LedgerWire

namespace Signed

/-- A signed transaction on the wire, with its preconditions in the given form. -/
def bytesWith (form : PreconditionForm) (s : Signed Transaction) : Bytes :=
  s.content.bytesWith form ++ DecoratedSignature.listCodec.encode s.signatures

/-- Whether a signed transaction is within the limits of the wire. -/
structure Fits (s : Signed Transaction) : Prop where
  content : s.content.Fits
  signatures : s.signatures.length ≤ Limits.maxSignatures

/-- A signed transaction is read with its preconditions in any form. -/
lemma transaction_accepts : (Signed.codec Transaction.codec).read.Accepts fun s bytes =>
    s.Fits ∧ ∃ form, Preconditions.ofForm form = s.content.preconditions ∧
      bytes = s.bytesWith form := by
  refine (accepts Transaction.accepts).congr fun s bytes => ?_
  apply Iff.intro
  · intro h
    obtain ⟨le, _, ⟨fits, form, carries, rfl⟩, rfl⟩ := h
    exact ⟨⟨fits, le⟩, form, carries, rfl⟩
  · intro h
    obtain ⟨⟨fits, le⟩, form, carries, rfl⟩ := h
    exact ⟨le, _, ⟨fits, form, carries, rfl⟩, rfl⟩

/-- In the older layout a signed transaction is read from its wire form, if the layout loses
nothing of it. -/
lemma legacy_lawful : (Signed.codec Transaction.legacyCodec).Lawful fun s =>
    s.Fits ∧ s.content.source.isMuxed = false ∧ s.content.preconditions.beyondTime = false where
  appends := appends Transaction.legacyCodec_lawful.appends
  accepts := (accepts Transaction.legacyCodec_lawful.accepts).congr fun s bytes => by
    rw [encode_eq]
    apply Iff.intro
    · intro h
      obtain ⟨le, _, ⟨⟨fits, plain⟩, rfl⟩, rfl⟩ := h
      exact ⟨⟨⟨fits, le⟩, plain⟩, rfl⟩
    · intro h
      obtain ⟨⟨⟨fits, le⟩, plain⟩, rfl⟩ := h
      exact ⟨le, _, ⟨⟨fits, plain⟩, rfl⟩, rfl⟩

end Signed

namespace FeeBump

/-- A fee bump on the wire, with the preconditions of its transaction in the given form. -/
def bytesWith (form : PreconditionForm) (bump : FeeBump) : Bytes :=
  MuxedAccount.codec.encode bump.feeSource ++ (Codec.int64.encode bump.fee ++
    ((Codec.int32.encode 2 ++ bump.inner.bytesWith form) ++ Codec.int32.encode 0))

/-- The transaction inside of a fee bump is read with its tag. -/
lemma inner_accepts : (Codec.union "FeeBumpInnerTx"
    [⟨2, Signed Transaction, Signed.codec Transaction.codec, id, some⟩]).read.Accepts
    fun s bytes => s.Fits ∧ ∃ form, Preconditions.ofForm form = s.content.preconditions ∧
      bytes = Codec.int32.encode 2 ++ s.bytesWith form := by
  refine .congr (Codec.union_accepts ⟨_, Signed.transaction_accepts⟩ (List.nodup_singleton _))
    fun s bytes => ?_
  simp only [List.mem_singleton, exists_eq_left]
  apply Iff.intro
  · intro h
    obtain ⟨_, x, read, rfl, rfl⟩ := h
    obtain ⟨fits, form, carries, rfl⟩ := Signed.transaction_accepts.runAll_eq_ok.1 read
    exact ⟨fits, form, carries, rfl⟩
  · intro h
    obtain ⟨fits, form, carries, rfl⟩ := h
    have read := Signed.transaction_accepts.runAll_eq_ok.2 ⟨fits, form, carries, rfl⟩
    exact ⟨s, _, read, rfl, rfl⟩

/-- A fee bump is read with the preconditions of its transaction in any form. -/
theorem accepts : codec.read.Accepts fun bump bytes =>
    bump.inner.Fits ∧
      ∃ form, Preconditions.ofForm form = bump.inner.content.preconditions ∧
        bytes = bump.bytesWith form := by
  have from_inner := Codec.pair_accepts inner_accepts
    (Codec.Lawful.void.versioned "FeeBumpTransactionExt").accepts
  have from_fee := Codec.pair_accepts Codec.Lawful.int64.accepts from_inner
  have fields := Codec.pair_accepts MuxedAccount.lawful.accepts from_fee
  refine (fields.map _).congr fun bump bytes => ?_
  apply Iff.intro
  · intro h
    obtain ⟨⟨source, fee, inner, _⟩, ⟨_, _, ⟨-, rfl⟩, ⟨_, _, ⟨-, rfl⟩, ⟨_, _,
      ⟨fits, form, carries, rfl⟩, ⟨-, rfl⟩, rfl⟩, rfl⟩, rfl⟩, rfl⟩ := h
    exact ⟨fits, form, carries, rfl⟩
  · intro h
    obtain ⟨fits, form, carries, rfl⟩ := h
    exact ⟨(bump.feeSource, bump.fee, bump.inner, ()), ⟨_, _, ⟨trivial, rfl⟩, ⟨_, _,
      ⟨trivial, rfl⟩, ⟨_, _, ⟨fits, form, carries, rfl⟩, ⟨trivial, rfl⟩, rfl⟩, rfl⟩, rfl⟩, rfl⟩

/-- Fee bumps are written behind what is there. -/
lemma appends : codec.Appends := by
  have inner := (Signed.appends Transaction.appends).tagged "FeeBumpInnerTx" 2
  have ext := (Codec.Lawful.void.versioned "FeeBumpTransactionExt").appends
  exact (MuxedAccount.lawful.appends.pair
    (Codec.Lawful.int64.appends.pair (inner.pair ext))).map _ _

/-- A fee bump is written with the preconditions of its transaction in the shortest form. -/
lemma encode_eq (bump : FeeBump) :
    codec.encode bump = bump.bytesWith bump.inner.content.preconditions.form := by
  have signed := Signed.appends Transaction.appends
  have ext := (Codec.Lawful.void.versioned "FeeBumpTransactionExt").appends
  have from_inner := (signed.tagged "FeeBumpInnerTx" 2).pair ext
  have from_fee := Codec.Lawful.int64.appends.pair from_inner
  rw [codec, Codec.encode_map, from_fee.encode_pair, from_inner.encode_pair, ext.encode_pair,
    signed.encode_tagged, Signed.encode_eq, Transaction.encode_eq]
  rfl

end FeeBump

namespace Envelope

/-- The preconditions of the transaction in an envelope. -/
def preconditions : Envelope → Preconditions
  | .transaction tx => tx.content.preconditions
  | .feeBump bump => bump.content.inner.content.preconditions

/-- An envelope on the wire, with the preconditions of its transaction in the given form. The older
layout has no forms of preconditions. -/
def bytesWith (form : PreconditionForm) : Envelope → Bytes
  | .transaction ⟨s, .v0⟩ => Codec.int32.encode 0 ++ (Signed.codec Transaction.legacyCodec).encode s
  | .transaction ⟨s, .v1⟩ => Codec.int32.encode 2 ++ s.bytesWith form
  | .feeBump s => Codec.int32.encode 5 ++
    (s.content.bytesWith form ++ DecoratedSignature.listCodec.encode s.signatures)

/-- Whether an envelope is within the limits of the wire. -/
def Fits : Envelope → Prop
  | .transaction ⟨s, .v0⟩ =>
    s.Fits ∧ s.content.source.isMuxed = false ∧ s.content.preconditions.beyondTime = false
  | .transaction ⟨s, .v1⟩ => s.Fits
  | .feeBump s => s.content.inner.Fits ∧ s.signatures.length ≤ Limits.maxSignatures

/-- An envelope is read from its wire forms, whichever form its preconditions have in them. -/
theorem accepts : codec.read.Accepts fun e bytes =>
    e.Fits ∧ ∃ form, Preconditions.ofForm form = e.preconditions ∧ bytes = e.bytesWith form := by
  have legacy := Signed.legacy_lawful.accepts
  have current := Signed.transaction_accepts
  have bump := Signed.accepts FeeBump.accepts
  refine .congr (Codec.union_accepts ⟨⟨_, legacy⟩, ⟨_, current⟩, ⟨_, bump⟩⟩ (by decide))
    fun e bytes => ?_
  apply Iff.intro
  · intro h
    obtain ⟨arm, mem, p, x, read, rfl, rfl⟩ := h
    simp only [List.mem_cons, List.not_mem_nil, or_false] at mem
    obtain rfl | rfl | rfl := mem
    · -- The older layout has no forms, so any form that carries the preconditions will do.
      obtain ⟨fits, rfl⟩ := legacy.runAll_eq_ok.1 read
      exact ⟨fits, _, Preconditions.ofForm_form _, rfl⟩
    · obtain ⟨fits, form, carries, rfl⟩ := current.runAll_eq_ok.1 read
      exact ⟨fits, form, carries, rfl⟩
    · obtain ⟨le, _, ⟨fits, form, carries, rfl⟩, rfl⟩ := bump.runAll_eq_ok.1 read
      exact ⟨⟨fits, le⟩, form, carries, rfl⟩
  · intro h
    obtain ⟨fits, form, carries, rfl⟩ := h
    obtain ⟨s, _ | _⟩ | s := e
    · have read := legacy.runAll_eq_ok.2 ⟨fits, rfl⟩
      exact ⟨_, .head _, s, _, read, rfl, rfl⟩
    · have read := current.runAll_eq_ok.2 ⟨fits, form, carries, rfl⟩
      exact ⟨_, .tail _ (.head _), s, _, read, rfl, rfl⟩
    · have read := bump.runAll_eq_ok.2 ⟨fits.2, _, ⟨fits.1, form, carries, rfl⟩, rfl⟩
      exact ⟨_, .tail _ (.tail _ (.head _)), s, _, read, rfl, rfl⟩

/-- An envelope is written behind what is there, and everywhere in the same way. -/
lemma appends : codec.Appends := by
  have behind : ∀ {α : Type} {c : Codec α} {v : α} {tag : Int32} {e : Envelope}, c.Appends →
      (∀ w, codec.write e w = c.write v (w.int32 tag)) →
        ∀ w, (codec.write e w).bytes = w.bytes ++ codec.encode e := by
    intro α c v tag e h arm w
    rw [Codec.encode, arm, arm, h, h, Writer.bytes_int32, Writer.bytes_int32, Writer.bytes_empty,
      List.nil_append, List.append_assoc]
  rintro (⟨s, _ | _⟩ | s)
  · exact behind (Signed.appends Transaction.legacyCodec_lawful.appends) fun _ => rfl
  · exact behind (Signed.appends Transaction.appends) fun _ => rfl
  · exact behind (Signed.appends FeeBump.appends) fun _ => rfl

/-- An envelope is written with the preconditions of its transaction in the shortest form. -/
lemma encode_eq (e : Envelope) : codec.encode e = e.bytesWith e.preconditions.form := by
  obtain ⟨s, _ | _⟩ | s := e
  · exact Signed.appends Transaction.legacyCodec_lawful.appends s _
  · have written : codec.encode (.transaction ⟨s, .v1⟩) =
        Codec.int32.encode 2 ++ (Signed.codec Transaction.codec).encode s :=
      Signed.appends Transaction.appends s _
    rw [written, Signed.encode_eq, Transaction.encode_eq]
    rfl
  · have written : codec.encode (.feeBump s) =
        Codec.int32.encode 5 ++ (Signed.codec FeeBump.codec).encode s :=
      Signed.appends FeeBump.appends s _
    rw [written, Signed.encode_eq, FeeBump.encode_eq]
    rfl

/-- An envelope is read back from its wire form exactly when it is within the limits. -/
theorem decode_encode_iff {e : Envelope} : codec.decode (codec.encode e) = .ok e ↔ e.Fits := by
  rw [Codec.decode, accepts.runAll_eq_ok, encode_eq]
  exact and_iff_left ⟨_, Preconditions.ofForm_form _, rfl⟩

/-- The preconditions of an envelope that fits have no more extra signers than allowed. -/
lemma Fits.preconditions {e : Envelope} (fits : e.Fits) : e.preconditions.Fits := by
  obtain ⟨s, _ | _⟩ | s := e
  · exact fits.1.content.preconditions
  · exact fits.content.preconditions
  · exact fits.1.content.preconditions

/-- Different forms of the preconditions of an envelope make different bytes, but for the older
layout, which has no forms. -/
lemma bytesWith_inj {e : Envelope} {form form' : PreconditionForm} (fits : form.Fits)
    (fits' : form'.Fits) :
    e.bytesWith form = e.bytesWith form' ↔ e.envelopeType = .txV0 ∨ form = form' := by
  obtain ⟨s, _ | _⟩ | s := e
  · exact iff_of_true rfl (.inl rfl)
  · have forms := Transaction.bytesWith_inj (t := s.content) fits fits'
    simp only [bytesWith, Signed.bytesWith, envelopeType, SignedTransaction.envelopeType,
      Layout.envelopeType, List.append_cancel_left_eq, List.append_cancel_right_eq, forms]
    simp
  · have forms := Transaction.bytesWith_inj (t := s.content.inner.content) fits fits'
    simp only [bytesWith, FeeBump.bytesWith, Signed.bytesWith, envelopeType,
      List.append_cancel_left_eq, List.append_cancel_right_eq, forms]
    simp

end Envelope

/-- The bytes to be signed are the identifier of the network, the tag and the content. -/
lemma signatureBase_eq {α : Type} [Signable α] (appends : (Signable.codec (α := α)).Appends)
    (network : Network) (content : α) :
    signatureBase network content = network.id.bytes ++
      (Codec.int32.encode (Signable.tag α) ++ Signable.codec.encode content) := by
  have unpadded : Bytes.padded network.id.bytes = network.id.bytes := by
    rw [Bytes.padded, network.id.length_eq]
    exact List.append_nil _
  rw [signatureBase, appends, Writer.bytes_int32, Writer.bytes_padded, unpadded,
    Writer.bytes_empty, List.nil_append, Codec.encode_int32, List.append_assoc]

namespace Envelope

/-- What is received is spelled out by the envelope that is read from it: nothing is free in the
input but the form of the preconditions. Writing the envelope again gives the same bytes exactly
when that form was the shortest one, which in the older layout is always so. The bytes to be signed
for a transaction are the network, the tag and the body with its preconditions in the shortest form,
which is the body that was received exactly when it came in that form. -/
theorem decode_spelling {input : Bytes} {e : Envelope} (read : codec.decode input = .ok e) :
    ∃ form, Preconditions.ofForm form = e.preconditions ∧ input = e.bytesWith form ∧
      codec.encode e = e.bytesWith e.preconditions.form ∧
      (codec.encode e = input ↔ e.envelopeType = .txV0 ∨ form = e.preconditions.form) ∧
      ∀ t signatures, e = .transaction ⟨⟨t, signatures⟩, .v1⟩ →
        input = Codec.int32.encode 2 ++
          (t.bytesWith form ++ DecoratedSignature.listCodec.encode signatures) ∧
        ∀ network : Network,
          LedgerWire.signatureBase network t =
            network.id.bytes ++ (Codec.int32.encode 2 ++ t.bytesWith t.preconditions.form) ∧
          (LedgerWire.signatureBase network t =
            network.id.bytes ++ (Codec.int32.encode 2 ++ t.bytesWith form) ↔
              form = t.preconditions.form) := by
  obtain ⟨fits, form, carries, rfl⟩ := accepts.runAll_eq_ok.1 read
  -- Forms differ in their bytes only if they fit, which both do as they carry the same.
  have formFits : form.Fits := by
    rw [← Preconditions.fits_ofForm, carries]
    exact fits.preconditions
  have shortestFits : e.preconditions.form.Fits := by
    rw [← Preconditions.fits_ofForm, Preconditions.ofForm_form]
    exact fits.preconditions
  refine ⟨form, carries, rfl, encode_eq e, ?_, ?_⟩
  · rw [encode_eq, bytesWith_inj shortestFits formFits, eq_comm (a := form)]
  · rintro t signatures rfl
    refine ⟨rfl, fun network => ?_⟩
    have base : LedgerWire.signatureBase network t =
        network.id.bytes ++ (Codec.int32.encode 2 ++ t.bytesWith t.preconditions.form) := by
      rw [← Transaction.encode_eq]
      exact signatureBase_eq Transaction.appends network t
    refine ⟨base, ?_⟩
    rw [base, List.append_cancel_left_eq, List.append_cancel_left_eq]
    exact (Transaction.bytesWith_inj shortestFits formFits).trans eq_comm

/-- A transaction of one operation without preconditions. -/
def bareTransaction : Transaction := ⟨⟨default, none⟩, 100, 1, .none, .none, [⟨none, .inflation⟩]⟩

/-- The envelope of a transaction of one operation without preconditions. -/
def bare : Envelope := .transaction (.unsigned bareTransaction)

/-- The bare transaction is within its limits. -/
lemma bareTransaction_fits : bareTransaction.Fits := by
  refine ⟨Nat.zero_le _, trivial, List.cons_ne_nil _ _, by decide, ?_⟩
  exact List.forall_mem_singleton.2 trivial

/-- Missing preconditions are also read from the full form. -/
lemma decode_bare_full : codec.decode (bare.bytesWith (.full .none)) = .ok bare :=
  accepts.runAll_eq_ok.2 ⟨⟨bareTransaction_fits, Nat.zero_le _⟩, .full .none, rfl, rfl⟩

/-- An envelope whose missing preconditions came in the full form is spelled out by some form. -/
theorem decode_spelling_bare :
    codec.decode (bare.bytesWith (.full .none)) = .ok bare ∧
      ∃ form, Preconditions.ofForm form = bare.preconditions ∧
        bare.bytesWith (.full .none) = bare.bytesWith form := by
  obtain ⟨form, carries, same, -⟩ := decode_spelling decode_bare_full
  exact ⟨decode_bare_full, form, carries, same⟩

/-- An envelope whose missing preconditions came in the full form is not written again as it was,
and what has to be signed is not the body that was received. -/
theorem encode_bare_ne :
    codec.decode (bare.bytesWith (.full .none)) = .ok bare ∧
      codec.encode bare ≠ bare.bytesWith (.full .none) ∧
      ∀ network : Network, LedgerWire.signatureBase network bareTransaction ≠
        network.id.bytes ++ (Codec.int32.encode 2 ++ bareTransaction.bytesWith (.full .none)) := by
  have forms : PreconditionForm.none ≠ .full .none := nofun
  have noneFits : PreconditionForm.none.Fits := trivial
  have fullFits : (PreconditionForm.full .none).Fits := Nat.zero_le _
  have other : bareTransaction.bytesWith .none ≠ bareTransaction.bytesWith (.full .none) :=
    (Transaction.bytesWith_inj noneFits fullFits).not.2 forms
  have otherEnvelope : bare.bytesWith .none ≠ bare.bytesWith (.full .none) :=
    (bytesWith_inj noneFits fullFits).not.2 fun h => h.elim nofun forms
  refine ⟨decode_bare_full, ?_, fun network same => ?_⟩
  · rw [encode_eq]
    exact otherEnvelope
  · have base := signatureBase_eq Transaction.appends network bareTransaction
    have body : Transaction.codec.encode bareTransaction = bareTransaction.bytesWith .none :=
      Transaction.encode_eq bareTransaction
    rw [same] at base
    exact other (body.symm.trans (List.append_cancel_left (List.append_cancel_left base)).symm)

end Envelope

end LedgerWire
