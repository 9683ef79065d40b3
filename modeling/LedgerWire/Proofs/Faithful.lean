import LedgerWire.Proofs.Binding
import LedgerWire.Proofs.Signatures
import LedgerWire.Proofs.Wire.Faithful

/-!
# Envelopes are read back or refused

What a transaction may hold is bounded by the rules, by what reading accepts and by the layout it
travels in. The rules leave two things open, the predicates of claimants and the names of sponsored
data entries, so an envelope that can be had need not be read back. But no other envelope is ever
read from what is written of it, however deep its predicates and however long its names are.
-/

namespace LedgerWire

/-- What is read from the wire form of a key of the ledger is the key. -/
lemma LedgerKey.faithful : codec.Faithful fun _ => True := by
  have trustLine := AccountId.lawful.pair TrustLineAsset.lawful
  have offer := AccountId.lawful.pair .int64
  have name : (Codec.text Limits.dataEntryBytes).Faithful _ := .text (by decide)
  have data := AccountId.lawful.faithful.pair name
  refine .union tag
    ⟨.of_inverse AccountId.lawful.appends ?_, .of_inverse trustLine.appends ?_,
      .of_inverse offer.appends ?_, .of_inverse data.appends ?_,
      .of_inverse BalanceId.lawful.appends ?_, .of_inverse PoolId.lawful.appends ?_⟩
    ⟨AccountId.lawful.faithful, trustLine.faithful.mono fun _ _ => ⟨trivial, trivial⟩,
      offer.faithful.mono fun _ _ => ⟨trivial, trivial⟩, data.mono fun _ _ => ⟨trivial, trivial⟩,
      BalanceId.lawful.faithful, PoolId.lawful.faithful⟩ (by decide) fun v => by cases v <;> rfl
  all_goals exact ⟨fun v p known => by cases v <;> cases known; rfl, fun _ => rfl, fun _ => rfl⟩

/-- What is read from the wire form of an end of sponsorship is that end. -/
lemma RevokeSponsorship.faithful : codec.Faithful fun _ => True := by
  have signer := AccountId.lawful.pair SignerKey.lawful
  refine .union tag ⟨.of_inverse LedgerKey.lawful.appends ?_, .of_inverse signer.appends ?_⟩
    ⟨LedgerKey.faithful, signer.faithful.mono fun _ _ => ⟨trivial, trivial⟩⟩ (by decide)
    fun v => by cases v <;> rfl
  all_goals exact ⟨fun v p known => by cases v <;> cases known; rfl, fun _ => rfl, fun _ => rfl⟩

/-- What is read from the wire form of an amount set aside is the amount. -/
lemma CreateClaimableBalance.faithful :
    codec.Faithful fun op => op.claimants.length < 2 ^ 32 :=
  lawful.faithful_of_separates separates fun _ fits => Nat.lt_of_le_of_lt fits.1 (by decide)

namespace OperationBody

/-- Whether the wire form of what an operation does tells it or is refused. Nothing bounds the name
of a sponsored data entry, but where its length does not fit its field, reading refuses it. -/
def Checked : OperationBody → Prop
  | .revokeSponsorship _ => True
  | body => body.Legible

/-- What is read from the wire form of a checked body is the body. -/
lemma faithful : codec.Faithful Checked :=
  .union typeCode (arms_lawful.imp fun _ h => h.toSound)
    ⟨CreateAccount.lawful.faithful, Payment.lawful.faithful, PathPayment.lawful.faithful,
      Offer.lawful.faithful, PassiveOffer.lawful.faithful, SetOptions.lawful.faithful,
      ChangeTrust.lawful.faithful, AllowTrust.lawful.faithful, MuxedAccount.lawful.faithful,
      Codec.Lawful.void.faithful, ManageData.lawful.faithful, Codec.Lawful.int64.faithful,
      Offer.lawful.faithful, PathPayment.lawful.faithful, CreateClaimableBalance.faithful,
      BalanceId.lawful.faithful, AccountId.lawful.faithful, Codec.Lawful.void.faithful,
      RevokeSponsorship.faithful, Clawback.lawful.faithful, BalanceId.lawful.faithful,
      SetTrustLineFlags.lawful.faithful, PoolDeposit.lawful.faithful,
      PoolWithdrawal.lawful.faithful⟩ (by decide) fun v => by cases v <;> rfl

/-- What is legible is checked as far as it must be. -/
lemma Legible.checked {body : OperationBody} (legible : body.Legible) : body.Checked := by
  cases body with
  | revokeSponsorship target => trivial
  | _ => exact legible

/-- What passes the rules is checked as far as it must be. -/
lemma checked_of_validate {body : OperationBody} (valid : body.validate = .ok ()) :
    body.Checked := by
  cases body with
  | revokeSponsorship target => trivial
  | _ => exact Legible.checked (legible_of_validate valid trivial)

end OperationBody

/-- What is read from the wire form of a checked operation is the operation. -/
lemma Operation.faithful : codec.Faithful fun op => op.body.Checked :=
  (MuxedAccount.lawful.optional.faithful.pair OperationBody.faithful).map fun _ checked =>
    ⟨⟨fun _ _ => trivial, checked⟩, rfl⟩

/-- Preconditions are read back from the shortest form that carries them. -/
lemma Preconditions.faithful : codec.Faithful Fits := by
  refine PreconditionForm.lawful.faithful.map fun p fits => ⟨?_, ofForm_form p⟩
  rwa [← fits_ofForm, ofForm_form]

namespace Transaction

/-- Whether the wire form of a transaction tells it or is refused. -/
structure Checked (t : Transaction) : Prop where
  preconditions : t.preconditions.Fits
  memo : t.memo.Fits
  count : t.operations.length < 2 ^ 32
  operations : ∀ op ∈ t.operations, op.body.Checked

/-- A transaction within the limits of the wire is checked as far as it must be. -/
lemma Fits.checked {t : Transaction} (fits : t.Fits) : t.Checked where
  preconditions := fits.preconditions
  memo := fits.memo
  count := fits.legible.count
  operations op mem := (fits.legible.operations op mem).checked

/-- A transaction that was made is checked as far as it must be. -/
lemma checked_of_make {source : MuxedAccount} {fee : UInt32} {sequence : Int64}
    {operations : List Operation} {memo : Memo} {preconditions : Preconditions} {t : Transaction}
    (made : make source fee sequence operations memo preconditions = .ok t) : t.Checked := by
  obtain ⟨⟨-, few⟩, each, conditions, attached, rfl⟩ := make_eq_ok.1 made
  exact ⟨Preconditions.fits_of_validate conditions, Memo.validate_eq_ok.1 attached,
    Nat.lt_of_le_of_lt few (by decide),
    fun op mem => OperationBody.checked_of_validate (each op mem)⟩

/-- What is read from the wire form of checked operations are the operations. -/
lemma operationsCodec_faithful :
    operationsCodec.Faithful fun ops => ops.length < 2 ^ 32 ∧ ∀ op ∈ ops, op.body.Checked := by
  refine (Operation.faithful.list Limits.maxOperations).check fun ops checked => ⟨checked, ?_⟩
  intro ops' passed
  split at passed
  case isTrue => cases passed
  case isFalse =>
    cases passed
    rfl

/-- The fields behind the preconditions are read back or refused. -/
lemma tail_faithful (name : String) :
    (Codec.pair Memo.codec <| .pair operationsCodec <| .versioned name .void).Faithful fun p =>
      p.1.Fits ∧ p.2.1.length < 2 ^ 32 ∧ ∀ op ∈ p.2.1, op.body.Checked :=
  (Memo.lawful.faithful.pair <| operationsCodec_faithful.pair
    (Codec.Lawful.void.versioned name).faithful).mono fun _ h => ⟨h.1, h.2, trivial⟩

/-- What is read from the wire form of a checked transaction is the transaction. -/
theorem faithful : codec.Faithful Checked :=
  (MuxedAccount.lawful.faithful.pair <| Codec.Lawful.uint32.faithful.pair <|
    Codec.Lawful.int64.faithful.pair <| Preconditions.faithful.pair (tail_faithful _)).map
    fun _ h => ⟨⟨trivial, trivial, trivial, h.preconditions, h.memo, h.count, h.operations⟩, rfl⟩

/-- The older layout reads back what it has a place for. -/
theorem legacyCodec_faithful : legacyCodec.Faithful fun t => t.Checked ∧ t.Plain := by
  have fields := (Codec.Lawful.fixed 32).faithful.pair <| Codec.Lawful.uint32.faithful.pair <|
    Codec.Lawful.int64.faithful.pair <| TimeBounds.lawful.optional.faithful.pair <|
    tail_faithful "TransactionV0Ext"
  exact fields.map fun t ⟨h, plain⟩ =>
    ⟨⟨trivial, trivial, trivial, fun _ _ => trivial, h.memo, h.count, h.operations⟩, plain.kept⟩

end Transaction

/-- Something signed is read back or refused, if the number of signatures fits its field. -/
lemma Signed.faithful {α : Type} {content : Codec α} {P : α → Prop} (h : content.Faithful P) :
    (Signed.codec content).Faithful fun s => P s.content ∧ s.signatures.length < 2 ^ 32 := by
  have signatures : DecoratedSignature.listCodec.Faithful _ :=
    DecoratedSignature.lawful.faithful.list Limits.maxSignatures
  exact (h.pair signatures).map fun s ⟨held, few⟩ => ⟨⟨held, few, fun _ _ => trivial⟩, rfl⟩

namespace FeeBump

/-- Whether the wire form of a fee bump tells it or is refused. -/
structure Checked (bump : FeeBump) : Prop where
  inner : bump.inner.content.Checked
  signatures : bump.inner.signatures.length ≤ Limits.maxSignatures

/-- What is read from the wire form of a checked fee bump is the fee bump. -/
theorem faithful : codec.Faithful Checked := by
  have inner := (Signed.faithful Transaction.faithful).tagged "FeeBumpInnerTx" 2
  have ext := (Codec.Lawful.void.versioned "FeeBumpTransactionExt").faithful
  refine (MuxedAccount.lawful.faithful.pair <| Codec.Lawful.int64.faithful.pair <|
    inner.pair ext).map fun bump h => ⟨⟨trivial, trivial, ⟨h.inner, ?_⟩, trivial⟩, rfl⟩
  exact Nat.lt_of_le_of_lt h.signatures (by decide)

end FeeBump

namespace Envelope

/-- Whether the wire form of an envelope tells it or is refused. -/
def Checked : Envelope → Prop
  | .transaction tx => tx.Sound ∧ tx.content.Checked
  | .feeBump bump => bump.content.Checked ∧ bump.signatures.length ≤ Limits.maxSignatures

/-- An envelope is read back or refused. -/
theorem faithful : codec.Faithful Checked := by
  have legacy := Signed.faithful Transaction.legacyCodec_faithful
  have current := Signed.faithful Transaction.faithful
  have bump := Signed.faithful FeeBump.faithful
  have few : Limits.maxSignatures < 2 ^ 32 := by decide
  refine .union (fun e => e.envelopeType.tag)
    ⟨.of_inverse legacy.appends ?_, .of_inverse current.appends ?_, .of_inverse bump.appends ?_⟩
    ⟨legacy.mono ?legacy, current.mono ?current, bump.mono ?bump⟩ (by decide) ?covers
  case legacy =>
    intro s ⟨sound, checked⟩
    exact ⟨⟨checked, Transaction.plain_iff.2 (sound.layout rfl)⟩,
      Nat.lt_of_le_of_lt sound.signatures few⟩
  case current =>
    intro s ⟨sound, checked⟩
    exact ⟨checked, Nat.lt_of_le_of_lt sound.signatures few⟩
  case bump =>
    intro s ⟨checked, le⟩
    exact ⟨checked, Nat.lt_of_le_of_lt le few⟩
  case covers =>
    intro e
    obtain ⟨s, _ | _⟩ | s := e
    all_goals rfl
  all_goals
    refine ⟨fun e s known => ?_, fun _ => rfl, fun _ => rfl⟩
    obtain ⟨s', _ | _⟩ | s' := e
    all_goals cases known
    rfl

/-- Of a checked envelope nothing but itself is read, and that exactly when it is within the
limits. -/
lemma Checked.decode_encode_eq_ok {e e' : Envelope} (h : e.Checked) :
    codec.decode (codec.encode e) = .ok e' ↔ e' = e ∧ e.Fits := by
  apply Iff.intro
  · intro read
    obtain rfl := faithful.eq_of_decode h read
    exact ⟨rfl, decode_encode_iff.1 read⟩
  · intro ⟨same, fits⟩
    subst same
    exact decode_encode_iff.2 fits

/-- An envelope within the limits of the wire is checked as far as it must be. -/
lemma Fits.checked {e : Envelope} (fits : e.Fits) : e.Checked := by
  obtain ⟨s, _ | _⟩ | s := e
  · exact ⟨⟨fits.1.signatures, fun _ => fits.2⟩, fits.1.content.checked⟩
  · exact ⟨⟨fits.signatures, nofun⟩, fits.content.checked⟩
  · exact ⟨⟨fits.1.content.checked, fits.1.signatures⟩, fits.2⟩

/-- Everything that can be had is checked, by the rules or by reading, and stays so through
requests. -/
theorem Obtained.checked {e : Envelope} (h : e.Obtained) : e.Checked := by
  induction h with
  | made made =>
    obtain ⟨_, _, _, _, _, _, t, valid, rfl⟩ := made.exists_make
    exact ⟨SignedTransaction.sound_unsigned t, Transaction.checked_of_make valid⟩
  | bumped _ made ih =>
    have same := FeeBump.inner_of_make made
    refine ⟨⟨?_, ?_⟩, Nat.zero_le _⟩
    · rw [same]
      exact ih.2
    · rw [same]
      exact ih.1.signatures
  | read read => exact (accepts.runAll_eq_ok.1 read).1.checked
  | inner _ ih => exact ⟨⟨ih.1.signatures, nofun⟩, ih.1.inner⟩
  | transactionAfter _ requests ih =>
    obtain ⟨same, sound⟩ := ih.1.run requests
    rw [Carrier.after_transactions]
    refine ⟨sound, ?_⟩
    rw [same]
    exact ih.2
  | @feeBumpAfter bump _ requests ih =>
    have later : bump.Extends (Carrier.feeBumps.after bump requests) :=
      Carrier.ofSigned_lawful.after_extends bump requests
    refine ⟨?_, later.length_le ih.2⟩
    rw [later.content]
    exact ih.1

end Envelope

end LedgerWire

/-!
## The older layout loses nothing

A transaction may travel in the older layout only if that has a place for all it holds, and requests
keep it so. Then it does not matter which of the two layouts is written: both are read, or neither
is, and what is read is the same transaction with the same bytes to be signed.
-/

namespace LedgerWire.SignedTransaction

/-- The older layout is granted to transactions for which it has a place. -/
lemma attempt_travelInPlace_txV0 {tx : SignedTransaction} :
    ((travelInPlace .txV0).attempt tx).1 = .ok () ↔ tx.content.Plain := by
  have granted : ((travelInPlace .txV0).attempt tx).1 = .ok () ↔
      ¬ (tx.content.source.isMuxed = true ∨ tx.content.preconditions.beyondTime = true) :=
    (Carrier.transactions_lawful tx (.travel .txV0)).eq_ok_iff
  rw [granted, not_or, Bool.not_eq_true, Bool.not_eq_true, Transaction.plain_iff]

/-- What is read from the envelope of a transaction in a layout. -/
def readIn (layout : Layout) (tx : SignedTransaction) : Except WireFault Envelope :=
  Envelope.codec.decode (Envelope.codec.encode (.transaction ⟨tx.toSigned, layout⟩))

/-- From either layout that loses nothing a transaction is read as it is, if it is within the limits
of the wire. -/
lemma Sound.readIn_eq_ok {tx : SignedTransaction} (sound : tx.Sound) (checked : tx.content.Checked)
    (layout : Layout) (lossless : layout = .v0 → tx.content.Plain) (e : Envelope) :
    tx.readIn layout = .ok e ↔ e = .transaction ⟨tx.toSigned, layout⟩ ∧ tx.content.Fits := by
  have other : SignedTransaction.Sound ⟨tx.toSigned, layout⟩ :=
    ⟨sound.signatures, fun legacy => Transaction.plain_iff.1 (lossless legacy)⟩
  have envelope : (Envelope.transaction ⟨tx.toSigned, layout⟩).Checked := ⟨other, checked⟩
  rw [readIn, envelope.decode_encode_eq_ok, other.fits_iff]

/-- Of every transaction that can be had, the older layout is granted exactly if its source has no
number beside it and at most a window of time is set. A transaction that is in the older layout is
such a one. Its envelope is read exactly when that in the newer layout is, and then both give what
was written, the same in everything but the layout and with the same bytes to be signed. -/
theorem legacy_lossless {tx : SignedTransaction} (obtained : (Envelope.transaction tx).Obtained) :
    (((travelInPlace .txV0).attempt tx).1 = .ok () ↔ tx.content.Plain) ∧
      (tx.envelopeType = .txV0 →
        tx.content.Plain ∧
        ((∃ e, tx.readIn .v0 = .ok e) ↔ ∃ e, tx.readIn .v1 = .ok e) ∧
        ∀ e e', tx.readIn .v0 = .ok e → tx.readIn .v1 = .ok e' →
          e = .transaction ⟨tx.toSigned, .v0⟩ ∧ e' = .transaction ⟨tx.toSigned, .v1⟩ ∧
            ∀ network, e.signatureBase network = e'.signatureBase network) := by
  refine ⟨attempt_travelInPlace_txV0, fun legacy => ?_⟩
  obtain ⟨sound, checked⟩ := obtained.checked
  have layout : tx.layout = .v0 := by
    cases same : tx.layout with
    | v0 => rfl
    | v1 =>
      rw [envelopeType, same] at legacy
      cases legacy
  have plain := Transaction.plain_iff.2 (sound.layout layout)
  have older := sound.readIn_eq_ok checked .v0 fun _ => plain
  have newer := sound.readIn_eq_ok checked .v1 fun older => absurd older (by decide)
  refine ⟨plain, ?_, fun e e' read read' => ?_⟩
  · simp only [older, newer, exists_eq_left]
  · obtain ⟨rfl, -⟩ := (older e).1 read
    obtain ⟨rfl, -⟩ := (newer e').1 read'
    exact ⟨rfl, rfl, fun _ => rfl⟩

/-- A transaction of one operation that took the older layout is read from both layouts. -/
theorem legacy_lossless_bare :
    let tx := Carrier.transactions.after (.unsigned Envelope.bareTransaction) [.travel .txV0]
    tx.envelopeType = .txV0 ∧ (∃ e, tx.readIn .v0 = .ok e) ∧ (∃ e, tx.readIn .v1 = .ok e) ∧
      ((travelInPlace .txV0).attempt tx).1 = .ok () := by
  intro tx
  have obtained : (Envelope.transaction tx).Obtained := .transactionAfter (.made made_bare) _
  have legacy : tx.envelopeType = .txV0 := rfl
  have read : tx.readIn .v1 = .ok (.transaction ⟨tx.toSigned, .v1⟩) :=
    Envelope.decode_encode_iff.2 ⟨Envelope.bareTransaction_fits, Nat.zero_le _⟩
  obtain ⟨granted, lossless⟩ := legacy_lossless obtained
  obtain ⟨plain, both, -⟩ := lossless legacy
  exact ⟨legacy, both.2 ⟨_, read⟩, ⟨_, read⟩, granted.2 plain⟩

end LedgerWire.SignedTransaction
