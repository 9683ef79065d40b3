import LedgerWire.Proofs.Envelope
import LedgerWire.Proofs.Rules
import LedgerWire.Proofs.Wire.Separation

/-!
# What a signature binds

A signature is made over the hash of the signature base, and these bytes determine the network and
everything that is signed. The wire form of a transaction tells it apart even where it is beyond the
limits of reading, as a predicate of many levels is: what counts is that the rules for transactions
were followed and that lengths fit their fields.
-/

namespace LedgerWire

/-- Predicates of any depth are told apart. -/
lemma ClaimPredicate.separates : codec.Separates fun _ => True := by
  intro p p' rest rest' _ _ same
  -- No reader in use goes as deep as these may be, but one that does tells them apart.
  have deep := Codec.separates_of_accepts (readWithin_accepts (max p.depth p'.depth))
  exact deep p p' rest rest' (Nat.le_max_left _ _) (Nat.le_max_right _ _) same

/-- Claimants are told apart by their wire forms, however deep their conditions. -/
lemma Claimant.separates : codec.Separates fun _ => True := by
  have fields := AccountId.lawful.separates.pair ClaimPredicate.separates ClaimPredicate.appends
  have appends := AccountId.lawful.appends.pair ClaimPredicate.appends
  exact ((fields.map fun _ => rfl).tagged (appends.map _ _) _ 0).mono fun _ _ => ⟨trivial, trivial⟩

/-- Amounts set aside for claimants whose number fits its field are told apart. -/
lemma CreateClaimableBalance.separates :
    codec.Separates fun op => op.claimants.length < 2 ^ 32 := by
  have claimants := Claimant.separates.list Claimant.lawful.appends Limits.maxClaimants
  have claimantsAppend := Claimant.lawful.appends.list Limits.maxClaimants
  have amounts := Codec.Lawful.int64.separates.pair claimants claimantsAppend
  have fields := Asset.lawful.separates.pair amounts
    (Codec.Lawful.int64.appends.pair claimantsAppend)
  exact (fields.map fun _ => rfl).mono fun op few => ⟨trivial, trivial, few, fun _ _ => trivial⟩

/-- Whether the lengths in a key of an entry fit their fields. -/
def LedgerKey.Countable : LedgerKey → Prop
  | .data _ name => (Bytes.ofText name).length < 2 ^ 32
  | _ => True

/-- Keys of entries whose lengths fit their fields are told apart. -/
lemma LedgerKey.separates : codec.Separates Countable := by
  have trustLine := AccountId.lawful.pair TrustLineAsset.lawful
  have offer := AccountId.lawful.pair .int64
  have data := AccountId.lawful.separates.pair (.text Limits.dataEntryBytes) (.text _)
  refine .union tag
    ⟨.of_inverse AccountId.lawful.appends ?_, .of_inverse trustLine.appends ?_,
      .of_inverse offer.appends ?_, .of_inverse (AccountId.lawful.appends.pair (.text _)) ?_,
      .of_inverse BalanceId.lawful.appends ?_, .of_inverse PoolId.lawful.appends ?_⟩
    ⟨AccountId.lawful.separates, trustLine.separates.mono fun _ _ => ⟨trivial, trivial⟩,
      offer.separates.mono fun _ _ => ⟨trivial, trivial⟩, data.mono fun _ h => ⟨trivial, h⟩,
      BalanceId.lawful.separates, PoolId.lawful.separates⟩ (by decide) fun v => by cases v <;> rfl
  all_goals exact ⟨fun v p known => by cases v <;> cases known; rfl, fun _ => rfl, fun _ => rfl⟩

/-- Whether the lengths in what a sponsor stops paying for fit their fields. -/
def RevokeSponsorship.Countable : RevokeSponsorship → Prop
  | .entry key => key.Countable
  | .signer _ _ => True

/-- What a sponsor stops paying for is told apart when its lengths fit their fields. -/
lemma RevokeSponsorship.separates : codec.Separates Countable := by
  have signer := AccountId.lawful.pair SignerKey.lawful
  refine .union tag ⟨.of_inverse LedgerKey.lawful.appends ?_, .of_inverse signer.appends ?_⟩
    ⟨LedgerKey.separates, signer.separates.mono fun _ _ => ⟨trivial, trivial⟩⟩ (by decide)
    fun v => by cases v <;> rfl
  all_goals exact ⟨fun v p known => by cases v <;> cases known; rfl, fun _ => rfl, fun _ => rfl⟩

namespace OperationBody

/-- Whether the wire form of what an operation does tells it: it is within the limits of the wire,
or only the depth of a predicate or the length of the name of a sponsored data entry is not. -/
def Legible : OperationBody → Prop
  | .createClaimableBalance op => op.claimants.length < 2 ^ 32
  | .revokeSponsorship target => target.Countable
  | body => body.Fits

/-- What operations do is told apart. -/
lemma separates : codec.Separates Legible :=
  .union typeCode (arms_lawful.imp fun _ h => h.toSound)
    ⟨CreateAccount.lawful.separates, Payment.lawful.separates, PathPayment.lawful.separates,
      Offer.lawful.separates, PassiveOffer.lawful.separates, SetOptions.lawful.separates,
      ChangeTrust.lawful.separates, AllowTrust.lawful.separates, MuxedAccount.lawful.separates,
      Codec.Lawful.void.separates, ManageData.lawful.separates, Codec.Lawful.int64.separates,
      Offer.lawful.separates, PathPayment.lawful.separates, CreateClaimableBalance.separates,
      BalanceId.lawful.separates, AccountId.lawful.separates, Codec.Lawful.void.separates,
      RevokeSponsorship.separates, Clawback.lawful.separates, BalanceId.lawful.separates,
      SetTrustLineFlags.lawful.separates, PoolDeposit.lawful.separates,
      PoolWithdrawal.lawful.separates⟩ (by decide) fun v => by cases v <;> rfl

end OperationBody

/-- Legible operations are told apart by their wire forms. -/
lemma Operation.separates : codec.Separates fun op => op.body.Legible := by
  have fields := MuxedAccount.lawful.optional.separates.pair OperationBody.separates
    OperationBody.lawful.appends
  exact (fields.map fun _ => rfl).mono fun op legible => ⟨fun _ _ => trivial, legible⟩

/-- Preconditions are told apart by the shortest forms that carry them. -/
lemma Preconditions.separates : codec.Separates Fits := by
  refine (PreconditionForm.lawful.separates.map ofForm_form).mono fun p fits => ?_
  rwa [← fits_ofForm, ofForm_form]

namespace Transaction

/-- Whether the wire form of a transaction tells it. -/
structure Legible (t : Transaction) : Prop where
  preconditions : t.preconditions.Fits
  memo : t.memo.Fits
  count : t.operations.length < 2 ^ 32
  operations : ∀ op ∈ t.operations, op.body.Legible

/-- Transactions are told apart. -/
theorem separates : codec.Separates Legible := by
  have operations : operationsCodec.Separates _ :=
    Operation.separates.list Operation.lawful.appends Limits.maxOperations
  have ext := Codec.Lawful.void.versioned "TransactionExt"
  have from_operations := operations.pair ext.separates ext.appends
  have from_memo := Memo.lawful.separates.pair from_operations
    (operationsCodec_lawful.appends.pair ext.appends)
  have from_preconditions := Preconditions.separates.pair from_memo (tail_lawful _).appends
  have appends := Preconditions.appends.pair (tail_lawful "TransactionExt").appends
  have from_sequence := Codec.Lawful.int64.separates.pair from_preconditions appends
  have from_fee := Codec.Lawful.uint32.separates.pair from_sequence
    (Codec.Lawful.int64.appends.pair appends)
  have fields := MuxedAccount.lawful.separates.pair from_fee
    (Codec.Lawful.uint32.appends.pair (Codec.Lawful.int64.appends.pair appends))
  exact (fields.map fun _ => rfl).mono fun t legible => ⟨trivial, trivial, trivial,
    legible.preconditions, legible.memo, ⟨legible.count, legible.operations⟩, trivial⟩

end Transaction

/-- Something signed is told apart with its signatures, if their number fits its field. -/
lemma Signed.separates {α : Type} {content : Codec α} {P : α → Prop} (h : content.Separates P) :
    (Signed.codec content).Separates fun s => P s.content ∧ s.signatures.length < 2 ^ 32 := by
  have signatures : DecoratedSignature.listCodec.Separates _ :=
    DecoratedSignature.lawful.separates.list DecoratedSignature.lawful.appends
      Limits.maxSignatures
  have fields := h.pair signatures DecoratedSignature.listCodec_lawful.appends
  exact (fields.map fun _ => rfl).mono fun s ⟨told, few⟩ => ⟨told, few, fun _ _ => trivial⟩

namespace FeeBump

/-- Whether the wire form of a fee bump tells it. -/
structure Legible (bump : FeeBump) : Prop where
  inner : bump.inner.content.Legible
  signatures : bump.inner.signatures.length < 2 ^ 32

/-- Fee bumps are told apart, the signatures inside of them included. -/
theorem separates : codec.Separates Legible := by
  have signed := Signed.appends Transaction.appends
  have inner := (Signed.separates Transaction.separates).tagged signed "FeeBumpInnerTx" 2
  have ext := Codec.Lawful.void.versioned "FeeBumpTransactionExt"
  have from_inner := inner.pair ext.separates ext.appends
  have appends := (signed.tagged "FeeBumpInnerTx" 2).pair ext.appends
  have from_fee := Codec.Lawful.int64.separates.pair from_inner appends
  have fields := MuxedAccount.lawful.separates.pair from_fee
    (Codec.Lawful.int64.appends.pair appends)
  exact (fields.map fun _ => rfl).mono fun bump legible =>
    ⟨trivial, trivial, ⟨legible.inner, legible.signatures⟩, trivial⟩

end FeeBump

/-- Whether the lengths in an operation that neither the rules nor reading bound fit their fields.
There is one such length, that of the name of a sponsored data entry. -/
def OperationBody.Countable : OperationBody → Prop
  | .revokeSponsorship target => target.Countable
  | _ => True

/-- An operation that satisfies the rules is told by its wire form. -/
lemma OperationBody.legible_of_validate {body : OperationBody} (valid : body.validate = .ok ())
    (countable : body.Countable) : body.Legible := by
  cases body with
  | createClaimableBalance op =>
    exact Nat.lt_of_le_of_lt (CreateClaimableBalance.length_le_of_validate valid) (by decide)
  | revokeSponsorship target => exact countable
  | _ => exact (fits_iff_uncheckedFits valid).2 trivial

/-- What is within the limits of the wire is legible. -/
lemma OperationBody.legible_of_fits {body : OperationBody} (fits : body.Fits) : body.Legible := by
  cases body with
  | createClaimableBalance op => exact Nat.lt_of_le_of_lt fits.1 (by decide)
  | revokeSponsorship target =>
    cases target with
    | entry key =>
      cases key with
      | data account name => exact Nat.lt_of_le_of_lt fits (by decide)
      | _ => trivial
    | signer account key => trivial
  | _ => exact fits

namespace Transaction

/-- Whether the lengths in a transaction fit their fields. -/
def Countable (t : Transaction) : Prop := ∀ op ∈ t.operations, op.body.Countable

/-- The transactions that can be had: made by the rules, or read from an envelope, be it the
envelope of a fee bump. -/
inductive Obtained : Transaction → Prop where
  /-- A transaction made of its parts. -/
  | make {source fee sequence operations memo preconditions t}
    (made : make source fee sequence operations memo preconditions = .ok t) : Obtained t
  /-- A transaction read from its envelope. -/
  | read {input tx} (read : Envelope.codec.decode input = .ok (.transaction tx)) :
    Obtained tx.content
  /-- The transaction inside of a fee bump read from its envelope. -/
  | readInner {input bump} (read : Envelope.codec.decode input = .ok (.feeBump bump)) :
    Obtained bump.content.inner.content

/-- A transaction within the limits of the wire is legible. -/
lemma Fits.legible {t : Transaction} (fits : t.Fits) : t.Legible where
  preconditions := fits.preconditions
  memo := fits.memo
  count := Nat.lt_of_le_of_lt fits.operations.2.1 (by decide)
  operations op mem := OperationBody.legible_of_fits (fits.operations.2.2 op mem)

/-- A transaction that can be had is told by its wire form, if its lengths fit their fields. -/
lemma Obtained.legible {t : Transaction} (h : t.Obtained) (countable : t.Countable) :
    t.Legible := by
  cases h with
  | make made =>
    -- Here only the rules are known, which bound less than reading does.
    obtain ⟨⟨_, few⟩, each, conditions, attached, rfl⟩ := make_eq_ok.1 made
    exact ⟨Preconditions.fits_of_validate conditions, Memo.validate_eq_ok.1 attached,
      Nat.lt_of_le_of_lt few (by decide),
      fun op mem => OperationBody.legible_of_validate (each op mem) (countable op mem)⟩
  | @read _ tx read =>
    have fits := (Envelope.accepts.runAll_eq_ok.1 read).1
    obtain ⟨s, _ | _⟩ := tx
    · exact fits.1.content.legible
    · exact fits.content.legible
  | readInner read => exact (Envelope.accepts.runAll_eq_ok.1 read).1.1.content.legible

end Transaction

namespace FeeBump

/-- Whether the lengths in a fee bump fit their fields. -/
def Countable (bump : FeeBump) : Prop :=
  bump.inner.content.Countable ∧ bump.inner.signatures.length < 2 ^ 32

/-- The fee bumps that can be had: made for a transaction that can be had, with any signatures, or
read from an envelope. -/
inductive Obtained : FeeBump → Prop where
  /-- A fee bump made for a transaction. -/
  | make {feeSource baseFee inner bump} (obtained : inner.content.Obtained)
    (made : FeeBump.make feeSource baseFee inner = .ok bump) : Obtained bump
  /-- A fee bump read from its envelope. -/
  | read {input bump} (read : Envelope.codec.decode input = .ok (.feeBump bump)) :
    Obtained bump.content

/-- A fee bump that is made has the transaction and the signatures it is made for. -/
lemma inner_of_make {feeSource : MuxedAccount} {baseFee : Int64} {inner : SignedTransaction}
    {bump : FeeBump} (made : make feeSource baseFee inner = .ok bump) :
    bump.inner = inner.toSigned := by
  obtain ⟨-, -, -, rfl⟩ := make_eq_ok.1 made
  rfl

/-- A fee bump that can be had is told by its wire form, if its lengths fit their fields. -/
lemma Obtained.legible {bump : FeeBump} (h : bump.Obtained) (countable : bump.Countable) :
    bump.Legible := by
  refine ⟨?_, countable.2⟩
  cases h with
  | make obtained made =>
    have same := inner_of_make made
    rw [same]
    exact obtained.legible (by rw [← same]; exact countable.1)
  | read read => exact (Transaction.Obtained.readInner read).legible countable.1

end FeeBump

/-- Equal signature bases are made for one network and of equal wire forms. -/
lemma signatureBase_inj {α β : Type} [Signable α] [Signable β]
    (appends : (Signable.codec (α := α)).Appends) (appends' : (Signable.codec (α := β)).Appends)
    {network network' : Network} {content : α} {content' : β}
    (same : signatureBase network content = signatureBase network' content') :
    network.id = network'.id ∧ Signable.tag α = Signable.tag β ∧
      (Signable.codec (α := α)).encode content = (Signable.codec (α := β)).encode content' := by
  rw [signatureBase_eq appends, signatureBase_eq appends'] at same
  obtain ⟨id, signed⟩ := List.append_inj same
    (network.id.length_eq.trans network'.id.length_eq.symm)
  obtain ⟨tag, contents⟩ := Codec.Lawful.int32.separates _ _ _ _ trivial trivial signed
  exact ⟨FixedBytes.ext id, tag, contents⟩

/-- The bytes that are signed bind everything that is signed. Equal bytes for two transactions come
from one network and from one transaction; equal bytes for two fee bumps come from one network and
from one fee bump, the transaction inside of it and its signatures included; and bytes for a
transaction are never those for a fee bump. -/
theorem signatureBase_binds :
    (∀ (network network' : Network) (t t' : Transaction), t.Obtained → t'.Obtained →
      t.Countable → t'.Countable → signatureBase network t = signatureBase network' t' →
      network.id = network'.id ∧ t = t') ∧
    (∀ (network network' : Network) (bump bump' : FeeBump), bump.Obtained → bump'.Obtained →
      bump.Countable → bump'.Countable → signatureBase network bump = signatureBase network' bump' →
      network.id = network'.id ∧ bump = bump') ∧
    ∀ (network network' : Network) (t : Transaction) (bump : FeeBump),
      signatureBase network t ≠ signatureBase network' bump := by
  refine ⟨?_, ?_, ?_⟩
  · intro network network' t t' h h' few few' same
    obtain ⟨id, -, body⟩ := signatureBase_inj Transaction.appends Transaction.appends same
    refine ⟨id, (Transaction.separates t t' [] [] (h.legible few) (h'.legible few') ?_).1⟩
    exact congrArg (· ++ []) body
  · intro network network' bump bump' h h' few few' same
    obtain ⟨id, -, body⟩ := signatureBase_inj FeeBump.appends FeeBump.appends same
    refine ⟨id, (FeeBump.separates bump bump' [] [] (h.legible few) (h'.legible few') ?_).1⟩
    exact congrArg (· ++ []) body
  · intro network network' t bump same
    obtain ⟨-, tag, -⟩ := signatureBase_inj Transaction.appends FeeBump.appends same
    exact absurd tag (by decide)

namespace Envelope

/-- The bare transaction at twice the fee. -/
def dearTransaction : Transaction := { bareTransaction with fee := 200 }

/-- A fee bump of the bare transaction. -/
def bareBump : FeeBump := ⟨⟨default, none⟩, 200, ⟨bareTransaction, []⟩⟩

/-- A transaction that is offered more has another signature base, and the same transaction read
from an envelope and the same fee bump have the same. -/
theorem signatureBase_bare :
    LedgerWire.signatureBase .testnet bareTransaction ≠
        LedgerWire.signatureBase .pubnet dearTransaction ∧
      (∃ tx : SignedTransaction,
        codec.decode (bare.bytesWith (.full .none)) = .ok (.transaction tx) ∧
          LedgerWire.signatureBase .testnet tx.content =
            LedgerWire.signatureBase .testnet bareTransaction ∧
          tx.content = bareTransaction) ∧
      ∃ bump : FeeBump, FeeBump.make ⟨default, none⟩ 100 (.unsigned bareTransaction) = .ok bump ∧
        LedgerWire.signatureBase .testnet bump = LedgerWire.signatureBase .testnet bareBump ∧
        bump = bareBump := by
  have inflates : ∀ op ∈ bareTransaction.operations, op.body.validate = .ok () :=
    List.forall_mem_singleton.2 rfl
  have countable : bareTransaction.Countable := List.forall_mem_singleton.2 trivial
  have obtained : bareTransaction.Obtained :=
    .make (Transaction.make_eq_ok.2 ⟨by decide, inflates, rfl, rfl, rfl⟩)
  have dear : dearTransaction.Obtained :=
    .make (Transaction.make_eq_ok.2 ⟨by decide, inflates, rfl, rfl, rfl⟩)
  have read : Transaction.Obtained (SignedTransaction.unsigned bareTransaction).content :=
    .read decode_bare_full
  have made : FeeBump.make ⟨default, none⟩ 100 (.unsigned bareTransaction) = .ok bareBump := rfl
  have bumped : bareBump.Obtained := .make obtained made
  have short : bareBump.Countable := ⟨countable, by decide⟩
  obtain ⟨transactions, bumps, -⟩ := signatureBase_binds
  refine ⟨fun same => ?_, ⟨_, decode_bare_full, rfl, ?_⟩, ⟨_, made, rfl, ?_⟩⟩
  · obtain ⟨-, alike⟩ := transactions _ _ _ _ obtained dear countable countable same
    exact absurd (congrArg Transaction.fee alike) (by decide)
  · exact (transactions .testnet .testnet _ _ read obtained countable countable rfl).2
  · exact (bumps .testnet .testnet _ _ bumped bumped short short rfl).2

end Envelope

end LedgerWire
