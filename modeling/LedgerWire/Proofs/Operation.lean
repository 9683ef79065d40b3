import LedgerWire.Operation.Basic
import LedgerWire.Operation.Codec
import LedgerWire.Proofs.Asset
import LedgerWire.Proofs.Claim

/-!
# Operations on the wire

Operations, and the keys of ledger entries in them, are read back from what is written.
-/

/-!
## Keys of ledger entries on the wire

Of the keys of ledger entries only that of a data entry has a limit: the name of the entry has at
most 64 bytes.
-/

namespace LedgerWire

namespace LedgerKey

/-- The tag of a key of the ledger. -/
def tag : LedgerKey → Int32
  | .account _ => 0
  | .trustLine _ _ => 1
  | .offer _ _ => 2
  | .data _ _ => 3
  | .claimableBalance _ => 4
  | .liquidityPool _ => 5

/-- Whether a key is within the limits of the wire. -/
def Fits : LedgerKey → Prop
  | .data _ name => (Bytes.ofText name).length ≤ Limits.dataEntryBytes
  | _ => True

/-- Keys whose names are not too long are read back. -/
lemma lawful : codec.Lawful Fits := by
  have trustLine : (Codec.pair AccountId.codec TrustLineAsset.codec).Lawful
      fun p => Fits (.trustLine p.1 p.2) :=
    (AccountId.lawful.pair TrustLineAsset.lawful).congr fun _ => by simp [Fits]
  have offer : (Codec.pair AccountId.codec .int64).Lawful fun p => Fits (.offer p.1 p.2) :=
    (AccountId.lawful.pair .int64).congr fun _ => by simp [Fits]
  have data : (Codec.pair AccountId.codec (.text Limits.dataEntryBytes)).Lawful
      fun p => Fits (.data p.1 p.2) :=
    (AccountId.lawful.pair (.text (by decide))).congr fun _ => by simp [Fits]
  refine .union _ tag
    ⟨.of_inverse AccountId.lawful ?_, .of_inverse trustLine ?_, .of_inverse offer ?_,
      .of_inverse data ?_, .of_inverse BalanceId.lawful ?_, .of_inverse PoolId.lawful ?_⟩
    (by decide) fun v => by cases v <;> rfl
  all_goals exact ⟨fun v p known => by cases v <;> cases known; rfl, fun _ => rfl, fun _ => rfl⟩

end LedgerKey

namespace RevokeSponsorship

/-- The tag of what is no longer sponsored. -/
def tag : RevokeSponsorship → Int32
  | .entry _ => 0
  | .signer _ _ => 1

/-- Whether what a sponsor stops paying for is within the limits of the wire. -/
def Fits : RevokeSponsorship → Prop
  | .entry key => key.Fits
  | .signer _ _ => True

/-- What a sponsor stops paying for is read back if the name in it is not too long. -/
lemma lawful : codec.Lawful Fits := by
  have signer : (Codec.pair AccountId.codec SignerKey.codec).Lawful
      fun p => Fits (.signer p.1 p.2) :=
    (AccountId.lawful.pair SignerKey.lawful).congr fun _ => by simp [Fits]
  refine .union _ tag ⟨.of_inverse LedgerKey.lawful ?_, .of_inverse signer ?_⟩ (by decide)
    fun v => by cases v <;> rfl
  all_goals exact ⟨fun v p known => by cases v <;> cases known; rfl, fun _ => rfl, fun _ => rfl⟩

end RevokeSponsorship

/-!
## Operations

What an operation needs to be read back: paths, claimants, texts and data values that are not too
long, predicates that are not too deep, and codes that are codes. Every other operation has no limit
on the wire.
-/

/-- Prices have one wire form each and are read back from it. -/
lemma Price.lawful : Price.codec.Lawful fun _ => True :=
  ((Codec.Lawful.pair .int32 .int32).map fun _ _ => rfl).congr fun _ => by simp

/-- Accounts to be made have one wire form each and are read back from it. -/
lemma CreateAccount.lawful : CreateAccount.codec.Lawful fun _ => True :=
  ((AccountId.lawful.pair .int64).map fun _ _ => rfl).congr fun _ => by simp

/-- Payments have one wire form each and are read back from it. -/
lemma Payment.lawful : Payment.codec.Lawful fun _ => True :=
  ((MuxedAccount.lawful.pair <| Asset.lawful.pair .int64).map fun _ _ => rfl).congr fun _ => by simp

/-- Whether a path payment is within the limits of the wire. -/
def PathPayment.Fits (op : PathPayment) : Prop := op.path.length ≤ Limits.maxPathLength

/-- Path payments whose paths are not too long are read back. -/
lemma PathPayment.lawful : PathPayment.codec.Lawful Fits :=
  ((Asset.lawful.pair <| Codec.Lawful.int64.pair <| MuxedAccount.lawful.pair <|
    Asset.lawful.pair <| Codec.Lawful.int64.pair <|
      Asset.lawful.list (by decide) Asset.lawful.union_pos).map fun _ _ => rfl).congr
    fun _ => by simp [Fits]

/-- Offers have one wire form each and are read back from it. -/
lemma Offer.lawful : Offer.codec.Lawful fun _ => True :=
  ((Asset.lawful.pair <| Asset.lawful.pair <| Codec.Lawful.int64.pair <|
    Price.lawful.pair .int64).map fun _ _ => rfl).congr fun _ => by simp

/-- Passive offers have one wire form each and are read back from it. -/
lemma PassiveOffer.lawful : PassiveOffer.codec.Lawful fun _ => True :=
  ((Asset.lawful.pair <| Asset.lawful.pair <| Codec.Lawful.int64.pair
    Price.lawful).map fun _ _ => rfl).congr fun _ => by simp

/-- Whether settings are within the limits of the wire. -/
def SetOptions.Fits (op : SetOptions) : Prop :=
  ∀ domain ∈ op.homeDomain, (Bytes.ofText domain).length ≤ Limits.homeDomainBytes

/-- Settings whose home domain is not too long are read back. -/
lemma SetOptions.lawful : SetOptions.codec.Lawful Fits := by
  have flag := Codec.Lawful.uint32.optional
  have domain : (Codec.optional (.text Limits.homeDomainBytes)).Lawful _ :=
    (Codec.Lawful.text (by decide)).optional
  exact ((AccountId.lawful.optional.pair <| flag.pair <| flag.pair <| flag.pair <| flag.pair <|
    flag.pair <| flag.pair <| domain.pair Signer.lawful.optional).map fun _ _ => rfl).congr
    fun _ => by simp [Fits]

/-- Trust lines to be opened have one wire form each and are read back from it. -/
lemma ChangeTrust.lawful : ChangeTrust.codec.Lawful fun _ => True :=
  ((ChangeTrustAsset.lawful.pair .int64).map fun _ _ => rfl).congr fun _ => by simp

/-- What is read from the field of a code, which must have at least `shortest` characters. -/
def AssetCode.fieldText (shortest : Nat) (field : Bytes) : Except Forbidden String :=
  match unpad field with
  | .error fault => .error (.asset fault)
  | .ok symbols =>
    if symbols.length < shortest then .error (.shortAssetCode (Bytes.toLatin symbols))
    else .ok (Bytes.toLatin symbols)

/-- A field is taken for a code when unpadding it gives the text of the code and that is not too
short. -/
lemma AssetCode.fieldText_eq_ok {shortest : Nat} {field : Bytes} {code : String} :
    fieldText shortest field = .ok code ↔
      unpad field = .ok (Bytes.ofText code) ∧ shortest ≤ (Bytes.ofText code).length := by
  have ascii : ∀ {symbols}, unpad field = .ok symbols → ∀ b ∈ symbols, b < 128 :=
    fun read b hb => (isSymbol_bounds (List.all_eq_true.1 (unpad_eq_ok.1 read).2.1 b hb)).2
  apply Iff.intro
  · intro h
    rw [fieldText] at h
    split at h
    case h_1 => cases h
    case h_2 symbols read =>
      split at h
      case isTrue => cases h
      case isFalse long =>
        cases h
        rw [Bytes.ofText_toLatin (ascii read)]
        exact ⟨read, Nat.le_of_not_lt long⟩
  · intro h
    obtain ⟨read, long⟩ := h
    simp only [fieldText, read, Bytes.toLatin_ofText (ascii read), if_neg (Nat.not_lt_of_le long)]

namespace AllowTrust

/-- A field of some width holds the texts of codes that are not too short and not too long. -/
lemma codeField_lawful {shortest width : Nat} (pos : 0 < shortest) :
    (codeField shortest width).Lawful fun code =>
      (shortest ≤ (Bytes.ofText code).length ∧ (Bytes.ofText code).length ≤ width) ∧
        (Bytes.ofText code).all AssetCode.isSymbol = true := by
  have same : codeField shortest width =
      (Codec.fixed width).check (fun field => AssetCode.fieldText shortest field.bytes)
        fun code => .padded width (Bytes.ofText code) := rfl
  rw [same]
  refine ((Codec.Lawful.fixed width).check ?_).congr fun code => ?_
  · intro field code _ h
    exact (AssetCode.padded_of_unpad (AssetCode.fieldText_eq_ok.1 h).1).2
  · apply Iff.intro
    · intro h
      obtain ⟨read, long⟩ := AssetCode.fieldText_eq_ok.1 h.2
      exact ⟨⟨long, (AssetCode.padded_of_unpad read).1⟩, (AssetCode.unpad_eq_ok.1 read).2.1⟩
    · intro h
      obtain ⟨⟨long, short⟩, all⟩ := h
      have read := AssetCode.unpad_padded (Nat.lt_of_lt_of_le pos long) short all
      exact ⟨trivial, AssetCode.fieldText_eq_ok.2 ⟨read, long⟩⟩

/-- The tag of a code, by the length of its text. -/
def codeTag (code : String) : Int32 :=
  if (Bytes.ofText code).length ≤ AssetCode.shortWidth then 1 else 2

/-- An arm for codes of some lengths holds the codes of these lengths. -/
lemma codeArm_lawful {tag : Int32} {shortest width : Nat} {project : String → Option String}
    (pos : 0 < shortest)
    (known : ∀ code p, project code = some p → p = code ∧ codeTag code = tag)
    (holds : ∀ code, (AssetCode.isValid code = true ∧ project code = some code) ↔
      (shortest ≤ (Bytes.ofText code).length ∧ (Bytes.ofText code).length ≤ width) ∧
        (Bytes.ofText code).all AssetCode.isSymbol = true) :
    (⟨tag, String, codeField shortest width, id, project⟩ : Arm String).Lawful codeTag
      fun code => AssetCode.isValid code = true where
  inject_project code p h := (known code p h).1
  tag_project code p h := (known code p h).2
  appends := (codeField_lawful pos).appends
  codec := (codeField_lawful pos).congr fun code => (holds code).symm

/-- Texts are read back as codes when they are codes. -/
lemma codeCodec_lawful : codeCodec.Lawful fun code => AssetCode.isValid code = true := by
  have widths : AssetCode.shortWidth = 4 ∧ AssetCode.longWidth = 12 := ⟨rfl, rfl⟩
  refine .union _ codeTag ⟨codeArm_lawful (by decide) ?_ ?_, codeArm_lawful (by decide) ?_ ?_⟩
    (by decide) fun code => ?_
  · intro code p known
    split at known
    case isTrue short => exact ⟨(Option.some.inj known).symm, if_pos short⟩
    case isFalse => cases known
  · intro code
    rw [AssetCode.isValid_iff, Option.ite_none_right_eq_some, and_iff_left rfl, and_right_comm]
    exact and_congr_left fun _ => by omega
  · intro code p known
    split at known
    case isTrue => cases known
    case isFalse long => exact ⟨(Option.some.inj known).symm, if_neg long⟩
  · intro code
    rw [AssetCode.isValid_iff, Option.ite_none_left_eq_some, and_iff_left rfl, and_right_comm]
    exact and_congr_left fun _ => by omega
  · rcases Nat.lt_or_ge AssetCode.shortWidth (Bytes.ofText code).length with long | short
    · simp [Nat.not_le_of_lt long]
    · simp [short]

/-- Whether an authorization is within the limits of the wire. -/
def Fits (op : AllowTrust) : Prop := AssetCode.isValid op.assetCode = true

/-- Authorizations with a code are read back. -/
lemma lawful : codec.Lawful Fits :=
  ((AccountId.lawful.pair <| codeCodec_lawful.pair .uint32).map fun _ _ => rfl).congr
    fun _ => by simp [Fits]

end AllowTrust

/-- Whether a data entry is within the limits of the wire. -/
def ManageData.Fits (op : ManageData) : Prop :=
  (Bytes.ofText op.name).length ≤ Limits.dataEntryBytes ∧
    ∀ value ∈ op.value, value.length ≤ Limits.dataEntryBytes

/-- Data entries whose name and value are not too long are read back. -/
lemma ManageData.lawful : ManageData.codec.Lawful Fits := by
  have small : Limits.dataEntryBytes < 2 ^ 32 := by decide
  have value := (Codec.Lawful.counted small).optional
  exact (((Codec.Lawful.text small).pair value).map fun _ _ => rfl).congr fun _ => by simp [Fits]

/-- Whether an amount that is set aside is within the limits of the wire. -/
def CreateClaimableBalance.Fits (op : CreateClaimableBalance) : Prop :=
  op.claimants.length ≤ Limits.maxClaimants ∧ ∀ claimant ∈ op.claimants, claimant.Fits

/-- Amounts set aside for claimants that are not too many and fit are read back. -/
lemma CreateClaimableBalance.lawful : CreateClaimableBalance.codec.Lawful Fits :=
  ((Asset.lawful.pair <| Codec.Lawful.int64.pair <|
    Claimant.lawful.list (by decide) Claimant.lawful.union_pos).map fun _ _ => rfl).congr
    fun _ => by simp [Fits]

/-- Amounts taken back have one wire form each and are read back from it. -/
lemma Clawback.lawful : Clawback.codec.Lawful fun _ => True :=
  ((Asset.lawful.pair <| MuxedAccount.lawful.pair .int64).map fun _ _ => rfl).congr fun _ => by simp

/-- Flags of trust lines have one wire form each and are read back from it. -/
lemma SetTrustLineFlags.lawful : SetTrustLineFlags.codec.Lawful fun _ => True :=
  ((AccountId.lawful.pair <| Asset.lawful.pair <| Codec.Lawful.uint32.pair
    .uint32).map fun _ _ => rfl).congr fun _ => by simp

/-- Deposits into pools have one wire form each and are read back from it. -/
lemma PoolDeposit.lawful : PoolDeposit.codec.Lawful fun _ => True :=
  ((PoolId.lawful.pair <| Codec.Lawful.int64.pair <| Codec.Lawful.int64.pair <|
    Price.lawful.pair Price.lawful).map fun _ _ => rfl).congr fun _ => by simp

/-- Withdrawals from pools have one wire form each and are read back from it. -/
lemma PoolWithdrawal.lawful : PoolWithdrawal.codec.Lawful fun _ => True :=
  ((PoolId.lawful.pair <| Codec.Lawful.int64.pair <| Codec.Lawful.int64.pair
    .int64).map fun _ _ => rfl).congr fun _ => by simp

namespace OperationBody

/-- Whether what an operation does is within the limits of the wire. -/
def Fits : OperationBody → Prop
  | .pathPaymentStrictReceive op | .pathPaymentStrictSend op => op.Fits
  | .setOptions op => op.Fits
  | .allowTrust op => op.Fits
  | .manageData op => op.Fits
  | .createClaimableBalance op => op.Fits
  | .revokeSponsorship target => target.Fits
  | _ => True

/-- Every arm of the operations reads back what is within its limits. -/
lemma arms_lawful : arms.Forall fun arm => arm.Lawful typeCode Fits := by
  refine ⟨.of_inverse CreateAccount.lawful ?_, .of_inverse Payment.lawful ?_,
    .of_inverse PathPayment.lawful ?_, .of_inverse Offer.lawful ?_,
    .of_inverse PassiveOffer.lawful ?_, .of_inverse SetOptions.lawful ?_,
    .of_inverse ChangeTrust.lawful ?_, .of_inverse AllowTrust.lawful ?_,
    .of_inverse MuxedAccount.lawful ?_, .void (fun v => by cases v <;> simp) rfl trivial,
    .of_inverse ManageData.lawful ?_, .of_inverse .int64 ?_, .of_inverse Offer.lawful ?_,
    .of_inverse PathPayment.lawful ?_, .of_inverse CreateClaimableBalance.lawful ?_,
    .of_inverse BalanceId.lawful ?_, .of_inverse AccountId.lawful ?_,
    .void (fun v => by cases v <;> simp) rfl trivial, .of_inverse RevokeSponsorship.lawful ?_,
    .of_inverse Clawback.lawful ?_, .of_inverse BalanceId.lawful ?_,
    .of_inverse SetTrustLineFlags.lawful ?_, .of_inverse PoolDeposit.lawful ?_,
    .of_inverse PoolWithdrawal.lawful ?_⟩
  all_goals exact ⟨fun v p known => by cases v <;> cases known; rfl, fun _ => rfl, fun _ => rfl⟩

/-- What operations within the limits do is read back. -/
lemma lawful : codec.Lawful Fits :=
  .union _ typeCode arms_lawful (by decide) fun v => by cases v <;> rfl

end OperationBody

namespace Operation

/-- Whether an operation is within the limits of the wire. -/
def Fits (op : Operation) : Prop := op.body.Fits

/-- Operations within the limits are read back. -/
lemma lawful : codec.Lawful Fits :=
  ((MuxedAccount.lawful.optional.pair OperationBody.lawful).map fun _ _ => rfl).congr
    fun _ => by simp [Fits]

/-- No operation has an empty wire form. -/
lemma encode_pos (op : Operation) (fits : op.Fits) : 0 < (codec.encode op).length := by
  have parts : codec.encode op =
      (Codec.optional MuxedAccount.codec).encode op.source ++ OperationBody.codec.encode op.body :=
    OperationBody.lawful.appends.encode_pair _
  have pos : 0 < (OperationBody.codec.encode op.body).length :=
    OperationBody.lawful.union_pos op.body fits
  rw [parts, List.length_append]
  omega

end Operation

end LedgerWire
