import LedgerWire.Proofs.Transaction
import LedgerWire.Transaction.Draft
import LedgerWire.Transaction.Envelope

/-!
# What the rules for transactions let through

The rules that a new transaction has to satisfy keep it within the limits of the wire in all but two
respects: nobody looks at the depth of the predicates in it, or at the names of sponsored data
entries. `OperationBody.UncheckedFits` is what the rules leave open.
-/

namespace LedgerWire

/-- A path that is short enough has at most five assets. -/
lemma OperationFault.shortPath_eq_ok {path : List Asset} :
    shortPath path = .ok () ↔ path.length ≤ Limits.maxPathLength := by
  simp [shortPath]

/-- Amounts that satisfy the rules are set aside for at most ten claimants. -/
lemma CreateClaimableBalance.length_le_of_validate {op : CreateClaimableBalance}
    (valid : (OperationBody.createClaimableBalance op).validate = .ok ()) :
    op.claimants.length ≤ Limits.maxClaimants := by
  simp only [OperationBody.validate, bind_eq_ok, throw_eq, if_error_eq_ok, not_or, not_lt] at valid
  obtain ⟨_, _, ⟨-, few⟩, -⟩ := valid
  exact few

namespace OperationBody

/-- Whether that part of an operation which no rule looks at is within the limits of the wire: the
predicates of claimants, and the name of a sponsored data entry. -/
def UncheckedFits : OperationBody → Prop
  | .createClaimableBalance op => ∀ claimant ∈ op.claimants, claimant.Fits
  | .revokeSponsorship target => target.Fits
  | _ => True

/-- An operation that satisfies the rules is within the limits of the wire when the part that no
rule looks at is. -/
theorem fits_iff_uncheckedFits {body : OperationBody} (valid : body.validate = .ok ()) :
    body.Fits ↔ body.UncheckedFits := by
  cases body with
  | pathPaymentStrictReceive op | pathPaymentStrictSend op =>
    obtain ⟨_, _, valid⟩ := bind_eq_ok.1 valid
    obtain ⟨_, _, valid⟩ := bind_eq_ok.1 valid
    exact iff_of_true (OperationFault.shortPath_eq_ok.1 valid) trivial
  | setOptions op =>
    refine iff_of_true (fun domain some => ?_) trivial
    simp only [validate, if_error_eq_ok, Option.mem_def.1 some, not_lt] at valid
    exact valid.1
  | allowTrust op =>
    simp only [validate] at valid
    split at valid
    case h_1 code named =>
      exact iff_of_true (AssetCode.isValid_iff_validate.2 ⟨code, named⟩) trivial
    case h_2 => cases valid
  | manageData op =>
    simp only [validate, if_error_eq_ok, not_or, not_lt] at valid
    obtain ⟨⟨-, short⟩, value, -⟩ := valid
    refine iff_of_true ⟨short, fun bytes some => ?_⟩ trivial
    rw [Option.mem_def.1 some] at value
    exact value
  | createClaimableBalance op =>
    -- The rules count the claimants, but they do not look at their predicates.
    exact and_iff_right (CreateClaimableBalance.length_le_of_validate valid)
  | revokeSponsorship target => exact Iff.rfl
  | _ => exact iff_of_true trivial trivial

end OperationBody

/-- Preconditions that satisfy the rules are within the limits of the wire. -/
lemma Preconditions.fits_of_validate {p : Preconditions} (valid : p.validate = .ok ()) :
    p.Fits := by
  simp only [validate, throw_eq, error_bind_eq, if_error_eq_ok, not_lt] at valid
  exact valid.2.1

/-- A memo satisfies the rules exactly when it is within the limits of the wire. -/
lemma Memo.validate_eq_ok {m : Memo} : m.validate = .ok () ↔ m.Fits := by
  cases m with
  | text bytes => simp [validate, Fits]
  | _ => exact iff_of_true rfl trivial

/-- Only a text can make a memo break the rules. -/
lemma Memo.validate_iff_text {m : Memo} :
    m.validate = .ok () ↔ ∀ text, m = .text text → text.length ≤ Limits.memoTextBytes := by
  rw [validate_eq_ok]
  cases m with
  | text bytes =>
    apply Iff.intro
    · intro short text same
      cases same
      exact short
    · exact fun short => short bytes rfl
  | _ => exact iff_of_true trivial nofun

namespace Transaction

/-- A number of operations is allowed from one to one hundred. -/
lemma validateCount_eq_ok {count : Nat} :
    validateCount count = .ok () ↔ count ≠ 0 ∧ count ≤ Limits.maxOperations := by
  simp [validateCount]

/-- Operations satisfy the rules when each of them does. -/
lemma validateOperations_eq_ok {index : Nat} {operations : List Operation} :
    validateOperations index operations = .ok () ↔
      ∀ op ∈ operations, op.body.validate = .ok () := by
  induction operations generalizing index with
  | nil => exact iff_of_true rfl (List.forall_mem_nil _)
  | cons op ops ih =>
    rw [validateOperations, List.forall_mem_cons, ← @ih (index + 1)]
    generalize op.body.validate = outcome
    cases outcome with
    | ok _ => exact (and_iff_right rfl).symm
    | error fault => exact ⟨nofun, fun h => nomatch h.1⟩

/-- What has to hold of the parts of a transaction for it to be made. -/
theorem make_eq_ok {source : MuxedAccount} {fee : UInt32} {sequence : Int64}
    {operations : List Operation} {memo : Memo} {preconditions : Preconditions} {t : Transaction} :
    make source fee sequence operations memo preconditions = .ok t ↔
      (operations.length ≠ 0 ∧ operations.length ≤ Limits.maxOperations) ∧
        (∀ op ∈ operations, op.body.validate = .ok ()) ∧ preconditions.validate = .ok () ∧
        memo.validate = .ok () ∧ t = ⟨source, fee, sequence, preconditions, memo, operations⟩ := by
  simp [make, validateCount_eq_ok, validateOperations_eq_ok, @eq_comm _ t]

/-- A transaction that is made is within the limits of the wire when that part of its operations
which no rule looks at is. -/
theorem fits_iff_uncheckedFits {source : MuxedAccount} {fee : UInt32} {sequence : Int64}
    {operations : List Operation} {memo : Memo} {preconditions : Preconditions} {t : Transaction}
    (made : make source fee sequence operations memo preconditions = .ok t) :
    t.Fits ↔ ∀ op ∈ t.operations, op.body.UncheckedFits := by
  obtain ⟨⟨some, few⟩, each, conditions, attached, rfl⟩ := make_eq_ok.1 made
  apply Iff.intro
  · intro fits op mem
    exact (OperationBody.fits_iff_uncheckedFits (each op mem)).1 (fits.operations.2.2 op mem)
  · intro unchecked
    refine ⟨Preconditions.fits_of_validate conditions, Memo.validate_eq_ok.1 attached, ?_, few, ?_⟩
    · exact fun none => some (List.length_eq_zero_iff.2 none)
    · exact fun op mem => (OperationBody.fits_iff_uncheckedFits (each op mem)).2 (unchecked op mem)

end Transaction

/-- An account has a next sequence number unless it has used the greatest. -/
lemma Account.nextSequenceNumber_eq_ok {account : Account} {sequence : Int64} :
    account.nextSequenceNumber = .ok sequence ↔
      account.sequenceNumber.toInt < 2 ^ 63 - 1 ∧ sequence = account.sequenceNumber + 1 := by
  have below : account.sequenceNumber < .maxValue ↔ account.sequenceNumber.toInt < 2 ^ 63 - 1 :=
    Int64.lt_iff_toInt_lt
  simp [nextSequenceNumber, below, @eq_comm _ sequence]

namespace Draft

/-- What has to hold of a draft and an account for the transaction to be made. -/
structure Buildable (draft : Draft) (account : Account) : Prop where
  /-- The fee for each operation is not below the least. -/
  baseFee : 100 ≤ draft.baseFee.toNat
  /-- There is an operation. -/
  some : 1 ≤ draft.operations.length
  /-- There are not too many operations. -/
  few : draft.operations.length ≤ 100
  /-- The fee for all of them fits its field. -/
  fee : draft.baseFee.toNat * draft.operations.length < 2 ^ 32
  /-- The account has not used its last sequence number. -/
  sequence : account.sequenceNumber.toInt < 2 ^ 63 - 1
  /-- Every operation satisfies the rules for its fields. -/
  operations : ∀ op ∈ draft.operations, op.body.validate = .ok ()
  /-- The preconditions can stand in a transaction. -/
  preconditions : draft.preconditions.validate = .ok ()
  /-- A text memo is not too long. -/
  memo : ∀ text, draft.memo = .text text → text.length ≤ 28

/-- The transaction that a draft describes, as the next one of an account. -/
def transaction (draft : Draft) (account : Account) : Transaction :=
  ⟨account.address, UInt32.ofNat (draft.baseFee.toNat * draft.operations.length),
    account.sequenceNumber + 1, draft.preconditions, draft.memo, draft.operations⟩

/-- A draft that can be built has a number of operations that is allowed. -/
lemma Buildable.count {draft : Draft} {account : Account} (ready : draft.Buildable account) :
    draft.operations.length ≠ 0 ∧ draft.operations.length ≤ Limits.maxOperations :=
  ⟨Nat.one_le_iff_ne_zero.1 ready.some, ready.few⟩

/-- A draft that can be built satisfies the rules for transactions. -/
lemma Buildable.make_eq_ok {draft : Draft} {account : Account} (ready : draft.Buildable account) :
    Transaction.make account.address
      (UInt32.ofNat (draft.baseFee.toNat * draft.operations.length)) (account.sequenceNumber + 1)
      draft.operations draft.memo draft.preconditions = .ok (draft.transaction account) :=
  Transaction.make_eq_ok.2 ⟨ready.count, ready.operations, ready.preconditions,
    Memo.validate_iff_text.2 ready.memo, rfl⟩

/-- What has to hold of a draft for it to be built, and what is built. -/
theorem build_eq_ok {account account' : Account} {draft : Draft} {tx : SignedTransaction} :
    draft.build account = .ok (tx, account') ↔
      draft.Buildable account ∧ tx = .unsigned (draft.transaction account) ∧
        account' = { account with sequenceNumber := account.sequenceNumber + 1 } := by
  simp only [build, throw_eq, error_bind_eq, bind_eq_ok, pure_eq_ok, if_error_eq_ok, not_lt, not_le,
    Account.nextSequenceNumber_eq_ok]
  apply Iff.intro
  · intro h
    obtain ⟨enough, ⟨⟩, count, room, _, ⟨sequence, rfl⟩, _, made, result⟩ := h
    obtain ⟨some, few⟩ := Transaction.validateCount_eq_ok.1 count
    obtain ⟨-, each, conditions, memo, rfl⟩ := Transaction.make_eq_ok.1 made
    cases result
    exact ⟨⟨enough, Nat.one_le_iff_ne_zero.2 some, few, room, sequence, each, conditions,
      Memo.validate_iff_text.1 memo⟩, rfl, rfl⟩
  · intro h
    obtain ⟨ready, rfl, rfl⟩ := h
    exact ⟨ready.baseFee, (), Transaction.validateCount_eq_ok.2 ready.count, ready.fee, _,
      ⟨ready.sequence, rfl⟩, _, ready.make_eq_ok, rfl⟩

end Draft

/-- What has to hold of a base fee for a fee bump to be made. -/
theorem FeeBump.make_eq_ok {feeSource : MuxedAccount} {baseFee : Int64} {inner : SignedTransaction}
    {bump : FeeBump} :
    make feeSource baseFee inner = .ok bump ↔
      Limits.minBaseFee ≤ baseFee.toInt ∧
        (inner.content.fee.toNat / max inner.content.operations.length 1 : Nat) ≤ baseFee.toInt ∧
        baseFee.toInt * (inner.content.operations.length + 1) ≤ Int64.maxValue.toInt ∧
        bump = ⟨feeSource, Int64.ofInt (baseFee.toInt * (inner.content.operations.length + 1)),
          inner.toSigned⟩ := by
  have least : (Int64.ofNat Limits.minBaseFee).toInt = Limits.minBaseFee := rfl
  have rate : (Int64.ofNat (inner.content.fee.toNat /
      max inner.content.operations.length 1)).toInt =
      (inner.content.fee.toNat / max inner.content.operations.length 1 : Nat) := by
    apply Int64.toInt_ofNat_of_lt
    exact Nat.lt_of_le_of_lt (Nat.div_le_self _ _)
      (Nat.lt_trans inner.content.fee.toNat_lt (by decide))
  simp only [make, throw_eq, error_bind_eq, if_error_eq_ok, pure_eq_ok, Int64.lt_iff_toInt_lt, least, rate,
    not_lt, @eq_comm _ bump]

end LedgerWire
