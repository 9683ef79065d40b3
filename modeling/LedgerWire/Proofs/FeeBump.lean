import Mathlib.Tactic.Linarith
import LedgerWire.Proofs.Faithful
import LedgerWire.Proofs.Rules
import LedgerWire.Transaction.Envelope

/-!
# Fee bumps

What a fee bump offers for each operation, and what it does to the transaction inside of it.
-/

/-!
## The rate of a fee bump

A fee bump is compared with the transaction inside of it by what each of them offers for one
operation, the bump counting as one more. The transaction offers its fee divided by the number of
its operations, which need not be a whole number, and a bump is let through from the whole part of
that on. So a bump can offer less than the transaction, though by less than one stroop for an
operation.
-/

namespace LedgerWire.FeeBump
variable {feeSource : MuxedAccount} {baseFee : Int64} {inner : SignedTransaction} {bump : FeeBump}

/-- The base fee of a fee bump is paid for each operation and for the bump. -/
lemma toInt_fee_of_make (made : make feeSource baseFee inner = .ok bump) :
    bump.fee.toInt = baseFee.toInt * (inner.content.operations.length + 1) := by
  obtain ⟨least, -, room, rfl⟩ := make_eq_ok.1 made
  have pos : 0 ≤ baseFee.toInt * (inner.content.operations.length + 1) := by
    apply Int.mul_nonneg <;> omega
  exact Int64.toInt_ofInt_of_le (by omega) (Int.lt_of_le_of_lt room (by decide))

/-- One stroop more than the whole part for each operation is more than the fee. -/
lemma lt_add_one_mul {fee n : Nat} {base : Int} (some : n ≠ 0) (reached : (fee / n : Nat) ≤ base) :
    fee < (base + 1) * n := by
  have next : fee < (fee / n + 1) * n :=
    Nat.lt_mul_of_div_lt (Nat.lt_succ_self _) (Nat.pos_of_ne_zero some)
  calc (fee : Int)
      < ((fee / n : Nat) + 1) * n := by exact_mod_cast next
    _ ≤ (base + 1) * n := Int.mul_le_mul_of_nonneg_right (by omega) (by omega)

/-- A base fee from the whole part of a rate on falls short of the rate only where it is the whole
part and the rate is no whole number. -/
lemma mul_lt_iff {fee n : Nat} {base : Int} (some : n ≠ 0) (reached : (fee / n : Nat) ≤ base) :
    base * n < fee ↔ base = (fee / n : Nat) ∧ ¬ n ∣ fee := by
  apply Iff.intro
  · intro short
    have same : base = (fee / n : Nat) := by
      apply Int.le_antisymm _ reached
      by_contra more
      have above : (fee / n : Nat) ≤ base - 1 := by omega
      have covered := lt_add_one_mul some above
      rw [Int.sub_add_cancel] at covered
      exact Int.lt_asymm short covered
    refine ⟨same, fun multiple => ?_⟩
    have exact : ((fee / n : Nat) : Int) * n = fee := by exact_mod_cast Nat.div_mul_cancel multiple
    rw [same, exact] at short
    exact Int.lt_irrefl _ short
  · intro h
    obtain ⟨rfl, rest⟩ := h
    have other : fee / n * n ≠ fee := fun same => rest (Dvd.intro_left _ same)
    exact_mod_cast Nat.lt_of_le_of_ne (Nat.div_mul_le_self fee n) other

/-- A fee bump offers at least the rate of its transaction exactly when its base fee, paid for the
operations alone, covers the fee of the transaction. It offers less exactly when the base fee is the
whole part of a rate that is no whole number, and then it lacks less than one stroop for each
operation. -/
theorem rate_kept_iff {n : Nat} (count : inner.content.operations.length = n)
    (made : make feeSource baseFee inner = .ok bump) :
    (inner.content.fee.toNat * (n + 1) ≤ bump.fee.toInt * n ↔
        inner.content.fee.toNat ≤ baseFee.toInt * n) ∧
      (n ≠ 0 →
        (bump.fee.toInt * n < inner.content.fee.toNat * (n + 1) ↔
          baseFee.toInt = (inner.content.fee.toNat / n : Nat) ∧ ¬ n ∣ inner.content.fee.toNat) ∧
        inner.content.fee.toNat * (n + 1) < (bump.fee.toInt + (n + 1)) * n) := by
  obtain ⟨-, reached, -⟩ := make_eq_ok.1 made
  have paid := toInt_fee_of_make made
  rw [count] at paid
  have pos : (0 : Int) < n + 1 := by omega
  have total : bump.fee.toInt * n = baseFee.toInt * n * (n + 1) := by
    rw [paid]
    ring
  rw [total]
  refine ⟨mul_le_mul_iff_left₀ pos, fun some => ?_⟩
  rw [count, Nat.max_eq_left (Nat.one_le_iff_ne_zero.2 some)] at reached
  refine ⟨(mul_lt_mul_iff_left₀ pos).trans (mul_lt_iff some reached), ?_⟩
  have covered := lt_add_one_mul some reached
  calc (inner.content.fee.toNat : Int) * (n + 1)
      < (baseFee.toInt + 1) * n * (n + 1) := (mul_lt_mul_iff_left₀ pos).2 covered
    _ = (bump.fee.toInt + (n + 1)) * n := by
      rw [paid]
      ring

/-- A transaction that offers 201 stroops for two operations. -/
def oddTransaction : Transaction :=
  ⟨⟨default, none⟩, 201, 1, .none, .none, [⟨none, .inflation⟩, ⟨none, .inflation⟩]⟩

/-- A base fee of 101 covers 201 stroops for two operations, and the rate is kept. -/
theorem rate_kept_odd :
    make ⟨default, none⟩ 101 (.unsigned oddTransaction) =
        .ok ⟨⟨default, none⟩, 303, ⟨oddTransaction, []⟩⟩ ∧
      (201 : Int) * (2 + 1) ≤ 303 * 2 := by
  have made : make ⟨default, none⟩ 101 (.unsigned oddTransaction) =
      .ok ⟨⟨default, none⟩, 303, ⟨oddTransaction, []⟩⟩ := rfl
  exact ⟨made, (rate_kept_iff rfl made).1.2 (by decide)⟩

/-- A base fee of 100 is let through for 201 stroops and two operations, and the rate is not
kept: 300 stroops for three operations are less. -/
theorem rate_not_kept_odd :
    Transaction.make ⟨default, none⟩ 201 1 oddTransaction.operations .none .none =
        .ok oddTransaction ∧
      make ⟨default, none⟩ 100 (.unsigned oddTransaction) =
        .ok ⟨⟨default, none⟩, 300, ⟨oddTransaction, []⟩⟩ ∧
      oddTransaction.operations.length = 2 ∧
      ¬ (oddTransaction.fee.toNat : Int) * (2 + 1) ≤ (300 : Int64).toInt * 2 :=
  ⟨rfl, rfl, rfl, by decide⟩

end LedgerWire.FeeBump

/-!
## What a fee bump does to a transaction

A fee bump takes the transaction it pays for in the newer layout, with all that was signed. The
signatures stay valid there, as what they sign does not depend on the layout, and the bump is read
from its envelope with the transaction and its signatures or not at all.
-/

namespace LedgerWire.FeeBump

/-- Whether a fee bump pays a base fee for a transaction and keeps the transaction. -/
structure Wraps (bump : FeeBump) (feeSource : MuxedAccount) (baseFee : Int64)
    (inner : SignedTransaction) : Prop where
  feeSource : bump.feeSource = feeSource
  /-- The base fee is paid for each operation and for the bump, exactly. -/
  fee : bump.fee.toInt = baseFee.toInt * (inner.content.operations.length + 1)
  fee_le : baseFee.toInt * (inner.content.operations.length + 1) ≤ 2 ^ 63 - 1
  /-- The inner transaction is the transaction after it took the newer layout. -/
  upgraded : (SignedTransaction.travelInPlace .tx).attempt inner = (.ok (), bump.innerTransaction)
  envelopeType : bump.innerTransaction.envelopeType = .tx
  content : bump.innerTransaction.content = inner.content
  signatures : bump.innerTransaction.signatures = inner.signatures
  hash (network : Network) :
    (Envelope.transaction bump.innerTransaction).hash network =
      (Envelope.transaction inner).hash network
  isSignedBy {key : FixedBytes 32} {network : Network}
    (signed : inner.isSignedBy key network = true) :
    bump.innerTransaction.isSignedBy key network = true
  /-- However often the bump is signed, nothing else is read from its envelope. -/
  readBack {requests : List SigningRequest} {e : Envelope}
    (read : Envelope.codec.decode (Envelope.codec.encode
      (.feeBump (Carrier.feeBumps.after ⟨bump, []⟩ requests))) = .ok e) :
    e = .feeBump ⟨bump, (Carrier.feeBumps.after ⟨bump, []⟩ requests).signatures⟩

/-- A fee bump that is made for a transaction that can be had, in either layout, wraps it. -/
theorem make_wraps {feeSource : MuxedAccount} {baseFee : Int64} {inner : SignedTransaction}
    {bump : FeeBump} (obtained : (Envelope.transaction inner).Obtained)
    (made : make feeSource baseFee inner = .ok bump) : bump.Wraps feeSource baseFee inner := by
  have paid := toInt_fee_of_make made
  obtain ⟨-, -, room, same⟩ := make_eq_ok.1 made
  have kept := inner_of_make made
  have upgraded : bump.innerTransaction = { inner with layout := .v1 } := by
    rw [innerTransaction, kept]
  refine
    { feeSource := congrArg FeeBump.feeSource same
      fee := paid
      fee_le := room
      upgraded := ?_
      envelopeType := rfl
      content := congrArg Signed.content kept
      signatures := congrArg Signed.signatures kept
      hash := fun network => ?_
      isSignedBy := fun signed => ?_
      readBack := fun {requests e} read => ?_ }
  · rw [upgraded]
    exact SignedTransaction.travelInPlace_commits .tx inner
  · rw [upgraded]
    rfl
  · rw [upgraded]
    exact signed
  · have bumped : (Envelope.feeBump ⟨bump, []⟩).Obtained := .bumped obtained made
    have later := (bumped.feeBumpAfter requests).checked
    obtain ⟨rfl, -⟩ := later.decode_encode_eq_ok.1 read
    have content : (Carrier.feeBumps.after ⟨bump, []⟩ requests).content = bump :=
      (Carrier.ofSigned_lawful.after_extends _ requests).content
    exact congrArg (fun c => Envelope.feeBump ⟨c, _⟩) content

/-- A transaction in the older layout with the secret of a hash signer is wrapped for the least
fee. -/
theorem make_wraps_bare :
    let requests := [.travel .txV0, .signing (.hashX [1, 2, 3])]
    let inner := Carrier.transactions.after (.unsigned Envelope.bareTransaction) requests
    inner.envelopeType = .txV0 ∧ inner.signatures.length = 1 ∧
      ∃ bump, make ⟨default, none⟩ 100 inner = .ok bump ∧
        bump.Wraps ⟨default, none⟩ 100 inner := by
  intro requests inner
  have obtained : (Envelope.transaction inner).Obtained :=
    .transactionAfter (.made SignedTransaction.made_bare) requests
  have later := Carrier.transactions_lawful.after_extends (.unsigned Envelope.bareTransaction)
    requests
  have content : inner.content = Envelope.bareTransaction := later.content
  have made : make ⟨default, none⟩ 100 inner = .ok ⟨⟨default, none⟩, 200, inner.toSigned⟩ := by
    rw [make_eq_ok, content]
    exact ⟨by decide, by decide, by decide, rfl⟩
  exact ⟨rfl, rfl, _, made, make_wraps obtained made⟩

end LedgerWire.FeeBump
