import LedgerWire.Proofs.InPlace
import LedgerWire.Proofs.Rules

/-!
# Building one transaction after another

Drafts are built one after another from one account, some of them in vain. No sequence number is
used twice and none is left out: the account counts the transactions that were made, and a draft
that cannot be built leaves it as it was.
-/

namespace LedgerWire

/-- A sequence number that is not the greatest has a next one. -/
lemma Int64.toInt_add_one {n : Int64} (h : n.toInt < 2 ^ 63 - 1) : (n + 1).toInt = n.toInt + 1 := by
  have one : (1 : Int64).toInt = 1 := rfl
  have least := n.le_toInt
  rw [Int64.toInt_add, one]
  apply Int.bmod_eq_of_le <;> omega

namespace Draft
variable {draft : Draft} {account : Account}

/-- The fee of a built transaction is that of each operation, as many times. -/
lemma toNat_fee_transaction (ready : draft.Buildable account) :
    (draft.transaction account).fee.toNat = draft.baseFee.toNat * draft.operations.length :=
  UInt32.toNat_ofNat_of_lt' ready.fee

/-- The sequence number of a built transaction is the next one. -/
lemma toInt_sequenceNumber_transaction (ready : draft.Buildable account) :
    (draft.transaction account).sequenceNumber.toInt = account.sequenceNumber.toInt + 1 :=
  Int64.toInt_add_one ready.sequence

/-- A draft that can be built is built, and the account moves on. -/
lemma attempt_buildInPlace (ready : draft.Buildable account) :
    draft.buildInPlace.attempt account = (.ok (.unsigned (draft.transaction account)),
      { account with sequenceNumber := account.sequenceNumber + 1 }) := by
  have commits : draft.buildInPlace.attempt account = Change.settle account (draft.build account) :=
    draft.buildInPlace_commits account
  rw [commits, build_eq_ok.2 ⟨ready, rfl, rfl⟩]
  rfl

/-- A draft that cannot be built leaves the account as it was. -/
lemma attempt_buildInPlace_of_not (refused : ¬ draft.Buildable account) :
    ∃ fault, draft.buildInPlace.attempt account = (.error fault, account) := by
  have commits : draft.buildInPlace.attempt account = Change.settle account (draft.build account) :=
    draft.buildInPlace_commits account
  rw [commits]
  cases result : draft.build account with
  | ok p => exact (refused (build_eq_ok.1 result).1).elim
  | error fault => exact ⟨fault, rfl⟩

end Draft

namespace Account

/-- What drafts give that are built one after another from an account. -/
def builds (start : Account) (drafts : List Draft) :
    List (Except TransactionFault SignedTransaction) :=
  Change.outcomes (drafts.map Draft.buildInPlace) start

/-- The account after drafts that are built one after another from it. -/
def afterBuilds (start : Account) (drafts : List Draft) : Account :=
  Change.final (drafts.map Draft.buildInPlace) start

/-- The first draft is built first. -/
lemma builds_cons (start : Account) (draft : Draft) (drafts : List Draft) :
    start.builds (draft :: drafts) = (draft.buildInPlace.attempt start).1 ::
      (draft.buildInPlace.attempt start).2.builds drafts := rfl

/-- The other drafts are built on what the first one leaves. -/
lemma afterBuilds_cons (start : Account) (draft : Draft) (drafts : List Draft) :
    start.afterBuilds (draft :: drafts) =
      (draft.buildInPlace.attempt start).2.afterBuilds drafts := rfl

/-- What the first drafts give does not depend on the others. -/
lemma take_builds (start : Account) (drafts : List Draft) (i : Nat) :
    (start.builds drafts).take i = start.builds (drafts.take i) := by
  rw [builds, Change.take_outcomes, ← List.map_take, builds]

/-- A draft among others is built from the account that those before it leave. -/
lemma getElem?_builds {drafts : List Draft} {draft : Draft} {i : Nat}
    (mem : drafts[i]? = some draft) (start : Account) :
    (start.builds drafts)[i]? =
        some (draft.buildInPlace.attempt (start.afterBuilds (drafts.take i))).1 ∧
      start.afterBuilds (drafts.take (i + 1)) =
        (draft.buildInPlace.attempt (start.afterBuilds (drafts.take i))).2 :=
  Change.getElem?_outcomes_map Draft.buildInPlace mem start

/-- The account stays the same but for its sequence number, which moves on by the number of
transactions made. -/
lemma afterBuilds_eq (start : Account) (drafts : List Draft) :
    (start.afterBuilds drafts).address = start.address ∧
      (start.afterBuilds drafts).sequenceNumber.toInt =
        start.sequenceNumber.toInt + (start.builds drafts).countP Except.isOk := by
  induction drafts generalizing start with
  | nil => exact ⟨rfl, (Int.add_zero _).symm⟩
  | cons draft drafts ih =>
    rw [afterBuilds_cons, builds_cons]
    by_cases ready : draft.Buildable start
    · obtain ⟨address, sequence⟩ := ih { start with sequenceNumber := start.sequenceNumber + 1 }
      rw [Draft.attempt_buildInPlace ready, List.countP_cons_of_pos rfl, sequence,
        Int64.toInt_add_one ready.sequence]
      refine ⟨address, ?_⟩
      push_cast
      ring
    · obtain ⟨fault, attempt⟩ := Draft.attempt_buildInPlace_of_not ready
      rw [attempt, List.countP_cons_of_neg (by simp [Except.isOk, Except.toBool])]
      exact ih start

/-- Drafts are built one after another from an account, which in the end has moved on by the number
of transactions made. A draft is built exactly when it follows the rules and the account has a
sequence number left. Its transaction is that of the account, has the sequence number after those
used so far, and offers the fee for all its operations; a draft that is not built leaves the account
as it was. -/
theorem run_builds (start : Account) (drafts : List Draft) :
    (start.builds drafts).length = drafts.length ∧
      (start.afterBuilds drafts).address = start.address ∧
      (start.afterBuilds drafts).sequenceNumber.toInt =
        start.sequenceNumber.toInt + (start.builds drafts).countP Except.isOk ∧
      ∀ i draft, drafts[i]? = some draft →
        ((∃ tx, (start.builds drafts)[i]? = some (.ok tx)) ↔
            draft.Buildable (start.afterBuilds (drafts.take i))) ∧
          (∀ tx, (start.builds drafts)[i]? = some (.ok tx) →
            tx = .unsigned (draft.transaction (start.afterBuilds (drafts.take i))) ∧
              tx.content.source = start.address ∧
              tx.content.sequenceNumber.toInt = start.sequenceNumber.toInt +
                (((start.builds drafts).take i).countP Except.isOk + 1) ∧
              tx.content.fee.toNat = draft.baseFee.toNat * draft.operations.length) ∧
          ∀ fault, (start.builds drafts)[i]? = some (.error fault) →
            start.afterBuilds (drafts.take (i + 1)) = start.afterBuilds (drafts.take i) := by
  obtain ⟨address, sequence⟩ := afterBuilds_eq start drafts
  refine ⟨?_, address, sequence, fun i draft mem => ?_⟩
  · rw [builds, Change.length_outcomes, List.length_map]
  · obtain ⟨outcome, next⟩ := getElem?_builds mem start
    obtain ⟨source, used⟩ := afterBuilds_eq start (drafts.take i)
    rw [outcome, next, take_builds]
    by_cases ready : draft.Buildable (start.afterBuilds (drafts.take i))
    · rw [Draft.attempt_buildInPlace ready]
      refine ⟨iff_of_true ⟨_, rfl⟩ ready, ?_, nofun⟩
      intro tx same
      cases same
      refine ⟨rfl, source, ?_, Draft.toNat_fee_transaction ready⟩
      have count := Draft.toInt_sequenceNumber_transaction ready
      rw [used, Int.add_assoc] at count
      exact count
    · obtain ⟨fault, attempt⟩ := Draft.attempt_buildInPlace_of_not ready
      rw [attempt]
      have failed (tx : SignedTransaction) :
          some (.error fault : Except TransactionFault SignedTransaction) ≠ some (.ok tx) := nofun
      refine ⟨iff_of_false ?_ ready, fun tx same => (failed tx same).elim, fun _ _ => rfl⟩
      rintro ⟨tx, same⟩
      exact failed tx same

/-- An account with two sequence numbers left. -/
def nearlySpent : Account := ⟨⟨default, none⟩, .maxValue - 2⟩

/-- A draft of one operation. -/
def bareDraft : Draft := .ofOperations [⟨none, .inflation⟩]

/-- A draft that offers too little takes no sequence number: the one behind it gets the last number
of the account, and then no more drafts are built. -/
theorem run_builds_nearlySpent :
    let drafts := [bareDraft, bareDraft.withBaseFee 99, bareDraft, bareDraft]
    (∃ tx : SignedTransaction, (nearlySpent.builds drafts)[2]? = some (.ok tx) ∧
        tx.content.sequenceNumber.toInt = 2 ^ 63 - 1) ∧
      ¬ ∃ tx : SignedTransaction, (nearlySpent.builds drafts)[3]? = some (.ok tx) := by
  intro drafts
  obtain ⟨-, -, -, each⟩ := run_builds nearlySpent drafts
  obtain ⟨third, made, -⟩ := each 2 bareDraft rfl
  obtain ⟨fourth, -⟩ := each 3 bareDraft rfl
  have start : nearlySpent.sequenceNumber.toInt = 2 ^ 63 - 3 := rfl
  have one : ((nearlySpent.builds drafts).take 2).countP Except.isOk = 1 := by decide
  have left : (nearlySpent.afterBuilds (drafts.take 2)).sequenceNumber.toInt < 2 ^ 63 - 1 := by
    decide
  have spent : ¬ (nearlySpent.afterBuilds (drafts.take 3)).sequenceNumber.toInt < 2 ^ 63 - 1 := by
    decide
  apply And.intro
  · obtain ⟨tx, built⟩ := third.2 ⟨by decide, by decide, by decide, by decide, left,
      List.forall_mem_singleton.2 rfl, rfl, nofun⟩
    obtain ⟨-, -, sequence, -⟩ := made tx built
    rw [one, start] at sequence
    exact ⟨tx, built, sequence⟩
  · exact fun built => spent (fourth.1 built).sequence

end Account

end LedgerWire
