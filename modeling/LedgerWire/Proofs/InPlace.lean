import LedgerWire.Proofs.Basic
import LedgerWire.Transaction.InPlace

/-!
# Changes in place do all or nothing

Every change of an account, of a transaction or of what else carries signatures either does all
that the computation of the changed value says, or fails with the fault of that computation and
leaves the value as it was. `Change.Commits` says so of one change. Nothing of the kind holds of
changes in general: it rests on the order of their steps.
-/

namespace LedgerWire

namespace Change
variable {σ α β : Type}

/-- What a change gives and leaves that does all or nothing: a changed value takes the place of the
value, and a fault leaves it as it was. -/
def settle (s : σ) : Except TransactionFault (α × σ) → Except TransactionFault α × σ
  | .ok (a, s') => (.ok a, s')
  | .error fault => (.error fault, s)

/-- Whether a change does all of what a computation of the changed value says, or nothing. -/
def Commits (change : Change σ α) (step : σ → Except TransactionFault (α × σ)) : Prop :=
  ∀ s, change.attempt s = settle s (step s)

/-- Every change has an outcome. -/
@[simp] lemma length_outcomes (changes : List (Change σ α)) (s : σ) :
    (outcomes changes s).length = changes.length := by
  induction changes generalizing s with
  | nil => rfl
  | cons change changes ih => rw [outcomes, List.length_cons, List.length_cons, ih]

/-- What comes out of the first changes does not depend on those after them. -/
lemma take_outcomes (changes : List (Change σ α)) (s : σ) (i : Nat) :
    (outcomes changes s).take i = outcomes (changes.take i) s := by
  induction changes generalizing s i with
  | nil => rw [List.take_nil, outcomes, List.take_nil]
  | cons change changes ih =>
    cases i with
    | zero => rfl
    | succ i => rw [outcomes, List.take_succ_cons, List.take_succ_cons, outcomes, ih]

/-- Changes are made one after another. -/
lemma final_append (changes changes' : List (Change σ α)) (s : σ) :
    final (changes ++ changes') s = final changes' (final changes s) := by
  induction changes generalizing s with
  | nil => rfl
  | cons change changes ih => exact ih _

/-- What is asked for among other things is done to the value that those before it leave. -/
lemma getElem?_outcomes_map {ρ : Type} (change : ρ → Change σ α) {requests : List ρ} {request : ρ}
    {i : Nat} (mem : requests[i]? = some request) (s : σ) :
    (outcomes (requests.map change) s)[i]? =
        some ((change request).attempt (final ((requests.take i).map change) s)).1 ∧
      final ((requests.take (i + 1)).map change) s =
        ((change request).attempt (final ((requests.take i).map change) s)).2 := by
  induction requests generalizing s i with
  | nil => cases mem
  | cons first requests ih =>
    cases i with
    | zero =>
      cases mem
      exact ⟨rfl, rfl⟩
    | succ i => exact ih mem _

/-- A change that starts with a look at the value goes on from what it sees. -/
@[simp] lemma attempt_get_bind (f : σ → Change σ α) (s : σ) :
    (get >>= f).attempt s = (f s).attempt s := rfl

/-- After a step that succeeds a change goes on from the value that the step leaves. -/
lemma attempt_bind_of_ok {x : Change σ α} {s s' : σ} {a : α} (h : x.attempt s = (.ok a, s'))
    (f : α → Change σ β) : (x >>= f).attempt s = (f a).attempt s' := by
  have run : x s = .ok a s' := by
    rw [attempt, EStateM.run] at h
    split at h
    case h_1 eq =>
      cases h
      exact eq
    case h_2 => cases h
  rw [attempt, attempt, EStateM.run, EStateM.run, bind, EStateM.instMonad]
  dsimp only
  rw [EStateM.bind, run]

/-- A computation that changes nothing may come first in a change that does all or nothing. -/
lemma attempt_ofExcept_bind {x : Except TransactionFault α} {f : α → Change σ β}
    {g : α → Except TransactionFault (β × σ)} {s : σ}
    (h : ∀ a, x = .ok a → (f a).attempt s = settle s (g a)) :
    (MonadExcept.ofExcept x >>= f).attempt s = settle s (x >>= g) := by
  cases x with
  | ok a => exact h a rfl
  | error fault => rfl

end Change

/-- An account that has a next sequence number moves on to it. -/
lemma Account.attempt_advance {account : Account} {sequence : Int64}
    (next : account.nextSequenceNumber = .ok sequence) :
    advance.attempt account = (.ok ⟨⟩, { account with sequenceNumber := sequence }) := by
  rw [advance, Change.attempt_get_bind, next]
  rfl

/-- The account moves on exactly when the transaction is made. Its sequence number is computed
before the transaction is made, and then moving on to it cannot fail any more. -/
theorem Draft.buildInPlace_commits (draft : Draft) :
    draft.buildInPlace.Commits fun account => draft.build account := by
  intro account
  show draft.buildInPlace.attempt account = Change.settle account (draft.build account)
  rw [buildInPlace, build]
  dsimp only
  split
  case isTrue low => rfl
  case isFalse =>
    refine Change.attempt_ofExcept_bind fun _ _ => ?_
    split
    case isTrue great => rfl
    case isFalse =>
      rw [Change.attempt_get_bind]
      refine Change.attempt_ofExcept_bind fun sequence next => ?_
      refine Change.attempt_ofExcept_bind fun t _ => ?_
      rw [Change.attempt_bind_of_ok (Account.attempt_advance next)]
      rfl

namespace Signed
variable {α : Type}

/-- To add a signature in place gives what it gives apart, or changes nothing. -/
theorem addInPlace_commits (signature : DecoratedSignature) :
    (addInPlace signature).Commits fun s : Signed α => Prod.mk () <$> s.addSignature signature := by
  intro s
  show (addInPlace signature).attempt s = Change.settle s (Prod.mk () <$> s.addSignature signature)
  rw [addInPlace, addSignature, Change.attempt_get_bind]
  split
  case isTrue full => rfl
  case isFalse room => rfl

/-- To sign in place gives what it gives apart, or changes nothing. -/
theorem signInPlace_commits [Signable α] (pair : KeyPair) (network : Network) :
    (signInPlace pair network).Commits fun s : Signed α => Prod.mk () <$> s.sign pair network := by
  intro s
  show (signInPlace pair network).attempt s = Change.settle s (Prod.mk () <$> s.sign pair network)
  rw [signInPlace, sign, Change.attempt_get_bind]
  dsimp only
  cases pair.signDecorated (signatureHash network s.content).bytes with
  | ok signature => exact addInPlace_commits signature s
  | error fault => rfl

/-- To add a secret in place gives what it gives apart, or changes nothing. -/
theorem signHashXInPlace_commits (preimage : Bytes) :
    (signHashXInPlace preimage).Commits fun s : Signed α =>
      Prod.mk () <$> s.signHashX preimage := by
  intro s
  show (signHashXInPlace preimage).attempt s = Change.settle s (Prod.mk () <$> s.signHashX preimage)
  rw [signHashXInPlace, signHashX, DecoratedSignature.make]
  split
  case isTrue long =>
    rw [dif_neg (Nat.not_le_of_lt long)]
    rfl
  case isFalse short =>
    rw [dif_pos (Nat.le_of_not_lt short)]
    exact addInPlace_commits _ s

end Signed

namespace SignedTransaction

/-- A change of the signatures gives the same with a layout beside them, which stays. -/
lemma attempt_onSigned {β : Type} (change : Change (Signed Transaction) β)
    (tx : SignedTransaction) :
    (onSigned change).attempt tx =
      ((change.attempt tx.toSigned).1, { tx with toSigned := (change.attempt tx.toSigned).2 }) := by
  rw [Change.attempt, Change.attempt, EStateM.run, EStateM.run, onSigned, EStateM.run]
  cases change tx.toSigned with
  | ok a s => rfl
  | error fault s => rfl

/-- To change the layout in place gives what it gives apart, or changes nothing. -/
theorem travelInPlace_commits (wanted : EnvelopeType) :
    (travelInPlace wanted).Commits fun tx => Prod.mk () <$> tx.withEnvelopeType wanted := by
  intro tx
  show (travelInPlace wanted).attempt tx =
    Change.settle tx (Prod.mk () <$> tx.withEnvelopeType wanted)
  rw [travelInPlace, Change.attempt_get_bind]
  cases wanted with
  | tx => rfl
  | txV0 =>
    rw [withEnvelopeType]
    dsimp only
    split
    case isTrue => rfl
    case isFalse =>
      split
      case isTrue => rfl
      case isFalse => rfl
  | txFeeBump => rfl

end SignedTransaction

end LedgerWire
