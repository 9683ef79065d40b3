import LedgerWire.Claim.Origin
import LedgerWire.Proofs.Binding

/-!
# What names a claimable balance

The bytes whose hash names a balance have one layout, in which every field has a fixed width, so
they tell the source key, the sequence number and the index of the operation and are told by them.
Whatever else stands in the transaction or around it plays no part. The index is narrowed to its
field without loss because no transaction has more than a hundred operations.
-/

namespace LedgerWire

namespace BalanceOrigin

/-- Origins have one wire form each and are read back from it. -/
lemma lawful : codec.Lawful fun _ => True :=
  ((AccountId.lawful.pair <| Codec.Lawful.int64.pair .uint32).map fun _ _ => rfl).congr
    fun _ => by simp

/-- What is hashed for the name of a balance is a tag and the origin. -/
lemma preimage_eq (origin : BalanceOrigin) :
    origin.preimage = Codec.int32.encode tag ++ codec.encode origin :=
  lawful.appends origin _

/-- What is hashed for the name of a balance tells the origin. -/
lemma preimage_inj {a b : BalanceOrigin} : a.preimage = b.preimage ↔ a = b := by
  apply Iff.intro
  · intro same
    rw [preimage_eq, preimage_eq] at same
    exact lawful.encode_inj trivial trivial (List.append_cancel_left same)
  · exact congrArg preimage

end BalanceOrigin

/-- An operation creates a balance when it sets an amount aside. -/
lemma OperationBody.createsBalance_iff {body : OperationBody} :
    body.createsBalance = true ↔ ∃ op, body = .createClaimableBalance op := by
  cases body <;> simp [createsBalance]

namespace Transaction

/-- A transaction that can be had has at most one hundred operations. -/
lemma Obtained.length_le {t : Transaction} (h : t.Obtained) : t.operations.length ≤ 100 := by
  cases h with
  | make made =>
    obtain ⟨⟨_, few⟩, _, _, _, rfl⟩ := make_eq_ok.1 made
    exact few
  | @read _ tx read =>
    have fits := (Envelope.accepts.runAll_eq_ok.1 read).1
    obtain ⟨s, _ | _⟩ := tx
    · exact fits.1.content.operations.2.1
    · exact fits.content.operations.2.1
  | readInner read => exact (Envelope.accepts.runAll_eq_ok.1 read).1.1.content.operations.2.1

/-- Where there is a balance to be named, and what names it. -/
lemma balanceOrigin_eq_ok {t : Transaction} {index : Nat} {origin : BalanceOrigin} :
    t.balanceOrigin index = .ok origin ↔
      (∃ (inside : index < t.operations.length) (op : CreateClaimableBalance),
        t.operations[index].body = .createClaimableBalance op) ∧
        origin = ⟨t.source.account, t.sequenceNumber, UInt32.ofNat index⟩ := by
  rw [balanceOrigin]
  split
  case h_1 missing =>
    rw [List.getElem?_eq_none_iff] at missing
    exact ⟨nofun, fun ⟨⟨inside, _⟩, _⟩ => absurd inside (Nat.not_lt_of_le missing)⟩
  case h_2 op found =>
    obtain ⟨inside, rfl⟩ := List.getElem?_eq_some_iff.1 found
    split
    case isTrue creates =>
      have named := OperationBody.createsBalance_iff.1 creates
      rw [Except.ok.injEq, eq_comm]
      exact ⟨fun same => ⟨⟨inside, named⟩, same⟩, fun h => h.2⟩
    case isFalse other =>
      exact ⟨nofun, fun ⟨⟨_, named⟩, _⟩ => (other (OperationBody.createsBalance_iff.2 named)).elim⟩

/-- The name of a balance is the hash of its origin. -/
lemma balanceId_eq_ok {t : Transaction} {index : Nat} {id : BalanceId} :
    t.balanceId index = .ok id ↔
      ∃ origin, t.balanceOrigin index = .ok origin ∧ id = ⟨sha256 origin.preimage⟩ := by
  have value (origin : BalanceOrigin) :
      (pure origin.balanceId : Except BalanceIdFault BalanceId) = .ok id ↔
        id = ⟨sha256 origin.preimage⟩ := (Except.ok.injEq _ _).to_iff.trans eq_comm
  rw [balanceId, bind_eq_ok]
  exact exists_congr fun origin => and_congr_right fun _ => value origin

/-- The index of an operation that there is keeps its value in its field. -/
lemma Obtained.index_inj {t t' : Transaction} (h : t.Obtained) (h' : t'.Obtained)
    {index index' : Nat} (inside : index < t.operations.length)
    (inside' : index' < t'.operations.length) :
    UInt32.ofNat index = UInt32.ofNat index' ↔ index = index' := by
  have small : index < 2 ^ 32 := by have := h.length_le; omega
  have small' : index' < 2 ^ 32 := by have := h'.length_le; omega
  rw [← UInt32.toNat_inj, UInt32.toNat_ofNat_of_lt' small, UInt32.toNat_ofNat_of_lt' small']

end Transaction

/-- A balance is named at the indices of the operations that create one and at no others. What is
hashed for the name is told by the key of the source, the sequence number and the index, and tells
them, in whichever transactions that can be had and whatever else is in these or around them. -/
theorem balanceIds_named_by_origin :
    (∀ (t : Transaction) (index : Nat), (∃ id, t.balanceId index = .ok id) ↔
      ∃ (inside : index < t.operations.length) (op : CreateClaimableBalance),
        t.operations[index].body = .createClaimableBalance op) ∧
    (∀ (t : Transaction) (index : Nat) (id : BalanceId), t.balanceId index = .ok id ↔
      ∃ origin, t.balanceOrigin index = .ok origin ∧ id = ⟨sha256 origin.preimage⟩) ∧
    ∀ (tx tx' : SignedTransaction) (index index' : Nat) (origin origin' : BalanceOrigin),
      tx.content.Obtained → tx'.content.Obtained →
      tx.content.balanceOrigin index = .ok origin →
      tx'.content.balanceOrigin index' = .ok origin' →
      (origin.preimage = origin'.preimage ↔
        tx.content.source.key = tx'.content.source.key ∧
          tx.content.sequenceNumber = tx'.content.sequenceNumber ∧ index = index') := by
  refine ⟨?_, fun t index id => Transaction.balanceId_eq_ok, ?_⟩
  · intro t index
    simp only [Transaction.balanceId_eq_ok, Transaction.balanceOrigin_eq_ok]
    apply Iff.intro
    · intro h
      obtain ⟨_, _, ⟨creates, _⟩, _⟩ := h
      exact creates
    · intro creates
      exact ⟨_, _, ⟨creates, rfl⟩, rfl⟩
  · intro tx tx' index index' origin origin' obtained obtained' named named'
    obtain ⟨⟨inside, -⟩, rfl⟩ := Transaction.balanceOrigin_eq_ok.1 named
    obtain ⟨⟨inside', -⟩, rfl⟩ := Transaction.balanceOrigin_eq_ok.1 named'
    rw [BalanceOrigin.preimage_inj, BalanceOrigin.mk.injEq, MuxedAccount.account,
      MuxedAccount.account, AccountId.mk.injEq, obtained.index_inj obtained' inside inside']

/-- A transaction that creates two balances and raises a sequence number in between. -/
def settingAside (source : MuxedAccount) (fee : UInt32) (memo : Memo)
    (opSource : Option MuxedAccount) : Transaction :=
  let create := .createClaimableBalance ⟨.native, 1, [⟨⟨default⟩, .unconditional⟩]⟩
  ⟨source, fee, 1, .none, memo, [⟨opSource, create⟩, ⟨none, .bumpSequence 2⟩, ⟨none, create⟩]⟩

/-- A number beside the source, another fee, a memo, a source of the operation and a signature
change nothing about what is hashed for the name of a balance, and the index does. No balance is
named for the operation in between. -/
theorem balanceIds_of_settingAside :
    let plain : SignedTransaction := ⟨⟨settingAside ⟨default, none⟩ 300 .none none, []⟩, .v0⟩
    let dressed : SignedTransaction :=
      ⟨⟨settingAside ⟨default, some 41⟩ 900 (.id 7) (some ⟨default, none⟩),
        [⟨default, [1], by decide⟩]⟩, .v1⟩
    (∃ id, plain.content.balanceId 0 = .ok id) ∧ (¬ ∃ id, plain.content.balanceId 1 = .ok id) ∧
      ∃ first first' last', plain.content.balanceOrigin 0 = .ok first ∧
        dressed.content.balanceOrigin 0 = .ok first' ∧
        dressed.content.balanceOrigin 2 = .ok last' ∧
        first.preimage = first'.preimage ∧ first.preimage ≠ last'.preimage := by
  intro plain dressed
  obtain ⟨named, -, told⟩ := balanceIds_named_by_origin
  have obtained : plain.content.Obtained :=
    .make (Transaction.make_eq_ok.2 ⟨by decide, by decide, rfl, rfl, rfl⟩)
  have obtained' : dressed.content.Obtained :=
    .make (Transaction.make_eq_ok.2 ⟨by decide, by decide, rfl, rfl, rfl⟩)
  refine ⟨(named _ _).2 ⟨by decide, _, rfl⟩, fun held => ?_, _, _, _, rfl, rfl, rfl, ?_, ?_⟩
  · obtain ⟨_, _, creates⟩ := (named _ _).1 held
    cases creates
  · exact (told plain dressed 0 0 _ _ obtained obtained' rfl rfl).2 ⟨rfl, rfl, rfl⟩
  · intro same
    obtain ⟨-, -, index⟩ := (told plain dressed 0 2 _ _ obtained obtained' rfl rfl).1 same
    cases index

end LedgerWire
