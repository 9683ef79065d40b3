import LedgerWire.Proofs.Envelope
import LedgerWire.Proofs.Rules

/-!
# Requests to a transaction

A transaction that is made goes through requests: another layout, or one more signature. A request
that is refused leaves the transaction as it is. No request touches what is signed, the signatures
never become too many, and the older layout is never in use where it loses something, so what was
made within the limits of the wire stays within them whatever is asked.
-/

namespace LedgerWire

/-- Ways of asking for one more signature. -/
inductive SigningRequest where
  /-- A signature that is given. -/
  | add (signature : DecoratedSignature)
  /-- The signature of a key pair for a network. -/
  | sign (pair : KeyPair) (network : Network)
  /-- The secret of a hash signer. -/
  | hashX (preimage : Bytes)

/-- What can be asked of a transaction. -/
inductive Request where
  /-- To travel in the layout of a kind of envelope. -/
  | travel (wanted : EnvelopeType)
  /-- To take one more signature. -/
  | signing (request : SigningRequest)

namespace Signed
variable {α : Type} [Signable α]

/-- What a request for one more signature gives. -/
def perform (s : Signed α) : SigningRequest → Except TransactionFault (Signed α)
  | .add signature => s.addSignature signature
  | .sign pair network => s.sign pair network
  | .hashX preimage => s.signHashX preimage

/-- A request that succeeds adds one signature at the end, and there was room for it. -/
lemma perform_eq_ok {s s' : Signed α} {request : SigningRequest}
    (done : s.perform request = .ok s') :
    s.signatures.length < Limits.maxSignatures ∧
      ∃ signature, s' = { s with signatures := s.signatures ++ [signature] } := by
  have added : ∀ {signature}, s.addSignature signature = .ok s' →
      s.signatures.length < Limits.maxSignatures ∧
        ∃ signature, s' = { s with signatures := s.signatures ++ [signature] } := by
    intro signature h
    simp only [addSignature, if_error_eq_ok, not_le, Except.ok.injEq] at h
    obtain ⟨room, rfl⟩ := h
    exact ⟨room, signature, rfl⟩
  cases request with
  | add signature => exact added done
  | sign pair network =>
    rw [perform, sign] at done
    split at done
    case h_1 => exact added done
    case h_2 => cases done
  | hashX preimage =>
    rw [perform, signHashX] at done
    split at done
    case h_1 => exact added done
    case h_2 => cases done

end Signed

namespace SignedTransaction

/-- What a request gives. -/
def perform (tx : SignedTransaction) : Request → Except TransactionFault SignedTransaction
  | .travel wanted => tx.withEnvelopeType wanted
  | .signing request => do return { tx with toSigned := ← tx.toSigned.perform request }

/-- The transaction after a request, whether it succeeded or not. -/
def after (tx : SignedTransaction) (request : Request) : SignedTransaction :=
  match tx.perform request with
  | .ok tx' => tx'
  | .error _ => tx

/-- The transaction after requests in their order. -/
def run (tx : SignedTransaction) (requests : List Request) : SignedTransaction :=
  requests.foldl after tx

/-- What a request can do: choose a layout that loses nothing, or add a signature where there is
room. -/
lemma perform_cases {tx tx' : SignedTransaction} {request : Request}
    (done : tx.perform request = .ok tx') :
    tx' = { tx with layout := .v1 } ∨
      (tx' = { tx with layout := .v0 } ∧ tx.content.source.isMuxed = false ∧
        tx.content.preconditions.beyondTime = false) ∨
      (tx.signatures.length < Limits.maxSignatures ∧
        ∃ signature, tx' = { tx with signatures := tx.signatures ++ [signature] }) := by
  cases request with
  | travel wanted =>
    rw [perform] at done
    cases wanted with
    | tx =>
      cases done
      exact .inl rfl
    | txV0 =>
      simp only [withEnvelopeType, if_error_eq_ok, Bool.not_eq_true, Except.ok.injEq] at done
      obtain ⟨plain, time, rfl⟩ := done
      exact .inr (.inl ⟨rfl, plain, time⟩)
    | txFeeBump => cases done
  | signing request =>
    obtain ⟨s, signed, result⟩ := bind_eq_ok.1 done
    cases result
    obtain ⟨room, signature, rfl⟩ := Signed.perform_eq_ok signed
    exact .inr (.inr ⟨room, signature, rfl⟩)

/-- A transaction has not too many signatures and a layout that loses nothing. -/
structure Sound (tx : SignedTransaction) : Prop where
  signatures : tx.signatures.length ≤ Limits.maxSignatures
  layout : tx.layout = .v0 →
    tx.content.source.isMuxed = false ∧ tx.content.preconditions.beyondTime = false

/-- A transaction that nobody has signed is sound. -/
lemma sound_unsigned (t : Transaction) : (unsigned t).Sound := ⟨Nat.zero_le _, nofun⟩

/-- A request keeps what is signed, and keeps a transaction sound. -/
lemma Sound.after {tx : SignedTransaction} (h : tx.Sound) (request : Request) :
    (tx.after request).content = tx.content ∧ (tx.after request).Sound := by
  rw [SignedTransaction.after]
  split
  case h_1 tx' done =>
    obtain rfl | ⟨rfl, lossless⟩ | ⟨room, signature, rfl⟩ := perform_cases done
    · exact ⟨rfl, h.signatures, nofun⟩
    · exact ⟨rfl, h.signatures, fun _ => lossless⟩
    · refine ⟨rfl, ?_, h.layout⟩
      rw [List.length_append, List.length_singleton]
      exact room
  case h_2 => exact ⟨rfl, h⟩

/-- Requests keep what is signed, and keep a transaction sound. -/
theorem Sound.run {tx : SignedTransaction} (h : tx.Sound) (requests : List Request) :
    (tx.run requests).content = tx.content ∧ (tx.run requests).Sound := by
  induction requests generalizing tx with
  | nil => exact ⟨rfl, h⟩
  | cons request requests ih =>
    obtain ⟨same, sound⟩ := h.after request
    obtain ⟨same', sound'⟩ := ih sound
    exact ⟨same'.trans same, sound'⟩

/-- An envelope with a sound transaction is within the limits of the wire when what is signed is. -/
lemma Sound.fits_iff {tx : SignedTransaction} (h : tx.Sound) :
    (Envelope.transaction tx).Fits ↔ tx.content.Fits := by
  obtain ⟨s, _ | _⟩ := tx
  · exact ⟨fun fits => fits.1.content, fun fits => ⟨⟨fits, h.signatures⟩, h.layout rfl⟩⟩
  · exact ⟨fun fits => fits.content, fun fits => ⟨fits, h.signatures⟩⟩

/-- The transactions that can be made, by themselves or from a draft. -/
inductive Made : SignedTransaction → Prop where
  /-- A transaction made of its parts. -/
  | make {source fee sequence operations memo preconditions t}
    (made : Transaction.make source fee sequence operations memo preconditions = .ok t) :
    Made (.unsigned t)
  /-- A transaction built from a draft. -/
  | build {account account' : Account} {draft : Draft} {tx}
    (built : draft.build account = .ok (tx, account')) : Made tx

/-- Both ways of making a transaction follow the same rules and leave it unsigned. -/
lemma Made.exists_make {tx : SignedTransaction} (h : Made tx) :
    ∃ source fee sequence operations memo preconditions t,
      Transaction.make source fee sequence operations memo preconditions = .ok t ∧
        tx = .unsigned t := by
  cases h with
  | make made => exact ⟨_, _, _, _, _, _, _, made, rfl⟩
  | build built =>
    obtain ⟨ready, rfl, -⟩ := Draft.build_eq_ok.1 built
    exact ⟨_, _, _, _, _, _, _, ready.make_eq_ok, rfl⟩

/-- A transaction that was made, after any requests, is read back from its envelope exactly when
the predicates of its claimants are not too deep and the names of its sponsored data entries are not
too long. Everything else that reading refuses is refused when a transaction is made. -/
theorem Made.decode_encode_run_iff {tx : SignedTransaction} (h : Made tx)
    (requests : List Request) :
    Envelope.codec.decode (Envelope.codec.encode (.transaction (tx.run requests))) =
        .ok (.transaction (tx.run requests)) ↔
      ∀ op ∈ tx.content.operations, op.body.UncheckedFits := by
  obtain ⟨_, _, _, _, _, _, t, made, rfl⟩ := h.exists_make
  obtain ⟨same, sound⟩ := (sound_unsigned t).run requests
  have fits : t.Fits ↔ ∀ op ∈ t.operations, op.body.UncheckedFits :=
    Transaction.fits_iff_uncheckedFits made
  rw [Envelope.decode_encode_iff, sound.fits_iff, same]
  exact fits

/-- A transaction of one operation satisfies the rules. -/
lemma made_bare : Made (.unsigned Envelope.bareTransaction) := by
  apply Made.make
  refine Transaction.make_eq_ok.2 ⟨by decide, ?_, rfl, rfl, rfl⟩
  exact List.forall_mem_singleton.2 rfl

/-- A transaction of one operation is read back after a change of layout, a secret and a request
that is refused. -/
theorem decode_encode_run_bare :
    Made (.unsigned Envelope.bareTransaction) ∧
      Envelope.codec.decode (Envelope.codec.encode (.transaction
        ((unsigned Envelope.bareTransaction).run
          [.travel .txV0, .signing (.hashX [1, 2, 3]), .travel .txFeeBump]))) =
        .ok (.transaction ((unsigned Envelope.bareTransaction).run
          [.travel .txV0, .signing (.hashX [1, 2, 3]), .travel .txFeeBump])) := by
  refine ⟨made_bare, (made_bare.decode_encode_run_iff _).2 ?_⟩
  exact List.forall_mem_singleton.2 trivial

/-- A transaction that stops paying for a data entry whose name has 65 bytes. -/
def longName : Transaction :=
  ⟨⟨default, none⟩, 100, 1, .none, .none,
    [⟨none, .revokeSponsorship (.entry (.data ⟨default⟩ (String.ofList (.replicate 65 'a'))))⟩]⟩

/-- The rules let a name of 65 bytes through, and the transaction with it is not read back. -/
theorem longName_not_read_back :
    Transaction.make longName.source longName.fee longName.sequenceNumber longName.operations
        longName.memo longName.preconditions = .ok longName ∧
      Envelope.codec.decode (Envelope.codec.encode (.transaction (.unsigned longName))) ≠
        .ok (.transaction (.unsigned longName)) := by
  refine ⟨?_, fun read => ?_⟩
  · refine Transaction.make_eq_ok.2 ⟨by decide, ?_, rfl, rfl, rfl⟩
    exact List.forall_mem_singleton.2 rfl
  · have short : (Bytes.ofText (String.ofList (.replicate 65 'a'))).length ≤ 64 :=
      (Envelope.decode_encode_iff.1 read).content.operations.2.2 _ List.mem_cons_self
    exact absurd short (by decide)

end SignedTransaction

end LedgerWire
