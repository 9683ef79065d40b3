import LedgerWire.Proofs.Binding
import LedgerWire.Proofs.InPlace
import LedgerWire.Proofs.Requests

/-!
# Signatures through requests

Transactions and fee bumps take signatures, in any order and for any networks, and a transaction
changes its layout in between. `Carrier` says what both kinds of values have in common here, and
`Carrier.Does` is all that a single request can do. What holds through every run of requests follows
from that: none of them touches what is signed, so no signature that was made becomes invalid.
-/

namespace LedgerWire

/-- Whether a key pair finds its own signature of a message valid. -/
def KeyPair.VerifiesOwn (pair : KeyPair) (message : Bytes) : Prop :=
  ∀ signature, pair.sign message = .ok signature → pair.verify message signature.bytes = true

namespace SigningRequest
variable {α : Type}

/-- Whether there is no signature to be had: the seed is not known, or the secret is too long. -/
def Vain : SigningRequest → Prop
  | .add _ => False
  | .sign pair _ => pair.seed = none
  | .hashX preimage => 64 < preimage.length

/-- The signature that is asked for, if it can be had. -/
def signature? [Signable α] (content : α) : SigningRequest → Option DecoratedSignature
  | .add signature => some signature
  | .sign pair network => pair.seed.map fun seed =>
    .ofEd25519 pair.hint (Ed25519.sign seed (signatureHash network content).bytes)
  | .hashX preimage =>
    if short : preimage.length ≤ 64 then some ⟨Hint.ofPreimage preimage, preimage, short⟩ else none

/-- Whether a request is refused. -/
def Refused (s : Signed α) (request : SigningRequest) : Prop :=
  request.Vain ∨ 20 ≤ s.signatures.length

/-- The change that a request asks for. -/
def inPlace [Signable α] : SigningRequest → Change (Signed α) Unit
  | .add signature => Signed.addInPlace signature
  | .sign pair network => Signed.signInPlace pair network
  | .hashX preimage => Signed.signHashXInPlace preimage

variable [Signable α]

/-- A request is in vain when it has no signature to add. -/
lemma vain_iff (content : α) (request : SigningRequest) :
    request.Vain ↔ request.signature? content = none := by
  cases request with
  | add signature => exact iff_of_false id (Option.some_ne_none _)
  | sign pair network => exact Option.map_eq_none_iff.symm
  | hashX preimage =>
    rw [signature?, Vain]
    split
    case isTrue short => exact iff_of_false (Nat.not_lt_of_le short) (Option.some_ne_none _)
    case isFalse long => exact iff_of_true (Nat.lt_of_not_le long) rfl

/-- A request in place gives what it gives apart, or changes nothing. -/
lemma inPlace_commits (request : SigningRequest) :
    request.inPlace.Commits fun s : Signed α => Prod.mk () <$> s.perform request := by
  cases request with
  | add signature => exact Signed.addInPlace_commits signature
  | sign pair network => exact Signed.signInPlace_commits pair network
  | hashX preimage => exact Signed.signHashXInPlace_commits preimage

end SigningRequest

namespace Signed
variable {α : Type} [Signable α] {s : Signed α} {request : SigningRequest}

/-- A request for a signature that can be had succeeds if there is room for it. -/
lemma perform_of_some {signature : DecoratedSignature}
    (found : request.signature? s.content = some signature) :
    s.perform request = s.addSignature signature := by
  cases request with
  | add given =>
    cases found
    rfl
  | sign pair network =>
    obtain ⟨seed, known, rfl⟩ := Option.map_eq_some_iff.1 found
    rw [perform, sign, KeyPair.signDecorated, KeyPair.sign, known]
    rfl
  | hashX preimage =>
    rw [SigningRequest.signature?] at found
    split at found
    case isTrue short =>
      cases found
      rw [perform, signHashX, DecoratedSignature.make,
        dif_pos (show preimage.length ≤ Limits.signatureBytes from short)]
    case isFalse => cases found

/-- A request in vain fails. -/
lemma perform_of_none (vain : request.signature? s.content = none) :
    ∃ fault, s.perform request = .error fault := by
  cases request with
  | add given => cases vain
  | sign pair network =>
    have unknown := Option.map_eq_none_iff.1 vain
    refine ⟨.key .missingSecretKey, ?_⟩
    rw [perform, sign, KeyPair.signDecorated, KeyPair.sign, unknown]
    rfl
  | hashX preimage =>
    have long : 64 < preimage.length :=
      (SigningRequest.vain_iff s.content (.hashX preimage)).2 vain
    refine ⟨.preimageTooLong preimage.length, ?_⟩
    rw [perform, signHashX, DecoratedSignature.make,
      dif_neg (show ¬ preimage.length ≤ Limits.signatureBytes from Nat.not_le_of_lt long)]

/-- A signature at the end counts if it has the hint of the key and is valid. -/
lemma isSignedBy_concat {signature : DecoratedSignature} {key : FixedBytes 32} {network : Network}
    (hint : signature.hint = Hint.ofKey key)
    (valid : Ed25519.verify key (signatureHash network s.content).bytes signature.signature = true) :
    isSignedBy key network { s with signatures := s.signatures ++ [signature] } = true := by
  refine List.any_eq_true.2 ⟨signature, List.mem_concat_self, ?_⟩
  rw [hint, valid, beq_self_eq_true]
  rfl

/-- Whether a later value differs only by signatures at the end, of which there are not too many. -/
structure Extends (s s' : Signed α) : Prop where
  content : s'.content = s.content
  grown : s.signatures <+: s'.signatures
  length_le : s.signatures.length ≤ 20 → s'.signatures.length ≤ 20

namespace Extends
omit [Signable α]

/-- What is signed extends itself. -/
lemma refl (s : Signed α) : s.Extends s := ⟨rfl, List.prefix_rfl, id⟩

/-- What extends an extension extends the first. -/
lemma trans {s s' s'' : Signed α} (h : s.Extends s') (h' : s'.Extends s'') : s.Extends s'' :=
  ⟨h'.content.trans h.content, h.grown.trans h'.grown, fun le => h'.length_le (h.length_le le)⟩

/-- A signature more is an extension where there is room for it. -/
lemma of_room {s : Signed α} (room : s.signatures.length < 20) (signature : DecoratedSignature) :
    s.Extends { s with signatures := s.signatures ++ [signature] } := by
  refine ⟨rfl, List.prefix_append _ _, fun _ => ?_⟩
  rw [List.length_append, List.length_singleton]
  exact room

end Extends

/-- What was signed stays signed. -/
lemma Extends.isSignedBy {s s' : Signed α} {key : FixedBytes 32} {network : Network}
    (h : s.Extends s') (signed : s.isSignedBy key network = true) :
    s'.isSignedBy key network = true := by
  obtain ⟨signature, mem, valid⟩ := List.any_eq_true.1 signed
  refine List.any_eq_true.2 ⟨signature, h.grown.subset mem, ?_⟩
  rw [h.content]
  exact valid

end Signed

/-- Values that carry signatures, with what can be asked of them. -/
structure Carrier (σ ρ α : Type) where
  /-- What is signed, with its signatures. -/
  signed : σ → Signed α
  /-- The signature that is asked for, if it is one. -/
  asks : ρ → Option SigningRequest
  /-- The change that is asked for. -/
  change : ρ → Change σ Unit
  /-- Whether a request is refused. -/
  Refuses : σ → ρ → Prop

namespace Carrier
variable {σ ρ α : Type} {c : Carrier σ ρ α}

/-- What comes of requests, made one after another. -/
def outcomes (c : Carrier σ ρ α) (s : σ) (requests : List ρ) :
    List (Except TransactionFault Unit) :=
  Change.outcomes (requests.map c.change) s

/-- The value after requests, made one after another. -/
def after (c : Carrier σ ρ α) (s : σ) (requests : List ρ) : σ :=
  Change.final (requests.map c.change) s

/-- Requests are made one after another. -/
lemma after_append (s : σ) (requests requests' : List ρ) :
    c.after s (requests ++ requests') = c.after (c.after s requests) requests' := by
  rw [after, List.map_append, Change.final_append, after, after]

variable [Signable α]

/-- All that a request can do. -/
inductive Does (c : Carrier σ ρ α) (s : σ) (request : ρ) (s' : σ) :
    Except TransactionFault Unit → Prop where
  /-- It is refused, and leaves the value as it was. -/
  | refused {fault} (refuses : c.Refuses s request) (same : s' = s) :
    Does c s request s' (.error fault)
  /-- It succeeds, and leaves what is signed and the signatures as they were. -/
  | arranged (granted : ¬ c.Refuses s request) (other : c.asks request = none)
    (same : c.signed s' = c.signed s) : Does c s request s' (.ok ())
  /-- It succeeds, and adds the signature it asks for, for which there was room. -/
  | added {asked signature} (granted : ¬ c.Refuses s request) (asks : c.asks request = some asked)
    (found : asked.signature? (c.signed s).content = some signature)
    (room : (c.signed s).signatures.length < 20)
    (grown : c.signed s' =
      { c.signed s with signatures := (c.signed s).signatures ++ [signature] }) :
    Does c s request s' (.ok ())

/-- Whether each change does what the requests say. -/
def Lawful (c : Carrier σ ρ α) : Prop :=
  ∀ s request, c.Does s request ((c.change request).attempt s).2 ((c.change request).attempt s).1

/-- What holds of a value through requests, made one after another. -/
structure Safe (c : Carrier σ ρ α) (s : σ) (requests : List ρ) : Prop where
  /-- The bytes whose hash is signed stay the same for every network. -/
  base (network : Network) :
    signatureBase network (c.signed (c.after s requests)).content =
      signatureBase network (c.signed s).content
  /-- There are never more than twenty signatures. -/
  length_le : (c.signed (c.after s requests)).signatures.length ≤ 20
  /-- The signatures only ever grow at their end. -/
  grown : (c.signed s).signatures <+: (c.signed (c.after s requests)).signatures
  /-- Each request is refused or it succeeds. -/
  outcome {i request} (mem : requests[i]? = some request) :
    (c.Refuses (c.after s (requests.take i)) request ∧
        ∃ fault, (c.outcomes s requests)[i]? = some (.error fault)) ∨
      ¬ c.Refuses (c.after s (requests.take i)) request ∧
        (c.outcomes s requests)[i]? = some (.ok ())
  /-- A request that fails changes nothing. -/
  unchanged {i request fault} (mem : requests[i]? = some request)
    (failed : (c.outcomes s requests)[i]? = some (.error fault)) :
    c.after s (requests.take (i + 1)) = c.after s (requests.take i)
  /-- A request for a signature that succeeds adds that one signature. -/
  added {i request asked} (mem : requests[i]? = some request) (asks : c.asks request = some asked)
    (done : (c.outcomes s requests)[i]? = some (.ok ())) :
    ∃ signature, asked.signature? (c.signed s).content = some signature ∧
      (c.signed (c.after s (requests.take (i + 1)))).signatures =
        (c.signed (c.after s (requests.take i))).signatures ++ [signature]
  /-- Every other request leaves the signatures alone. -/
  kept {i request} (mem : requests[i]? = some request) (other : c.asks request = none) :
    (c.signed (c.after s (requests.take (i + 1)))).signatures =
      (c.signed (c.after s (requests.take i))).signatures
  /-- Once a key pair signed for a network, its signature stays valid for that network. -/
  signed {i request pair network} (mem : requests[i]? = some request)
    (asks : c.asks request = some (.sign pair network))
    (done : (c.outcomes s requests)[i]? = some (.ok ()))
    (verifies : pair.VerifiesOwn (signatureHash network (c.signed s).content).bytes)
    {j} (later : i < j) :
    (c.signed (c.after s (requests.take j))).isSignedBy pair.publicKey network = true

/-- What a request does is to extend the signatures. -/
lemma Does.extends {s s' : σ} {request : ρ} {outcome : Except TransactionFault Unit}
    (h : c.Does s request s' outcome) : (c.signed s).Extends (c.signed s') := by
  cases h with
  | refused _ same =>
    rw [same]
    exact .refl _
  | arranged _ _ same =>
    rw [same]
    exact .refl _
  | added _ _ _ room grown =>
    rw [grown]
    exact .of_room room _

/-- A request succeeds exactly when it is not refused. -/
lemma Does.eq_ok_iff {s s' : σ} {request : ρ} {outcome : Except TransactionFault Unit}
    (h : c.Does s request s' outcome) : outcome = .ok () ↔ ¬ c.Refuses s request := by
  cases h with
  | refused refuses _ => exact iff_of_false (by simp) (not_not_intro refuses)
  | arranged granted => exact iff_of_true rfl granted
  | added granted => exact iff_of_true rfl granted

/-- A request for a signature that succeeds adds that signature. -/
lemma Does.signature {s s' : σ} {request : ρ} {asked : SigningRequest}
    (h : c.Does s request s' (.ok ())) (asks : c.asks request = some asked) :
    ∃ signature, asked.signature? (c.signed s).content = some signature ∧
      c.signed s' = { c.signed s with signatures := (c.signed s).signatures ++ [signature] } := by
  cases h with
  | arranged _ other =>
    rw [other] at asks
    cases asks
  | added _ asks' found _ grown =>
    rw [asks'] at asks
    cases asks
    exact ⟨_, found, grown⟩

namespace Lawful
variable (h : c.Lawful)
include h

/-- Requests, whether they succeed or fail, extend the signatures. -/
lemma after_extends (s : σ) (requests : List ρ) :
    (c.signed s).Extends (c.signed (c.after s requests)) := by
  induction requests generalizing s with
  | nil => exact .refl _
  | cons request requests ih => exact (h s request).extends.trans (ih _)

/-- A request among others is made of the value that those before it leave. -/
lemma does_at (s : σ) {requests : List ρ} {request : ρ} {i : Nat}
    (mem : requests[i]? = some request) :
    ∃ outcome, (c.outcomes s requests)[i]? = some outcome ∧
      c.Does (c.after s (requests.take i)) request (c.after s (requests.take (i + 1))) outcome := by
  obtain ⟨came, next⟩ := Change.getElem?_outcomes_map c.change mem s
  refine ⟨_, came, ?_⟩
  rw [after, after, next]
  exact h _ request

/-- What came of a request is what it does in the state before it. -/
lemma does_of_outcome {s : σ} {requests : List ρ} {request : ρ} {i : Nat}
    {outcome : Except TransactionFault Unit} (mem : requests[i]? = some request)
    (came : (c.outcomes s requests)[i]? = some outcome) :
    c.Does (c.after s (requests.take i)) request (c.after s (requests.take (i + 1))) outcome := by
  obtain ⟨outcome', came', does⟩ := h.does_at s mem
  rw [came'] at came
  cases came
  exact does

/-- Once a key pair signed, the value is signed by it after all that is asked from then on. -/
lemma isSignedBy_of_sign {s : σ} {requests : List ρ} {request : ρ} {pair : KeyPair}
    {network : Network} {i j : Nat} (mem : requests[i]? = some request)
    (asks : c.asks request = some (.sign pair network))
    (done : (c.outcomes s requests)[i]? = some (.ok ()))
    (verifies : pair.VerifiesOwn (signatureHash network (c.signed s).content).bytes)
    (later : i < j) :
    (c.signed (c.after s (requests.take j))).isSignedBy pair.publicKey network = true := by
  have content := (h.after_extends s (requests.take i)).content
  obtain ⟨signature, found, grown⟩ := (h.does_of_outcome mem done).signature asks
  obtain ⟨seed, known, rfl⟩ := Option.map_eq_some_iff.1 found
  have made : pair.sign (signatureHash network (c.signed s).content).bytes =
      .ok (Ed25519.sign seed (signatureHash network (c.signed s).content).bytes) := by
    rw [KeyPair.sign, known]
  have valid := verifies _ made
  rw [KeyPair.verify] at valid
  have signed :
      (c.signed (c.after s (requests.take (i + 1)))).isSignedBy pair.publicKey network = true := by
    rw [grown, Signed.isSignedBy_concat rfl]
    rw [content]
    exact valid
  have split : requests.take j = requests.take (i + 1) ++ (requests.take j).drop (i + 1) := by
    have parts := List.take_append_drop (i + 1) (requests.take j)
    rw [List.take_take, Nat.min_eq_left later] at parts
    exact parts.symm
  rw [split, after_append]
  exact (h.after_extends _ _).isSignedBy signed

/-- What holds through requests follows from what a single request can do. -/
theorem safe {s : σ} (le : (c.signed s).signatures.length ≤ 20) (requests : List ρ) :
    c.Safe s requests where
  base network := by rw [(h.after_extends s requests).content]
  length_le := (h.after_extends s requests).length_le le
  grown := (h.after_extends s requests).grown
  outcome mem := by
    obtain ⟨outcome, came, does⟩ := h.does_at s mem
    rw [came]
    cases does with
    | refused refuses => exact .inl ⟨refuses, _, rfl⟩
    | arranged granted => exact .inr ⟨granted, rfl⟩
    | added granted => exact .inr ⟨granted, rfl⟩
  unchanged mem failed := by
    cases h.does_of_outcome mem failed with
    | refused _ same => exact same
  added {i request asked} mem asks done := by
    obtain ⟨signature, found, grown⟩ := (h.does_of_outcome mem done).signature asks
    rw [(h.after_extends s (requests.take i)).content] at found
    exact ⟨signature, found, congrArg Signed.signatures grown⟩
  kept mem other := by
    obtain ⟨outcome, -, does⟩ := h.does_at s mem
    cases does with
    | refused _ same => rw [same]
    | arranged _ _ same => rw [same]
    | added _ asks =>
      rw [other] at asks
      cases asks
  signed mem asks done verifies _ later := h.isSignedBy_of_sign mem asks done verifies later

end Lawful

/-- Whatever carries signatures and nothing beside them. -/
def ofSigned (α : Type) [Signable α] : Carrier (Signed α) SigningRequest α where
  signed := id
  asks := some
  change := SigningRequest.inPlace
  Refuses s request := request.Refused s

/-- Fee bumps. -/
abbrev feeBumps : Carrier (Signed FeeBump) SigningRequest FeeBump := ofSigned FeeBump

/-- To sign without more is lawful. -/
lemma ofSigned_lawful : (ofSigned α).Lawful := by
  intro s request
  have commits : request.inPlace.attempt s = Change.settle s (Prod.mk () <$> s.perform request) :=
    request.inPlace_commits s
  show (ofSigned α).Does s request (request.inPlace.attempt s).2 (request.inPlace.attempt s).1
  rw [commits]
  cases found : request.signature? s.content with
  | none =>
    obtain ⟨fault, refused⟩ := Signed.perform_of_none found
    rw [refused]
    exact .refused (.inl ((request.vain_iff s.content).2 found)) rfl
  | some signature =>
    rw [Signed.perform_of_some found, Signed.addSignature]
    split
    case isTrue full => exact .refused (.inr full) rfl
    case isFalse room =>
      have granted : ¬ request.Refused s := by
        rintro (vain | full)
        · rw [(request.vain_iff s.content).1 vain] at found
          cases found
        · exact room full
      exact .added granted rfl found (Nat.lt_of_not_le room) rfl

end Carrier

/-- The change that a request asks for. -/
def Request.inPlace : Request → Change SignedTransaction Unit
  | .travel wanted => SignedTransaction.travelInPlace wanted
  | .signing request => SignedTransaction.onSigned request.inPlace

/-- A request to a transaction in place gives what it gives apart, or changes nothing. -/
lemma Request.inPlace_commits (request : Request) :
    request.inPlace.Commits fun tx => Prod.mk () <$> tx.perform request := by
  cases request with
  | travel wanted => exact SignedTransaction.travelInPlace_commits wanted
  | signing request =>
    intro tx
    have commits := request.inPlace_commits tx.toSigned
    have performed : tx.perform (.signing request) =
        (do return { tx with toSigned := ← tx.toSigned.perform request }) := rfl
    dsimp only at commits ⊢
    rw [inPlace, SignedTransaction.attempt_onSigned, commits, performed]
    cases tx.toSigned.perform request with
    | ok s => rfl
    | error fault => rfl

/-- The signature that a request asks for, if it does not ask for a layout. -/
def Request.signing? : Request → Option SigningRequest
  | .travel _ => none
  | .signing request => some request

/-- Whether a request to a transaction is refused. -/
def Request.Refused (tx : SignedTransaction) : Request → Prop
  | .travel .tx => False
  | .travel .txV0 => tx.content.source.isMuxed = true ∨ tx.content.preconditions.beyondTime = true
  | .travel .txFeeBump => True
  | .signing request => request.Refused tx.toSigned

namespace Carrier

/-- Transactions with their layouts. -/
def transactions : Carrier SignedTransaction Request Transaction where
  signed tx := tx.toSigned
  asks := Request.signing?
  change := Request.inPlace
  Refuses tx request := request.Refused tx

/-- Requests in place leave what the computations of the changed transaction give. -/
lemma after_transactions (tx : SignedTransaction) (requests : List Request) :
    transactions.after tx requests = tx.run requests := by
  induction requests generalizing tx with
  | nil => rfl
  | cons request requests ih =>
    have step : (request.inPlace.attempt tx).2 = tx.after request := by
      have commits := request.inPlace_commits tx
      dsimp only at commits
      rw [commits, SignedTransaction.after]
      cases tx.perform request with
      | ok tx' => rfl
      | error fault => rfl
    calc transactions.after tx (request :: requests)
        = transactions.after (request.inPlace.attempt tx).2 requests := rfl
      _ = (tx.after request).run requests := by rw [step, ih]

/-- To sign transactions and to change their layout is lawful. -/
lemma transactions_lawful : transactions.Lawful := by
  intro tx request
  show transactions.Does tx request (request.inPlace.attempt tx).2 (request.inPlace.attempt tx).1
  cases request with
  | travel wanted =>
    have commits : (SignedTransaction.travelInPlace wanted).attempt tx =
        Change.settle tx (Prod.mk () <$> tx.withEnvelopeType wanted) :=
      SignedTransaction.travelInPlace_commits wanted tx
    rw [Request.inPlace, commits]
    cases wanted with
    | tx => exact .arranged id rfl rfl
    | txV0 =>
      rw [SignedTransaction.withEnvelopeType]
      split
      case isTrue muxed => exact .refused (.inl muxed) rfl
      case isFalse plain =>
        split
        case isTrue beyond => exact .refused (.inr beyond) rfl
        case isFalse time =>
          refine .arranged ?_ rfl rfl
          rintro (muxed | beyond)
          · exact plain muxed
          · exact time beyond
    | txFeeBump => exact .refused trivial rfl
  | signing request =>
    have does : (ofSigned Transaction).Does tx.toSigned request
        (request.inPlace.attempt tx.toSigned).2 (request.inPlace.attempt tx.toSigned).1 :=
      ofSigned_lawful _ _
    rw [Request.inPlace, SignedTransaction.attempt_onSigned]
    generalize request.inPlace.attempt tx.toSigned = result at does ⊢
    obtain ⟨outcome, s⟩ := result
    cases does with
    | refused refuses same =>
      cases same
      exact .refused refuses rfl
    | arranged _ other => cases other
    | added granted asks found room grown =>
      cases asks
      exact .added granted rfl found room grown

end Carrier

namespace Envelope

/-- The transactions and fee bumps that can be had: made, read from an envelope, taken out of a fee
bump, and what they are after requests. -/
inductive Obtained : Envelope → Prop where
  | made {tx} (made : SignedTransaction.Made tx) : Obtained (.transaction tx)
  | bumped {feeSource baseFee tx bump} (obtained : Obtained (.transaction tx))
    (made : FeeBump.make feeSource baseFee tx = .ok bump) : Obtained (.feeBump ⟨bump, []⟩)
  | read {input e} (read : codec.decode input = .ok e) : Obtained e
  | inner {bump} (obtained : Obtained (.feeBump bump)) :
    Obtained (.transaction bump.content.innerTransaction)
  | transactionAfter {tx} (obtained : Obtained (.transaction tx)) (requests : List Request) :
    Obtained (.transaction (Carrier.transactions.after tx requests))
  | feeBumpAfter {bump} (obtained : Obtained (.feeBump bump)) (requests : List SigningRequest) :
    Obtained (.feeBump (Carrier.feeBumps.after bump requests))

/-- Whether there are no more than twenty signatures, be it of a fee bump or inside of it. -/
def Limited : Envelope → Prop
  | .transaction tx => tx.signatures.length ≤ 20
  | .feeBump bump => bump.signatures.length ≤ 20 ∧ bump.content.inner.signatures.length ≤ 20

/-- What is within the limits of the wire has at most twenty signatures. -/
lemma Fits.limited {e : Envelope} (fits : e.Fits) : e.Limited := by
  obtain ⟨s, _ | _⟩ | s := e
  · exact fits.1.signatures
  · exact fits.signatures
  · exact ⟨fits.2, fits.1.signatures⟩

/-- Nothing that can be had has more than twenty signatures. -/
lemma Obtained.limited {e : Envelope} (h : e.Obtained) : e.Limited := by
  induction h with
  | made made =>
    obtain ⟨_, _, _, _, _, _, _, -, rfl⟩ := made.exists_make
    exact Nat.zero_le 20
  | @bumped _ _ tx _ _ made ih =>
    have same := FeeBump.inner_of_make made
    refine ⟨Nat.zero_le 20, ?_⟩
    rw [same]
    exact ih
  | read read => exact (accepts.runAll_eq_ok.1 read).1.limited
  | inner _ ih => exact ih.2
  | transactionAfter _ requests ih =>
    exact (Carrier.transactions_lawful.after_extends _ requests).length_le ih
  | @feeBumpAfter bump _ requests ih =>
    have later : bump.Extends (Carrier.feeBumps.after bump requests) :=
      Carrier.ofSigned_lawful.after_extends bump requests
    refine ⟨later.length_le ih.1, ?_⟩
    rw [later.content]
    exact ih.2

end Envelope

/-- Whatever is asked of a transaction or of a fee bump, and in whichever order, the bytes to be
signed stay the same for every network. The signatures grow at their end by one for each request for
a signature that succeeds, up to twenty. A request that fails changes nothing at all, and what a key
pair signed stays signed by it. -/
theorem signatures_safe :
    (∀ tx, (Envelope.transaction tx).Obtained →
      ∀ requests, Carrier.transactions.Safe tx requests) ∧
    ∀ bump, (Envelope.feeBump bump).Obtained →
      ∀ requests, Carrier.feeBumps.Safe bump requests := by
  apply And.intro
  · intro tx obtained requests
    exact Carrier.transactions_lawful.safe obtained.limited requests
  · intro bump obtained requests
    exact Carrier.ofSigned_lawful.safe obtained.limited.1 requests

/-- A signature for the test network stays valid through a change of layout, a secret and a request
that is refused. A key without its seed changes nothing of a fee bump. -/
theorem signatures_safe_bare :
    let pair := KeyPair.ofSeed default
    let requests := [.signing (.sign pair .testnet), .travel .txV0, .signing (.hashX [1, 2, 3]),
      .travel .txFeeBump]
    let last := Carrier.transactions.after (.unsigned Envelope.bareTransaction) requests
    let watcher : KeyPair := ⟨pair.publicKey, none⟩
    last.isSignedBy pair.publicKey .testnet = true ∧ last.signatures.length ≤ 20 ∧
      Carrier.feeBumps.after ⟨Envelope.bareBump, []⟩ [.sign watcher .testnet] =
        ⟨Envelope.bareBump, []⟩ := by
  intro pair requests last watcher
  have made : (Envelope.transaction (.unsigned Envelope.bareTransaction)).Obtained :=
    .made SignedTransaction.made_bare
  have bump : FeeBump.make ⟨default, none⟩ 100 (.unsigned Envelope.bareTransaction) =
      .ok Envelope.bareBump := rfl
  have safe := signatures_safe.1 _ made requests
  have bumpSafe := signatures_safe.2 _ (.bumped made bump) [.sign watcher .testnet]
  have verifies :
      pair.VerifiesOwn (signatureHash .testnet Envelope.bareTransaction).bytes := by
    intro signature signed
    cases signed
    decide +kernel
  refine ⟨?_, safe.length_le, ?_⟩
  · obtain ⟨vain | full, -⟩ | ⟨-, done⟩ := safe.outcome (i := 0) rfl
    · cases vain
    · exact absurd full (by decide)
    · exact safe.signed (i := 0) (j := 4) rfl rfl done verifies (by decide)
  · obtain ⟨-, fault, failed⟩ | ⟨granted, -⟩ := bumpSafe.outcome (i := 0) rfl
    · exact bumpSafe.unchanged rfl failed
    · exact (granted (.inl rfl)).elim

end LedgerWire
