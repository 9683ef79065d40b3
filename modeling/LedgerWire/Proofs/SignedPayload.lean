import LedgerWire.Proofs.Identity
import LedgerWire.Proofs.StrKey.Typed

/-!
# Two layouts of a signed payload

A key and the payload that it has to sign stand in the body of a StrKey and in a signer on the wire,
and the two are written and read by different code. The bytes are the same, but for the tag in front
of a signer, and the two readers accept the same bytes: both see the length twice, in its field and
in where the zeros end.
-/

namespace LedgerWire

/-- A signer with a payload is its tag and the body of its text. -/
lemma SignerKey.encode_signedPayload (signer : SignedPayload) :
    codec.encode (.signedPayload signer) =
      Codec.int32.encode 3 ++ StrKey.signedPayloadBody signer.key signer.payload := by
  have behind_tag : codec.encode (.signedPayload signer) =
      Codec.int32.encode 3 ++ SignedPayload.codec.encode signer :=
    SignedPayload.lawful.appends signer _
  have fields : SignedPayload.codec.encode signer = (Codec.fixed 32).encode signer.key ++
      (Codec.counted Limits.signedPayloadBytes).encode signer.payload :=
    (Codec.Appends.counted _).encode_pair _
  have few : signer.payload.length ≤ 64 := signer.length_le
  rw [behind_tag, fields, Codec.encode_fixed rfl, Codec.encode_counted, Nat.min_eq_left (by omega),
    Bytes.padded, StrKey.signedPayloadBody, List.append_assoc, List.append_assoc]

/-- A signer with a payload is read from the body of its text, behind the tag, and from no other
bytes there. -/
lemma SignerKey.decode_signedPayload {body : Bytes} {signer : SignedPayload} :
    codec.decode (Codec.int32.encode 3 ++ body) = .ok (.signedPayload signer) ↔
      body = StrKey.signedPayloadBody signer.key signer.payload := by
  rw [lawful.decode_eq_ok, true_and, encode_signedPayload]
  exact (List.append_cancel_left_eq _ _ _).to_iff

/-- A text whose body is known is read as a key and a payload exactly when the body is theirs. -/
lemma StrKey.decodeSignedPayload_iff {text : String} {body payload : Bytes} {key : FixedBytes 32}
    (read : decode .signedPayload text = .ok body) :
    decodeSignedPayload text = .ok (key, payload) ↔
      body = signedPayloadBody key payload ∧ 0 < payload.length ∧ payload.length ≤ 64 := by
  obtain ⟨-, size⟩ := decode_eq_ok.1 read
  have least : 43 ≤ 3 + body.length := (Kind.acceptsLength_iff.1 size).1
  rw [decodeSignedPayload, read]
  exact readSignedPayload_eq_ok (by omega)

/-- The body of the text of a key and a payload is what stands behind the tag of the signer on the
wire. Of all bodies that a text can have, the two readers accept the same, and they read the same
key and payload from them. -/
theorem signedPayloads_agree :
    (∀ (key : FixedBytes 32) (payload : Bytes) (some : 0 < payload.length)
        (few : payload.length ≤ 64), ∃ text body,
      StrKey.encodeSignedPayload key payload = .ok text ∧
        StrKey.decode .signedPayload text = .ok body ∧
        SignerKey.codec.encode (.signedPayload ⟨key, payload, some, few⟩) =
          Codec.int32.encode 3 ++ body) ∧
    ∀ text body, StrKey.decode .signedPayload text = .ok body → ∀ key payload,
      StrKey.decodeSignedPayload text = .ok (key, payload) ↔
        ∃ signer : SignedPayload, signer.key = key ∧ signer.payload = payload ∧
          SignerKey.codec.decode (Codec.int32.encode 3 ++ body) = .ok (.signedPayload signer) := by
  apply And.intro
  · intro key payload some few
    have written : StrKey.encodeSignedPayload key payload = .ok _ :=
      StrKey.encodeSignedPayload_of_le some few
    have held : StrKey.decodeSignedPayload _ = .ok (key, payload) :=
      StrKey.decodeSignedPayload_eq_ok.2 ⟨rfl, some, few⟩
    obtain ⟨body, read, -⟩ := bind_eq_ok.1 held
    obtain ⟨rfl, -⟩ := (StrKey.decodeSignedPayload_iff read).1 held
    exact ⟨_, _, written, read, SignerKey.encode_signedPayload _⟩
  · intro text body read key payload
    rw [StrKey.decodeSignedPayload_iff read]
    simp only [SignerKey.decode_signedPayload]
    apply Iff.intro
    · intro h
      obtain ⟨rfl, some, few⟩ := h
      exact ⟨⟨key, payload, some, few⟩, rfl, rfl, rfl⟩
    · intro h
      obtain ⟨signer, rfl, rfl, rfl⟩ := h
      exact ⟨rfl, signer.pos, signer.length_le⟩

/-- The body of a payload of three bytes with four zeros too many. -/
def overlongBody : Bytes := StrKey.signedPayloadBody default [1, 2, 3] ++ [0, 0, 0, 0]

/-- The body of the text of a payload of three bytes is that of the signer. A text with four zeros
too many is refused as a signer is, for which they are left over. -/
theorem signedPayloads_agree_three :
    (∃ text body, StrKey.encodeSignedPayload default [1, 2, 3] = .ok text ∧
      StrKey.decode .signedPayload text = .ok body ∧
        SignerKey.codec.encode (.signedPayload ⟨default, [1, 2, 3], by decide, by decide⟩) =
          Codec.int32.encode 3 ++ body) ∧
      StrKey.decode .signedPayload (StrKey.encode .signedPayload overlongBody) = .ok overlongBody ∧
      StrKey.decodeSignedPayload (StrKey.encode .signedPayload overlongBody) ≠
        .ok (default, [1, 2, 3]) := by
  have read : StrKey.decode .signedPayload (StrKey.encode .signedPayload overlongBody) =
      .ok overlongBody := StrKey.decode_eq_ok.2 ⟨rfl, rfl⟩
  have refused : SignerKey.codec.decode (Codec.int32.encode 3 ++ overlongBody) =
      .error (.malformed (.trailingBytes 4)) := rfl
  refine ⟨signedPayloads_agree.1 _ _ (by decide) (by decide), read, fun held => ?_⟩
  obtain ⟨signer, -, -, accepted⟩ := (signedPayloads_agree.2 _ _ read _ _).1 held
  cases refused.symm.trans accepted

end LedgerWire
