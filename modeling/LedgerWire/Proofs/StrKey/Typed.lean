import LedgerWire.Proofs.StrKey.Body
import LedgerWire.StrKey.Body

/-!
# One text for each key

What a payload of a kind holds is read from the one text that writing gives: 32 bytes, a key and a
number, or a key and a payload to be signed. The body of a signed payload says its length twice, by
the field in front and by the zeros behind, so reading it has more to refuse than its length.
-/

namespace LedgerWire.StrKey

/-- Kinds with a payload of 32 bytes are read from the text of those bytes alone. -/
lemma decode32_eq_ok {kind : Kind} {text : String} {key : FixedBytes 32}
    (single : kind.acceptsLength = fun length => length == 1 + 32 + 2) :
    decode32 kind text = .ok key ↔ text = encode32 kind key := by
  rw [decode32, encode32, bind_eq_ok]
  simp only [decode_eq_ok, single, beq_iff_eq]
  apply Iff.intro
  · intro h
    obtain ⟨payload, ⟨written, size⟩, made⟩ := h
    have whole : payload.length = 32 := by omega
    cases made
    rw [FixedBytes.bytes_padded whole]
    exact written
  · intro written
    have size := key.length_eq
    exact ⟨key.bytes, ⟨written, by omega⟩, congrArg Except.ok (FixedBytes.padded_bytes key)⟩

/-- The payload of a muxed account is the key and the number that are read from it. -/
lemma muxed_payload {payload : Bytes} (size : payload.length = 40) :
    (FixedBytes.padded 32 (payload.take 32)).bytes ++
      Bytes.bigEndian 8 (UInt64.ofNat (Bytes.toNat (payload.drop 32))).toNat = payload := by
  have front : (payload.take 32).length = 32 := by
    rw [List.length_take]
    omega
  have back : (payload.drop 32).length = 8 := by
    rw [List.length_drop]
    omega
  have small : Bytes.toNat (payload.drop 32) < UInt64.size := by
    have bound := Bytes.toNat_lt (payload.drop 32)
    rw [back] at bound
    exact bound
  have number : Bytes.bigEndian 8 (Bytes.toNat (payload.drop 32)) = payload.drop 32 := by
    have laid := Bytes.bigEndian_toNat (payload.drop 32)
    rw [back] at laid
    exact laid
  rw [FixedBytes.bytes_padded front, UInt64.toNat_ofNat_of_lt' small, number,
    List.take_append_drop]

/-- An account with a number is read from its text alone. -/
lemma decodeMuxed_eq_ok {text : String} {key : FixedBytes 32} {id : UInt64} :
    decodeMuxed text = .ok (key, id) ↔ text = encodeMuxed key id := by
  rw [decodeMuxed, encodeMuxed, bind_eq_ok]
  simp only [decode_eq_ok]
  apply Iff.intro
  · intro h
    obtain ⟨payload, ⟨written, size⟩, made⟩ := h
    have whole : payload.length = 40 := by
      have sizes := beq_iff_eq.1 size
      omega
    cases made
    rw [muxed_payload whole]
    exact written
  · intro written
    have front := key.length_eq
    have back := Bytes.length_bigEndian 8 id.toNat
    have number : Bytes.toNat (Bytes.bigEndian 8 id.toNat) = id.toNat :=
      Bytes.toNat_bigEndian_of_lt id.toNat_lt
    refine ⟨_, ⟨written, ?_⟩, ?_⟩
    · apply beq_iff_eq.2
      rw [List.length_append]
      omega
    · rw [List.take_left' front, List.drop_left' front, number, UInt64.ofNat_toNat,
        FixedBytes.padded_bytes]
      rfl

/-- A signed payload has a key, a length, and the payload in whole words. -/
@[simp] lemma length_signedPayloadBody (key : FixedBytes 32) (payload : Bytes) :
    (signedPayloadBody key payload).length =
      36 + (payload.length + Bytes.padLength payload.length) := by
  have front := key.length_eq
  rw [signedPayloadBody, List.length_append, List.length_append, List.length_append,
    Bytes.length_bigEndian, List.length_replicate]
  omega

/-- What is read of a key, a length field and what stands behind them. -/
lemma readSignedPayload_append {front field rest : Bytes} (front32 : front.length = 32)
    (field4 : field.length = 4) :
    readSignedPayload (front ++ field ++ rest) =
      if Bytes.toNat field = 0 ∨ Limits.signedPayloadBytes < Bytes.toNat field then
        .error (.invalidSignedPayload .lengthOutOfRange)
      else if rest.length ≠ Bytes.toNat field + Bytes.padLength (Bytes.toNat field) then
        .error (.invalidSignedPayload .lengthMismatch)
      else if (rest.drop (Bytes.toNat field)).any (· != 0) then
        .error (.invalidSignedPayload .nonZeroPadding)
      else .ok (FixedBytes.padded 32 front, rest.take (Bytes.toNat field)) := by
  have header : (front ++ field).length = Kind.signedPayloadHeader := by
    rw [List.length_append, front32, field4]
    rfl
  have atField : ((front ++ field ++ rest).drop 32).take 4 = field := by
    rw [List.append_assoc, List.drop_left' front32, List.take_left' field4]
  have atFront : (front ++ field ++ rest).take 32 = front := by
    rw [List.append_assoc, List.take_left' front32]
  rw [readSignedPayload, List.drop_left' header, atField, atFront]
  rfl

/-- Zeros that fill up a payload are what is left behind it. -/
lemma drop_eq_zeros {rest : Bytes} {count : Nat}
    (size : rest.length = count + Bytes.padLength count)
    (clear : (rest.drop count).any (· != 0) = false) :
    rest.drop count = List.replicate (Bytes.padLength count) 0 := by
  apply List.eq_replicate_iff.2
  refine ⟨?_, fun b mem => ?_⟩
  · rw [List.length_drop]
    omega
  · simpa using List.any_eq_false.1 clear b mem

/-- A body that is long enough for its length field is read exactly when it is that of a payload of
one to 64 bytes. -/
lemma readSignedPayload_eq_ok {body : Bytes} {key : FixedBytes 32} {payload : Bytes}
    (long : 36 ≤ body.length) :
    readSignedPayload body = .ok (key, payload) ↔
      body = signedPayloadBody key payload ∧ 0 < payload.length ∧
        payload.length ≤ Limits.signedPayloadBytes := by
  apply Iff.intro
  · intro h
    obtain ⟨front, field, rest, front32, field4, rfl⟩ :
        ∃ front field rest : Bytes, front.length = 32 ∧ field.length = 4 ∧
          body = front ++ field ++ rest := by
      refine ⟨body.take 32, (body.drop 32).take 4, (body.drop 32).drop 4, ?_, ?_, ?_⟩
      · rw [List.length_take]
        omega
      · rw [List.length_take, List.length_drop]
        omega
      · rw [List.append_assoc, List.take_append_drop, List.take_append_drop]
    simp only [readSignedPayload_append front32 field4, if_error_eq_ok, not_or, not_lt, not_not,
      Bool.not_eq_true] at h
    obtain ⟨⟨some, few⟩, size, clear, made⟩ := h
    cases made
    have count : (rest.take (Bytes.toNat field)).length = Bytes.toNat field := by
      rw [List.length_take]
      omega
    have zeros := drop_eq_zeros size clear
    have number : Bytes.bigEndian 4 (Bytes.toNat field) = field := by
      rw [← field4, Bytes.bigEndian_toNat]
    rw [signedPayloadBody, count, FixedBytes.bytes_padded front32, number, ← zeros,
      List.append_assoc _ (rest.take _), List.take_append_drop]
    exact ⟨rfl, Nat.pos_of_ne_zero some, few⟩
  · intro h
    obtain ⟨rfl, some, few⟩ := h
    have number : Bytes.toNat (Bytes.bigEndian 4 payload.length) = payload.length := by
      apply Bytes.toNat_bigEndian_of_lt
      exact Nat.lt_of_le_of_lt few (by decide)
    rw [signedPayloadBody, List.append_assoc (_ ++ _) payload,
      readSignedPayload_append key.length_eq (Bytes.length_bigEndian 4 _), number,
      if_neg (by omega), List.length_append, List.length_replicate, if_neg (by simp),
      List.drop_left, List.take_left, FixedBytes.padded_bytes, if_neg (by simp)]

/-- The text of a signed payload holds one to 64 bytes to be signed. -/
lemma decodeSignedPayload_eq_ok {text : String} {key : FixedBytes 32} {payload : Bytes} :
    decodeSignedPayload text = .ok (key, payload) ↔
      text = encode .signedPayload (signedPayloadBody key payload) ∧ 0 < payload.length ∧
        payload.length ≤ Limits.signedPayloadBytes := by
  rw [decodeSignedPayload, bind_eq_ok]
  simp only [decode_eq_ok, Kind.acceptsLength_iff]
  apply Iff.intro
  · intro h
    obtain ⟨body, ⟨written, least, -⟩, read⟩ := h
    have long : 36 ≤ body.length := by
      have size : 43 ≤ 3 + body.length := least
      omega
    obtain ⟨rfl, held⟩ := (readSignedPayload_eq_ok long).1 read
    exact ⟨written, held⟩
  · intro h
    obtain ⟨written, some, few⟩ := h
    have size := length_signedPayloadBody key payload
    have zeros := Bytes.padLength_lt payload.length
    have whole := Bytes.four_dvd_add_padLength payload.length
    have most : payload.length ≤ 64 := few
    refine ⟨_, ⟨written, ?_, ?_⟩, (readSignedPayload_eq_ok (by omega)).2 ⟨rfl, some, few⟩⟩
    · show 43 ≤ 3 + (signedPayloadBody key payload).length
      omega
    · show 3 + (signedPayloadBody key payload).length ≤ 103
      omega

/-- A payload that can be signed has a text. -/
lemma encodeSignedPayload_of_le {key : FixedBytes 32} {payload : Bytes} (some : 0 < payload.length)
    (few : payload.length ≤ Limits.signedPayloadBytes) :
    encodeSignedPayload key payload =
      .ok (encode .signedPayload (signedPayloadBody key payload)) := by
  have held : payload.isEmpty = false := by
    rw [List.isEmpty_eq_false_iff]
    exact List.ne_nil_of_length_pos some
  rw [encodeSignedPayload, held, if_neg Bool.false_ne_true, if_neg (Nat.not_lt_of_le few)]
  rfl

end LedgerWire.StrKey
