import LedgerWire.Proofs.Base32
import LedgerWire.Proofs.Basic
import LedgerWire.StrKey.Body

/-!
# One text for each payload

A text is read as a StrKey exactly when it is the text that writing gives, and when its kind has
bodies of that length. The checks of the characters see to everything that base32 asks for, the
unused bits of the last symbol included, so nothing is left to be refused behind them.
-/

namespace LedgerWire.StrKey

/-- What is ensured holds. -/
@[simp] lemma ensure_eq_ok {condition : Prop} [Decidable condition] {fault : Fault} {u : Unit} :
    ensure condition fault = .ok u ↔ condition := by
  simp [ensure]

/-- A check of what may be absent is passed when it is absent or passes. -/
lemma forM_eq_ok {α : Type} {a? : Option α} {f : α → Except Fault Unit} {u : Unit} :
    a?.forM f = .ok u ↔ ∀ a ∈ a?, f a = .ok () := by
  cases a? with
  | none => exact iff_of_true rfl nofun
  | some a =>
    apply Iff.intro
    · intro h a mem
      cases mem
      exact h
    · intro h
      exact h a rfl

/-- The values of symbols are read with their places as without. -/
lemma symbolValues_eq_ok {position : Nat} {symbols : Bytes} {values : List Nat} :
    symbolValues position symbols = .ok values ↔ symbols.mapM Base32.value? = some values := by
  induction symbols generalizing position values with
  | nil =>
    rw [symbolValues, List.mapM_nil]
    exact ⟨fun h => by cases h; rfl, fun h => by cases h; rfl⟩
  | cons b symbols ih =>
    rw [symbolValues, List.mapM_cons, Option.bind_eq_bind]
    cases Base32.value? b with
    | none => exact ⟨nofun, nofun⟩
    | some v =>
      rw [Option.bind_some, bind_eq_ok, Option.bind_eq_bind, Option.bind_eq_some_iff]
      simp only [ih]
      refine exists_congr fun vs => and_congr_right fun _ => ?_
      exact ⟨fun h => by cases h; rfl, fun h => by cases h; rfl⟩

/-- The bits that whole bytes leave over are the lowest ones of the last digit. -/
lemma unused_eq {values : List Nat} {bytes : Bytes} {unused : List Bool}
    (whole : Bits.ofDigits 5 values = Bits.ofBytes bytes ++ unused) (few : unused.length < 5) :
    unused = Bits.ofNat unused.length (values.getLastD 0) := by
  obtain rfl | ⟨init, last, rfl⟩ := List.eq_nil_or_concat values
  · obtain ⟨-, rfl⟩ := List.append_eq_nil_iff.1 whole.symm
    rfl
  · have parts : Bits.ofNat 5 last =
        Bits.ofNat (5 - unused.length) (last / 2 ^ unused.length) ++
          Bits.ofNat unused.length last := by
      rw [← Bits.ofNat_add, Nat.sub_add_cancel (Nat.le_of_lt few)]
    rw [List.concat_eq_append, Bits.ofDigits_append, Bits.ofDigits_singleton, parts,
      ← List.append_assoc] at whole
    rw [List.concat_eq_append, List.getLastD_concat]
    exact (List.append_inj_right' whole (Bits.length_ofNat _ _)).symm

/-- The mask covers the unused bits of the last symbol and no other. -/
lemma and_mask_eq_zero {n unused : Nat} (pos : 0 < unused) (few : unused < 5) :
    n &&& 0x0f >>> (4 - unused) = 0 ↔ Bits.ofNat unused n = List.replicate unused false := by
  have mask : ∀ u < 5, 0 < u → 0x0f >>> (4 - u) = 2 ^ u - 1 := by decide
  have zeros := @Bits.toNat_eq_zero (Bits.ofNat unused n)
  rw [Bits.toNat_ofNat, Bits.length_ofNat] at zeros
  rw [mask unused few pos, Nat.and_two_pow_sub_one_eq_mod]
  exact zeros

/-- The check of the last symbol finds out whether the bits that no byte uses are zeros. -/
lemma clear_iff {values : List Nat} {bytes : Bytes} {unused : List Bool}
    (whole : Bits.ofDigits 5 values = Bits.ofBytes bytes ++ unused) (few : unused.length < 5) :
    (0 < unused.length → values.getLastD 0 &&& 0x0f >>> (4 - unused.length) = 0) ↔
      unused = List.replicate unused.length false := by
  obtain none | some := Nat.eq_zero_or_pos unused.length
  · obtain rfl := List.length_eq_zero_iff.1 none
    exact iff_of_true nofun rfl
  · have masked := @and_mask_eq_zero (values.getLastD 0) _ some few
    rw [← unused_eq whole few] at masked
    exact ⟨fun clear => masked.1 (clear some), fun zeros _ => masked.2 zeros⟩

/-- The characters of a body have five bits for the eight of its bytes. -/
lemma length_characters {characters bytes : Bytes} {values : List Nat} {unused : List Bool}
    (read : characters.mapM Base32.value? = some values)
    (whole : Bits.ofDigits 5 values = Bits.ofBytes bytes ++ unused) :
    characters.length * 5 = 8 * bytes.length + unused.length := by
  have total := congrArg List.length whole
  simp only [Bits.length_ofDigits, List.length_append, Bits.length_ofBytes] at total
  rw [(Base32.mapM_value?_eq_some.1 read).2, List.length_map]
  omega

/-- Characters pass the checks exactly when they are the base32 form of a body that is not too short
and has a length that is allowed. -/
theorem checkCharacters_eq_ok {kind? : Option Kind} {characters : Bytes} :
    checkCharacters kind? characters = .ok () ↔
      ∃ bytes, Base32.decode? characters = some bytes ∧ 3 ≤ bytes.length ∧
        ∀ kind ∈ kind?, kind.acceptsLength bytes.length = true := by
  rw [checkCharacters, bind_eq_ok]
  simp only [bind_eq_ok, ensure_eq_ok, forM_eq_ok, symbolValues_eq_ok]
  -- The division by eight that the checks make is the one that cuts the bits into bytes.
  apply Iff.intro
  · intro h
    obtain ⟨_, long, values, read, _, few, _, allowed, clear⟩ := h
    rcases split : Bits.toBytes (Bits.ofDigits 5 values) with ⟨bytes, unused⟩
    obtain ⟨whole, short⟩ := Bits.toBytes_eq_iff.1 split
    have total := length_characters read whole
    have rest : List.length characters * 5 % 8 = unused.length := by omega
    have front : List.length characters * 5 / 8 = bytes.length := by omega
    rw [rest] at few clear
    rw [front] at allowed
    refine ⟨bytes, Base32.decode?_eq_some_iff.2 ⟨values, read, _, few, ?_⟩, by omega, allowed⟩
    rw [← (clear_iff whole few).1 clear, whole]
  · intro h
    obtain ⟨bytes, read, long, allowed⟩ := h
    obtain ⟨values, read, zeros, few, whole⟩ := Base32.decode?_eq_some_iff.1 read
    have size := @List.length_replicate _ zeros false
    have total := length_characters read whole
    have clear := (clear_iff whole (by omega)).2 (by rw [size])
    rw [size] at total clear
    have rest : List.length characters * 5 % 8 = zeros := by omega
    have front : List.length characters * 5 / 8 = bytes.length := by omega
    rw [rest, front]
    exact ⟨(), by omega, values, read, (), few, (), allowed, clear⟩

/-- A text is read as a body exactly when it is the base32 form of one, which is not too short and
has a length that is allowed. -/
theorem readBody_eq_ok {kind? : Option Kind} {text : String} {bytes : Bytes} :
    readBody kind? text = .ok bytes ↔
      Bytes.ofText text = Base32.encode bytes ∧ 3 ≤ bytes.length ∧
        ∀ kind ∈ kind?, kind.acceptsLength bytes.length = true := by
  rw [readBody, bind_eq_ok]
  apply Iff.intro
  · intro h
    obtain ⟨_, checked, h⟩ := h
    obtain ⟨found, read, long, allowed⟩ := checkCharacters_eq_ok.1 checked
    rw [read] at h
    cases h
    exact ⟨Base32.decode?_eq_some.1 read, long, allowed⟩
  · intro h
    obtain ⟨same, long, allowed⟩ := h
    have read := Base32.decode?_eq_some.2 same
    refine ⟨(), checkCharacters_eq_ok.2 ⟨bytes, read, long, allowed⟩, ?_⟩
    rw [read]
    rfl

/-- A body is a kind, a payload and two bytes of check value. -/
@[simp] lemma length_body (kind : Kind) (payload : Bytes) :
    (body kind payload).length = 3 + payload.length := by
  rw [body, List.length_append, FixedBytes.length_eq, List.length_cons]
  omega

/-- The characters of a text are those of its body. -/
@[simp] lemma ofText_encode (kind : Kind) (payload : Bytes) :
    Bytes.ofText (encode kind payload) = Base32.encode (body kind payload) :=
  Bytes.ofText_toLatin (Base32.encode_ascii _)

/-- A text has the characters of a body when it is the text of the body. -/
lemma ofText_eq_iff {kind : Kind} {payload : Bytes} {text : String} :
    Bytes.ofText text = Base32.encode (body kind payload) ↔ text = encode kind payload := by
  rw [← ofText_encode]
  exact ⟨Bytes.ofText_inj, congrArg Bytes.ofText⟩

/-- A body is that of a payload when it starts with the byte of the kind and ends with the check
value. -/
lemma eq_body_iff {kind : Kind} {bytes payload : Bytes} (long : 3 ≤ bytes.length) :
    bytes.headD 0 = kind.byte ∧
        bytes.drop (bytes.length - 2) =
          (Crc16.checksumBytes (bytes.take (bytes.length - 2))).bytes ∧
        (bytes.take (bytes.length - 2)).drop 1 = payload ↔
      bytes = body kind payload := by
  obtain ⟨b, inside, last, two, rfl⟩ :
      ∃ b inside last, List.length last = 2 ∧ bytes = (b :: inside) ++ last := by
    have parts := (List.take_append_drop (bytes.length - 2) bytes).symm
    have two : (bytes.drop (bytes.length - 2)).length = 2 := by
      rw [List.length_drop]
      omega
    have some : (bytes.take (bytes.length - 2)).length ≠ 0 := by
      rw [List.length_take]
      omega
    obtain ⟨b, inside, front⟩ := List.exists_cons_of_length_pos (Nat.pos_of_ne_zero some)
    rw [front] at parts
    exact ⟨b, inside, _, two, parts⟩
  have size : ((b :: inside) ++ last).length - 2 = (b :: inside).length := by
    rw [List.length_append, two, Nat.add_sub_cancel]
  rw [size, List.take_left, List.drop_left, body]
  apply Iff.intro
  · intro h
    obtain ⟨first, check, rest⟩ := h
    have first : b = kind.byte := first
    have rest : inside = payload := rest
    rw [check, first, rest]
  · intro h
    obtain ⟨front, check⟩ := List.append_inj' h (two.trans (FixedBytes.length_eq _).symm)
    cases front
    exact ⟨rfl, check, rfl⟩

/-- A text is read as a payload exactly when it is the text of it, and the kind has bodies of that
length. -/
theorem decode_eq_ok {kind : Kind} {text : String} {payload : Bytes} :
    decode kind text = .ok payload ↔
      text = encode kind payload ∧ kind.acceptsLength (3 + payload.length) = true := by
  rw [decode, bind_eq_ok]
  simp only [bind_eq_ok, ensure_eq_ok, readBody_eq_ok]
  apply Iff.intro
  · intro h
    obtain ⟨bytes, ⟨written, long, allowed⟩, _, first, _, last, h⟩ := h
    obtain rfl := (eq_body_iff long).1 ⟨first, last, Except.ok.inj h⟩
    rw [length_body] at allowed
    exact ⟨ofText_eq_iff.1 written, allowed kind rfl⟩
  · intro h
    obtain ⟨same, allowed⟩ := h
    have size := length_body kind payload
    have long : 3 ≤ (body kind payload).length := by omega
    obtain ⟨first, last, rest⟩ := (eq_body_iff long).2 rfl
    refine ⟨_, ⟨ofText_eq_iff.2 same, long, ?_⟩, (), first, (), last, congrArg Except.ok rest⟩
    intro other mem
    cases mem
    rw [size]
    exact allowed

/-- The text of a payload tells its kind. -/
lemma kindOf_encode (kind : Kind) (payload : Bytes) :
    kindOf (encode kind payload) = .ok kind := by
  have size := length_body kind payload
  have read : readBody none (encode kind payload) = .ok (body kind payload) :=
    readBody_eq_ok.2 ⟨ofText_encode kind payload, by omega, nofun⟩
  have known : Kind.ofByte? ((body kind payload).headD 0) = some kind := by cases kind <;> rfl
  rw [kindOf, bind_eq_ok]
  refine ⟨_, read, ?_⟩
  dsimp only
  rw [known]
  rfl

/-- The first character shows the kind. -/
lemma head?_encode (kind : Kind) (payload : Bytes) :
    (encode kind payload).toList.head? = some kind.letter := by
  have first : (Base32.encode (body kind payload)).head? =
      some (Base32.symbol (kind.byte.toNat / 8)) := Base32.head?_encode _ _
  rw [encode, Bytes.toLatin, String.toList_ofList, List.head?_map, first]
  cases kind <;> rfl

/-- The least length of a body of a kind. -/
def Kind.leastLength : Kind → Nat
  | .muxedAccount | .signedPayload => 43
  | _ => 35

/-- The greatest length of a body of a kind. -/
def Kind.greatestLength : Kind → Nat
  | .muxedAccount => 43
  | .signedPayload => 103
  | _ => 35

/-- The lengths of a kind are those between a least and a greatest one. -/
lemma Kind.acceptsLength_iff {kind : Kind} {length : Nat} :
    kind.acceptsLength length = true ↔
      kind.leastLength ≤ length ∧ length ≤ kind.greatestLength := by
  have exactly : ∀ n : Nat, (length == n) = true ↔ n ≤ length ∧ length ≤ n := by
    intro n
    rw [beq_iff_eq, eq_comm, Nat.le_antisymm_iff]
  cases kind with
  | signedPayload =>
    rw [acceptsLength, Bool.and_eq_true, decide_eq_true_iff, decide_eq_true_iff]
    rfl
  | _ => exact exactly _

/-- Reading accepts exactly the texts of payloads that have a length of the kind, each as its
payload, so a payload has one text. The text starts with the letter of its kind and shows the kind
by itself, and characters that pass the checks are always base32. -/
theorem decode_eq_ok_iff (kind : Kind) :
    (∀ text payload, decode kind text = .ok payload ↔
      text = encode kind payload ∧
        kind.leastLength ≤ 3 + payload.length ∧ 3 + payload.length ≤ kind.greatestLength) ∧
      (∀ text text' payload, decode kind text = .ok payload → decode kind text' = .ok payload →
        text = text') ∧
      (∀ payload, (encode kind payload).toList.head? = some kind.letter ∧
        kindOf (encode kind payload) = .ok kind) ∧
      ∀ kind? characters, checkCharacters kind? characters = .ok () →
        ∃ bytes, Base32.decode? characters = some bytes := by
  refine ⟨fun text payload => ?_, fun text text' payload read read' => ?_, fun payload => ?_,
    fun kind? characters checked => ?_⟩
  · rw [decode_eq_ok, Kind.acceptsLength_iff]
  · exact (decode_eq_ok.1 read).1.trans (decode_eq_ok.1 read').1.symm
  · exact ⟨head?_encode kind payload, kindOf_encode kind payload⟩
  · obtain ⟨bytes, read, -⟩ := checkCharacters_eq_ok.1 checked
    exact ⟨bytes, read⟩

/-- The address of zeros, of which the last three characters show the check value. -/
def addressOfZeros : String := "GAAAAAAAAAAAAAAAAAAAAAAAAAAAAAAAAAAAAAAAAAAAAAAAAAAAAWHF"

/-- The account of 32 zeros has a text that is read back, past every check. -/
theorem decode_addressOfZeros :
    decode .accountId addressOfZeros = .ok (List.replicate 32 0) ∧
      addressOfZeros = encode .accountId (List.replicate 32 0) ∧
      checkCharacters none (Bytes.ofText addressOfZeros) = .ok () ∧
      ∃ bytes, Base32.decode? (Bytes.ofText addressOfZeros) = some bytes := by
  have read : decode .accountId addressOfZeros = .ok (List.replicate 32 0) := by decide +kernel
  have checked : checkCharacters none (Bytes.ofText addressOfZeros) = .ok () := by decide +kernel
  obtain ⟨accepted, -, -, written⟩ := decode_eq_ok_iff .accountId
  exact ⟨read, ((accepted _ _).1 read).1, checked, written _ _ checked⟩

end LedgerWire.StrKey
