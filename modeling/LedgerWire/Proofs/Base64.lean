import LedgerWire.Bytes.Encodings
import LedgerWire.Proofs.Basic
import LedgerWire.Proofs.Bits
import LedgerWire.Text.Basic

/-!
# Base64

Strict reading undoes writing and refuses everything that writing does not give, so a byte string
has one base64 form: its symbols come in groups of four, the last of which is filled up, and the
bits that no byte uses are zeros.
-/

namespace LedgerWire.Base64
variable {offset : Nat} {values : List Nat} {text bytes : Bytes}

/-- Every symbol has the value that it was chosen for. -/
lemma value?_symbol {v : Nat} (small : v < 64) : value? (symbol v) = some v := by
  have all : ∀ v < 64, value? (symbol v) = some v := by decide
  exact all v small

/-- A character has a value when it is the symbol of it. -/
lemma value?_eq_some {b : UInt8} {v : Nat} : value? b = some v ↔ v < 64 ∧ b = symbol v := by
  apply Iff.intro
  · intro h
    have all : ∀ n < 256, ∀ v ∈ value? (UInt8.ofNat n), v < 64 ∧ UInt8.ofNat n = symbol v := by
      decide +kernel
    have own := all b.toNat b.toNat_lt
    rw [UInt8.ofNat_toNat] at own
    exact own v h
  · intro h
    obtain ⟨small, rfl⟩ := h
    exact value?_symbol small

/-- The padding is no symbol. -/
lemma symbol_ne_pad {v : Nat} (small : v < 64) : symbol v ≠ pad := by
  intro same
  have read := value?_symbol small
  rw [same] at read
  cases read

/-! ### Groups of symbols -/

/-- Symbols are read as the values that they were chosen for. -/
lemma symbolValues_map (small : ∀ v ∈ values, v < 64) :
    symbolValues offset (values.map symbol) = .ok values := by
  induction values generalizing offset with
  | nil => rfl
  | cons v values ih =>
    obtain ⟨own, small⟩ := List.forall_mem_cons.1 small
    rw [List.map_cons, symbolValues, value?_symbol own]
    dsimp only
    rw [ih small]
    rfl

/-- Whatever is read as values is made of their symbols. -/
lemma of_symbolValues (read : symbolValues offset text = .ok values) :
    (∀ v ∈ values, v < 64) ∧ text = values.map symbol := by
  induction text generalizing offset values with
  | nil =>
    cases read
    exact ⟨nofun, rfl⟩
  | cons b text ih =>
    rw [symbolValues] at read
    split at read
    case h_1 => cases read
    case h_2 v known =>
      obtain ⟨values, rest, made⟩ := bind_eq_ok.1 read
      cases made
      obtain ⟨own, rfl⟩ := value?_eq_some.1 known
      obtain ⟨small, rfl⟩ := ih rest
      exact ⟨List.forall_mem_cons.2 ⟨own, small⟩, rfl⟩

/-- Behind a `=` that is not too early more of them are counted. -/
lemma lastGroup_replicate {place : Nat} (late : 2 ≤ place) (firstPad : Option Nat) (pads : Nat) :
    lastGroup offset place firstPad (List.replicate pads pad) = .ok ([], pads) := by
  induction pads generalizing place firstPad with
  | zero => rfl
  | succ pads ih =>
    rw [List.replicate_succ, lastGroup.eq_def]
    dsimp only
    rw [if_pos rfl, if_neg (Nat.not_lt.2 late), ih (Nat.le_succ_of_le late)]
    rfl

/-- Symbols and the padding behind them are read as the last group. -/
lemma lastGroup_map {place pads : Nat} (small : ∀ v ∈ values, v < 64)
    (late : 0 < pads → 2 ≤ place + values.length) :
    lastGroup offset place none (values.map symbol ++ List.replicate pads pad) =
      .ok (values, pads) := by
  induction values generalizing place with
  | nil =>
    cases pads with
    | zero => rfl
    | succ pads => exact lastGroup_replicate (late pads.succ_pos) none _
  | cons v values ih =>
    obtain ⟨own, small⟩ := List.forall_mem_cons.1 small
    have later : 0 < pads → 2 ≤ place + 1 + values.length := by
      intro some
      have := late some
      rw [List.length_cons] at this
      omega
    rw [List.map_cons, List.cons_append, lastGroup, if_neg (symbol_ne_pad own), value?_symbol own]
    dsimp only
    rw [ih small later]
    rfl

/-- Behind a `=` there is nothing but more of them. -/
lemma of_lastGroup_some {place first pads : Nat}
    (read : lastGroup offset place (some first) text = .ok (values, pads)) :
    values = [] ∧ text = List.replicate pads pad := by
  induction text generalizing place first values pads with
  | nil =>
    cases read
    exact ⟨rfl, rfl⟩
  | cons b text ih =>
    rw [lastGroup] at read
    split at read
    case isTrue same =>
      split at read
      case isTrue => cases read
      case isFalse =>
        obtain ⟨⟨values', pads'⟩, rest, made⟩ := bind_eq_ok.1 read
        cases made
        obtain ⟨none, written⟩ := ih rest
        exact ⟨none, by rw [same, written, List.replicate_succ]⟩
    case isFalse => cases read

/-- Whatever is read as a last group is made of symbols and the padding behind them. -/
lemma of_lastGroup {place pads : Nat}
    (read : lastGroup offset place none text = .ok (values, pads)) :
    (∀ v ∈ values, v < 64) ∧ text = values.map symbol ++ List.replicate pads pad := by
  induction text generalizing place values pads with
  | nil =>
    cases read
    exact ⟨nofun, rfl⟩
  | cons b text ih =>
    rw [lastGroup] at read
    split at read
    case isTrue same =>
      split at read
      case isTrue => cases read
      case isFalse =>
        obtain ⟨⟨values', pads'⟩, rest, made⟩ := bind_eq_ok.1 read
        cases made
        obtain ⟨rfl, written⟩ := of_lastGroup_some rest
        exact ⟨nofun, by rw [same, written, List.replicate_succ]; rfl⟩
    case isFalse =>
      dsimp only at read
      split at read
      case h_1 => cases read
      case h_2 v known =>
        obtain ⟨⟨values', pads'⟩, rest, made⟩ := bind_eq_ok.1 read
        cases made
        obtain ⟨own, rfl⟩ := value?_eq_some.1 known
        obtain ⟨small, rfl⟩ := ih rest
        exact ⟨List.forall_mem_cons.2 ⟨own, small⟩, rfl⟩

/-! ### Whole texts -/

/-- Groups are read when all of them but the last are symbols, the last one is full, and the symbols
are bytes with zeros behind them. -/
lemma decodeGroups_eq_ok {split : Nat} :
    decodeGroups split text = .ok bytes ↔
      ∃ leading last pads, (∀ v ∈ leading ++ last, v < 64) ∧
        text.take split = leading.map symbol ∧
        text.drop split = last.map symbol ++ List.replicate pads pad ∧
        2 ≤ last.length ∧ last.length + pads = 4 ∧
        ∃ zeros < 8, Bits.ofDigits 6 (leading ++ last) =
          Bits.ofBytes bytes ++ List.replicate zeros false := by
  apply Iff.intro
  · intro read
    obtain ⟨leading, first, read⟩ := bind_eq_ok.1 read
    obtain ⟨⟨last, pads⟩, second, read⟩ := bind_eq_ok.1 read
    simp only [throw_eq, error_bind_eq, if_error_eq_ok, pure_eq_ok, not_lt, not_not,
      Bool.not_eq_true] at read
    obtain ⟨long, full, clear, rfl⟩ := read
    obtain ⟨small, whole⟩ := of_symbolValues first
    obtain ⟨small', whole'⟩ := of_lastGroup second
    refine ⟨leading, last, pads, List.forall_mem_append.2 ⟨small, small'⟩, whole, whole', long,
      full, ?_⟩
    refine (Bits.toBytes_zeros_iff (by decide)).1 ⟨_, rfl, ?_, clear⟩
    exact (Bits.toBytes_eq_iff.1 rfl).2
  · intro h
    obtain ⟨leading, last, pads, small, whole, whole', long, full, zeros⟩ := h
    obtain ⟨small, small'⟩ := List.forall_mem_append.1 small
    obtain ⟨rest, cut, -, clear⟩ := (Bits.toBytes_zeros_iff (by decide)).2 zeros
    have first : symbolValues 0 (text.take split) = .ok leading := by
      rw [whole, symbolValues_map small]
    have second : lastGroup split 0 none (text.drop split) = .ok (last, pads) := by
      rw [whole', lastGroup_map small' fun _ => by omega]
    refine bind_eq_ok.2 ⟨leading, first, bind_eq_ok.2 ⟨(last, pads), second, ?_⟩⟩
    dsimp only
    rw [if_neg (Nat.not_lt.2 long), if_neg (not_not.2 full), cut]
    dsimp only
    rw [clear]
    rfl

/-- A text that is not empty is cut into groups, or it is refused for a single character behind
its last full group. -/
lemma decodeBytes_of_ne_nil (some : text ≠ []) :
    decodeBytes text =
        decodeGroups (if text.length % 4 = 0 then text.length - 4
          else text.length - text.length % 4) text ∨
      text.length % 4 = 1 ∧ ∃ fault, decodeBytes text = .error fault := by
  have pos : text.length ≠ 0 := fun none => some (List.length_eq_zero_iff.1 none)
  rw [decodeBytes]
  dsimp only
  rw [if_neg pos]
  split
  case isTrue single =>
    split
    case h_1 =>
      split
      case isTrue => exact .inr ⟨single, _, rfl⟩
      case isFalse => exact .inl rfl
    case h_2 => exact .inl rfl
  case isFalse => exact .inl rfl

/-- The base64 form of bytes: the symbols of digits that write the bytes with fewer zeros behind
them than a digit has bits, and as many `=` as fill the last group. -/
lemma eq_encodeBytes_iff :
    text = encodeBytes bytes ↔
      ∃ digits, (∀ v ∈ digits, v < 64) ∧
        (∃ zeros < 6, Bits.ofDigits 6 digits = Bits.ofBytes bytes ++ List.replicate zeros false) ∧
        text = digits.map symbol ++ List.replicate (Bytes.padLength digits.length) pad := by
  have form : encodeBytes bytes = (Bits.toDigits 6 (Bits.ofBytes bytes)).map symbol ++
      List.replicate (Bytes.padLength (Bits.toDigits 6 (Bits.ofBytes bytes)).length) pad := by
    rw [encodeBytes, List.length_map]
  rw [form]
  apply Iff.intro
  · intro h
    obtain ⟨small, zeros⟩ := Bits.ofDigits_toDigits (Bits.ofBytes bytes) (by decide : 0 < 6)
    exact ⟨_, small, zeros, h⟩
  · intro h
    obtain ⟨digits, small, zeros, rfl⟩ := h
    rw [(Bits.toDigits_eq_iff (by decide)).2 ⟨small, zeros⟩]

/-- Digits of six bits have as many bits as the bytes and the zeros behind them. -/
lemma length_digits {digits : List Nat} {zeros : Nat}
    (whole : Bits.ofDigits 6 digits = Bits.ofBytes bytes ++ List.replicate zeros false) :
    6 * digits.length = 8 * bytes.length + zeros := by
  have total := congrArg List.length whole
  simpa using total

/-- A text of groups that is read is the base64 form of what is read. -/
lemma eq_encodeBytes_of_decodeGroups (read : decodeGroups (if text.length % 4 = 0 then
    text.length - 4 else text.length - text.length % 4) text = .ok bytes) :
    text = encodeBytes bytes := by
  generalize cut : (if text.length % 4 = 0 then text.length - 4
    else text.length - text.length % 4) = split at read
  obtain ⟨leading, last, pads, small, front, back, long, full, zeros, few, whole⟩ :=
    decodeGroups_eq_ok.1 read
  have frontLength := congrArg List.length front
  have backLength := congrArg List.length back
  rw [List.length_take, List.length_map] at frontLength
  rw [List.length_drop, List.length_append, List.length_map, List.length_replicate] at backLength
  -- The last group has four places, so the text is made of groups of four.
  have groups : split = text.length - 4 ∧ text.length % 4 = 0 := by
    split at cut <;> omega
  have total := length_digits whole
  rw [List.length_append] at total
  have fill : Bytes.padLength (leading ++ last).length = pads := by
    rw [Bytes.padLength, List.length_append]
    omega
  refine eq_encodeBytes_iff.2 ⟨leading ++ last, small, ⟨zeros, by omega, whole⟩, ?_⟩
  rw [fill, List.map_append, List.append_assoc, ← front, ← back, List.take_append_drop]

/-- The base64 form of bytes is read group by group. -/
lemma decodeGroups_encodeBytes {digits : List Nat} {zeros : Nat} (small : ∀ v ∈ digits, v < 64)
    (some : digits ≠ []) (few : zeros < 6)
    (whole : Bits.ofDigits 6 digits = Bits.ofBytes bytes ++ List.replicate zeros false)
    (written : text = digits.map symbol ++ List.replicate (Bytes.padLength digits.length) pad) :
    text.length % 4 = 0 ∧ decodeGroups (text.length - 4) text = .ok bytes := by
  have total := length_digits whole
  have pos := List.length_pos_iff.2 some
  have length : text.length = digits.length + Bytes.padLength digits.length := by
    rw [written, List.length_append, List.length_map, List.length_replicate]
  have fill : Bytes.padLength digits.length = (4 - digits.length % 4) % 4 := rfl
  refine ⟨by omega, ?_⟩
  generalize cut : text.length - 4 = split
  have inside : split ≤ (digits.map symbol).length := by
    rw [List.length_map]
    omega
  refine decodeGroups_eq_ok.2 ⟨digits.take split, digits.drop split,
    Bytes.padLength digits.length, ?_, ?_, ?_, ?_, ?_, zeros, by omega, ?_⟩
  · rw [List.take_append_drop]
    exact small
  · rw [written, List.take_append_of_le_length inside, List.map_take]
  · rw [written, List.drop_append_of_le_length inside, List.map_drop]
  · rw [List.length_drop]
    omega
  · rw [List.length_drop]
    omega
  · rw [List.take_append_drop]
    exact whole

/-- Bytes are read from a text exactly when it is their base64 form. -/
theorem decodeBytes_eq_ok : decodeBytes text = .ok bytes ↔ text = encodeBytes bytes := by
  apply Iff.intro
  · intro read
    by_cases none : text = []
    · subst none
      cases read
      rfl
    · obtain groups | ⟨-, fault, refused⟩ := decodeBytes_of_ne_nil none
      · exact eq_encodeBytes_of_decodeGroups (groups.symm.trans read)
      · cases refused.symm.trans read
  · intro h
    obtain ⟨digits, small, ⟨zeros, few, whole⟩, written⟩ := eq_encodeBytes_iff.1 h
    have total := length_digits whole
    by_cases none : digits = []
    · subst none
      rw [List.length_nil] at total
      have empty : bytes = [] := List.length_eq_zero_iff.1 (by omega)
      rw [written, empty]
      rfl
    · obtain ⟨multiple, read⟩ := decodeGroups_encodeBytes small none few whole written
      have some : text ≠ [] := by
        intro empty
        rw [empty, eq_comm, List.append_eq_nil_iff, List.map_eq_nil_iff] at written
        exact none written.1
      obtain groups | ⟨single, -⟩ := decodeBytes_of_ne_nil some
      · rw [groups, if_pos multiple, read]
      · omega

/-- A byte string is written in symbols and padding. -/
lemma mem_encodeBytes {b : UInt8} (mem : b ∈ encodeBytes bytes) :
    b = pad ∨ ∃ v < 64, b = symbol v := by
  obtain ⟨digits, small, -, written⟩ := eq_encodeBytes_iff.1 (Eq.refl (encodeBytes bytes))
  rw [written, List.mem_append] at mem
  obtain digit | filling := mem
  · obtain ⟨v, inside, rfl⟩ := List.mem_map.1 digit
    exact .inr ⟨v, small v inside, rfl⟩
  · exact .inl (List.eq_of_mem_replicate filling)

/-- The symbols and `=` are ASCII characters, and none of them is white space. -/
lemma encodeBytes_visible {b : UInt8} (mem : b ∈ encodeBytes bytes) :
    b < 128 ∧ ¬ Text.isBlank (Char.ofNat b.toNat) := by
  have symbols : ∀ v < 64, symbol v < 128 ∧ ¬ Text.isBlank (Char.ofNat (symbol v).toNat) := by
    decide
  obtain rfl | ⟨v, small, rfl⟩ := mem_encodeBytes mem
  · decide
  · exact symbols v small

/-- The text of a byte string has the characters that are written for it. -/
@[simp] lemma ofText_encode (bytes : Bytes) : Bytes.ofText (encode bytes) = encodeBytes bytes :=
  Bytes.ofText_toLatin fun _ mem => (encodeBytes_visible mem).1

/-- No white space is written. -/
lemma not_isBlank_encode (bytes : Bytes) : ∀ c ∈ (encode bytes).toList, ¬ Text.isBlank c := by
  intro c mem
  rw [encode, Bytes.toLatin, String.toList_ofList] at mem
  obtain ⟨b, inside, rfl⟩ := List.mem_map.1 mem
  exact (encodeBytes_visible inside).2

/-- A text is read as a byte string exactly when it is the base64 text of it. -/
theorem decode_eq_ok {text : String} {bytes : Bytes} :
    decode text = .ok bytes ↔ text = encode bytes := by
  rw [decode, decodeBytes_eq_ok, ← ofText_encode]
  exact ⟨Bytes.ofText_inj, congrArg Bytes.ofText⟩

/-- A byte string is told by its text. -/
lemma encode_inj {bytes bytes' : Bytes} (same : encode bytes = encode bytes') : bytes = bytes' :=
  Except.ok.inj ((decode_eq_ok.2 rfl).symm.trans (decode_eq_ok.2 same))

end LedgerWire.Base64
