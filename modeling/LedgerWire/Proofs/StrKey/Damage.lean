import LedgerWire.Proofs.Crc16
import LedgerWire.Proofs.StrKey.Body

/-!
# Damaged characters

A character holds five bits of the body or of the zeros behind it. A text in which one character
was changed would therefore be the text of another body that differs in five bits in a row, and the
check value does not let two such bodies stand beside each other, whatever their kinds are.
-/

namespace LedgerWire.StrKey

/-- The character of a base32 digit. -/
def character (digit : Nat) : Char := Char.ofNat (Base32.symbol digit).toNat

/-- The base32 digit of a character. -/
def digit (c : Char) : Nat := (Base32.value? (UInt8.ofNat c.toNat)).getD 0

/-- The character of a digit tells the digit. -/
lemma digit_character {d : Nat} (small : d < 32) : digit (character d) = d := by
  have all : ∀ d < 32, digit (character d) = d := by decide
  exact all d small

/-- A text is made of the characters of the digits of its body. -/
lemma toList_encode (kind : Kind) (payload : Bytes) :
    (encode kind payload).toList =
      (Bits.toDigits 5 (Bits.ofBytes (body kind payload))).map character := by
  rw [encode, Bytes.toLatin, String.toList_ofList, Base32.encode, List.map_map]
  rfl

/-- The digits of a text are those of its body. -/
lemma map_digit_encode (kind : Kind) (payload : Bytes) :
    (encode kind payload).toList.map digit =
      Bits.toDigits 5 (Bits.ofBytes (body kind payload)) := by
  have small := (Bits.ofDigits_toDigits (Bits.ofBytes (body kind payload)) (by decide : 0 < 5)).1
  rw [toList_encode, List.map_map]
  conv => rhs; rw [← List.map_id (Bits.toDigits 5 _)]
  exact List.map_congr_left fun d mem => digit_character (small d mem)

/-- Bodies with digits that are equal but for one place are equal there too. -/
lemma eq_of_toDigits {bytes bytes' : Bytes} {front rest : List Nat} {d d' : Nat}
    (digits : Bits.toDigits 5 (Bits.ofBytes (bytes ++ (Crc16.checksumBytes bytes).bytes)) =
      front ++ d :: rest)
    (digits' : Bits.toDigits 5 (Bits.ofBytes (bytes' ++ (Crc16.checksumBytes bytes').bytes)) =
      front ++ d' :: rest) : d = d' := by
  obtain ⟨small, zeros, few, written⟩ := (Bits.toDigits_eq_iff (by decide)).1 digits
  obtain ⟨small', zeros', few', written'⟩ := (Bits.toDigits_eq_iff (by decide)).1 digits'
  -- The bodies are made of whole bytes, so their lengths show how many zeros there are.
  have same : zeros = zeros' := by
    have total := congrArg List.length written
    have total' := congrArg List.length written'
    simp only [Bits.length_ofDigits, List.length_append, List.length_cons, Bits.length_ofBytes,
      List.length_replicate] at total total'
    omega
  rw [Bits.ofDigits_append, Bits.ofDigits_cons, ← List.append_assoc] at written written'
  have size : ∀ e, (Bits.ofNat 5 e).length = 5 := Bits.length_ofNat 5
  have window := Crc16.eq_of_window ((size d).trans (size d').symm) (by rw [size]; decide)
    written.symm (same ▸ written'.symm)
  have mem : ∀ e, e ∈ front ++ e :: rest := fun e => List.mem_append_right _ List.mem_cons_self
  exact Bits.ofNat_inj (small d (mem d)) (small' d' (mem d')) window

/-- A text that is accepted is refused, as whatever kind, once one of its characters is changed. -/
theorem decode_set_error {kind : Kind} {text : String} {payload : Bytes} {i : Nat} {c : Char}
    (valid : decode kind text = .ok payload) (inside : i < text.toList.length)
    (changed : c ≠ text.toList[i]) (kind' : Kind) :
    ∃ fault, decode kind' (String.ofList (text.toList.set i c)) = .error fault := by
  cases read : decode kind' (String.ofList (text.toList.set i c)) with
  | error fault => exact ⟨fault, rfl⟩
  | ok payload' =>
    obtain ⟨front, rest, whole, -, damaged⟩ := @List.exists_of_set _ i c _ inside
    have written := congrArg String.toList (decode_eq_ok.1 valid).1
    have written' := congrArg String.toList (decode_eq_ok.1 read).1
    rw [String.toList_ofList, damaged] at written'
    rw [whole] at written
    have digits := map_digit_encode kind payload
    have digits' := map_digit_encode kind' payload'
    rw [← written, List.map_append, List.map_cons] at digits
    rw [← written', List.map_append, List.map_cons] at digits'
    have same := eq_of_toDigits digits.symm digits'.symm
    have texts : (encode kind payload).toList = (encode kind' payload').toList := by
      rw [toList_encode, toList_encode, ← digits, ← digits', same]
    rw [← written, ← written'] at texts
    exact absurd (List.cons.inj (List.append_cancel_left texts)).1.symm changed

/-- The changed character shows the end of the payload and the beginning of the check value. -/
theorem decode_set_addressOfZeros :
    decode .accountId addressOfZeros = .ok (List.replicate 32 0) ∧
      addressOfZeros.toList[52]? = some 'A' ∧
      ∃ fault, decode .seed (String.ofList (addressOfZeros.toList.set 52 'R')) = .error fault := by
  have read : decode .accountId addressOfZeros = .ok (List.replicate 32 0) := by decide +kernel
  have seen : addressOfZeros.toList[52]? = some 'A' := by decide +kernel
  obtain ⟨inside, found⟩ := List.getElem?_eq_some_iff.1 seen
  have changed : 'R' ≠ addressOfZeros.toList[52] := by
    rw [found]
    decide
  exact ⟨read, seen, decode_set_error read inside changed .seed⟩

end LedgerWire.StrKey
