import LedgerWire.Proofs.Base64
import LedgerWire.Proofs.RoundTrip
import LedgerWire.Proofs.Text

/-!
# Wire forms as texts

A wire form travels as its base64 text, which may stand between white space. Base64 has one text for
a byte string, and no symbol of it is white space, so the text adds nothing to what is read and
leaves nothing open: it answers as the wire form does, and the value that is read from it gives the
text back.
-/

namespace LedgerWire

namespace Codec
variable {α : Type} {c : Codec α} {Fits : α → Prop} {text : String} {v : α}

/-- A value is read from the base64 text of the inputs that it is read from. -/
lemma decodeBase64_eq_ok :
    c.decodeBase64 text = .ok v ↔
      ∃ input, Text.trim text = Base64.encode input ∧ c.decode input = .ok v := by
  rw [decodeBase64]
  rcases read : Base64.decode (Text.trim text) with fault | input
  · refine iff_of_false nofun fun h => ?_
    obtain ⟨input, written, -⟩ := h
    cases read.symm.trans (Base64.decode_eq_ok.2 written)
  · apply Iff.intro
    · intro decoded
      exact ⟨input, Base64.decode_eq_ok.1 read, decoded⟩
    · intro h
      obtain ⟨input', written, decoded⟩ := h
      cases read.symm.trans (Base64.decode_eq_ok.2 written)
      exact decoded

/-- The white space around a text is taken away, and no more. -/
lemma trim_of_framed (framed : Text.Framed (c.encodeBase64 v) text) :
    Text.trim text = c.encodeBase64 v :=
  Text.trim_of_framed (Base64.not_isBlank_encode _) framed

/-- The text of a wire form is read as the wire form, with white space around it, too. -/
lemma decodeBase64_of_framed (framed : Text.Framed (c.encodeBase64 v) text) :
    c.decodeBase64 text = c.decode (c.encode v) := by
  have read : Base64.decode (Text.trim text) = .ok (c.encode v) :=
    Base64.decode_eq_ok.2 (trim_of_framed framed)
  rw [decodeBase64, read]

/-- A value within the limits of its type is read from its own base64 text, with or without white
space around it, and from no other text. -/
lemma Lawful.decodeBase64_eq_ok (h : c.Lawful Fits) :
    c.decodeBase64 text = .ok v ↔ Fits v ∧ Text.Framed (c.encodeBase64 v) text := by
  apply Iff.intro
  · intro read
    obtain ⟨input, written, decoded⟩ := Codec.decodeBase64_eq_ok.1 read
    obtain ⟨fits, rfl⟩ := h.decode_eq_ok.1 decoded
    have framed := Text.framed_trim text
    rw [written] at framed
    exact ⟨fits, framed⟩
  · intro h'
    obtain ⟨fits, framed⟩ := h'
    rw [decodeBase64_of_framed framed]
    exact h.decode_eq_ok.2 ⟨fits, rfl⟩

end Codec

namespace WireType

/-- The base64 text of a value's wire form, whatever white space stands around it, is answered as
the wire form is, be it with the value or with a fault. In turn, for every type but that of
preconditions, be they optional or not, a text from which a value is read is the base64 text of the
wire form of that value, but for white space around it. -/
theorem decodeBase64_exact (t : WireType) :
    (∀ (v : t.Value) (text : String), Text.Framed (t.codec.encodeBase64 v) text →
        t.codec.decodeBase64 text = t.codec.decode (t.codec.encode v)) ∧
      ((∀ (text : String) (v : t.Value), t.codec.decodeBase64 text = .ok v →
          t.codec.encodeBase64 v = Text.trim text ∧
            Text.Framed (t.codec.encodeBase64 v) text) ↔ t.core ≠ .preconditions) := by
  refine ⟨fun v text framed => Codec.decodeBase64_of_framed framed, ?_⟩
  apply Iff.intro
  · intro gives same
    obtain ⟨v, input, input', other, read, read'⟩ := two_inputs_of_core same
    -- Both inputs have a base64 text, and the value can give back only one of the two.
    have given : ∀ i, t.codec.decode i = .ok v → t.codec.encodeBase64 v = Base64.encode i := by
      intro i decoded
      have alone : Text.trim (Base64.encode i) = Base64.encode i :=
        Text.trim_of_framed (Base64.not_isBlank_encode i) (Text.framed_self _)
      have texts := gives (Base64.encode i) v (Codec.decodeBase64_eq_ok.2 ⟨i, alone, decoded⟩)
      exact texts.1.trans alone
    exact other (Base64.encode_inj ((given input read).symm.trans (given input' read')))
  · intro other text v read
    obtain ⟨-, framed⟩ := (lawful other).decodeBase64_eq_ok.1 read
    exact ⟨(Codec.trim_of_framed framed).symm, framed⟩

/-- A number stands between a line break, a space and a tab. -/
theorem decodeBase64_exact_seven :
    Text.Framed (uint32.codec.encodeBase64 (7 : UInt32)) "\n AAAABw==\t" ∧
      uint32.codec.decodeBase64 "\n AAAABw==\t" = .ok (7 : UInt32) ∧
      Text.trim "\n AAAABw==\t" = "AAAABw==" := by
  have written : uint32.codec.encodeBase64 (7 : UInt32) = "AAAABw==" := by decide
  have framed : Text.Framed (uint32.codec.encodeBase64 (7 : UInt32)) "\n AAAABw==\t" :=
    ⟨['\n', ' '], ['\t'], List.all_eq_true.1 rfl, by rw [written]; rfl⟩
  have read : uint32.codec.decodeBase64 "\n AAAABw==\t" = .ok (7 : UInt32) :=
    (decodeBase64_exact .uint32).1 _ _ framed
  have other : core uint32 ≠ .preconditions := nofun
  have texts := (decodeBase64_exact .uint32).2.2 other _ _ read
  exact ⟨framed, read, texts.1.symm.trans written⟩

end WireType

end LedgerWire
