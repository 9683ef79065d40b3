import LedgerWire.Proofs.Basic
import LedgerWire.Proofs.Wire.Reading
import LedgerWire.Proofs.Wire.Writing

/-!
# Codecs that lose nothing

The two directions of a codec fit together when the values that reading can return are exactly
those within the limits of the type, and each of them is read from its wire form and from nothing
else. `Codec.Lawful` says this of a codec. Every way of putting codecs together keeps it, so the law
of a composed type takes one line per field.
-/

namespace LedgerWire

namespace Codec
variable {α β : Type}

/-- A pair is spelled by a spelling of its first part and one of its second. -/
lemma pair_accepts {c : Codec α} {d : Codec β} {S : α → Bytes → Prop} {T : β → Bytes → Prop}
    (hc : c.read.Accepts S) (hd : d.read.Accepts T) :
    (c.pair d).read.Accepts fun p bytes =>
      ∃ x y, S p.1 x ∧ T p.2 y ∧ bytes = x ++ y := by
  refine (hc.bind fun a => hd.map fun b => (a, b)).congr fun p bytes => ?_
  apply Iff.intro
  · intro h
    obtain ⟨a, x, y, ha, ⟨b, hb, rfl⟩, rfl⟩ := h
    exact ⟨x, y, ha, hb, rfl⟩
  · intro h
    obtain ⟨x, y, ha, hb, rfl⟩ := h
    exact ⟨p.1, x, y, ha, ⟨p.2, hb, rfl⟩, rfl⟩

/-- Reading returns the values that fit, each from its wire form alone. -/
structure Lawful (c : Codec α) (Fits : α → Prop) : Prop where
  appends : c.Appends
  accepts : c.read.Accepts fun v bytes => Fits v ∧ bytes = c.encode v

namespace Lawful
variable {c : Codec α} {d : Codec β} {Fits : α → Prop} {Suits : β → Prop}

/-- The limits of a codec may be described in another way. -/
lemma congr {Fits' : α → Prop} (h : c.Lawful Fits) (same : ∀ v, Fits v ↔ Fits' v) :
    c.Lawful Fits' :=
  ⟨h.appends, h.accepts.congr fun v _ => and_congr_left fun _ => same v⟩

/-- A value is read back from an input exactly when it fits and the input is its wire form. -/
lemma decode_eq_ok (h : c.Lawful Fits) {input v} :
    c.decode input = .ok v ↔ Fits v ∧ input = c.encode v :=
  h.accepts.runAll_eq_ok

/-- Values that fit have different wire forms. -/
lemma encode_inj (h : c.Lawful Fits) {v v'} (fits : Fits v) (fits' : Fits v')
    (same : c.encode v = c.encode v') : v = v' := by
  have read := h.decode_eq_ok.2 ⟨fits, rfl⟩
  have read' := h.decode_eq_ok.2 ⟨fits', rfl⟩
  rw [same, read'] at read
  exact (Except.ok.inj read).symm

/-- A codec is lawful when writing adds, and reading accepts, the same bytes for each value. -/
lemma of_form {form : α → Bytes} (write : ∀ v w, (c.write v w).bytes = w.bytes ++ form v)
    (read : c.read.Accepts fun v bytes => Fits v ∧ bytes = form v) : c.Lawful Fits where
  appends := .of_form write
  accepts := read.congr fun v bytes => by rw [encode_eq write]

/-- Unsigned integers of 32 bits are read back from their bytes, all of them. -/
lemma uint32 : Codec.uint32.Lawful fun _ => True :=
  of_form Writer.bytes_uint32 (Decode.Accepts.uint32.congr fun _ _ => (true_and _).symm.to_iff)

/-- Signed integers of 32 bits are read back from their bytes, all of them. -/
lemma int32 : Codec.int32.Lawful fun _ => True :=
  of_form Writer.bytes_int32 (Decode.Accepts.int32.congr fun _ _ => (true_and _).symm.to_iff)

/-- Unsigned integers of 64 bits are read back from their bytes, all of them. -/
lemma uint64 : Codec.uint64.Lawful fun _ => True :=
  of_form (fun v w => Writer.bytes_number 8 v.toNat w)
    (Decode.Accepts.uint64.congr fun _ _ => (true_and _).symm.to_iff)

/-- Signed integers of 64 bits are read back from their bytes, all of them. -/
lemma int64 : Codec.int64.Lawful fun _ => True :=
  of_form (fun v w => Writer.bytes_number 8 v.toUInt64.toNat w)
    (Decode.Accepts.int64.congr fun _ _ => (true_and _).symm.to_iff)

/-- Truth values are read back. -/
lemma bool : Codec.bool.Lawful fun _ => True :=
  of_form Writer.bytes_bool (Decode.Accepts.bool.congr fun _ _ => (true_and _).symm.to_iff)

/-- Strings of a fixed length are read back. -/
lemma fixed (n : Nat) : (Codec.fixed n).Lawful fun _ => True :=
  of_form (fun v w => Writer.bytes_padded v.bytes w)
    ((Decode.Accepts.fixed n).congr fun _ _ => (true_and _).symm.to_iff)

/-- Nothing is read back from nothing. -/
lemma void : Codec.void.Lawful fun _ => True where
  appends _ _ := (List.append_nil _).symm
  accepts := (Decode.Accepts.pure ()).congr fun _ _ =>
    ⟨fun h => ⟨trivial, h.2⟩, fun h => ⟨rfl, h.2⟩⟩

/-- Byte strings that are not too long are read back. -/
lemma counted {max : Nat} (small : max < 2 ^ 32) :
    (Codec.counted max).Lawful fun v => v.length ≤ max where
  appends := .counted max
  accepts := (Decode.Accepts.counted max).congr fun v bytes => by
    rw [encode_counted]
    apply Iff.intro
    · intro h
      obtain ⟨le, fits, rfl⟩ := h
      exact ⟨le, by rw [Nat.min_eq_left (by omega)]⟩
    · intro h
      obtain ⟨le, rfl⟩ := h
      exact ⟨le, by omega, by rw [Nat.min_eq_left (by omega)]⟩

/-- Options are read back if their values are. -/
lemma optional (h : c.Lawful Fits) : c.optional.Lawful fun v => ∀ x ∈ v, Fits x where
  appends := h.appends.optional
  accepts := (Decode.Accepts.optional h.accepts).congr fun v bytes => by
    apply Iff.intro
    · intro h
      obtain ⟨rfl, rfl⟩ | ⟨x, _, rfl, ⟨hx, rfl⟩, rfl⟩ := h
      · exact ⟨nofun, (encode_optional_none c).symm⟩
      · refine ⟨?_, (h.appends.encode_optional_some x).symm⟩
        rintro _ ⟨⟩
        exact hx
    · intro h
      obtain ⟨all, rfl⟩ := h
      cases v with
      | none => exact .inl ⟨rfl, encode_optional_none c⟩
      | some x => exact .inr ⟨x, _, rfl, ⟨all x rfl, rfl⟩, h.appends.encode_optional_some x⟩

/-- Pairs are read back if their parts are. -/
lemma pair (hc : c.Lawful Fits) (hd : d.Lawful Suits) :
    (c.pair d).Lawful fun p => Fits p.1 ∧ Suits p.2 where
  appends := hc.appends.pair hd.appends
  accepts := (pair_accepts hc.accepts hd.accepts).congr fun p bytes => by
    rw [hd.appends.encode_pair]
    apply Iff.intro
    · intro h
      obtain ⟨_, _, ⟨ha, rfl⟩, ⟨hb, rfl⟩, rfl⟩ := h
      exact ⟨⟨ha, hb⟩, rfl⟩
    · intro h
      obtain ⟨⟨ha, hb⟩, rfl⟩ := h
      exact ⟨_, _, ⟨ha, rfl⟩, ⟨hb, rfl⟩, rfl⟩

/-- A value that passes through a representation fits when that fits and gives it back. -/
lemma map (h : c.Lawful Fits) {into : α → β} {back : β → α}
    (back_into : ∀ a, Fits a → back (into a) = a) :
    (c.map into back).Lawful fun b => Fits (back b) ∧ into (back b) = b where
  appends := h.appends.map into back
  accepts := (h.accepts.map into).congr fun b bytes => by
    rw [encode_map]
    apply Iff.intro
    · intro h
      obtain ⟨a, ⟨ha, rfl⟩, rfl⟩ := h
      rw [back_into a ha]
      exact ⟨⟨ha, rfl⟩, rfl⟩
    · intro h
      obtain ⟨⟨fits, same⟩, rfl⟩ := h
      exact ⟨_, ⟨fits, rfl⟩, same⟩

/-- A value that has to pass a check fits when its representation fits and passes. -/
lemma check (h : c.Lawful Fits) {into : α → Except Forbidden β} {back : β → α}
    (back_into : ∀ a b, Fits a → into a = .ok b → back b = a) :
    (c.check into back).Lawful fun b => Fits (back b) ∧ into (back b) = .ok b where
  appends := h.appends.check into back
  accepts := (h.accepts.check into).congr fun b bytes => by
    rw [encode_check]
    apply Iff.intro
    · intro h
      obtain ⟨a, ⟨ha, rfl⟩, passes⟩ := h
      rw [back_into a b ha passes]
      exact ⟨⟨ha, passes⟩, rfl⟩
    · intro h
      obtain ⟨⟨fits, passes⟩, rfl⟩ := h
      exact ⟨_, ⟨fits, rfl⟩, passes⟩

/-- Texts that are not too long are read back. -/
lemma text {max : Nat} (small : max < 2 ^ 32) :
    (Codec.text max).Lawful fun v => (Bytes.ofText v).length ≤ max := by
  refine ((counted small).check fun bytes text _ ok => ?_).congr fun v => ?_
  · exact Utf8.ofText_of_decode (mapError_eq_ok.1 ok)
  · exact and_iff_left (mapError_eq_ok.2 (Utf8.decode_ofText v))

/-- Lists fit that are not too long and hold values that fit, none of which is written as
nothing. -/
lemma list {max : Nat} (h : c.Lawful Fits) (small : max < 2 ^ 32)
    (pos : ∀ v, Fits v → 0 < (c.encode v).length) :
    (c.list max).Lawful fun xs => xs.length ≤ max ∧ ∀ x ∈ xs, Fits x where
  appends := h.appends.list max
  accepts := (Decode.Accepts.list max h.accepts pos).congr fun xs bytes => by
    rw [h.appends.encode_list]
    apply Iff.intro
    · intro h
      obtain ⟨fits, short, rfl⟩ := h
      exact ⟨fits, by rw [Nat.min_eq_left (by omega)]⟩
    · intro h
      obtain ⟨⟨le, all⟩, rfl⟩ := h
      exact ⟨⟨le, all⟩, by omega, by rw [Nat.min_eq_left (by omega)]⟩

end Lawful

/-- What is read is spelled out, and the wire form of a value is one of its spellings exactly when
the value fits. A value may have other spellings. -/
structure RoundTrips (c : Codec α) (Fits : α → Prop) : Prop where
  appends : c.Appends
  spelled : ∃ S, c.read.Accepts S ∧ ∀ v, S v (c.encode v) ↔ Fits v

/-- A codec with one wire form for each value reads back what is within its limits. -/
lemma Lawful.roundTrips {c : Codec α} {Fits : α → Prop} (h : c.Lawful Fits) : c.RoundTrips Fits :=
  ⟨h.appends, _, h.accepts, fun _ => and_iff_left rfl⟩

namespace RoundTrips
variable {c : Codec α} {Fits : α → Prop}

/-- Options are read back if their values are, whatever the spellings of these. -/
lemma optional (h : c.RoundTrips Fits) : c.optional.RoundTrips fun v => ∀ x ∈ v, Fits x := by
  obtain ⟨S, accepts, spelled⟩ := h.spelled
  refine ⟨h.appends.optional, _, .optional accepts, fun v => ?_⟩
  cases v with
  | none => exact iff_of_true (.inl ⟨rfl, encode_optional_none c⟩) nofun
  | some x =>
    rw [h.appends.encode_optional_some]
    apply Iff.intro
    · intro h
      obtain ⟨⟨⟩, _⟩ | ⟨_, bytes, ⟨⟩, hx, same⟩ := h
      rw [← List.append_cancel_left same, spelled] at hx
      rintro _ ⟨⟩
      exact hx
    · intro all
      exact .inr ⟨x, _, rfl, (spelled x).2 (all x rfl), rfl⟩

/-- A value is read back from its wire form exactly when it fits. -/
lemma decode_encode_iff (h : c.RoundTrips Fits) {v : α} :
    c.decode (c.encode v) = .ok v ↔ Fits v := by
  obtain ⟨S, accepts, spelled⟩ := h.spelled
  rw [decode, accepts.runAll_eq_ok, spelled]

end RoundTrips

end Codec

end LedgerWire
