import LedgerWire.Proofs.Basic
import LedgerWire.Wire.Codec

/-!
# What a writing step adds

A writing step takes nothing back and looks at nothing that was written before: it adds the same
bytes behind whatever a writer holds. `Codec.Appends` says so for the writing direction of a codec.
The bytes are its `encode`, and those of a composed codec are the bytes of its parts in order.
-/

namespace LedgerWire.Writer
variable {α : Type}

/-- A number adds its digits. -/
@[simp] lemma bytes_number (n value : Nat) (w : Writer) :
    (w.number n value).bytes = w.bytes ++ Bytes.bigEndian n value :=
  bytes_raw _ _

/-- An unsigned integer of 32 bits adds its four bytes. -/
@[simp] lemma bytes_uint32 (value : UInt32) (w : Writer) :
    (w.uint32 value).bytes = w.bytes ++ Bytes.bigEndian 4 value.toNat :=
  bytes_number _ _ _

/-- A signed integer of 32 bits adds its four bytes. -/
@[simp] lemma bytes_int32 (value : Int32) (w : Writer) :
    (w.int32 value).bytes = w.bytes ++ Bytes.bigEndian 4 value.toUInt32.toNat :=
  bytes_uint32 _ _

/-- A truth value adds one of two numbers. -/
@[simp] lemma bytes_bool (value : Bool) (w : Writer) :
    (w.bool value).bytes = w.bytes ++ Bytes.bigEndian 4 (if value then 1 else 0) := by
  rw [bool, bytes_uint32]
  cases value <;> rfl

/-- Bytes add themselves and zeros up to the end of a word. -/
@[simp] lemma bytes_padded (bytes : Bytes) (w : Writer) :
    (w.padded bytes).bytes = w.bytes ++ Bytes.padded bytes := by
  simp [padded, Bytes.padded]

/-- A number of parts adds its digits, those of the greatest number if it is too great. -/
@[simp] lemma bytes_count (n : Nat) (w : Writer) :
    (w.count n).bytes = w.bytes ++ Bytes.bigEndian 4 (min n (2 ^ 32 - 1)) :=
  bytes_number _ _ _

/-- Bytes of any number add their number, themselves and their padding. -/
@[simp] lemma bytes_counted (bytes : Bytes) (w : Writer) :
    (w.counted bytes).bytes =
      w.bytes ++ (Bytes.bigEndian 4 (min bytes.length (2 ^ 32 - 1)) ++ Bytes.padded bytes) := by
  simp [counted]

/-- A writer counts the bytes that it holds. -/
lemma length_eq (w : Writer) : w.length = w.bytes.length := Array.length_toList.symm

/-- A number adds as many bytes as it is written in. -/
@[simp]
lemma length_number (n value : Nat) (w : Writer) : (w.number n value).length = w.length + n := by
  simp [length_eq]

/-- A signed integer of 32 bits adds four bytes. -/
@[simp] lemma length_int32 (value : Int32) (w : Writer) : (w.int32 value).length = w.length + 4 :=
  length_number 4 _ w

/-- A truth value adds four bytes. -/
@[simp] lemma length_bool (value : Bool) (w : Writer) : (w.bool value).length = w.length + 4 :=
  length_number 4 _ w

/-- A number of parts adds four bytes. -/
@[simp] lemma length_count (n : Nat) (w : Writer) : (w.count n).length = w.length + 4 :=
  length_number 4 _ w

/-- Bytes add their number and that of the zeros behind them. -/
@[simp] lemma length_padded (bytes : Bytes) (w : Writer) :
    (w.padded bytes).length = w.length + (bytes.length + Bytes.padLength bytes.length) := by
  simp [length_eq, Bytes.padded]

/-- Values one after another add what each of them adds. -/
lemma bytes_repeated {write : α → Writer → Writer} {form : α → Bytes}
    (h : ∀ v w, (write v w).bytes = w.bytes ++ form v) (xs : List α) (w : Writer) :
    (w.repeated write xs).bytes = w.bytes ++ xs.flatMap form := by
  induction xs generalizing w with
  | nil => exact (List.append_nil _).symm
  | cons x xs ih =>
    have step : w.repeated write (x :: xs) = (write x w).repeated write xs := rfl
    rw [step, ih, h, List.flatMap_cons, List.append_assoc]

end LedgerWire.Writer

namespace LedgerWire.Codec
variable {α β : Type}

/-- A value is written behind what is there, and everywhere in the same way. -/
def Appends (c : Codec α) : Prop := ∀ v w, (c.write v w).bytes = w.bytes ++ c.encode v

/-- What a codec adds everywhere is the wire form. -/
lemma encode_eq {c : Codec α} {form : α → Bytes}
    (h : ∀ v w, (c.write v w).bytes = w.bytes ++ form v) (v : α) : c.encode v = form v := by
  rw [encode, h, Writer.bytes_empty, List.nil_append]

/-- A codec that adds the same bytes everywhere only appends. -/
lemma Appends.of_form {c : Codec α} {form : α → Bytes}
    (h : ∀ v w, (c.write v w).bytes = w.bytes ++ form v) : c.Appends := by
  intro v w
  rw [h, encode_eq h]

/-- The wire form of a signed integer of 32 bits is its digits. -/
lemma encode_int32 (n : Int32) : int32.encode n = Bytes.bigEndian 4 n.toUInt32.toNat :=
  Writer.bytes_int32 n .empty

/-- A signed integer of 32 bits has four bytes, whichever it is. -/
@[simp] lemma length_encode_int32 (n : Int32) : (int32.encode n).length = 4 := by
  simp [encode_int32]

/-- A signed integer of 64 bits has eight bytes, whichever it is. -/
@[simp] lemma length_encode_int64 (n : Int64) : (int64.encode n).length = 8 := by
  have digits : int64.encode n = Bytes.bigEndian 8 n.toUInt64.toNat :=
    Writer.bytes_number 8 n.toUInt64.toNat .empty
  simp [digits]

/-- Bytes that end at a multiple of four are written as they are. -/
lemma encode_fixed {n : Nat} (aligned : Bytes.padLength n = 0) (a : FixedBytes n) :
    (fixed n).encode a = a.bytes := by
  have padded : (fixed n).encode a = Bytes.padded a.bytes := Writer.bytes_padded a.bytes .empty
  rw [padded, Bytes.padded, a.length_eq, aligned]
  exact List.append_nil _

/-- A string of a fixed length has its bytes and the zeros behind them. -/
@[simp] lemma length_encode_fixed {n : Nat} (a : FixedBytes n) :
    ((fixed n).encode a).length = n + Bytes.padLength n := by
  have padded : (fixed n).encode a = Bytes.padded a.bytes := Writer.bytes_padded a.bytes .empty
  simp [padded, Bytes.padded, a.length_eq]

/-- Bytes of any number have their number, themselves and zeros behind them. -/
lemma encode_counted (max : Nat) (b : Bytes) :
    (counted max).encode b =
      Bytes.bigEndian 4 (min b.length (2 ^ 32 - 1)) ++ Bytes.padded b :=
  Writer.bytes_counted b .empty

/-- A value that is absent has the mark for it. -/
@[simp] lemma encode_optional_none (c : Codec α) : c.optional.encode none = Bytes.bigEndian 4 0 :=
  Writer.bytes_bool false .empty

/-- A value has the wire form of what it is changed back to. -/
@[simp] lemma encode_map (c : Codec α) (into : α → β) (back : β → α) (b : β) :
    (c.map into back).encode b = c.encode (back b) := rfl

/-- A value that passed a check has the wire form of what was checked. -/
@[simp] lemma encode_check (c : Codec α) (into : α → Except Forbidden β) (back : β → α) (b : β) :
    (c.check into back).encode b = c.encode (back b) := rfl

namespace Appends
variable {c : Codec α} {d : Codec β}

/-- A value that is there has the mark for it in front. -/
lemma encode_optional_some (h : c.Appends) (v : α) :
    c.optional.encode (some v) = Bytes.bigEndian 4 1 ++ c.encode v := by
  have value : c.optional.encode (some v) = (Writer.empty.bool true).bytes ++ c.encode v := h _ _
  rw [value, Writer.bytes_bool]
  rfl

/-- One value stands behind the other. -/
lemma encode_pair (h : d.Appends) (p : α × β) :
    (c.pair d).encode p = c.encode p.1 ++ d.encode p.2 := h p.2 _

/-- Values stand one after another behind their number. -/
lemma encode_list (h : c.Appends) (max : Nat) (xs : List α) :
    (c.list max).encode xs =
      Bytes.bigEndian 4 (min xs.length (2 ^ 32 - 1)) ++ xs.flatMap c.encode := by
  have values : (c.list max).encode xs =
      (Writer.empty.count xs.length).bytes ++ xs.flatMap c.encode := Writer.bytes_repeated h _ _
  rw [values, Writer.bytes_count]
  rfl

/-- Options are written behind what is there if their values are. -/
lemma optional (h : c.Appends) : c.optional.Appends := by
  intro v w
  cases v with
  | none =>
    rw [encode_optional_none]
    exact Writer.bytes_bool false w
  | some x =>
    have value : (c.optional.write (some x) w).bytes = (w.bool true).bytes ++ c.encode x := h _ _
    rw [value, h.encode_optional_some, Writer.bytes_bool, List.append_assoc]
    rfl

/-- Pairs are written behind what is there if their parts are. -/
lemma pair (hc : c.Appends) (hd : d.Appends) : (c.pair d).Appends := by
  intro p w
  have second : ((c.pair d).write p w).bytes = (c.write p.1 w).bytes ++ d.encode p.2 := hd _ _
  rw [second, hc, hd.encode_pair, List.append_assoc]

/-- A change of the values leaves the way of writing alone. -/
lemma map (h : c.Appends) (into : α → β) (back : β → α) : (c.map into back).Appends :=
  fun b w => h (back b) w

/-- A check of the values leaves the way of writing alone. -/
lemma check (h : c.Appends) (into : α → Except Forbidden β) (back : β → α) :
    (c.check into back).Appends :=
  fun b w => h (back b) w

/-- Lists are written behind what is there if their values are. -/
lemma list (h : c.Appends) (max : Nat) : (c.list max).Appends := by
  intro xs w
  have values : ((c.list max).write xs w).bytes =
      (w.count xs.length).bytes ++ xs.flatMap c.encode := Writer.bytes_repeated h _ _
  rw [values, Writer.bytes_count, h.encode_list, List.append_assoc]

/-- Byte strings are written behind what is there. -/
lemma counted (max : Nat) : (Codec.counted max).Appends := by
  intro b w
  rw [encode_counted]
  exact Writer.bytes_counted b w

/-- Texts are written behind what is there. -/
lemma text (max : Nat) : (Codec.text max).Appends := (counted max).check _ _

end Appends

end LedgerWire.Codec
