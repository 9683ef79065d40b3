import LedgerWire.Text.Basic
import LedgerWire.Wire.Reader
import LedgerWire.Wire.Writer

/-!
# Codecs

A codec is the two directions of one wire layout: how a value is appended to a writer, and how it
is read back. Codecs are put together from those of the parts: fields in order, options, lists, a
change of representation, a check, and unions. A union is a list of arms, each with a tag of its
own, so both directions follow one description.
-/

namespace LedgerWire

/-- The two directions of a wire layout. -/
structure Codec (α : Type) where
  /-- Appends a value. -/
  write : α → Writer → Writer
  /-- Reads a value. -/
  read : Decode α

/-- One arm of a union. -/
structure Arm (α : Type) where
  /-- The integer in front of the arm. -/
  tag : Int32
  /-- What the arm carries. -/
  Payload : Type
  /-- The layout of what it carries. -/
  codec : Codec Payload
  /-- The value with the given contents. -/
  inject : Payload → α
  /-- The contents of a value of this arm. -/
  project : α → Option Payload

namespace Codec
variable {α β : Type}

/-- The wire form of a value. -/
def encode (c : Codec α) (value : α) : Bytes := (c.write value .empty).bytes

/-- The value whose wire form, and nothing else, is the input. -/
def decode (c : Codec α) (input : Bytes) : Except WireFault α := Decode.runAll c.read input

/-- The base64 text of the wire form of a value. -/
def encodeBase64 (c : Codec α) (value : α) : String := Base64.encode (c.encode value)

/-- The value whose wire form has the given base64 text, white space around it aside. -/
def decodeBase64 (c : Codec α) (text : String) : Except WireFault α :=
  match Base64.decode (Text.trim text) with
  | .ok input => c.decode input
  | .error fault => .error (.base64 fault)

/-- Unsigned integers of four bytes. -/
def uint32 : Codec UInt32 := ⟨fun n w => w.uint32 n, Decode.uint32⟩

/-- Signed integers of four bytes. -/
def int32 : Codec Int32 := ⟨fun n w => w.int32 n, Decode.int32⟩

/-- Unsigned integers of eight bytes. -/
def uint64 : Codec UInt64 := ⟨fun n w => w.uint64 n, Decode.uint64⟩

/-- Signed integers of eight bytes. -/
def int64 : Codec Int64 := ⟨fun n w => w.int64 n, Decode.int64⟩

/-- Truth values. -/
def bool : Codec Bool := ⟨fun b w => w.bool b, Decode.bool⟩

/-- Exactly `n` bytes and their padding. -/
def fixed (n : Nat) : Codec (FixedBytes n) := ⟨fun b w => w.padded b.bytes, Decode.fixed n⟩

/-- At most `max` bytes, with their length in front. -/
def counted (max : Nat) : Codec Bytes := ⟨fun b w => w.counted b, Decode.counted max⟩

/-- Nothing at all. -/
def void : Codec Unit := ⟨fun _ w => w, pure ()⟩

/-- A value that may be absent. -/
def optional (c : Codec α) : Codec (Option α) :=
  ⟨fun x w => w.optional c.write x, Decode.optional c.read⟩

/-- At most `max` values, with their number in front. -/
def list (max : Nat) (c : Codec α) : Codec (List α) :=
  ⟨fun xs w => w.list c.write xs, Decode.list max c.read⟩

/-- One value after another. -/
def pair (first : Codec α) (second : Codec β) : Codec (α × β) where
  write p w := second.write p.2 (first.write p.1 w)
  read := do
    let a ← first.read
    let b ← second.read
    return (a, b)

/-- The same layout for another type, whose values correspond one to one. -/
def map (c : Codec α) (into : α → β) (back : β → α) : Codec β where
  write b w := c.write (back b) w
  read := do return into (← c.read)

/-- The same layout for the values that pass a check. -/
def check (c : Codec α) (into : α → Except Forbidden β) (back : β → α) : Codec β where
  write b w := c.write (back b) w
  read := do
    match into (← c.read) with
    | .ok b => return b
    | .error fault => Decode.forbidden fault

/-- A text of at most `max` bytes in UTF-8. -/
def text (max : Nat) : Codec String :=
  (Codec.counted max).check (fun bytes => (Utf8.decode bytes).mapError .notUtf8) Bytes.ofText

/-- A union: a tag, then the arm that has it. -/
def union (name : String) (arms : List (Arm α)) : Codec α where
  write value w :=
    (arms.findSome? fun arm =>
      (arm.project value).map fun payload => arm.codec.write payload (w.int32 arm.tag)).getD w
  read := do
    let tag ← Decode.int32
    match arms.find? fun arm => arm.tag == tag with
    | some arm => return arm.inject (← arm.codec.read)
    | none => throw (.unknownTag name tag)

/-- A union that has a single arm, with tag zero, so far. -/
def versioned (name : String) (c : Codec α) : Codec α :=
  .union name [⟨0, α, c, id, some⟩]

end Codec

namespace Arm
variable {α β : Type}

/-- An arm that carries nothing. -/
def void (tag : Int32) (value : α) (isValue : α → Bool) : Arm α :=
  ⟨tag, Unit, .void, fun _ => value, fun x => if isValue x then some () else none⟩

/-- An arm of a union as an arm of a wider one. -/
def widen (arm : Arm α) (into : α → β) (back : β → Option α) : Arm β :=
  ⟨arm.tag, arm.Payload, arm.codec, into ∘ arm.inject, fun b => (back b).bind arm.project⟩

end Arm

end LedgerWire
