import LedgerWire.Bytes.Basic

/-!
# Writing wire data

A writer holds the bytes written so far and takes more at their end. Writing never fails: a value
that is too long for its field is written with its true length, and reading refuses it.
-/

namespace LedgerWire

/-- The bytes written so far. -/
structure Writer where
  /-- The bytes, in a form that grows at its end. -/
  buffer : Array UInt8

namespace Writer

/-- The writer that holds nothing. -/
def empty : Writer := ⟨#[]⟩

/-- The bytes written so far. -/
def bytes (w : Writer) : Bytes := w.buffer.toList

/-- The number of bytes written so far. -/
def length (w : Writer) : Nat := w.buffer.size

/-- Writes bytes as they are. -/
def raw (bytes : Bytes) (w : Writer) : Writer := ⟨w.buffer ++ bytes⟩

/-- Writes a number in `n` bytes. -/
def number (n value : Nat) (w : Writer) : Writer := w.raw (.bigEndian n value)

/-- Writes an unsigned integer in four bytes. -/
def uint32 (value : UInt32) (w : Writer) : Writer := w.number 4 value.toNat

/-- Writes a signed integer in four bytes, in two's complement. -/
def int32 (value : Int32) (w : Writer) : Writer := w.uint32 value.toUInt32

/-- Writes an unsigned integer in eight bytes. -/
def uint64 (value : UInt64) (w : Writer) : Writer := w.number 8 value.toNat

/-- Writes a signed integer in eight bytes, in two's complement. -/
def int64 (value : Int64) (w : Writer) : Writer := w.uint64 value.toUInt64

/-- Writes a truth value as the integer 0 or 1. -/
def bool (value : Bool) (w : Writer) : Writer := w.uint32 (if value then 1 else 0)

/-- Writes bytes and the zeros that fill them up to a multiple of four. -/
def padded (bytes : Bytes) (w : Writer) : Writer :=
  (w.raw bytes).raw (List.replicate (Bytes.padLength bytes.length) 0)

/-- Writes the length of a list or a string; one too great for its field is written as the
greatest. -/
def count (n : Nat) (w : Writer) : Writer := w.number 4 (min n (UInt32.size - 1))

/-- Writes bytes with their length in front. -/
def counted (bytes : Bytes) (w : Writer) : Writer := (w.count bytes.length).padded bytes

/-- Writes a value that may be absent, behind a truth value that says so. -/
def optional {α : Type} (write : α → Writer → Writer) : Option α → Writer → Writer
  | none, w => w.bool false
  | some x, w => write x (w.bool true)

/-- Writes values one after another. -/
def repeated {α : Type} (write : α → Writer → Writer) (xs : List α) (w : Writer) : Writer :=
  xs.foldl (fun w x => write x w) w

/-- Writes values with their number in front. -/
def list {α : Type} (write : α → Writer → Writer) (xs : List α) (w : Writer) : Writer :=
  (w.count xs.length).repeated write xs

/-- Nothing has been written at first. -/
@[simp] theorem bytes_empty : empty.bytes = [] := rfl

/-- Bytes are written behind those that are there. -/
@[simp]
theorem bytes_raw (bytes : Bytes) (w : Writer) : (w.raw bytes).bytes = w.bytes ++ bytes := by
  simp [raw, Writer.bytes]

end Writer

end LedgerWire
