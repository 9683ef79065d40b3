import LedgerWire.Wire.Fault

/-!
# Reading wire data

The wire format is External Data Representation (RFC 4506): integers of four or eight bytes in
big-endian order, byte strings filled up with zeros to a multiple of four, and a length in front of
whatever has no fixed length. Reading is strict. Padding must be zero, a length must not exceed
what its type allows, and nothing is read beyond the input.

A reader stands at a position of its input and moves forward only. A step that fails leaves it
where the fault was found.
-/

namespace LedgerWire

/-- A position in an input, and the input from there on. -/
structure Reader where
  /-- The number of bytes in front of the position. -/
  position : Nat
  /-- The bytes behind it. -/
  rest : Bytes
deriving DecidableEq

namespace Reader

/-- The reader at the start of an input. -/
def ofBytes (input : Bytes) : Reader := ⟨0, input⟩

/-- The number of bytes not yet read. -/
def remaining (r : Reader) : Nat := r.rest.length

end Reader

/-- A step of reading: a value or a fault, and the reader after it in either case. -/
abbrev Decode (α : Type) := EStateM WireFault Reader α

namespace Decode

/-- Fails because the bytes break a rule of the format. -/
def malformed {α : Type} (fault : Malformed) : Decode α := throw (.malformed fault)

/-- Fails because the value is not allowed. -/
def forbidden {α : Type} (fault : Forbidden) : Decode α := throw (.forbidden fault)

/-- The next `n` bytes. -/
def take (n : Nat) : Decode Bytes := fun r =>
  if n ≤ r.remaining then .ok (r.rest.take n) ⟨r.position + n, r.rest.drop n⟩
  else .error (.malformed (.truncated n r.remaining)) r

/-- The next `n` bytes as a number. -/
def number (n : Nat) : Decode Nat := do return Bytes.toNat (← take n)

/-- An unsigned integer of four bytes. -/
def uint32 : Decode UInt32 := do return UInt32.ofNat (← number 4)

/-- A signed integer of four bytes, in two's complement. -/
def int32 : Decode Int32 := do return (← uint32).toInt32

/-- An unsigned integer of eight bytes. -/
def uint64 : Decode UInt64 := do return UInt64.ofNat (← number 8)

/-- A signed integer of eight bytes, in two's complement. -/
def int64 : Decode Int64 := do return (← uint64).toInt64

/-- A truth value, which is the integer 0 or 1. -/
def bool : Decode Bool := do
  let n ← uint32
  if n = 0 then return false
  else if n = 1 then return true
  else malformed (.invalidBool n)

/-- The padding behind `length` bytes, which must be zero. -/
def padding (length : Nat) : Decode Unit := do
  let start := (← get).position
  let bytes ← take (Bytes.padLength length)
  match bytes.findIdx? (· != 0) with
  | some i => malformed (.nonZeroPadding (start + i))
  | none => return ()

/-- Exactly `n` bytes and their padding. -/
def padded (n : Nat) : Decode Bytes := do
  let bytes ← take n
  padding n
  return bytes

/-- Exactly `n` bytes and their padding, with their length. -/
def fixed (n : Nat) : Decode (FixedBytes n) := do return FixedBytes.padded n (← padded n)

/-- The length in front of a list or a string. It is at most `max`, and the input has at least as
many bytes left. -/
def length (max : Nat) : Decode Nat := do
  let n := (← uint32).toNat
  if max < n then malformed (.lengthExceedsMax n max)
  let remaining := (← get).remaining
  if remaining < n then malformed (.truncated n remaining)
  return n

/-- At most `max` bytes, with their length in front. -/
def counted (max : Nat) : Decode Bytes := do padded (← length max)

/-- A value that may be absent, behind a truth value that says so. -/
def optional {α : Type} (value : Decode α) : Decode (Option α) := do
  if ← bool then return some (← value) else return none

/-- `count` values one after another. -/
def repeated {α : Type} (value : Decode α) : (count : Nat) → Decode (List α)
  | 0 => return []
  | count + 1 => do
    let x ← value
    let xs ← repeated value count
    return x :: xs

/-- At most `max` values, with their number in front. -/
def list {α : Type} (max : Nat) (value : Decode α) : Decode (List α) := do
  repeated value (← length max)

/-- The end of the input. -/
def finish : Decode Unit := do
  let remaining := (← get).remaining
  if remaining = 0 then return () else malformed (.trailingBytes remaining)

/-- The value of a whole input, without the reader. -/
def run {α : Type} (value : Decode α) (input : Bytes) : Except WireFault α :=
  match value (.ofBytes input) with
  | .ok x _ => .ok x
  | .error fault _ => .error fault

/-- The value that fills a whole input. -/
def runAll {α : Type} (value : Decode α) (input : Bytes) : Except WireFault α :=
  run (do let x ← value; finish; return x) input

end Decode

end LedgerWire
