/-!
# Byte strings

Byte strings are lists of bytes, and keys, hashes and hints are byte strings of a fixed length.
Numbers are laid out in big-endian order: the most significant byte comes first, so the order of
the byte strings of one width is the order of the numbers.
-/

namespace LedgerWire

/-- A string of bytes. -/
abbrev Bytes := List UInt8

/-- A string of exactly `n` bytes. -/
structure FixedBytes (n : Nat) where
  /-- The bytes in order. -/
  bytes : Bytes
  /-- There are `n` of them. -/
  length_eq : bytes.length = n
deriving DecidableEq

attribute [simp] FixedBytes.length_eq

namespace Bytes

/-- The UTF-8 encoding of a text. -/
def ofText (text : String) : Bytes := text.toUTF8.data.toList

/-- The ASCII text whose character codes are the given bytes, a byte above 127 being read as the
character of that code point. -/
def toLatin (bytes : Bytes) : String := String.ofList (bytes.map fun b => Char.ofNat b.toNat)

/-- The lowest `width` bytes of a number, most significant first. -/
def bigEndian : (width : Nat) → Nat → Bytes
  | 0, _ => []
  | width + 1, n => UInt8.ofNat (n / Nat.pow 256 width) :: bigEndian width n

/-- The number whose base-256 digits, most significant first, are the given bytes. -/
def toNat (bytes : Bytes) : Nat := bytes.foldl (fun n b => 256 * n + b.toNat) 0

/-- What a length lacks to the next multiple of four. -/
def padLength (length : Nat) : Nat := (4 - length % 4) % 4

/-- Bytewise exclusive or, as long as the shorter of the two strings. -/
def xor (left right : Bytes) : Bytes := List.zipWith (· ^^^ ·) left right

/-- A number is laid out in as many bytes as it is given. -/
@[simp] theorem length_bigEndian (width n : Nat) : (bigEndian width n).length = width := by
  induction width with
  | zero => rfl
  | succ width ih => rw [bigEndian, List.length_cons, ih]

end Bytes

namespace FixedBytes
variable {n : Nat}

/-- Two strings of one length are equal when their bytes are. -/
theorem ext {a b : FixedBytes n} (h : a.bytes = b.bytes) : a = b := by
  cases a; cases b; cases h; rfl

/-- The given bytes, if there are exactly `n` of them. -/
def ofBytes? (n : Nat) (bytes : Bytes) : Option (FixedBytes n) :=
  if h : bytes.length = n then some ⟨bytes, h⟩ else none

/-- The first `n` bytes of a string, filled up with zeros on the right. -/
def padded (n : Nat) (bytes : Bytes) : FixedBytes n :=
  ⟨bytes.take n ++ List.replicate (n - bytes.length) 0, by simp; omega⟩

/-- The last `n` bytes of a string, filled up with zeros on the right when it is shorter. -/
def lastOf (n : Nat) (bytes : Bytes) : FixedBytes n := padded n (bytes.drop (bytes.length - n))

/-- Strings of one length are ordered as big-endian numbers, that is lexicographically. -/
instance : Ord (FixedBytes n) := ⟨fun a b => compare a.bytes b.bytes⟩

instance : Inhabited (FixedBytes n) := ⟨padded n []⟩

/-- The bytes of a string of a fixed length are such a string again. -/
@[simp] theorem ofBytes?_bytes (a : FixedBytes n) : ofBytes? n a.bytes = some a := by
  simp [ofBytes?, a.length_eq]

end FixedBytes

/-!
## Cutting a list into groups

A list is cut from the left into groups of one size and a shorter rest. Nothing is lost: the groups
and the rest, put back together, are the list.
-/

/-- Cuts a list into groups of `size`, continuing a group already begun; the second component is
the group that the list does not fill. -/
def regroup {α : Type} (size : Nat) : (begun list : List α) → List (List α) × List α
  | begun, [] => ([], begun)
  | begun, x :: list =>
    if begun.length + 1 = size then
      let (groups, rest) := regroup size [] list
      ((begun ++ [x]) :: groups, rest)
    else
      regroup size (begun ++ [x]) list

/-- Cuts a list into groups of `size` from the left, and returns what is left over beside them. -/
def groups {α : Type} (size : Nat) (list : List α) : List (List α) × List α := regroup size [] list

/-- Nothing is lost when a group is continued: what was begun stands in front of the list. -/
theorem regroup_flatten {α : Type} (size : Nat) (begun list : List α) :
    (regroup size begun list).1.flatten ++ (regroup size begun list).2 = begun ++ list := by
  induction list generalizing begun with
  | nil => simp [regroup]
  | cons x list ih =>
    unfold regroup
    split
    · simpa using ih []
    · simpa using ih (begun ++ [x])

/-- The groups and the rest, put back together, are the list. -/
theorem groups_flatten {α : Type} (size : Nat) (list : List α) :
    (groups size list).1.flatten ++ (groups size list).2 = list := by
  simpa [groups] using regroup_flatten size [] list

end LedgerWire

/-!
## Bit strings

The text encodings of RFC 4648 see a byte string as a string of bits, most significant bit first,
and cut it anew into groups of another width.
-/

namespace LedgerWire.Bits

/-- The lowest `width` bits of a number, most significant first. -/
def ofNat : (width : Nat) → Nat → List Bool
  | 0, _ => []
  | width + 1, n => n.testBit width :: ofNat width n

/-- The number whose binary digits, most significant first, are the given bits. -/
def toNat (bits : List Bool) : Nat := bits.foldl (fun n b => 2 * n + b.toNat) 0

/-- Cuts bits into numbers of `width` bits, the last group being filled up with zeros. -/
def toDigits (width : Nat) (bits : List Bool) : List Nat :=
  let (full, rest) := groups width bits
  full.map toNat ++
    if rest.isEmpty then []
    else [toNat (rest ++ List.replicate (width - rest.length) false)]

/-- The bits of numbers of `width` bits each. -/
def ofDigits (width : Nat) (digits : List Nat) : List Bool := digits.flatMap (ofNat width)

/-- The bits of a byte string. -/
def ofBytes (bytes : Bytes) : List Bool := bytes.flatMap fun b => ofNat 8 b.toNat

/-- The whole bytes of a string of bits and the bits left over. -/
def toBytes (bits : List Bool) : Bytes × List Bool :=
  let (full, rest) := groups 8 bits
  (full.map fun g => UInt8.ofNat (toNat g), rest)

end LedgerWire.Bits
