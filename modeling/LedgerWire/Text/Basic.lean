import LedgerWire.Bytes.Basic

/-!
# Characters and texts

What is asked of texts before they are read: white space at the ends, digits and numbers, the cut at
a character, and UTF-8.
-/

/-!
## White space around a text

The characters of Unicode's property `White_Space`, and the text without those at its two ends.
-/

namespace LedgerWire.Text

/-- Whether a character has the property `White_Space`. -/
def isBlank (c : Char) : Bool :=
  let n := c.toNat
  (0x9 ≤ n && n ≤ 0xd) || n == 0x20 || n == 0x85 || n == 0xa0 || n == 0x1680 ||
    (0x2000 ≤ n && n ≤ 0x200a) || n == 0x2028 || n == 0x2029 || n == 0x202f || n == 0x205f ||
    n == 0x3000

/-- The characters without the blank ones at the end. -/
def dropBlankEnd (cs : List Char) : List Char := (cs.reverse.dropWhile isBlank).reverse

/-- The text without white space at either end. -/
def trim (text : String) : String := String.ofList (dropBlankEnd (text.toList.dropWhile isBlank))

end LedgerWire.Text

/-!
## Decimal digits

Runs of ASCII digits as natural numbers, and the cut of a text at the first occurrence of a
character.
-/

namespace LedgerWire.Text

/-- Whether a character is an ASCII digit. -/
def isDigit (c : Char) : Bool := '0' ≤ c && c ≤ '9'

/-- The number that a run of digits writes. -/
def ofDigits (cs : List Char) : Nat := cs.foldl (fun n c => 10 * n + (c.toNat - 48)) 0

/-- The number that a run of at least one digit writes. -/
def number? (cs : List Char) : Option Nat :=
  if !cs.isEmpty && cs.all isDigit then some (ofDigits cs) else none

/-- The characters before and after the first occurrence of a character, if it occurs. -/
def splitFirst? (mark : Char) : List Char → Option (List Char × List Char)
  | [] => none
  | c :: cs =>
    if c = mark then some ([], cs)
    else (splitFirst? mark cs).map fun (before, after) => (c :: before, after)

/-- The parts of a text between the occurrences of a character. -/
def splitAll (mark : Char) : List Char → List (List Char)
  | [] => [[]]
  | c :: cs =>
    if c = mark then [] :: splitAll mark cs
    else
      match splitAll mark cs with
      | [] => [[c]]
      | part :: parts => (c :: part) :: parts

end LedgerWire.Text

/-!
## UTF-8

Byte strings read as UTF-8 (RFC 3629). A strict reading names the first place where no well-formed
sequence stands; a lenient one puts U+FFFD in place of each longest start of a sequence that does
not go on.
-/

namespace LedgerWire.Utf8

/-- The first place at which a byte string is not UTF-8. -/
inductive Defect where
  /-- The string ends inside a sequence that is well formed so far. -/
  | incomplete (offset : Nat)
  /-- The bytes from the offset start no sequence beyond the given length. -/
  | invalid (offset length : Nat)
deriving DecidableEq, Repr

/-- The wording of a defect. -/
def Defect.message : Defect → String
  | .incomplete offset => s!"incomplete utf-8 byte sequence from index {offset}"
  | .invalid offset length =>
    s!"invalid utf-8 sequence of {length} bytes from index {offset}"

/-- What stands at the front of a byte string. -/
inductive Head where
  /-- A well-formed sequence of the given length. -/
  | sequence (length : Nat)
  /-- The longest start of a sequence has the given length, and another byte follows it. -/
  | broken (length : Nat)
  /-- The string ends inside a sequence. -/
  | cut
deriving DecidableEq

/-- The ranges in which the bytes after a leading byte lie, if the byte can lead. -/
def following? (lead : UInt8) : Option (List (UInt8 × UInt8)) :=
  if lead ≤ 0x7f then some []
  else if 0xc2 ≤ lead ∧ lead ≤ 0xdf then some [(0x80, 0xbf)]
  else if lead = 0xe0 then some [(0xa0, 0xbf), (0x80, 0xbf)]
  else if lead = 0xed then some [(0x80, 0x9f), (0x80, 0xbf)]
  else if 0xe1 ≤ lead ∧ lead ≤ 0xef then some [(0x80, 0xbf), (0x80, 0xbf)]
  else if lead = 0xf0 then some [(0x90, 0xbf), (0x80, 0xbf), (0x80, 0xbf)]
  else if lead = 0xf4 then some [(0x80, 0x8f), (0x80, 0xbf), (0x80, 0xbf)]
  else if 0xf1 ≤ lead ∧ lead ≤ 0xf3 then some [(0x80, 0xbf), (0x80, 0xbf), (0x80, 0xbf)]
  else none

/-- Follows a sequence of which `length` bytes have been seen. -/
def follow : (length : Nat) → List (UInt8 × UInt8) → Bytes → Head
  | length, [], _ => .sequence length
  | _, _ :: _, [] => .cut
  | length, (low, high) :: ranges, b :: bytes =>
    if low ≤ b ∧ b ≤ high then follow (length + 1) ranges bytes else .broken length

/-- What stands at the front of the byte string `lead :: bytes`. -/
def head (lead : UInt8) (bytes : Bytes) : Head :=
  match following? lead with
  | none => .broken 1
  | some ranges => follow 1 ranges bytes

/-- The first defect after the next `skip` bytes, which end a sequence already seen. -/
def defectFrom : (offset skip : Nat) → Bytes → Option Defect
  | _, _, [] => none
  | offset, skip + 1, _ :: bytes => defectFrom (offset + 1) skip bytes
  | offset, 0, b :: bytes =>
    match head b bytes with
    | .sequence length => defectFrom (offset + 1) (length - 1) bytes
    | .broken length => some (.invalid offset length)
    | .cut => some (.incomplete offset)

/-- The first defect of a byte string. -/
def defect? (bytes : Bytes) : Option Defect := defectFrom 0 0 bytes

/-- The text that a byte string encodes, or its first defect. -/
def decode (bytes : Bytes) : Except Defect String :=
  match String.fromUTF8? ⟨bytes.toArray⟩ with
  | some text => .ok text
  | none => .error ((defect? bytes).getD (.incomplete bytes.length))

/-- The character of a well-formed sequence of the given length. -/
def character (length : Nat) (sequence : Bytes) : Char :=
  match sequence with
  | [] => '\x00'
  | lead :: tail =>
    let lowBits := if length ≤ 1 then 128 else 1 <<< (7 - length)
    Char.ofNat (tail.foldl (fun n b => 64 * n + b.toNat % 64) (lead.toNat % lowBits))

/-- The characters of a byte string after its next `skip` bytes, defects replaced. -/
def lenientFrom : (skip : Nat) → Bytes → List Char
  | _, [] => []
  | skip + 1, _ :: bytes => lenientFrom skip bytes
  | 0, b :: bytes =>
    match head b bytes with
    | .sequence length =>
      character length ((b :: bytes).take length) :: lenientFrom (length - 1) bytes
    | .broken length => '\uFFFD' :: lenientFrom (length - 1) bytes
    | .cut => ['\uFFFD']

/-- The text of a byte string, with U+FFFD in place of each longest start of a sequence that does
not go on. -/
def lenient (bytes : Bytes) : String := String.ofList (lenientFrom 0 bytes)

end LedgerWire.Utf8
