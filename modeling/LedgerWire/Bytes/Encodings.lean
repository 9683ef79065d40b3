import LedgerWire.Bytes.Basic

/-!
# Byte strings as text

The three encodings in which byte strings stand in texts: hexadecimal digits, and the two encodings
of RFC 4648 that the ledger uses. All of them are read strictly.
-/

/-!
## Hexadecimal text

Two digits a byte, most significant digit first. Writing uses lower-case digits; reading accepts
either case and refuses an odd number of digits and every other character.
-/

namespace LedgerWire.Hex

/-- The lower-case digit of a value below 16. -/
def digit (value : Nat) : Char :=
  if value < 10 then Char.ofNat (48 + value) else Char.ofNat (87 + value)

/-- The value of a hexadecimal digit of either case. -/
def digitValue? (c : Char) : Option Nat :=
  if '0' ≤ c ∧ c ≤ '9' then some (c.toNat - 48)
  else if 'a' ≤ c ∧ c ≤ 'f' then some (c.toNat - 87)
  else if 'A' ≤ c ∧ c ≤ 'F' then some (c.toNat - 55)
  else none

/-- The digits of a byte string. -/
def digits (bytes : Bytes) : List Char :=
  bytes.flatMap fun b => [digit (b.toNat / 16), digit (b.toNat % 16)]

/-- The lower-case hexadecimal text of a byte string. -/
def encode (bytes : Bytes) : String := String.ofList (digits bytes)

/-- Reads pairs of digits. -/
def ofDigits? : List Char → Option Bytes
  | [] => some []
  | [_] => none
  | hi :: lo :: rest => do
    let h ← digitValue? hi
    let l ← digitValue? lo
    let bytes ← ofDigits? rest
    return UInt8.ofNat (16 * h + l) :: bytes

/-- The byte string written by a hexadecimal text. -/
def decode? (text : String) : Option Bytes := ofDigits? text.toList

/-- The byte string of length `n` written by a hexadecimal text of `2 * n` digits. -/
def decodeFixed? (n : Nat) (text : String) : Option (FixedBytes n) :=
  (decode? text).bind (FixedBytes.ofBytes? n)

end LedgerWire.Hex

/-!
## Base32

The unpadded base32 encoding of RFC 4648: five bits a symbol, from the alphabet `A`–`Z`, `2`–`7`.
Reading is strict. A symbol that adds no byte is refused, and the bits of the last symbol that no
byte uses must be zero.
-/

namespace LedgerWire.Base32

/-- The character code of the symbol of a value below 32. -/
def symbol (value : Nat) : UInt8 := UInt8.ofNat (if value < 26 then 65 + value else 24 + value)

/-- The value of a symbol, given by its character code. -/
def value? (symbol : UInt8) : Option Nat :=
  if 65 ≤ symbol ∧ symbol ≤ 90 then some (symbol.toNat - 65)
  else if 50 ≤ symbol ∧ symbol ≤ 55 then some (symbol.toNat - 24)
  else none

/-- The symbols of a byte string. -/
def encode (bytes : Bytes) : Bytes := (Bits.toDigits 5 (Bits.ofBytes bytes)).map symbol

/-- The byte string written by symbols. -/
def decode? (symbols : Bytes) : Option Bytes := do
  let values ← symbols.mapM value?
  let (bytes, unused) := Bits.toBytes (Bits.ofDigits 5 values)
  if unused.length < 5 ∧ unused.any id = false then return bytes else none

end LedgerWire.Base32

/-!
## Base64

The base64 encoding of RFC 4648 with its standard alphabet: six bits a symbol, and as many `=` at
the end as fill the last four places. Reading is strict. Padding is required, the unused bits of
the last symbol must be zero, and the first fault found is reported with its place.
-/

namespace LedgerWire.Base64

/-- Why a text is not the base64 form of a byte string. -/
inductive Fault where
  /-- A byte that is no symbol stands at the offset. -/
  | invalidSymbol (offset : Nat) (byte : UInt8)
  /-- The symbols are one too many or too few to make whole bytes. -/
  | invalidLength (length : Nat)
  /-- The last symbol, at the offset, carries bits that no byte uses. -/
  | invalidLastSymbol (offset : Nat) (byte : UInt8)
  /-- The last group is not filled up to four places. -/
  | invalidPadding
deriving DecidableEq, Repr

/-- The wording of a fault. -/
def Fault.message : Fault → String
  | .invalidSymbol offset byte => s!"Invalid symbol {byte}, offset {offset}."
  | .invalidLength length => s!"Invalid input length: {length}"
  | .invalidLastSymbol offset byte => s!"Invalid last symbol {byte}, offset {offset}."
  | .invalidPadding => "Invalid padding"

/-- The character code of `=`. -/
def pad : UInt8 := 61

/-- The character code of the symbol of a value below 64. -/
def symbol (value : Nat) : UInt8 :=
  if value < 26 then UInt8.ofNat (65 + value)
  else if value < 52 then UInt8.ofNat (71 + value)
  else if value < 62 then UInt8.ofNat (value - 4)
  else if value = 62 then 43 else 47

/-- The value of a symbol, given by its character code. -/
def value? (symbol : UInt8) : Option Nat :=
  if 65 ≤ symbol ∧ symbol ≤ 90 then some (symbol.toNat - 65)
  else if 97 ≤ symbol ∧ symbol ≤ 122 then some (symbol.toNat - 71)
  else if 48 ≤ symbol ∧ symbol ≤ 57 then some (symbol.toNat + 4)
  else if symbol = 43 then some 62
  else if symbol = 47 then some 63
  else none

/-- The base64 form of a byte string, as character codes. -/
def encodeBytes (bytes : Bytes) : Bytes :=
  let symbols := (Bits.toDigits 6 (Bits.ofBytes bytes)).map symbol
  symbols ++ List.replicate (Bytes.padLength symbols.length) pad

/-- The base64 text of a byte string. -/
def encode (bytes : Bytes) : String := Bytes.toLatin (encodeBytes bytes)

/-- The values of bytes that must all be symbols, the first of them standing at `offset`. -/
def symbolValues (offset : Nat) : Bytes → Except Fault (List Nat)
  | [] => .ok []
  | b :: rest =>
    match value? b with
    | none => .error (.invalidSymbol offset b)
    | some v => do
      let vs ← symbolValues (offset + 1) rest
      return v :: vs

/-- The values of the symbols of the last group, with its number of `=`. The group starts at
`offset`, and `place` of its places have been read. A `=` may stand in the last two places only,
and nothing but `=` follows one. -/
def lastGroup (offset : Nat) : (place : Nat) → (firstPad : Option Nat) → Bytes →
    Except Fault (List Nat × Nat)
  | _, _, [] => .ok ([], 0)
  | place, firstPad, b :: rest =>
    if b = pad then
      if place < 2 then .error (.invalidSymbol (offset + place) b)
      else do
        let (vs, pads) ← lastGroup offset (place + 1) (some (firstPad.getD place)) rest
        return (vs, pads + 1)
    else
      match firstPad with
      | some first => .error (.invalidSymbol (offset + first) pad)
      | none =>
        match value? b with
        | none => .error (.invalidSymbol (offset + place) b)
        | some v => do
          let (vs, pads) ← lastGroup offset (place + 1) none rest
          return (v :: vs, pads)

/-- The byte string written by full groups of symbols and a last group, which starts at `split`. -/
def decodeGroups (split : Nat) (text : Bytes) : Except Fault Bytes := do
  let leading ← symbolValues 0 (text.take split)
  let (last, pads) ← lastGroup split 0 none (text.drop split)
  if last.length < 2 then throw (.invalidLength (split + last.length))
  if last.length + pads ≠ 4 then throw .invalidPadding
  let (bytes, rest) := Bits.toBytes (Bits.ofDigits 6 (leading ++ last))
  if rest.any id then
    let offset := split + last.length - 1
    throw (.invalidLastSymbol offset (text.getD offset 0))
  return bytes

/-- The byte string written by a base64 text, given as character codes. A text with a single
character after its last full group is refused for that character first, when it is neither a
symbol nor `=`. -/
def decodeBytes (text : Bytes) : Except Fault Bytes := do
  let n := text.length
  if n = 0 then return []
  if n % 4 = 1 then
    if let some b := text.getLast? then
      if b ≠ pad ∧ (value? b).isNone then throw (.invalidSymbol (n - 1) b)
  decodeGroups (if n % 4 = 0 then n - 4 else n - n % 4) text

/-- The byte string written by a base64 text. -/
def decode (text : String) : Except Fault Bytes := decodeBytes (Bytes.ofText text)

end LedgerWire.Base64
