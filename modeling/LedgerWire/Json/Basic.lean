import LedgerWire.Bytes.Encodings
import LedgerWire.Text.Basic

/-!
# JSON texts

JSON values are read from texts and written as texts; the literals of strings come first.
-/

/-!
## String literals of JSON

A text between quotation marks, with escapes (RFC 8259). Characters may be given by their 16-bit
units, so a literal can hold half of a surrogate pair; such a literal is well formed but has no
text.
-/

namespace LedgerWire.Json

/-- The character behind a backslash, for the escapes of two characters. -/
def shortEscapes : List (Char × Char) :=
  [('\x22', '\x22'), ('\\', '\\'), ('/', '/'), ('b', '\x08'), ('f', '\x0c'), ('n', '\n'),
    ('r', '\r'), ('t', '\t')]

/-- The unit that four hexadecimal digits give. -/
def unit? (a b c d : Char) : Option Nat := do
  return (((← Hex.digitValue? a) * 16 + (← Hex.digitValue? b)) * 16 +
    (← Hex.digitValue? c)) * 16 + (← Hex.digitValue? d)

/-- The units of a literal behind its first quotation mark, and what follows the last mark. A
character that is written as itself counts as one unit, whatever its size. -/
def units? : List Char → Option (List Nat × List Char)
  | [] => none
  | '\x22' :: rest => some ([], rest)
  | '\\' :: 'u' :: a :: b :: c :: d :: rest => do
    let unit ← unit? a b c d
    let (units, rest) ← units? rest
    return (unit :: units, rest)
  | '\\' :: c :: rest => do
    let escaped ← shortEscapes.lookup c
    let (units, rest) ← units? rest
    return (escaped.toNat :: units, rest)
  | c :: rest => do
    if c.toNat < 0x20 || c == '\\' then none
    let (units, rest) ← units? rest
    return (c.toNat :: units, rest)

/-- Whether a unit is the first half of a surrogate pair. -/
def isHighHalf (unit : Nat) : Bool := 0xd800 ≤ unit && unit < 0xdc00

/-- Whether a unit is the second half of a surrogate pair. -/
def isLowHalf (unit : Nat) : Bool := 0xdc00 ≤ unit && unit < 0xe000

/-- The characters of a list of units, unless a half of a surrogate pair stands alone. -/
def joined? : List Nat → Option (List Char)
  | [] => some []
  | [u] => if isHighHalf u || isLowHalf u then none else some [Char.ofNat u]
  | u :: v :: rest =>
    if isHighHalf u && isLowHalf v then do
      return Char.ofNat (0x10000 + (u - 0xd800) * 0x400 + (v - 0xdc00)) :: (← joined? rest)
    else if isHighHalf u || isLowHalf u then none
    else do return Char.ofNat u :: (← joined? (v :: rest))

/-- A character as it stands in a literal: controls, the quotation mark and the backslash are
escaped, in two characters where that is possible. -/
def literalChar (c : Char) : List Char :=
  if c == '\x22' || c == '\\' then ['\\', c]
  else if 0x20 ≤ c.toNat then [c]
  else
    match shortEscapes.find? (·.2 == c) with
    | some (letter, _) => ['\\', letter]
    | none => ['\\', 'u', '0', '0', Hex.digit (c.toNat / 16), Hex.digit (c.toNat % 16)]

/-- The literal of a text. -/
def literal (text : String) : String :=
  String.ofList ('\x22' :: (text.toList.flatMap literalChar ++ ['\x22']))

end LedgerWire.Json

/-!
## JSON

JSON texts (RFC 8259) as values, read strictly and written without white space. The members of an
object keep their order, and a name may stand there more than once.
-/

namespace LedgerWire

/-- A JSON value. -/
inductive Json where
  /-- The value `null`. -/
  | null
  /-- A truth value. -/
  | bool (value : Bool)
  /-- A number without fraction or exponent, other than `-0`. -/
  | integer (value : Int)
  /-- Any other number, as it is written. -/
  | decimal (text : String)
  /-- A text, or none where half of a surrogate pair stands alone. -/
  | string (text : Option String)
  /-- A list of values. -/
  | array (items : List Json)
  /-- A list of named values. -/
  | object (members : List (Option String × Json))

namespace Json

/-- Whether a character is white space between two tokens. -/
def isBlank (c : Char) : Bool := c == ' ' || c == '\n' || c == '\r' || c == '\t'

/-- The input from the next token on. -/
def skipBlank (cs : List Char) : List Char := cs.dropWhile isBlank

/-- A string literal behind its first quotation mark. -/
def string? (cs : List Char) : Option (Option String × List Char) := do
  let (units, rest) ← units? cs
  return ((joined? units).map String.ofList, rest)

/-- The fraction of a number, which may be absent: a point and at least one digit. -/
def fraction? : List Char → Option (List Char × List Char)
  | '.' :: cs =>
    let (digits, rest) := cs.span Text.isDigit
    if digits.isEmpty then none else some ('.' :: digits, rest)
  | cs => some ([], cs)

/-- The exponent of a number, which may be absent: a letter, perhaps a sign, and at least one
digit. -/
def exponent? : List Char → Option (List Char × List Char)
  | [] => some ([], [])
  | c :: cs =>
    if c == 'e' || c == 'E' then
      let (sign, cs) :=
        match cs with
        | '+' :: cs => (['+'], cs)
        | '-' :: cs => (['-'], cs)
        | cs => ([], cs)
      let (digits, rest) := cs.span Text.isDigit
      if digits.isEmpty then none else some (c :: (sign ++ digits), rest)
    else some ([], c :: cs)

/-- A number. Its whole part is zero or starts with another digit than zero. -/
def number? (cs : List Char) : Option (Json × List Char) := do
  let (sign, cs) :=
    match cs with
    | '-' :: cs => (['-'], cs)
    | cs => ([], cs)
  let (whole, cs) := cs.span Text.isDigit
  if whole.isEmpty || (1 < whole.length && whole.head? == some '0') then none
  let (fraction, cs) ← fraction? cs
  let (exponent, cs) ← exponent? cs
  let plain := fraction.isEmpty && exponent.isEmpty
  let value := Text.ofDigits whole
  if plain && sign.isEmpty then return (.integer value, cs)
  else if plain && value != 0 then return (.integer (-value), cs)
  else return (.decimal (String.ofList (sign ++ whole ++ fraction ++ exponent)), cs)

mutual

/-- The next value, and what follows it. Every two calls read a character, so twice the length of
the input is fuel enough. -/
def value? : (fuel : Nat) → List Char → Option (Json × List Char)
  | 0, _ => none
  | fuel + 1, cs =>
    match skipBlank cs with
    | 'n' :: 'u' :: 'l' :: 'l' :: rest => some (.null, rest)
    | 't' :: 'r' :: 'u' :: 'e' :: rest => some (.bool true, rest)
    | 'f' :: 'a' :: 'l' :: 's' :: 'e' :: rest => some (.bool false, rest)
    | '\x22' :: rest => (string? rest).map fun (text, rest) => (.string text, rest)
    | '[' :: rest =>
      match skipBlank rest with
      | ']' :: rest => some (.array [], rest)
      | _ => (items? fuel rest).map fun (items, rest) => (.array items, rest)
    | '\x7b' :: rest =>
      match skipBlank rest with
      | '\x7d' :: rest => some (.object [], rest)
      | _ => (members? fuel rest).map fun (members, rest) => (.object members, rest)
    | cs => number? cs

/-- The values of a list behind its opening bracket, at least one, and what follows the closing
bracket. -/
def items? : (fuel : Nat) → List Char → Option (List Json × List Char)
  | 0, _ => none
  | fuel + 1, cs => do
    let (item, rest) ← value? fuel cs
    match skipBlank rest with
    | ']' :: rest => return ([item], rest)
    | ',' :: rest =>
      let (items, rest) ← items? fuel rest
      return (item :: items, rest)
    | _ => none

/-- The members of an object behind its opening brace, at least one, and what follows the closing
brace. -/
def members? : (fuel : Nat) → List Char → Option (List (Option String × Json) × List Char)
  | 0, _ => none
  | fuel + 1, cs =>
    match skipBlank cs with
    | '\x22' :: rest => do
      let (name, rest) ← string? rest
      match skipBlank rest with
      | ':' :: rest =>
        let (value, rest) ← value? fuel rest
        match skipBlank rest with
        | '\x7d' :: rest => return ([(name, value)], rest)
        | ',' :: rest =>
          let (members, rest) ← members? fuel rest
          return ((name, value) :: members, rest)
        | _ => none
      | _ => none
    | _ => none

end

/-- The value that a text writes, with white space around it. -/
def ofText? (text : String) : Option Json := do
  let cs := text.toList
  let (value, rest) ← value? (2 * cs.length + 2) cs
  if (skipBlank rest).isEmpty then some value else none

mutual

/-- The text of a value, without white space. A string without a text is written as `null`. -/
def toText : Json → String
  | .null => "null"
  | .bool value => if value then "true" else "false"
  | .integer value => toString value
  | .decimal text => text
  | .string text => (text.map literal).getD "null"
  | .array items => "[" ++ ",".intercalate (itemTexts items) ++ "]"
  | .object members => "\x7b" ++ ",".intercalate (memberTexts members) ++ "\x7d"

/-- The texts of the values of a list. -/
def itemTexts : List Json → List String
  | [] => []
  | item :: items => toText item :: itemTexts items

/-- The texts of the members of an object. -/
def memberTexts : List (Option String × Json) → List String
  | [] => []
  | (name, value) :: members =>
    ((name.map literal).getD "null" ++ ":" ++ toText value) :: memberTexts members

end

end Json

end LedgerWire
