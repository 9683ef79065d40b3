import LedgerWire.Bytes.Basic
import LedgerWire.Identity.Account
import LedgerWire.Text.Basic
import LedgerWire.Wire.Fault

/-!
# Assets and their codes
-/

/-!
## Asset codes

The code of an asset is one to twelve ASCII letters and digits. It stands in a field of four or
twelve bytes, filled up with zeros on the right; a code that fits the shorter field uses it.
-/

namespace LedgerWire

/-- Whether a byte is an ASCII letter or digit. -/
def AssetCode.isSymbol (b : UInt8) : Bool :=
  (48 ≤ b && b ≤ 57) || (65 ≤ b && b ≤ 90) || (97 ≤ b && b ≤ 122)

/-- An asset code of `shortest` to `longest` characters. -/
structure AssetCode (shortest longest : Nat) where
  /-- The character codes. -/
  symbols : Bytes
  /-- It is not shorter than its field allows. -/
  shortest_le : shortest ≤ symbols.length
  /-- It fits its field. -/
  le_longest : symbols.length ≤ longest
  /-- It has letters and digits only. -/
  alphanumeric : symbols.all AssetCode.isSymbol = true
deriving DecidableEq

namespace AssetCode

/-- The most characters of a code in the shorter field. -/
def shortWidth : Nat := 4

/-- The most characters of a code in the longer field. -/
def longWidth : Nat := 12

variable {shortest longest : Nat}

/-- The code of the given characters. -/
def ofSymbols? (shortest longest : Nat) (symbols : Bytes) : Option (AssetCode shortest longest) :=
  if h : shortest ≤ symbols.length ∧ symbols.length ≤ longest ∧ symbols.all isSymbol = true then
    some ⟨symbols, h.1, h.2.1, h.2.2⟩
  else none

/-- The text of a code. -/
def toText (code : AssetCode shortest longest) : String := Bytes.toLatin code.symbols

/-- The field of a code. -/
def field (code : AssetCode shortest longest) : FixedBytes longest := .padded longest code.symbols

/-- Codes are ordered by their fields. -/
instance : Ord (AssetCode shortest longest) := ⟨fun a b => compare a.field b.field⟩

/-- The code that a text is. -/
def validate (text : String) : Except AssetFault (AssetCode 1 longWidth) :=
  match ofSymbols? 1 longWidth (Bytes.ofText text) with
  | some code => .ok code
  | none => .error (.invalidCode text)

/-- Whether a text is a code. -/
def isValid (text : String) : Bool := (validate text).toOption.isSome

/-- The characters of the code in a field of any width. -/
def unpad (field : Bytes) : Except AssetFault Bytes :=
  let symbols := field.takeWhile (· != 0)
  if !symbols.isEmpty && symbols.all isSymbol && (field.drop symbols.length).all (· == 0) then
    .ok symbols
  else .error (.invalidCode (Utf8.lenient field))

end AssetCode

/-!
## Assets

An asset is the native one or a credit of an issuer, named by a code. The order of assets puts the
native asset first, then credits with a code of the shorter field, then those of the longer one;
credits of one kind are ordered by the field of the code and then by the key of the issuer.
-/

/-- The code of a credit, and who issues it. -/
structure Credit (shortest longest : Nat) where
  /-- The code. -/
  code : AssetCode shortest longest
  /-- The issuer. -/
  issuer : AccountId
deriving DecidableEq

/-- An asset. -/
inductive Asset where
  /-- The asset in which fees are paid. -/
  | native
  /-- A credit with a code of one to four characters. -/
  | alphanum4 (credit : Credit 1 4)
  /-- A credit with a code of five to twelve characters. -/
  | alphanum12 (credit : Credit 5 12)
deriving DecidableEq

namespace Credit
variable {shortest longest : Nat}

/-- Credits are ordered by code, then by issuer. -/
instance : Ord (Credit shortest longest) :=
  ⟨fun a b => (compare a.code b.code).then (compare a.issuer b.issuer)⟩

/-- The text of a credit: the code, a colon and the issuer. -/
def toText (credit : Credit shortest longest) : String :=
  credit.code.toText ++ ":" ++ credit.issuer.toText

/-- A credit on the wire: the field of the code, then the issuer. -/
def codec (shortest longest : Nat) : Codec (Credit shortest longest) :=
  (Codec.pair (.fixed longest) AccountId.codec).check
    (fun (field, issuer) =>
      match AssetCode.unpad field.bytes with
      | .error fault => .error (.asset fault)
      | .ok symbols =>
        match AssetCode.ofSymbols? shortest longest symbols with
        | some code => .ok ⟨code, issuer⟩
        | none => .error (.shortAssetCode (Bytes.toLatin symbols)))
    (fun credit => (credit.code.field, credit.issuer))

end Credit

namespace Asset

/-- The place of the kind of an asset in the order of assets. -/
def rank : Asset → Nat
  | .native => 0
  | .alphanum4 _ => 1
  | .alphanum12 _ => 2

/-- Assets are ordered by kind, then by code, then by issuer. -/
instance : Ord Asset :=
  ⟨fun
    | .alphanum4 a, .alphanum4 b => compare a b
    | .alphanum12 a, .alphanum12 b => compare a b
    | a, b => compare a.rank b.rank⟩

/-- The credit of an issuer under a code, whose length decides the field. -/
def ofCode (code : AssetCode 1 AssetCode.longWidth) (issuer : AccountId) : Asset :=
  if short : code.symbols.length ≤ AssetCode.shortWidth then
    .alphanum4 ⟨⟨code.symbols, code.shortest_le, short, code.alphanumeric⟩, issuer⟩
  else
    .alphanum12 ⟨⟨code.symbols, Nat.lt_of_not_le short, code.le_longest, code.alphanumeric⟩, issuer⟩

/-- The credit of an issuer under the code that a text is. -/
def credit (code : String) (issuer : AccountId) : Except AssetFault Asset := do
  return ofCode (← AssetCode.validate code) issuer

/-- The code of a credit. -/
def code? : Asset → Option String
  | .native => none
  | .alphanum4 credit => some credit.code.toText
  | .alphanum12 credit => some credit.code.toText

/-- The issuer of a credit. -/
def issuer? : Asset → Option AccountId
  | .native => none
  | .alphanum4 credit => some credit.issuer
  | .alphanum12 credit => some credit.issuer

/-- Whether the asset is the native one. -/
def isNative : Asset → Bool
  | .native => true
  | _ => false

/-- The text of an asset: `native`, or the code, a colon and the issuer. -/
def toText : Asset → String
  | .native => "native"
  | .alphanum4 credit => credit.toText
  | .alphanum12 credit => credit.toText

/-- The text of an asset in diagnostics. -/
def debugText (asset : Asset) : String := "Asset(" ++ asset.toText ++ ")"

/-- The asset with the given text. The issuer is examined before the code. -/
def ofText (text : String) : Except AssetFault Asset :=
  if text = "native" then .ok .native
  else
    match Text.splitFirst? ':' text.toList with
    | none => .error (.invalidText text)
    | some (code, issuer) =>
      match AccountId.ofText (String.ofList issuer) with
      | .ok issuer => credit (String.ofList code) issuer
      | .error fault => .error (.invalidIssuer fault)

/-- The arms of the union of assets. -/
def arms : List (Arm Asset) := [
  .void 0 .native isNative,
  ⟨1, Credit 1 4, Credit.codec 1 4, .alphanum4, fun | .alphanum4 c => some c | _ => none⟩,
  ⟨2, Credit 5 12, Credit.codec 5 12, .alphanum12, fun | .alphanum12 c => some c | _ => none⟩]

/-- An asset on the wire. -/
def codec : Codec Asset := .union "AssetType" arms

end Asset

end LedgerWire
