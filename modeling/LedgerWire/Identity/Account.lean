import LedgerWire.StrKey.Body
import LedgerWire.Wire.Codec

/-!
# Accounts

An account is named by its public key. A muxed account is an account with an optional number
beside it, by which the holder of the account tells apart the parties behind it; without a number
it is on the wire and in text the same as the account.
-/

namespace LedgerWire

/-- An account, named by its public key. -/
structure AccountId where
  /-- The public key. -/
  key : FixedBytes 32
deriving DecidableEq

/-- An account with an optional number beside it. -/
structure MuxedAccount where
  /-- The public key. -/
  key : FixedBytes 32
  /-- The number beside it. -/
  id : Option UInt64
deriving DecidableEq

namespace AccountId

/-- Accounts are ordered by their keys. -/
instance : Ord AccountId := ⟨fun a b => compare a.key b.key⟩

/-- The account with the given `G…` text. -/
def ofText (text : String) : Except IdentityFault AccountId :=
  match StrKey.decode32 .accountId text with
  | .ok key => .ok ⟨key⟩
  | .error fault => .error (.strKey fault)

/-- The `G…` text of an account. -/
def toText (account : AccountId) : String := StrKey.encode32 .accountId account.key

/-- The text of an account in diagnostics. -/
def debugText (account : AccountId) : String := "AccountId(" ++ account.toText ++ ")"

/-- An account on the wire: the key type and the key. -/
def codec : Codec AccountId :=
  .union "PublicKeyType" [⟨0, FixedBytes 32, .fixed 32, .mk, fun a => some a.key⟩]

end AccountId

namespace MuxedAccount

/-- Muxed accounts are ordered by key, then by number, an absent number first. -/
instance : Ord MuxedAccount :=
  ⟨fun a b =>
    (compare a.key b.key).then
      (match a.id, b.id with
      | none, none => .eq
      | none, some _ => .lt
      | some _, none => .gt
      | some m, some n => compare m n)⟩

/-- The muxed account of an account, without a number. -/
def ofAccount (account : AccountId) : MuxedAccount := ⟨account.key, none⟩

/-- The account without its number. -/
def account (muxed : MuxedAccount) : AccountId := ⟨muxed.key⟩

/-- Whether there is a number. -/
def isMuxed (muxed : MuxedAccount) : Bool := muxed.id.isSome

/-- The muxed account with the given `G…` or `M…` text. -/
def ofText (text : String) : Except IdentityFault MuxedAccount :=
  match StrKey.kindOf text with
  | .error fault => .error (.strKey fault)
  | .ok .accountId =>
    match StrKey.decode32 .accountId text with
    | .ok key => .ok ⟨key, none⟩
    | .error fault => .error (.strKey fault)
  | .ok .muxedAccount =>
    match StrKey.decodeMuxed text with
    | .ok (key, id) => .ok ⟨key, some id⟩
    | .error fault => .error (.strKey fault)
  | .ok _ => .error (.unsupportedAddress text)

/-- The `G…` text of a muxed account without a number, the `M…` text of one with a number. -/
def toText (muxed : MuxedAccount) : String :=
  match muxed.id with
  | none => StrKey.encode32 .accountId muxed.key
  | some id => StrKey.encodeMuxed muxed.key id

/-- The text of a muxed account in diagnostics. -/
def debugText (muxed : MuxedAccount) : String := "MuxedAccount(" ++ muxed.toText ++ ")"

/-- A muxed account on the wire: the key type, the number if there is one, and the key. -/
def codec : Codec MuxedAccount :=
  .union "CryptoKeyType" [
    ⟨0, FixedBytes 32, .fixed 32, fun key => ⟨key, none⟩,
      fun | ⟨key, none⟩ => some key | _ => none⟩,
    ⟨0x100, UInt64 × FixedBytes 32, .pair .uint64 (.fixed 32), fun (id, key) => ⟨key, some id⟩,
      fun | ⟨key, some id⟩ => some (id, key) | _ => none⟩]

end MuxedAccount

end LedgerWire
