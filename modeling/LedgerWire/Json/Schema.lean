import LedgerWire.Asset.Pool
import LedgerWire.Claim.Basic
import LedgerWire.History.Toid
import LedgerWire.Json.Basic
import LedgerWire.Network
import LedgerWire.Transaction.Preconditions
import LedgerWire.Value.Price

/-!
# JSON forms

A form is the two directions between the values of a type and JSON values. A record has two
shapes in JSON, an object with its members in any order among others, and a list of exactly its
values; it is written as the object.
-/

namespace LedgerWire.Json

/-- The two directions of a JSON form. -/
structure Form (α : Type) where
  /-- The JSON value of a value. -/
  write : α → Json
  /-- The value that a JSON value stands for, if it does. -/
  read : Json → Option α

/-- The members of a record, in order. -/
structure Record (α : Type) where
  /-- The names of the members. -/
  names : List String
  /-- The values of the members. -/
  write : α → List Json
  /-- The record with these values of its members. -/
  read : List Json → Option α

namespace Record
variable {α β : Type}

/-- A record of one member. -/
def single (name : String) (form : Form α) : Record α where
  names := [name]
  write value := [form.write value]
  read
    | [value] => form.read value
    | _ => none

/-- The members of one record in front of those of another. -/
def pair (first : Record α) (second : Record β) : Record (α × β) where
  names := first.names ++ second.names
  write p := first.write p.1 ++ second.write p.2
  read values := do
    let n := first.names.length
    return (← first.read (values.take n), ← second.read (values.drop n))

end Record

namespace Form
variable {α β : Type}

/-- The same form for another type, not all of whose values need be allowed. -/
def map (form : Form α) (into : α → Option β) (back : β → α) : Form β :=
  ⟨fun b => form.write (back b), fun json => (form.read json).bind into⟩

/-- Texts. -/
def text : Form String where
  write text := .string (some text)
  read
    | .string text => text
    | _ => none

/-- Integers from `least` to `greatest`. -/
def integer (least greatest : Int) : Form Int where
  write value := .integer value
  read
    | .integer value => if least ≤ value && value ≤ greatest then some value else none
    | _ => none

/-- Unsigned integers of 32 bits. -/
def uint32 : Form UInt32 :=
  (integer 0 (UInt32.size - 1)).map (fun n => some (UInt32.ofNat n.toNat)) (fun n => n.toNat)

/-- Unsigned integers of 64 bits. -/
def uint64 : Form UInt64 :=
  (integer 0 (UInt64.size - 1)).map (fun n => some (UInt64.ofNat n.toNat)) (fun n => n.toNat)

/-- Signed integers of 32 bits. -/
def int32 : Form Int32 :=
  (integer Int32.minValue.toInt Int32.maxValue.toInt).map (fun n => some (Int32.ofInt n)) Int32.toInt

/-- Signed integers of 64 bits. -/
def int64 : Form Int64 :=
  (integer Int64.minValue.toInt Int64.maxValue.toInt).map (fun n => some (Int64.ofInt n)) Int64.toInt

/-- The values of the named members, each of which must be there exactly once. -/
def members? (names : List String) (members : List (Option String × Json)) :
    Option (List Json) :=
  names.mapM fun name =>
    match members.filter (·.1 == some name) with
    | [(_, value)] => some value
    | _ => none

/-- Records. A member whose name has no text is refused; any other unknown member is ignored. -/
def record (r : Record α) : Form α where
  write value := .object ((r.names.map some).zip (r.write value))
  read
    | .array items => if items.length == r.names.length then r.read items else none
    | .object members =>
      if members.any (·.1.isNone) then none else (members? r.names members).bind r.read
    | _ => none

/-- The JSON text of a value. -/
def encode (form : Form α) (value : α) : String := (form.write value).toText

/-- The value that a JSON text stands for, if it does. -/
def decode? (form : Form α) (text : String) : Option α := (ofText? text).bind form.read

end Form

end LedgerWire.Json

/-!
## JSON forms of the library's types

Values that have a text stand in JSON as that text, positions in the history as their packed form,
and the other values as records. Bounds are not examined.
-/

namespace LedgerWire

/-- Networks, as records of their passphrase. -/
def Network.form : Json.Form Network :=
  (Json.Form.record (.single "passphrase" .text)).map (fun p => some ⟨p⟩) Network.passphrase

/-- Positions in the history, in their packed form. -/
def Toid.form : Json.Form Toid :=
  Json.Form.int64.map (fun n => (Toid.ofInt64 n).toOption) Toid.toInt64

/-- Ranges of positions. -/
def ToidRange.form : Json.Form ToidRange :=
  (Json.Form.record ((Json.Record.single "start" .int64).pair (.single "end" .int64))).map
    (fun (start, stop) => some ⟨start, stop⟩) (fun r => (r.start, r.stop))

/-- Windows of time. -/
def TimeBounds.form : Json.Form TimeBounds :=
  (Json.Form.record ((Json.Record.single "min_time" .uint64).pair (.single "max_time" .uint64))).map
    (fun (min, max) => some ⟨min, max⟩) (fun b => (b.minTime, b.maxTime))

/-- Windows of ledgers. -/
def LedgerBounds.form : Json.Form LedgerBounds :=
  (Json.Form.record
    ((Json.Record.single "min_ledger" .uint32).pair (.single "max_ledger" .uint32))).map
    (fun (min, max) => some ⟨min, max⟩) (fun b => (b.minLedger, b.maxLedger))

/-- Prices. -/
def Price.form : Json.Form Price :=
  (Json.Form.record ((Json.Record.single "n" .int32).pair (.single "d" .int32))).map
    (fun (n, d) => some ⟨n, d⟩) (fun p => (p.n, p.d))

/-- Accounts, as text. -/
def AccountId.form : Json.Form AccountId :=
  Json.Form.text.map (fun text => (AccountId.ofText text).toOption) AccountId.toText

/-- Accounts with or without a number, as text. -/
def MuxedAccount.form : Json.Form MuxedAccount :=
  Json.Form.text.map (fun text => (MuxedAccount.ofText text).toOption) MuxedAccount.toText

/-- Assets, as text. -/
def Asset.form : Json.Form Asset :=
  Json.Form.text.map (fun text => (Asset.ofText text).toOption) Asset.toText

/-- Names of pools, as text. -/
def PoolId.form : Json.Form PoolId :=
  Json.Form.text.map (fun text => (PoolId.ofText text).toOption) PoolId.toText

/-- Names of claimable balances, as text. -/
def BalanceId.form : Json.Form BalanceId :=
  Json.Form.text.map (fun text => (BalanceId.ofText text).toOption) BalanceId.toText

end LedgerWire
