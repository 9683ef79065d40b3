import LedgerWire.Text.Basic
import LedgerWire.Transaction.Fault

/-!
# Amounts

The ledger counts assets in stroops, ten million to the unit, in 64 bits with a sign. In text an
amount is a decimal with at most seven places; written out it always has seven.
-/

namespace LedgerWire.Amount

/-- A sum, if there is room for it. -/
def add? (a b : Int64) : Option Int64 :=
  if a.toBitVec.saddOverflow b.toBitVec then none else some (a + b)

/-- A product, if there is room for it. -/
def mul? (a b : Int64) : Option Int64 :=
  if a.toBitVec.smulOverflow b.toBitVec then none else some (a * b)

/-- The number that a run of digits writes, if there is room for it. -/
def ofDigits? (cs : List Char) : Option Int64 :=
  let n := Text.ofDigits cs
  if n < 0x8000000000000000 then some (Int64.ofNat n) else none

/-- The whole and the fractional digits of a decimal without sign. A point needs digits on both
sides of it. -/
def parts? (cs : List Char) : Option (List Char × List Char) :=
  let (whole, fraction, pointed) :=
    match Text.splitFirst? '.' cs with
    | some (whole, fraction) => (whole, fraction, true)
    | none => (cs, [], false)
  if whole.isEmpty || !whole.all Text.isDigit || !fraction.all Text.isDigit ||
      (pointed && fraction.isEmpty) then none
  else some (whole, fraction)

/-- The stroops of the digits behind the point, the first of them at a given place. -/
def fractionStroops : (place : Nat) → List Char → Nat
  | _, [] => 0
  | place, c :: cs =>
    (c.toNat - 48) * Nat.pow 10 (Limits.amountDecimals - 1 - place) +
      fractionStroops (place + 1) cs

/-- The stroops of a decimal without sign and with at most seven places. -/
def stroops? (cs : List Char) : Option Int64 := do
  let (whole, fraction) ← parts? cs
  if Limits.amountDecimals < fraction.length then none
  else
    let units ← ofDigits? whole
    add? (← mul? units (Int64.ofNat Limits.stroopsPerUnit))
      (Int64.ofNat (fractionStroops 0 fraction))

/-- The amount that a text writes. -/
def ofText (text : String) : Except TransactionFault Int64 :=
  match stroops? text.toList with
  | some stroops => .ok stroops
  | none => .error (.invalidAmount text)

/-- The seven digits of a number below ten million. -/
def places (n : Nat) : List Char :=
  let digits := Nat.toDigits 10 n
  List.replicate (Limits.amountDecimals - digits.length) '0' ++ digits

/-- The text of a number of stroops, with seven places. -/
def unsignedText (stroops : Nat) : String :=
  String.ofList (Nat.toDigits 10 (stroops / Limits.stroopsPerUnit) ++ '.' ::
    places (stroops % Limits.stroopsPerUnit))

/-- The text of an amount. -/
def toText (stroops : Int64) : String :=
  let sign := if stroops.toInt < 0 then "-" else ""
  sign ++ unsignedText stroops.toInt.natAbs

end LedgerWire.Amount
