import LedgerWire.Text.Basic
import LedgerWire.Transaction.Fault
import LedgerWire.Wire.Codec

/-!
# Prices

A price is a fraction of two numbers of 32 bits. One that is written as a decimal is approximated in
unsigned numbers of 128 bits, which come first.
-/

/-!
## Wide numbers

Numbers of 128 bits. A sum or a product that has no room in them is either given as missing, or it
breaks the computation off, as a division by zero does.
-/

namespace LedgerWire

/-- Why a computation is broken off. -/
inductive Trap where
  /-- A result has no room. -/
  | overflow
  /-- The divisor is zero. -/
  | divisionByZero
deriving DecidableEq, Repr

/-- A number of 128 bits. -/
abbrev Wide := BitVec 128

namespace Wide

/-- A sum, if there is room for it. -/
def add? (a b : Wide) : Option Wide := if a.uaddOverflow b then none else some (a + b)

/-- A product, if there is room for it. -/
def mul? (a b : Wide) : Option Wide := if a.umulOverflow b then none else some (a * b)

/-- A sum for which there has to be room. -/
def add (a b : Wide) : Except Trap Wide := (add? a b).elim (.error .overflow) .ok

/-- A product for which there has to be room. -/
def mul (a b : Wide) : Except Trap Wide := (mul? a b).elim (.error .overflow) .ok

/-- The whole part of a quotient. -/
def div (a b : Wide) : Except Trap Wide := if b = 0 then .error .divisionByZero else .ok (a / b)

/-- The rest that a division leaves. -/
def mod (a b : Wide) : Except Trap Wide := if b = 0 then .error .divisionByZero else .ok (a % b)

/-- A power of ten. -/
def tenPow : Nat → Except Trap Wide
  | 0 => .ok 1
  | n + 1 => do mul (← tenPow n) 10

/-- The number that a run of digits writes. -/
def ofDigits (cs : List Char) : Except Trap Wide :=
  cs.foldlM (fun n c => do add (← mul n 10) (BitVec.ofNat 128 (c.toNat - 48))) 0

end Wide

/-!
## Prices

A price is a fraction of two 32-bit integers. A decimal text is turned into the last convergent of
its continued fraction that has room in the two integers, which is the decimal itself whenever that
fits.
-/

/-- A price: numerator and denominator. -/
structure Price where
  /-- The numerator. -/
  n : Int32
  /-- The denominator. -/
  d : Int32
deriving DecidableEq

namespace Price

/-- The greatest numerator and denominator. -/
def bound : Nat := 0x7FFFFFFF

/-- Two convergents of a continued fraction that follow each other, as numerators and
denominators. -/
structure Convergents where
  (lastN lastD n d : Wide)
deriving DecidableEq

namespace Convergents

/-- The convergents before the first term. -/
def start : Convergents := ⟨0, 1, 1, 0⟩

/-- The convergents after one more term, if there is room for them and they are within the
bound. -/
def next? (c : Convergents) (term : Wide) : Option Convergents := do
  let n ← Wide.add? (← Wide.mul? term c.n) c.lastN
  let d ← Wide.add? (← Wide.mul? term c.d) c.lastD
  if n.toNat ≤ bound ∧ d.toNat ≤ bound then some ⟨c.n, c.d, n, d⟩ else none

end Convergents

/-- An approximation under way: the fraction whose terms are still to come, and the convergents up
to here. -/
structure Approximation where
  (num den : Wide)
  /-- The last two convergents. -/
  convergents : Convergents
deriving DecidableEq

/-- What a round of an approximation comes to. -/
inductive Round where
  /-- It was the last one. -/
  | last (convergents : Convergents)
  /-- There is another one. -/
  | more (approximation : Approximation)
deriving DecidableEq

namespace Approximation

/-- A round takes one term. It is the last one when the next convergents are not within the bound,
and when no term is left. -/
def round (a : Approximation) : Except Trap Round := do
  let term ← Wide.div a.num a.den
  let rest ← Wide.mod a.num a.den
  match a.convergents.next? term with
  | none => return .last a.convergents
  | some next => if rest = 0 then return .last next else return .more ⟨a.den, rest, next⟩

/-- A round that is not the last one divides by a number that is not zero and leaves a rest that is
less than it. -/
theorem den_lt_of_round {a b : Approximation} (h : a.round = .ok (.more b)) :
    b.den.toNat < a.den.toNat := by
  rw [round, Wide.div, Wide.mod] at h
  split at h
  case isTrue => cases h
  case isFalse nonzero =>
    have pos : 0 < a.den.toNat :=
      Nat.pos_of_ne_zero fun zero => nonzero (BitVec.eq_of_toNat_eq zero)
    have less : (a.num % a.den).toNat < a.den.toNat := by
      rw [BitVec.toNat_umod]
      exact Nat.mod_lt _ pos
    dsimp only [bind, Except.bind] at h
    split at h
    case h_1 => cases h
    case h_2 =>
      split at h
      case isTrue => cases h
      case isFalse =>
        cases h
        exact less

/-- Goes round after round up to the last one. -/
def finish (a : Approximation) : Except Trap Convergents :=
  match _same : a.round with
  | .error trap => .error trap
  | .ok (.last c) => .ok c
  | .ok (.more b) => b.finish
termination_by a.den.toNat
decreasing_by exact den_lt_of_round _same

end Approximation

/-- The fraction that a decimal without sign writes, if it has at most thirty digits. -/
def fraction? (cs : List Char) : Except Trap (Option (Wide × Wide)) := do
  let (whole, fraction) := (Text.splitFirst? '.' cs).getD (cs, [])
  let digits := whole ++ fraction
  if digits.isEmpty || !digits.all Text.isDigit || 30 < digits.length then return none
  else return some (← Wide.ofDigits digits, ← Wide.tenPow fraction.length)

/-- The price of a decimal text, if it has one. -/
def ofText? (text : String) : Except Trap (Option Price) := do
  match ← fraction? text.toList with
  | none => return none
  | some (num, den) =>
    let c ← Approximation.finish ⟨num, den, .start⟩
    if c.n = 0 ∨ c.d = 0 then return none
    else return some ⟨Int32.ofNat c.n.toNat, Int32.ofNat c.d.toNat⟩

/-- The price of a decimal text. -/
def ofText (text : String) : Except TransactionFault Price :=
  match ofText? text with
  | .ok (some price) => .ok price
  | _ => .error (.invalidPrice text)

/-- The text of a price, with a slash. -/
def toText (price : Price) : String := s!"{price.n}/{price.d}"

/-- Whether numerator and denominator are positive. -/
def isPositive (price : Price) : Bool := 0 < price.n && 0 < price.d

/-- A price on the wire. -/
def codec : Codec Price :=
  (Codec.pair .int32 .int32).map (fun (n, d) => ⟨n, d⟩) (fun p => (p.n, p.d))

end Price

end LedgerWire
