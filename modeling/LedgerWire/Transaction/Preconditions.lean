import LedgerWire.Identity.Signer
import LedgerWire.Transaction.Fault

/-!
# Preconditions

What must hold, beside sequence number and signatures, for a transaction to be valid: a window of
time, a window of ledgers, three conditions on the sequence number of the source account, and up
to two signers whose signatures must be there. Zero as an upper bound means that there is none.

The wire has three forms: nothing, a window of time alone, and everything. Preconditions are
always written in the shortest form that can carry them, and read in any form.
-/

namespace LedgerWire

/-- A window of time in seconds of the Unix clock. -/
structure TimeBounds where
  /-- The first second. -/
  minTime : UInt64
  /-- The last second, or zero. -/
  maxTime : UInt64
deriving DecidableEq

/-- A window of ledgers. -/
structure LedgerBounds where
  /-- The first ledger. -/
  minLedger : UInt32
  /-- The last ledger, or zero. -/
  maxLedger : UInt32
deriving DecidableEq

/-- The preconditions of a transaction. -/
structure Preconditions where
  /-- The window of time. -/
  timeBounds : Option TimeBounds
  /-- The window of ledgers. -/
  ledgerBounds : Option LedgerBounds
  /-- The least sequence number of the source account; absent, it must be one less than that of
  the transaction. -/
  minSequenceNumber : Option Int64
  /-- The least time in seconds since the sequence number changed. -/
  minSequenceAge : UInt64
  /-- The least number of ledgers since the sequence number changed. -/
  minSequenceLedgerGap : UInt32
  /-- Signers whose signatures must be there. -/
  extraSigners : List SignerKey
deriving DecidableEq

/-- The three forms of preconditions on the wire. -/
inductive PreconditionForm where
  /-- Nothing. -/
  | none
  /-- A window of time. -/
  | time (bounds : TimeBounds)
  /-- Every precondition. -/
  | full (preconditions : Preconditions)
deriving DecidableEq

namespace TimeBounds

/-- Fails when the window is empty. -/
def validate (bounds : TimeBounds) : Except ValidationFault Unit :=
  if bounds.maxTime ≠ 0 ∧ bounds.maxTime < bounds.minTime then
    .error (.invalidTimeBounds bounds.minTime bounds.maxTime)
  else .ok ()

/-- A window that is not empty. -/
def make (minTime maxTime : UInt64) : Except ValidationFault TimeBounds := do
  let bounds := ⟨minTime, maxTime⟩
  validate bounds
  return bounds

/-- The window from the beginning of time to `timeout` seconds after `now`, or without an end for
the infinite timeout. The end stays within the 64 bits of its field. -/
def expiresAfter (now timeout : UInt64) : TimeBounds :=
  if timeout = Limits.timeoutInfinite then ⟨0, 0⟩
  else ⟨0, UInt64.ofNat (min (now.toNat + timeout.toNat) (UInt64.size - 1))⟩

/-- A window of time on the wire. -/
def codec : Codec TimeBounds :=
  (Codec.pair .uint64 .uint64).map (fun (a, b) => ⟨a, b⟩) (fun t => (t.minTime, t.maxTime))

end TimeBounds

namespace LedgerBounds

/-- Fails when the window is empty. -/
def validate (bounds : LedgerBounds) : Except ValidationFault Unit :=
  if bounds.maxLedger ≠ 0 ∧ bounds.maxLedger < bounds.minLedger then
    .error (.invalidLedgerBounds bounds.minLedger bounds.maxLedger)
  else .ok ()

/-- A window that is not empty. -/
def make (minLedger maxLedger : UInt32) : Except ValidationFault LedgerBounds := do
  let bounds := ⟨minLedger, maxLedger⟩
  validate bounds
  return bounds

/-- A window of ledgers on the wire. -/
def codec : Codec LedgerBounds :=
  (Codec.pair .uint32 .uint32).map (fun (a, b) => ⟨a, b⟩) (fun t => (t.minLedger, t.maxLedger))

end LedgerBounds

namespace Preconditions

/-- No precondition at all. -/
def none : Preconditions := ⟨.none, .none, .none, 0, 0, []⟩

/-- A window of time alone. -/
def ofTimeBounds (bounds : TimeBounds) : Preconditions := { none with timeBounds := some bounds }

/-- Whether anything other than a window of time is set. -/
def beyondTime (p : Preconditions) : Bool :=
  p.ledgerBounds.isSome || p.minSequenceNumber.isSome || 0 < p.minSequenceAge ||
    0 < p.minSequenceLedgerGap || !p.extraSigners.isEmpty

/-- Whether nothing is set. -/
def isNone (p : Preconditions) : Bool := p.timeBounds.isNone && !p.beyondTime

/-- Fails when the preconditions cannot stand in a transaction. -/
def validate (p : Preconditions) : Except ValidationFault Unit := do
  if p.beyondTime && p.timeBounds.isNone then throw .missingTimeBounds
  if Limits.maxExtraSigners < p.extraSigners.length then
    throw (.tooManyExtraSigners p.extraSigners.length)
  if let some bounds := p.timeBounds then bounds.validate
  if let some bounds := p.ledgerBounds then bounds.validate

/-- The shortest form that carries the preconditions. -/
def form (p : Preconditions) : PreconditionForm :=
  if p.beyondTime then .full p
  else
    match p.timeBounds with
    | some bounds => .time bounds
    | Option.none => .none

/-- The preconditions that a form carries. -/
def ofForm : PreconditionForm → Preconditions
  | .none => none
  | .time bounds => ofTimeBounds bounds
  | .full p => p

/-- Every precondition, one after another. -/
def fullCodec : Codec Preconditions :=
  (Codec.pair (.optional TimeBounds.codec) <| .pair (.optional LedgerBounds.codec) <|
    .pair (.optional .int64) <| .pair .uint64 <| .pair .uint32 <|
    .list Limits.maxExtraSigners SignerKey.codec).map
    (fun (time, ledger, sequence, age, gap, signers) =>
      ⟨time, ledger, sequence, age, gap, signers⟩)
    (fun p => (p.timeBounds, p.ledgerBounds, p.minSequenceNumber, p.minSequenceAge,
      p.minSequenceLedgerGap, p.extraSigners))

end Preconditions

/-- A form of preconditions on the wire. -/
def PreconditionForm.codec : Codec PreconditionForm :=
  .union "PreconditionType" [
    .void 0 .none (fun | .none => true | _ => false),
    ⟨1, TimeBounds, TimeBounds.codec, .time, fun | .time b => some b | _ => Option.none⟩,
    ⟨2, Preconditions, Preconditions.fullCodec, .full,
      fun | .full p => some p | _ => Option.none⟩]

/-- Preconditions on the wire: written in the shortest form, read in any. -/
def Preconditions.codec : Codec Preconditions := PreconditionForm.codec.map ofForm form

end LedgerWire
