import LedgerWire.Proofs.Composition
import LedgerWire.Proofs.Envelope

/-!
# What is written and read in one step

Beside the types of the wire, whole transactions and envelopes are written and read, and so are byte
strings, options and lists of any of these. `WirePart` names all of them, so that a statement about
whatever a writer is given, or a reader is asked for, can be made at once. No part has limits here:
values that are too long or too deep are written, too.
-/

namespace LedgerWire

/-- What can be written or read in one step. -/
inductive WirePart where
  /-- A value of a type below envelopes. -/
  | value (t : WireType)
  /-- What the signers of a transaction agree to. -/
  | transaction
  /-- The same in the older layout. -/
  | legacyTransaction
  /-- What the signers of a fee bump agree to. -/
  | feeBump
  /-- Any of these with signatures, as it travels to a network. -/
  | envelope
  /-- At most `max` bytes. -/
  | counted (max : Nat)
  /-- A text of at most `max` bytes. -/
  | text (max : Nat)
  /-- A part that may be absent. -/
  | optional (inner : WirePart)
  /-- At most `max` parts of one kind. -/
  | list (max : Nat) (inner : WirePart)

namespace WirePart

/-- The values of a part. -/
def Value : WirePart → Type
  | value t => t.Value
  | transaction => Transaction
  | legacyTransaction => Transaction
  | feeBump => FeeBump
  | envelope => Envelope
  | counted _ => Bytes
  | text _ => String
  | optional inner => Option inner.Value
  | list _ inner => List inner.Value

/-- The codec of a part. -/
def codec : (part : WirePart) → Codec part.Value
  | value t => t.codec
  | transaction => Transaction.codec
  | legacyTransaction => Transaction.legacyCodec
  | feeBump => FeeBump.codec
  | envelope => Envelope.codec
  | counted max => .counted max
  | text max => .text max
  | optional inner => .optional inner.codec
  | list max inner => .list max inner.codec

/-- Every part is read by a composed reader. -/
theorem composed (part : WirePart) : part.codec.Composed := by
  induction part with
  | value t => exact t.composed
  | optional inner ih => exact ⟨ih.read.optional⟩
  | list max inner ih => exact ⟨.bind (.length max) fun n => ih.read.repeated n⟩
  | _ =>
    dsimp only [codec, Value]
    infer_instance

/-- Every part is written behind what is there, and everywhere in the same way. -/
theorem appends (part : WirePart) : part.codec.Appends := by
  induction part with
  | value t => exact t.roundTrips.appends
  | transaction => exact Transaction.appends
  | legacyTransaction => exact Transaction.legacyCodec_lawful.appends
  | feeBump => exact FeeBump.appends
  | envelope => exact Envelope.appends
  | counted max => exact .counted max
  | text max => exact .text max
  | optional inner ih => exact ih.optional
  | list max inner ih => exact ih.list max

end WirePart

end LedgerWire
