import Mathlib.Tactic.Lemma
import LedgerWire.Wire.Codec

/-!
# How reading is put together

Every reader of a type is put together from a few steps: taking bytes, reading padding or a length,
and giving up because of what was read. `Decode.Composed` says so of a reader, so what holds of each
step and of one step after another holds of every reader, by a single induction. No composed reader
looks at the whole input or goes back in it.
-/

namespace LedgerWire

namespace Decode

/-- The readers that are put together from the steps of the format. -/
inductive Composed : {α : Type} → Decode α → Prop where
  | pure {α : Type} (a : α) : Composed (Pure.pure a : Decode α)
  | invalidBool {α : Type} (n : UInt32) : Composed (malformed (.invalidBool n) : Decode α)
  | forbidden {α : Type} (fault : Forbidden) : Composed (Decode.forbidden fault : Decode α)
  | unknownTag {α : Type} (union : String) (tag : Int32) :
    Composed (throw (.unknownTag union tag) : Decode α)
  | take (n : Nat) : Composed (Decode.take n)
  | padding (length : Nat) : Composed (Decode.padding length)
  | length (max : Nat) : Composed (Decode.length max)
  /-- A step, and what is read after it, which may depend on what the step gave. -/
  | bind {α β : Type} {d : Decode α} {f : α → Decode β} (first : Composed d)
    (next : ∀ a, Composed (f a)) : Composed (d >>= f)

namespace Composed
variable {α β : Type} {d : Decode α}

/-- To make something of a value is composed of the step that gives it. -/
lemma map (h : d.Composed) (f : α → β) : (do return f (← d) : Decode β).Composed :=
  .bind h fun a => .pure (f a)

/-- Numbers are read by a composed reader. -/
lemma number (n : Nat) : (Decode.number n).Composed := (take n).map _

/-- Unsigned integers of 32 bits are read by a composed reader. -/
lemma uint32 : Decode.uint32.Composed := (number 4).map _

/-- Signed integers of 32 bits are read by a composed reader. -/
lemma int32 : Decode.int32.Composed := uint32.map _

/-- Unsigned integers of 64 bits are read by a composed reader. -/
lemma uint64 : Decode.uint64.Composed := (number 8).map _

/-- Signed integers of 64 bits are read by a composed reader. -/
lemma int64 : Decode.int64.Composed := uint64.map _

/-- Truth values are read by a composed reader. -/
lemma bool : Decode.bool.Composed := by
  refine .bind uint32 fun n => ?_
  split
  case isTrue => exact .pure false
  case isFalse =>
    split
    case isTrue => exact .pure true
    case isFalse => exact .invalidBool n

/-- Bytes and the zeros behind them are read by a composed reader. -/
lemma padded (n : Nat) : (Decode.padded n).Composed :=
  .bind (.take n) fun bytes => .bind (.padding n) fun _ => .pure bytes

/-- Options are read by a composed reader if their values are. -/
lemma optional (h : d.Composed) : (Decode.optional d).Composed := by
  refine .bind bool fun present => ?_
  cases present with
  | false => exact .pure none
  | true => exact h.map some

/-- Any number of values is read by a composed reader if each of them is. -/
lemma repeated (h : d.Composed) (count : Nat) : (Decode.repeated d count).Composed := by
  induction count with
  | zero => exact .pure []
  | succ count ih => exact .bind h fun x => ih.map (x :: ·)

/-- A check of what is read is composed of the step that reads it. -/
lemma check (h : d.Composed) (f : α → Except Forbidden β) :
    (do match f (← d) with
      | .ok b => return b
      | .error fault => Decode.forbidden fault).Composed := by
  refine .bind h fun a => ?_
  cases f a with
  | ok b => exact .pure b
  | error fault => exact .forbidden fault

end Composed

end Decode

/-- The codecs whose reader is put together from the steps of the format. -/
class Codec.Composed {α : Type} (c : Codec α) : Prop where
  read : c.read.Composed

/-- The arms of a union with such codecs. -/
class Arm.AllComposed {α : Type} (arms : List (Arm α)) : Prop where
  read : ∀ arm ∈ arms, arm.codec.read.Composed

section
variable {α β : Type}

namespace Codec

instance : Composed uint32 := ⟨.uint32⟩

instance : Composed int32 := ⟨.int32⟩

instance : Composed uint64 := ⟨.uint64⟩

instance : Composed int64 := ⟨.int64⟩

instance : Composed bool := ⟨.bool⟩

instance : Composed void := ⟨.pure ()⟩

instance (n : Nat) : Composed (fixed n) := ⟨(Decode.Composed.padded n).map _⟩

instance (max : Nat) : Composed (counted max) := ⟨.bind (.length max) fun n => .padded n⟩

instance (c : Codec α) [h : Composed c] : Composed (optional c) := ⟨h.read.optional⟩

instance (max : Nat) (c : Codec α) [h : Composed c] : Composed (list max c) :=
  ⟨.bind (.length max) fun n => h.read.repeated n⟩

instance (c : Codec α) (d : Codec β) [h : Composed c] [h' : Composed d] : Composed (pair c d) :=
  ⟨.bind h.read fun a => h'.read.map fun b => (a, b)⟩

instance (c : Codec α) (into : α → β) (back : β → α) [h : Composed c] :
    Composed (map c into back) := ⟨h.read.map into⟩

instance (c : Codec α) (into : α → Except Forbidden β) (back : β → α) [h : Composed c] :
    Composed (check c into back) := ⟨h.read.check into⟩

instance (max : Nat) : Composed (text max) := by
  unfold text
  infer_instance

instance (name : String) (arms : List (Arm α)) [h : Arm.AllComposed arms] :
    Composed (union name arms) where
  read := by
    refine .bind .int32 fun tag => ?_
    cases found : arms.find? fun arm => arm.tag == tag with
    | some arm =>
      have mem := List.mem_of_find?_eq_some found
      exact (h.read arm mem).map _
    | none => exact .unknownTag name tag

end Codec

namespace Arm

instance : AllComposed ([] : List (Arm α)) := ⟨nofun⟩

instance (arm : Arm α) (arms : List (Arm α)) [h : arm.codec.Composed] [h' : AllComposed arms] :
    AllComposed (arm :: arms) := ⟨List.forall_mem_cons.2 ⟨h.read, h'.read⟩⟩

instance (arms : List (Arm α)) (into : α → β) (back : β → Option α) [h : AllComposed arms] :
    AllComposed (arms.map (·.widen into back)) := ⟨List.forall_mem_map.2 h.read⟩

instance (tag : Int32) (value : α) (isValue : α → Bool) :
    (Arm.void tag value isValue).codec.Composed :=
  inferInstanceAs Codec.void.Composed

end Arm

instance (name : String) (c : Codec α) [h : c.Composed] : (Codec.versioned name c).Composed := by
  unfold Codec.versioned
  infer_instance

end

end LedgerWire
