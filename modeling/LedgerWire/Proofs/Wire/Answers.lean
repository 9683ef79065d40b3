import LedgerWire.Proofs.Wire.Union

/-!
# What a reading step answers to given bytes

`Accepts` tells the bytes that a value is read from and says nothing of a fault. For bytes of a
known shape both are told: `Decode.Answers` says which value or which fault a step returns for them,
wherever they stand and whatever is behind them. The fault of a part is that of the whole.
-/

namespace LedgerWire

namespace Decode
variable {α β : Type} {d : Decode α} {f : α → Decode β} {x y : Bytes}

/-- Wherever the bytes stand, the step returns the value and stands behind them, or it fails with
the fault. -/
def Answers (d : Decode α) (bytes : Bytes) : Except WireFault α → Prop
  | .ok v => ∀ pos rest, d ⟨pos, bytes ++ rest⟩ = .ok v ⟨pos + bytes.length, rest⟩
  | .error fault => ∀ pos rest, ∃ r, d ⟨pos, bytes ++ rest⟩ = .error fault r

namespace Answers

/-- What is answered to bytes anywhere is answered to them as a whole input. -/
lemma runAll_eq {outcome : Except WireFault α} (h : d.Answers x outcome) :
    runAll d x = outcome := by
  cases outcome with
  | ok v =>
    have read := h 0 []
    rw [List.append_nil] at read
    exact Decode.runAll_eq_ok.2 ⟨_, read⟩
  | error fault =>
    obtain ⟨r, failed⟩ := h 0 []
    rw [List.append_nil] at failed
    exact runAll_of_error failed

/-- To give a value takes no bytes for it. -/
lemma pure (a : α) : (Pure.pure a : Decode α).Answers [] (.ok a) := fun _ _ => rfl

/-- Behind a value the answer is that of the next step. -/
lemma bind {a : α} {outcome : Except WireFault β} (first : d.Answers x (.ok a))
    (next : (f a).Answers y outcome) : (d >>= f).Answers (x ++ y) outcome := by
  cases outcome with
  | ok b =>
    intro pos rest
    rw [List.append_assoc, bind_of_ok (first pos (y ++ rest)), next, List.length_append,
      Nat.add_assoc]
  | error fault =>
    intro pos rest
    rw [List.append_assoc, bind_of_ok (first pos (y ++ rest))]
    exact next _ rest

/-- Behind a fault there is nothing to be asked. -/
lemma bind_error {fault : WireFault} (first : d.Answers x (.error fault)) :
    (d >>= f).Answers (x ++ y) (.error fault) := by
  intro pos rest
  obtain ⟨r, failed⟩ := first pos (y ++ rest)
  exact ⟨r, by rw [List.append_assoc, bind_of_error failed]⟩

/-- What is made of a value is made of what the reader answers. -/
lemma map {outcome : Except WireFault α} (h : d.Answers x outcome) (g : α → β) :
    (do return g (← d)).Answers x (outcome.map g) := by
  rw [← List.append_nil x]
  cases outcome with
  | ok a => exact h.bind (.pure (g a))
  | error fault => exact h.bind_error

/-- A value that was read is refused as the check refuses it. -/
lemma check {a : α} (h : d.Answers x (.ok a)) (g : α → Except Forbidden β) :
    (do match g (← d) with
      | .ok b => return b
      | .error fault => forbidden fault).Answers x ((g a).mapError .forbidden) := by
  rw [← List.append_nil x]
  apply h.bind
  cases g a with
  | ok b => exact .pure b
  | error fault => exact fun pos rest => ⟨_, rfl⟩

end Answers

end Decode

namespace Codec
variable {α β : Type} {c : Codec α} {d : Codec β} {x y : Bytes}

/-- To the wire form of a value that fits, the value is answered. -/
lemma Lawful.answers {Fits : α → Prop} (h : c.Lawful Fits) {v : α} (fits : Fits v) :
    c.read.Answers (c.encode v) (.ok v) :=
  h.accepts.read_append ⟨fits, rfl⟩

/-- When the first part is read, the second one decides. -/
lemma pair_answers {a : α} {outcome : Except WireFault β} (first : c.read.Answers x (.ok a))
    (second : d.read.Answers y outcome) :
    (c.pair d).read.Answers (x ++ y) (outcome.map (Prod.mk a)) :=
  first.bind (second.map _)

/-- When the first part is refused, so is the pair. -/
lemma pair_answers_error {fault : WireFault} (first : c.read.Answers x (.error fault)) :
    (c.pair d).read.Answers (x ++ y) (.error fault) :=
  first.bind_error

/-- Behind its tag, an arm of a union answers for the union. -/
lemma union_answers {name : String} {arms : List (Arm α)} (nodup : (arms.map Arm.tag).Nodup)
    {arm : Arm α} (mem : arm ∈ arms) {outcome : Except WireFault arm.Payload}
    (h : arm.codec.read.Answers x outcome) :
    (Codec.union name arms).read.Answers (int32.encode arm.tag ++ x) (outcome.map arm.inject) := by
  have tag : Decode.int32.Answers (int32.encode arm.tag) (.ok arm.tag) :=
    Lawful.int32.answers trivial
  apply tag.bind
  split
  case h_1 found hit =>
    have same : found.tag = arm.tag := by simpa using List.find?_some hit
    -- The arm that was found is the only one with the tag.
    obtain rfl := List.inj_on_of_nodup_map nodup (List.mem_of_find?_eq_some hit) mem same
    exact h.map _
  case h_2 missing =>
    have miss := List.find?_eq_none.1 missing arm mem
    simp at miss

/-- An arm of a union answers for a wider one too. -/
lemma widened_answers {name : String} {arms : List (Arm α)} {first : Arm β} {into : α → β}
    {back : β → Option α}
    (nodup : ((first :: arms.map (·.widen into back)).map Arm.tag).Nodup) {arm : Arm α}
    (mem : arm ∈ arms) {made : Except Forbidden arm.Payload}
    (h : arm.codec.read.Answers x (made.mapError .forbidden)) :
    (Codec.union name (first :: arms.map (·.widen into back))).read.Answers
      (int32.encode arm.tag ++ x) (((made.map arm.inject).mapError .forbidden).map into) := by
  have inside : arm.widen into back ∈ first :: arms.map (·.widen into back) :=
    List.mem_cons_of_mem _ (List.mem_map_of_mem mem)
  have answers : (Codec.union name _).read.Answers _ _ := union_answers nodup inside h
  cases made with
  | ok p => exact answers
  | error fault => exact answers

/-- Behind the tag of the only version, the contents decide. -/
lemma versioned_answers {outcome : Except WireFault α} (h : c.read.Answers x outcome)
    (name : String) : (Codec.versioned name c).read.Answers (int32.encode 0 ++ x) outcome := by
  have tags : (List.map Arm.tag [(⟨0, α, c, id, some⟩ : Arm α)]).Nodup := List.nodup_singleton 0
  have inside : (Codec.versioned name c).read.Answers (int32.encode 0 ++ x) (outcome.map id) :=
    union_answers tags (List.mem_singleton_self _) h
  rwa [Except.map_id] at inside

end Codec

end LedgerWire
