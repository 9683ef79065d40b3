import LedgerWire.Proofs.Wire.Writing

/-!
# Writing in words

Whatever is written fills words of four bytes, so a writer that stands at the end of a word stands
at the end of one after everything it is given. `Codec.Aligned` says so of a codec, and
`Codec.Filled` that it writes at least one word. All ways of putting codecs together keep both, and
those that write a mark, a number or a tag of their own are filled whatever their parts are.
-/

namespace LedgerWire

namespace Writer
variable {α : Type}

/-- Values that are written in words are so one after another. -/
lemma length_repeated {write : α → Writer → Writer}
    (h : ∀ v w, ∃ n, (write v w).length = w.length + 4 * n) (xs : List α) (w : Writer) :
    ∃ n, (w.repeated write xs).length = w.length + 4 * n := by
  induction xs generalizing w with
  | nil => exact ⟨0, rfl⟩
  | cons x xs ih =>
    obtain ⟨m, first⟩ := h x w
    obtain ⟨n, others⟩ := ih (write x w)
    refine ⟨m + n, ?_⟩
    have step : w.repeated write (x :: xs) = (write x w).repeated write xs := rfl
    rw [step, others, first]
    omega

end Writer

/-- The codecs that write whole words of four bytes. -/
class Codec.Aligned {α : Type} (c : Codec α) : Prop where
  words (v : α) (w : Writer) : ∃ n, (c.write v w).length = w.length + 4 * n

/-- The codecs that write whole words of four bytes, and at least one. -/
class Codec.Filled {α : Type} (c : Codec α) : Prop where
  words (v : α) (w : Writer) : ∃ n, (c.write v w).length = w.length + 4 * (n + 1)

/-- The arms of a union with contents in whole words. -/
class Arm.AllAligned {α : Type} (arms : List (Arm α)) : Prop where
  aligned : ∀ arm ∈ arms, arm.codec.Aligned

section
variable {α β : Type}

namespace Codec

instance (c : Codec α) [h : Filled c] : Aligned c where
  words v w := by
    obtain ⟨n, written⟩ := h.words v w
    exact ⟨n + 1, written⟩

/-- The length of a wire form is a multiple of four. -/
lemma Aligned.four_dvd_encode {c : Codec α} (h : c.Aligned) (v : α) : 4 ∣ (c.encode v).length := by
  obtain ⟨n, written⟩ := h.words v .empty
  rw [encode, ← Writer.length_eq, written]
  exact (Nat.dvd_add_right (Nat.dvd_zero 4)).2 (Nat.dvd_mul_right 4 n)

/-- No wire form is empty. -/
lemma Filled.encode_pos {c : Codec α} (h : c.Filled) (v : α) : 0 < (c.encode v).length := by
  obtain ⟨n, written⟩ := h.words v .empty
  rw [encode, ← Writer.length_eq, written]
  omega

instance : Filled uint32 := ⟨fun _ w => ⟨0, Writer.length_number 4 _ w⟩⟩

instance : Filled int32 := ⟨fun _ w => ⟨0, Writer.length_number 4 _ w⟩⟩

instance : Filled uint64 := ⟨fun _ w => ⟨1, Writer.length_number 8 _ w⟩⟩

instance : Filled int64 := ⟨fun _ w => ⟨1, Writer.length_number 8 _ w⟩⟩

instance : Filled bool := ⟨fun _ w => ⟨0, Writer.length_number 4 _ w⟩⟩

instance : Aligned void := ⟨fun _ _ => ⟨0, rfl⟩⟩

instance (n : Nat) : Aligned (fixed n) where
  words b w := by
    obtain ⟨m, whole⟩ := Bytes.four_dvd_add_padLength n
    refine ⟨m, (Writer.length_padded b.bytes w).trans ?_⟩
    rw [b.length_eq, whole]

/-- No byte at all is the only string of a fixed number of bytes that fills no word. -/
instance (n : Nat) [some : NeZero n] : Filled (fixed n) where
  words b w := by
    obtain ⟨m, whole⟩ := Bytes.four_dvd_add_padLength n
    have pos := some.ne
    refine ⟨m - 1, (Writer.length_padded b.bytes w).trans ?_⟩
    rw [b.length_eq]
    omega

instance (max : Nat) : Filled (counted max) where
  words b w := by
    obtain ⟨m, whole⟩ := Bytes.four_dvd_add_padLength b.length
    refine ⟨m, (Writer.length_padded b (w.count b.length)).trans ?_⟩
    rw [Writer.length_count, whole]
    omega

instance (c : Codec α) [h : Aligned c] : Filled (optional c) where
  words v w := by
    cases v with
    | none => exact ⟨0, Writer.length_number 4 _ w⟩
    | some x =>
      obtain ⟨n, written⟩ := h.words x (w.bool true)
      refine ⟨n, written.trans ?_⟩
      rw [Writer.length_bool]
      omega

instance (max : Nat) (c : Codec α) [h : Aligned c] : Filled (list max c) where
  words xs w := by
    obtain ⟨n, written⟩ := Writer.length_repeated h.words xs (w.count xs.length)
    refine ⟨n, written.trans ?_⟩
    rw [Writer.length_count]
    omega

instance (c : Codec α) (d : Codec β) [h : Aligned c] [h' : Aligned d] : Aligned (pair c d) where
  words p w := by
    obtain ⟨m, first⟩ := h.words p.1 w
    obtain ⟨n, second⟩ := h'.words p.2 (c.write p.1 w)
    refine ⟨m + n, second.trans ?_⟩
    omega

instance (c : Codec α) (d : Codec β) [h : Filled c] [h' : Aligned d] : Filled (pair c d) where
  words p w := by
    obtain ⟨m, first⟩ := h.words p.1 w
    obtain ⟨n, second⟩ := h'.words p.2 (c.write p.1 w)
    refine ⟨m + n, second.trans ?_⟩
    omega

instance (c : Codec α) (into : α → β) (back : β → α) [h : Filled c] : Filled (map c into back) :=
  ⟨fun b w => h.words (back b) w⟩

instance (c : Codec α) (into : α → Except Forbidden β) (back : β → α) [h : Aligned c] :
    Aligned (check c into back) :=
  ⟨fun b w => h.words (back b) w⟩

instance (c : Codec α) (into : α → Except Forbidden β) (back : β → α) [h : Filled c] :
    Filled (check c into back) :=
  ⟨fun b w => h.words (back b) w⟩

instance (max : Nat) : Filled (text max) := by
  unfold text
  infer_instance

/-- A union writes the tag of the arm that knows the value, and the contents in words. -/
lemma Filled.union {name : String} {arms : List (Arm α)} [h : Arm.AllAligned arms]
    (covers : ∀ v, (arms.any fun arm => (arm.project v).isSome) = true) :
    (Codec.union name arms).Filled where
  words v w := by
    rw [Codec.union]
    dsimp only
    cases first : arms.findSome? fun arm =>
      (arm.project v).map fun p => arm.codec.write p (w.int32 arm.tag) with
    | none =>
      obtain ⟨arm, mem, some⟩ := List.any_eq_true.1 (covers v)
      obtain ⟨p, known⟩ := Option.isSome_iff_exists.1 some
      have unknown := List.findSome?_eq_none_iff.1 first arm mem
      rw [known] at unknown
      cases unknown
    | some written =>
      obtain ⟨arm, mem, wrote⟩ := List.exists_of_findSome?_eq_some first
      obtain ⟨p, -, rfl⟩ := Option.map_eq_some_iff.1 wrote
      obtain ⟨n, contents⟩ := (h.aligned arm mem).words p (w.int32 arm.tag)
      refine ⟨n, contents.trans ?_⟩
      rw [Writer.length_int32]
      omega

end Codec

namespace Arm

instance : AllAligned ([] : List (Arm α)) := ⟨nofun⟩

instance (arm : Arm α) (arms : List (Arm α)) [h : arm.codec.Aligned] [h' : AllAligned arms] :
    AllAligned (arm :: arms) := ⟨List.forall_mem_cons.2 ⟨h, h'.aligned⟩⟩

instance (arms : List (Arm α)) (into : α → β) (back : β → Option α) [h : AllAligned arms] :
    AllAligned (arms.map (·.widen into back)) := ⟨List.forall_mem_map.2 h.aligned⟩

instance (tag : Int32) (value : α) (isValue : α → Bool) :
    (Arm.void tag value isValue).codec.Aligned :=
  inferInstanceAs Codec.void.Aligned

end Arm

namespace Codec

instance (name : String) (tag : Int32) (c : Codec α) [Aligned c] :
    Filled (union name [⟨tag, α, c, id, some⟩]) :=
  .union fun _ => rfl

instance (name : String) (c : Codec α) [Aligned c] : Filled (versioned name c) := by
  unfold versioned
  infer_instance

end Codec

end

end LedgerWire
