import LedgerWire.Proofs.Basic
import LedgerWire.Wire.Reader

/-!
# What a reading step accepts

A reading step is described by the spellings of the values it can return: it returns a value exactly
where the input goes on with one of the spellings of that value, and it then stands behind that
spelling. `Decode.Accepts` says so for a whole step at once, in both directions, so that round trips
and the strictness of reading follow from one fact about each step. The description of a sequence of
steps is made of those of its parts (`Accepts.bind`, `Accepts.repeated`).
-/

namespace LedgerWire.Decode
variable {α β : Type}

/-- Reading returns a value exactly where one of its spellings stands. -/
def Accepts (d : Decode α) (spelling : α → Bytes → Prop) : Prop :=
  ∀ pos input v r, d ⟨pos, input⟩ = .ok v r ↔
    ∃ bytes, spelling v bytes ∧ input = bytes ++ r.rest ∧ r.position = pos + bytes.length

/-- Behind a step that gives a value, the next one goes on from there. -/
lemma bind_of_ok {d : Decode α} {f : α → Decode β} {r s a} (first : d r = .ok a s) :
    (d >>= f) r = f a s := by
  simp only [Bind.bind, EStateM.bind, first]

/-- Behind a step that fails there is none. -/
lemma bind_of_error {d : Decode α} {f : α → Decode β} {r s fault} (first : d r = .error fault s) :
    (d >>= f) r = .error fault s := by
  simp only [Bind.bind, EStateM.bind, first]

/-- Two steps give a value when the first does and the second does behind it. -/
@[simp] lemma bind_eq_ok {d : Decode α} {f : α → Decode β} {r v r'} :
    (d >>= f) r = .ok v r' ↔ ∃ a s, d r = .ok a s ∧ f a s = .ok v r' := by
  cases first : d r with
  | ok a s =>
    rw [bind_of_ok first]
    exact ⟨fun h => ⟨a, s, rfl, h⟩, fun ⟨_, _, e, h⟩ => by cases e; exact h⟩
  | error e s =>
    rw [bind_of_error first]
    exact ⟨nofun, fun ⟨_, _, e, _⟩ => nomatch e⟩

/-- Two steps fail when the first does, or the second does behind it. -/
lemma bind_eq_error {d : Decode α} {f : α → Decode β} {r r' fault} :
    (d >>= f) r = .error fault r' ↔
      d r = .error fault r' ∨ ∃ a s, d r = .ok a s ∧ f a s = .error fault r' := by
  cases first : d r with
  | ok a s =>
    rw [bind_of_ok first]
    apply Iff.intro
    · exact fun h => .inr ⟨a, s, rfl, h⟩
    · rintro (h | ⟨_, _, e, h⟩)
      · cases h
      · cases e
        exact h
  | error e s =>
    rw [bind_of_error first]
    apply Iff.intro
    · intro h
      cases h
      exact .inl rfl
    · rintro (h | ⟨_, _, h, _⟩)
      · cases h
        rfl
      · cases h

/-- To give a value takes nothing. -/
@[simp] lemma pure_eq_ok {a v : α} {r r'} : (pure a : Decode α) r = .ok v r' ↔ v = a ∧ r' = r := by
  have unfold_pure : (pure a : Decode α) r = .ok a r := rfl
  rw [unfold_pure]
  exact ⟨fun h => by cases h; exact ⟨rfl, rfl⟩, fun ⟨e, e'⟩ => by rw [e, e']⟩

/-- A value is changed where it is read. -/
@[simp] lemma map_eq_ok {d : Decode α} {f : α → β} {r v r'} :
    (f <$> d) r = .ok v r' ↔ ∃ a, d r = .ok a r' ∧ v = f a := by
  rw [← bind_pure_comp, bind_eq_ok]
  simp

/-- To fail gives no value. -/
@[simp] lemma throw_ne_ok {fault : WireFault} {v : α} {r r'} :
    (throw fault : Decode α) r ≠ .ok v r' :=
  nofun

/-- Bytes are taken from the front, and the reader stands behind them. -/
lemma take_eq_ok {n r v r'} :
    take n r = .ok v r' ↔ v.length = n ∧ r.rest = v ++ r'.rest ∧ r'.position = r.position + n := by
  rw [take, Reader.remaining]
  split
  case isTrue le =>
    apply Iff.intro
    · intro h
      cases h
      exact ⟨List.length_take_of_le le, (List.take_append_drop n r.rest).symm, rfl⟩
    · intro h
      obtain ⟨len, rest, pos⟩ := h
      have front : r.rest.take n = v := by rw [rest, List.take_left' len]
      have back : r.rest.drop n = r'.rest := by rw [rest, List.drop_left' len]
      rw [front, back, ← pos]
  case isFalse gt =>
    refine ⟨nofun, fun ⟨len, rest, _⟩ => ?_⟩
    rw [rest, List.length_append] at gt
    omega

namespace Accepts

/-- What is accepted may be described in another way. -/
lemma congr {d : Decode α} {S T : α → Bytes → Prop} (h : d.Accepts S)
    (same : ∀ v bytes, S v bytes ↔ T v bytes) : d.Accepts T := by
  intro pos input v r
  rw [h pos input v r]
  simp only [same]

/-- To fail accepts nothing. -/
lemma fault {fault : WireFault} {S : α → Bytes → Prop} (none : ∀ v bytes, ¬ S v bytes) :
    (throw fault : Decode α).Accepts S :=
  fun _ _ v _ => ⟨fun e => (throw_ne_ok e).elim, fun ⟨bytes, h, _⟩ => (none v bytes h).elim⟩

/-- To give a value accepts no bytes for it, and no other value. -/
lemma pure (a : α) : (Pure.pure a : Decode α).Accepts fun v bytes => v = a ∧ bytes = [] := by
  intro pos input v r
  rw [pure_eq_ok]
  apply Iff.intro
  · intro h
    obtain ⟨rfl, rfl⟩ := h
    exact ⟨[], ⟨rfl, rfl⟩, rfl, rfl⟩
  · intro h
    obtain ⟨_, ⟨rfl, rfl⟩, rest, pos⟩ := h
    refine ⟨rfl, ?_⟩
    cases r
    cases rest
    cases pos
    rfl

/-- Spellings of a sequence are spellings of its parts put together. -/
lemma bind {d : Decode α} {f : α → Decode β} {S : α → Bytes → Prop}
    {T : α → β → Bytes → Prop} (hd : d.Accepts S) (hf : ∀ a, (f a).Accepts (T a)) :
    (d >>= f).Accepts fun b bytes => ∃ a x y, S a x ∧ T a b y ∧ bytes = x ++ y := by
  intro pos input v r
  rw [bind_eq_ok]
  apply Iff.intro
  · intro h
    obtain ⟨a, s, first, second⟩ := h
    obtain ⟨x, hx, input_eq, pos_eq⟩ := (hd pos input a s).1 first
    obtain ⟨y, hy, rest_eq, pos_eq'⟩ := (hf a s.position s.rest v r).1 second
    refine ⟨x ++ y, ⟨a, x, y, hx, hy, rfl⟩, ?_, ?_⟩
    · rw [input_eq, rest_eq, List.append_assoc]
    · rw [pos_eq', pos_eq, List.length_append]
      omega
  · intro h
    obtain ⟨_, ⟨a, x, y, hx, hy, rfl⟩, input_eq, pos_eq⟩ := h
    -- Between the two steps the reader stands behind the spelling of the first.
    refine ⟨a, ⟨pos + x.length, y ++ r.rest⟩, ?_, ?_⟩
    · apply (hd _ _ _ _).2
      exact ⟨x, hx, by rw [input_eq, List.append_assoc], rfl⟩
    · apply (hf _ _ _ _ _).2
      refine ⟨y, hy, rfl, ?_⟩
      rw [pos_eq, List.length_append]
      omega

/-- What is made of a value has the bytes of the value. -/
lemma map {d : Decode α} {S : α → Bytes → Prop} (h : d.Accepts S) (f : α → β) :
    (do return f (← d)).Accepts fun b bytes => ∃ a, S a bytes ∧ f a = b := by
  refine (h.bind fun a => .pure (f a)).congr fun b bytes => ?_
  apply Iff.intro
  · intro h
    obtain ⟨a, x, _, hx, ⟨rfl, rfl⟩, rfl⟩ := h
    exact ⟨a, by rwa [List.append_nil], rfl⟩
  · intro h
    obtain ⟨a, ha, rfl⟩ := h
    exact ⟨a, bytes, [], ha, ⟨rfl, rfl⟩, (List.append_nil _).symm⟩

/-- A check keeps the spellings of the values that pass it. -/
lemma check {d : Decode α} {S : α → Bytes → Prop} (h : d.Accepts S)
    (f : α → Except Forbidden β) :
    (do match f (← d) with
      | .ok b => return b
      | .error fault => forbidden fault).Accepts
      fun b bytes => ∃ a, S a bytes ∧ f a = Except.ok b := by
  have outcome : ∀ a, Accepts
      (match f a with
        | .ok b => Pure.pure b
        | .error fault => forbidden fault)
      fun b bytes => f a = Except.ok b ∧ bytes = [] := by
    intro a
    cases ha : f a with
    | ok b =>
      refine (Accepts.pure b).congr fun v bytes => ?_
      rw [Except.ok.injEq, eq_comm]
    | error fault => exact .fault fun v bytes ⟨e, _⟩ => nomatch e
  refine (h.bind outcome).congr fun b bytes => ?_
  apply Iff.intro
  · intro h
    obtain ⟨a, x, _, hx, ⟨ha, rfl⟩, rfl⟩ := h
    exact ⟨a, by rwa [List.append_nil], ha⟩
  · intro h
    obtain ⟨a, ha, hb⟩ := h
    exact ⟨a, bytes, [], ha, ⟨hb, rfl⟩, (List.append_nil _).symm⟩

/-- Looking at the position costs no input. -/
lemma get_bind {f : Reader → Decode β} {S : β → Bytes → Prop} (h : ∀ s, (f s).Accepts S) :
    (get >>= f : Decode β).Accepts S := by
  intro pos input v r
  have look : (get >>= f : Decode β) ⟨pos, input⟩ = f ⟨pos, input⟩ ⟨pos, input⟩ := rfl
  rw [look]
  exact h ⟨pos, input⟩ pos input v r

/-- Any bytes of the number that is asked for are accepted as themselves. -/
lemma take (n : Nat) : (Decode.take n).Accepts fun v bytes => v.length = n ∧ bytes = v := by
  intro pos input v r
  rw [take_eq_ok]
  apply Iff.intro
  · intro h
    obtain ⟨len, rest, position⟩ := h
    exact ⟨v, ⟨len, rfl⟩, rest, by rw [position, len]⟩
  · intro h
    obtain ⟨_, ⟨len, rfl⟩, rest, position⟩ := h
    exact ⟨len, rest, by rw [position, len]⟩

/-- A number is accepted in the bytes that lay it out. -/
lemma number (n : Nat) :
    (Decode.number n).Accepts fun v bytes => v < 256 ^ n ∧ bytes = Bytes.bigEndian n v := by
  refine ((take n).map Bytes.toNat).congr fun v bytes => ?_
  apply Iff.intro
  · intro h
    obtain ⟨_, ⟨rfl, rfl⟩, rfl⟩ := h
    exact ⟨Bytes.toNat_lt _, (Bytes.bigEndian_toNat _).symm⟩
  · intro h
    obtain ⟨small, rfl⟩ := h
    exact ⟨_, ⟨Bytes.length_bigEndian n v, rfl⟩, Bytes.toNat_bigEndian_of_lt small⟩

/-- An unsigned integer of 32 bits is accepted in four bytes. -/
lemma uint32 : Decode.uint32.Accepts fun v bytes => bytes = Bytes.bigEndian 4 v.toNat := by
  refine ((number 4).map UInt32.ofNat).congr fun v bytes => ?_
  apply Iff.intro
  · intro h
    obtain ⟨n, ⟨small, rfl⟩, rfl⟩ := h
    rw [UInt32.toNat_ofNat_of_lt' small]
  · intro same
    subst same
    exact ⟨v.toNat, ⟨v.toNat_lt, rfl⟩, UInt32.ofNat_toNat⟩

/-- A signed integer of 32 bits is accepted in four bytes. -/
lemma int32 :
    Decode.int32.Accepts fun v bytes => bytes = Bytes.bigEndian 4 v.toUInt32.toNat := by
  refine (uint32.map UInt32.toInt32).congr fun v bytes => ?_
  apply Iff.intro
  · intro h
    obtain ⟨n, rfl, rfl⟩ := h
    rfl
  · intro same
    subst same
    exact ⟨v.toUInt32, rfl, Int32.toInt32_toUInt32 v⟩

/-- An unsigned integer of 64 bits is accepted in eight bytes. -/
lemma uint64 : Decode.uint64.Accepts fun v bytes => bytes = Bytes.bigEndian 8 v.toNat := by
  refine ((number 8).map UInt64.ofNat).congr fun v bytes => ?_
  apply Iff.intro
  · intro h
    obtain ⟨n, ⟨small, rfl⟩, rfl⟩ := h
    rw [UInt64.toNat_ofNat_of_lt' small]
  · intro same
    subst same
    exact ⟨v.toNat, ⟨v.toNat_lt, rfl⟩, UInt64.ofNat_toNat⟩

/-- A signed integer of 64 bits is accepted in eight bytes. -/
lemma int64 :
    Decode.int64.Accepts fun v bytes => bytes = Bytes.bigEndian 8 v.toUInt64.toNat := by
  refine (uint64.map UInt64.toInt64).congr fun v bytes => ?_
  apply Iff.intro
  · intro h
    obtain ⟨n, rfl, rfl⟩ := h
    rfl
  · intro same
    subst same
    exact ⟨v.toUInt64, rfl, Int64.toInt64_toUInt64 v⟩

/-- A truth value is accepted as one of two numbers. -/
lemma bool :
    Decode.bool.Accepts fun v bytes => bytes = Bytes.bigEndian 4 (if v then 1 else 0) := by
  have outcome : ∀ n : UInt32, Accepts
      (if n = 0 then Pure.pure false else if n = 1 then Pure.pure true
        else malformed (.invalidBool n))
      fun v bytes => n = (if v then 1 else 0) ∧ bytes = [] := by
    intro n
    split
    case isTrue zero =>
      refine (Accepts.pure false).congr fun v bytes => ?_
      cases v <;> simp [zero]
    case isFalse notZero =>
      split
      case isTrue one =>
        refine (Accepts.pure true).congr fun v bytes => ?_
        cases v <;> simp [one]
      case isFalse notOne =>
        refine .fault fun v bytes ⟨e, _⟩ => ?_
        cases v
        · exact notZero e
        · exact notOne e
  refine (uint32.bind outcome).congr fun v bytes => ?_
  apply Iff.intro
  · intro h
    obtain ⟨_, _, _, rfl, ⟨rfl, rfl⟩, rfl⟩ := h
    cases v <;> rfl
  · intro same
    subst same
    refine ⟨if v then 1 else 0, _, [], rfl, ⟨rfl, rfl⟩, ?_⟩
    cases v <;> rfl

/-- Padding is spelled by zeros. -/
lemma padding (length : Nat) :
    (Decode.padding length).Accepts
      fun _ bytes => bytes = List.replicate (Bytes.padLength length) 0 := by
  refine get_bind fun start => ((take _).bind
    (T := fun bytes _ rest => (∀ b ∈ bytes, b = 0) ∧ rest = []) fun bytes => ?_).congr
    fun v bytes => ?_
  · split
    case h_1 i found =>
      -- A byte was found that is not zero, so there is nothing to accept.
      refine .fault fun v rest ⟨zero, _⟩ => ?_
      have clean : bytes.findIdx? (· != 0) = none := by
        rw [List.findIdx?_eq_none_iff]
        intro b hb
        simp [zero b hb]
      rw [clean] at found
      cases found
    case h_2 clean =>
      rw [List.findIdx?_eq_none_iff] at clean
      have zero : ∀ b ∈ bytes, b = 0 := fun b hb => by simpa using clean b hb
      refine (Accepts.pure ()).congr fun v rest => ?_
      exact ⟨fun ⟨_, e⟩ => ⟨zero, e⟩, fun ⟨_, e⟩ => ⟨rfl, e⟩⟩
  · apply Iff.intro
    · intro h
      obtain ⟨zeros, _, _, ⟨len, rfl⟩, ⟨zero, rfl⟩, rfl⟩ := h
      rw [List.append_nil]
      exact List.eq_replicate_iff.2 ⟨len, zero⟩
    · intro same
      subst same
      refine ⟨_, _, [], ⟨List.length_replicate, rfl⟩, ⟨?_, rfl⟩, (List.append_nil _).symm⟩
      exact fun b hb => List.eq_of_mem_replicate hb

/-- Bytes are accepted with zeros up to the end of a word. -/
lemma padded (n : Nat) :
    (Decode.padded n).Accepts fun v bytes => v.length = n ∧ bytes = Bytes.padded v := by
  refine ((take n).bind fun v => (padding n).bind fun _ => .pure v).congr fun v bytes => ?_
  apply Iff.intro
  · intro h
    obtain ⟨_, _, _, ⟨rfl, rfl⟩, ⟨_, _, _, rfl, ⟨rfl, rfl⟩, rfl⟩, rfl⟩ := h
    exact ⟨rfl, by rw [List.append_nil, Bytes.padded]⟩
  · intro h
    obtain ⟨rfl, rfl⟩ := h
    refine ⟨v, v, _, ⟨rfl, rfl⟩, ⟨(), _, [], rfl, ⟨rfl, rfl⟩, rfl⟩, ?_⟩
    rw [List.append_nil, Bytes.padded]

/-- A string of a fixed length is accepted with zeros up to the end of a word. -/
lemma fixed (n : Nat) :
    (Decode.fixed n).Accepts fun v bytes => bytes = Bytes.padded v.bytes := by
  refine ((padded n).map (FixedBytes.padded n)).congr fun v bytes => ?_
  apply Iff.intro
  · intro h
    obtain ⟨_, ⟨len, rfl⟩, rfl⟩ := h
    rw [FixedBytes.bytes_padded len]
  · intro same
    subst same
    exact ⟨v.bytes, ⟨v.length_eq, rfl⟩, FixedBytes.padded_bytes v⟩

end Accepts

/-- Nothing goes on behind a broken rule of the format. -/
@[simp] lemma fault_bind_ne_ok {fault : Malformed} {f : α → Decode β} {v r r'} :
    (malformed fault >>= f) r ≠ .ok v r' := by
  intro h
  obtain ⟨_, _, first, _⟩ := bind_eq_ok.1 h
  exact throw_ne_ok first

/-- A step may look at the reader before it goes on. -/
@[simp] lemma get_bind_eq {f : Reader → Decode β} {r} : (get >>= f : Decode β) r = f r r := rfl

/-- A length is read where it is within its bound and the input behind it is not shorter. -/
lemma length_eq_ok {max n r r'} :
    length max r = .ok n r' ↔
      n ≤ max ∧ n < 2 ^ 32 ∧ n ≤ r'.rest.length ∧
        r.rest = Bytes.bigEndian 4 n ++ r'.rest ∧ r'.position = r.position + 4 := by
  -- Behind the number itself stand two checks, which leave the reader as it is.
  have outcome : ∀ (m : UInt32) (s : Reader),
      (do if max < m.toNat then malformed (.lengthExceedsMax m.toNat max)
          let remaining := (← get).remaining
          if remaining < m.toNat then malformed (.truncated m.toNat remaining)
          return m.toNat : Decode Nat) s = .ok n r' ↔
        n = m.toNat ∧ r' = s ∧ n ≤ max ∧ n ≤ s.rest.length := by
    intro m s
    split
    case isTrue long =>
      refine ⟨fun e => (fault_bind_ne_ok e).elim, fun ⟨e, _, le, _⟩ => ?_⟩
      omega
    case isFalse within =>
      dsimp only
      rw [get_bind_eq, Reader.remaining]
      split
      case isTrue short =>
        refine ⟨fun e => (fault_bind_ne_ok e).elim, fun ⟨e, _, _, le⟩ => ?_⟩
        omega
      case isFalse enough =>
        rw [pure_eq_ok]
        refine ⟨fun ⟨e, e'⟩ => ⟨e, e', ?_, ?_⟩, fun ⟨e, e', _⟩ => ⟨e, e'⟩⟩ <;> omega
  rw [length, bind_eq_ok]
  apply Iff.intro
  · intro h
    obtain ⟨m, s, read, rest⟩ := h
    obtain ⟨rfl, rfl, le, enough⟩ := (outcome m s).1 rest
    obtain ⟨_, rfl, input, position⟩ := (Accepts.uint32 _ _ _ _).1 read
    refine ⟨le, m.toNat_lt, enough, input, ?_⟩
    simp [position]
  · intro h
    obtain ⟨le, small, enough, input, position⟩ := h
    have value : (UInt32.ofNat n).toNat = n := UInt32.toNat_ofNat_of_lt' small
    refine ⟨UInt32.ofNat n, r', ?_, (outcome _ _).2 ⟨value.symm, rfl, le, enough⟩⟩
    apply (Accepts.uint32 _ _ _ _).2
    exact ⟨_, rfl, by rw [value, input], by simp [position]⟩

namespace Accepts

/-- Behind a length stands something that is at least as long. -/
lemma length_bind {max : Nat} {f : Nat → Decode β} {T : Nat → β → Bytes → Prop}
    (hf : ∀ n, (f n).Accepts (T n)) (long : ∀ n b bytes, T n b bytes → n ≤ bytes.length) :
    (Decode.length max >>= f).Accepts fun b bytes =>
      ∃ n x, n ≤ max ∧ n < 2 ^ 32 ∧ T n b x ∧ bytes = Bytes.bigEndian 4 n ++ x := by
  intro pos input v r
  rw [bind_eq_ok]
  apply Iff.intro
  · intro h
    obtain ⟨n, s, first, second⟩ := h
    obtain ⟨le, small, _, input_eq, pos_eq⟩ := length_eq_ok.1 first
    obtain ⟨x, hx, rest_eq, pos_eq'⟩ := (hf n s.position s.rest v r).1 second
    refine ⟨_, ⟨n, x, le, small, hx, rfl⟩, ?_, ?_⟩
    · rw [List.append_assoc, ← rest_eq, ← input_eq]
    · simp [pos_eq', pos_eq, Nat.add_assoc]
  · intro h
    obtain ⟨_, ⟨n, x, le, small, hx, rfl⟩, input_eq, pos_eq⟩ := h
    have enough := long n v x hx
    refine ⟨n, ⟨pos + 4, x ++ r.rest⟩, ?_, ?_⟩
    · apply length_eq_ok.2
      refine ⟨le, small, ?_, by rw [input_eq, List.append_assoc], rfl⟩
      rw [List.length_append]
      omega
    · apply (hf _ _ _ _ _).2
      refine ⟨x, hx, rfl, ?_⟩
      simp [pos_eq, Nat.add_assoc]

/-- Bytes behind their length are spelled by the length and themselves. -/
lemma counted (max : Nat) :
    (Decode.counted max).Accepts fun v bytes =>
      v.length ≤ max ∧ v.length < 2 ^ 32 ∧
        bytes = Bytes.bigEndian 4 v.length ++ Bytes.padded v := by
  have long : ∀ n v bytes, v.length = n ∧ bytes = Bytes.padded v → n ≤ bytes.length := by
    rintro _ v _ ⟨rfl, rfl⟩
    rw [Bytes.padded, List.length_append]
    omega
  refine (length_bind padded long).congr fun v bytes => ?_
  apply Iff.intro
  · intro h
    obtain ⟨_, _, le, small, ⟨rfl, rfl⟩, rfl⟩ := h
    exact ⟨le, small, rfl⟩
  · intro h
    obtain ⟨le, small, rfl⟩ := h
    exact ⟨_, _, le, small, ⟨rfl, rfl⟩, rfl⟩

/-- A value that may be absent is spelled by a mark and by itself if it is there. -/
lemma optional {d : Decode α} {S : α → Bytes → Prop} (h : d.Accepts S) :
    (Decode.optional d).Accepts fun v bytes =>
      (v = none ∧ bytes = Bytes.bigEndian 4 0) ∨
        ∃ a x, v = some a ∧ S a x ∧ bytes = Bytes.bigEndian 4 1 ++ x := by
  have outcome : ∀ present : Bool, Accepts
      (if present then do return some (← d) else return none)
      fun v bytes => (present = false ∧ v = none ∧ bytes = []) ∨
        ∃ a, present = true ∧ v = some a ∧ S a bytes := by
    intro present
    cases present with
    | false => exact (Accepts.pure none).congr fun v bytes => by simp
    | true => exact (h.map some).congr fun v bytes => by simp [and_comm, eq_comm]
  refine (bool.bind outcome).congr fun v bytes => ?_
  apply Iff.intro
  · intro h
    obtain ⟨present, _, y, rfl, ⟨rfl, rfl, rfl⟩ | ⟨a, rfl, rfl, ha⟩, rfl⟩ := h
    · exact .inl ⟨rfl, rfl⟩
    · exact .inr ⟨a, y, rfl, ha, rfl⟩
  · intro h
    obtain ⟨rfl, rfl⟩ | ⟨a, x, rfl, ha, rfl⟩ := h
    · exact ⟨false, _, [], rfl, .inl ⟨rfl, rfl, rfl⟩, rfl⟩
    · exact ⟨true, _, x, rfl, .inr ⟨a, rfl, rfl, ha⟩, rfl⟩

/-- Values one after another are spelled by their spellings put together, when each has one. -/
lemma repeated {d : Decode α} {P : α → Prop} {spell : α → Bytes}
    (h : d.Accepts fun v bytes => P v ∧ bytes = spell v) (count : Nat) :
    (Decode.repeated d count).Accepts fun xs bytes =>
      xs.length = count ∧ (∀ x ∈ xs, P x) ∧ bytes = xs.flatMap spell := by
  induction count with
  | zero =>
    refine (Accepts.pure []).congr fun xs bytes => ?_
    apply Iff.intro
    · intro h
      obtain ⟨rfl, rfl⟩ := h
      exact ⟨rfl, by simp, rfl⟩
    · intro h
      obtain ⟨none, -, rfl⟩ := h
      cases List.eq_nil_of_length_eq_zero none
      exact ⟨rfl, rfl⟩
  | succ count ih =>
    -- The spelling of the first value comes first, and those of the others are behind it.
    refine (h.bind fun x => ih.map (x :: ·)).congr fun xs bytes => ?_
    apply Iff.intro
    · intro h
      obtain ⟨x, _, _, ⟨hx, rfl⟩, ⟨xs, ⟨rfl, hxs, rfl⟩, rfl⟩, rfl⟩ := h
      refine ⟨rfl, ?_, rfl⟩
      intro y hy
      cases hy with
      | head => exact hx
      | tail _ hy => exact hxs y hy
    · intro h
      obtain ⟨len, all, rfl⟩ := h
      cases xs with
      | nil => cases len
      | cons x xs =>
        have rest : ∀ y ∈ xs, P y := fun y hy => all y (List.mem_cons_of_mem _ hy)
        exact ⟨x, _, _, ⟨all x List.mem_cons_self, rfl⟩,
          ⟨xs, ⟨Nat.succ.inj len, rest, rfl⟩, rfl⟩, rfl⟩

/-- Spellings that are not empty are together at least as long as their number. -/
lemma length_le_flatMap {P : α → Prop} {spell : α → Bytes}
    (pos : ∀ v, P v → 0 < (spell v).length) {xs : List α} (all : ∀ x ∈ xs, P x) :
    xs.length ≤ (xs.flatMap spell).length := by
  induction xs with
  | nil => exact Nat.le_refl 0
  | cons x xs ih =>
    have first := pos x (all x List.mem_cons_self)
    have rest := ih fun y hy => all y (List.mem_cons_of_mem _ hy)
    rw [List.flatMap_cons, List.length_append, List.length_cons]
    omega

/-- A list is spelled by its length and the spellings of its values, when none of them is
empty. -/
lemma list {d : Decode α} {P : α → Prop} {spell : α → Bytes} (max : Nat)
    (h : d.Accepts fun v bytes => P v ∧ bytes = spell v)
    (pos : ∀ v, P v → 0 < (spell v).length) :
    (Decode.list max d).Accepts fun xs bytes =>
      (xs.length ≤ max ∧ ∀ x ∈ xs, P x) ∧ xs.length < 2 ^ 32 ∧
        bytes = Bytes.bigEndian 4 xs.length ++ xs.flatMap spell := by
  -- The check of the length against the input refuses nothing, as no value is spelled by nothing.
  have long : ∀ n (xs : List α) (bytes : Bytes),
      (xs.length = n ∧ (∀ x ∈ xs, P x) ∧ bytes = xs.flatMap spell) → n ≤ bytes.length := by
    rintro _ xs _ ⟨rfl, all, rfl⟩
    exact length_le_flatMap pos all
  refine (length_bind (repeated h) long).congr fun xs bytes => ?_
  apply Iff.intro
  · intro h
    obtain ⟨_, _, le, small, ⟨rfl, all, rfl⟩, rfl⟩ := h
    exact ⟨⟨le, all⟩, small, rfl⟩
  · intro h
    obtain ⟨⟨le, all⟩, small, rfl⟩ := h
    exact ⟨_, _, le, small, ⟨rfl, all, rfl⟩, rfl⟩

end Accepts

/-- The end of the input is where nothing is left. -/
@[simp] lemma finish_eq_ok {s u s'} : finish s = .ok u s' ↔ s.rest = [] ∧ s' = s := by
  rw [finish, get_bind_eq, Reader.remaining]
  split
  case isTrue none =>
    rw [pure_eq_ok, List.length_eq_zero_iff.1 none]
    exact ⟨fun e => ⟨rfl, e.2⟩, fun e => ⟨rfl, e.2⟩⟩
  case isFalse some =>
    refine ⟨fun e => (throw_ne_ok e).elim, fun ⟨e, _⟩ => ?_⟩
    rw [e] at some
    exact (some rfl).elim

/-- A value is read from an input when it is read at its beginning. -/
lemma run_eq_ok {d : Decode α} {input v} :
    run d input = .ok v ↔ ∃ s, d (.ofBytes input) = .ok v s := by
  rw [run]
  cases d (.ofBytes input) with
  | ok a s => simp
  | error fault s => simp

/-- An input is read as a whole when nothing is left behind the value. -/
lemma runAll_eq_ok {d : Decode α} {input v} :
    runAll d input = .ok v ↔ ∃ n, d (.ofBytes input) = .ok v ⟨n, []⟩ := by
  have whole : runAll d input = .ok v ↔ ∃ s, d (.ofBytes input) = .ok v s ∧ s.rest = [] := by
    simp [runAll, run_eq_ok]
  rw [whole]
  apply Iff.intro
  · intro h
    obtain ⟨⟨n, rest⟩, read, rfl⟩ := h
    exact ⟨n, read⟩
  · intro h
    obtain ⟨n, read⟩ := h
    exact ⟨_, read, rfl⟩

/-- An input is refused when it is refused at its beginning. -/
lemma run_of_error {d : Decode α} {input fault s} (failed : d (.ofBytes input) = .error fault s) :
    run d input = .error fault := by
  rw [run, failed]

/-- An input is refused, whatever its end, when it is refused at its beginning. -/
lemma runAll_of_error {d : Decode α} {input fault s}
    (failed : d (.ofBytes input) = .error fault s) : runAll d input = .error fault :=
  run_of_error (bind_of_error failed)

/-- Bytes that are left behind a value are not accepted. -/
lemma runAll_of_rest {d : Decode α} {input v s} (read : d (.ofBytes input) = .ok v s)
    (some : s.rest ≠ []) :
    runAll d input = .error (.malformed (.trailingBytes s.rest.length)) := by
  have left : finish s = .error (.malformed (.trailingBytes s.rest.length)) s := by
    have more : ¬ s.remaining = 0 := fun none => some (List.length_eq_zero_iff.1 none)
    rw [finish, get_bind_eq, if_neg more]
    rfl
  exact run_of_error ((bind_of_ok read).trans (bind_of_error left))

namespace Accepts

/-- An input is read as a whole where it is a spelling. -/
lemma runAll_eq_ok {d : Decode α} {S : α → Bytes → Prop} (h : d.Accepts S) {input v} :
    runAll d input = .ok v ↔ S v input := by
  rw [Decode.runAll_eq_ok]
  apply Iff.intro
  · intro h
    obtain ⟨n, read⟩ := h
    obtain ⟨bytes, spelled, input_eq, -⟩ := (h _ _ _ _).1 read
    rw [List.append_nil] at input_eq
    rwa [input_eq]
  · intro spelled
    refine ⟨input.length, (h _ _ _ _).2 ?_⟩
    exact ⟨input, spelled, (List.append_nil _).symm, (Nat.zero_add _).symm⟩

/-- A spelling is read wherever it stands. -/
lemma read_append {d : Decode α} {S : α → Bytes → Prop} (h : d.Accepts S) {v bytes}
    (spelled : S v bytes) (pos : Nat) (rest : Bytes) :
    d ⟨pos, bytes ++ rest⟩ = .ok v ⟨pos + bytes.length, rest⟩ :=
  (h _ _ _ _).2 ⟨bytes, spelled, rfl, rfl⟩

end Accepts

end LedgerWire.Decode
