import Mathlib.Data.List.Nodup
import LedgerWire.Proofs.Wire.Lawful

/-!
# Unions that lose nothing

A union is read by its tag and written by the first arm that knows the value, so the two directions
meet only if the tag of a value tells its arm. `Arm.Sound` asks this of one arm, for a function that
names the tag of every value, and `Arm.Lawful` asks in addition that the contents of the arm are
read back. A union of lawful arms with different tags is lawful.
-/

namespace LedgerWire
variable {α β : Type}

namespace Arm

/-- An arm knows only values with its tag, and puts back what it takes out of them. -/
structure Sound (arm : Arm α) (tagOf : α → Int32) : Prop where
  /-- Contents that are taken out of a value make it again. -/
  inject_project : ∀ v p, arm.project v = some p → arm.inject p = v
  /-- A value that the arm knows has its tag. -/
  tag_project : ∀ v p, arm.project v = some p → tagOf v = arm.tag
  /-- The contents are only appended. -/
  appends : arm.codec.Appends

/-- A sound arm whose contents are read back when the value they make fits. -/
structure Lawful (arm : Arm α) (tagOf : α → Int32) (Fits : α → Prop) : Prop
    extends Sound arm tagOf where
  /-- Contents are read back when the value they make fits and is known to the arm. -/
  codec : arm.codec.Lawful fun p => Fits (arm.inject p) ∧ arm.project (arm.inject p) = some p

variable {arm : Arm α} {tagOf : α → Int32} {Fits : α → Prop}

/-- The two directions of an arm are inverse to each other, and what is put in has its tag. -/
structure Inverse (arm : Arm α) (tagOf : α → Int32) : Prop where
  /-- Contents that are taken out of a value make it again. -/
  inject_project : ∀ v p, arm.project v = some p → arm.inject p = v
  /-- Contents that make a value are taken out of it again. -/
  project_inject : ∀ p, arm.project (arm.inject p) = some p
  /-- The value that contents make has the tag. -/
  tag_inject : ∀ p, tagOf (arm.inject p) = arm.tag

/-- An arm whose contents are those of its values alone tells its values. -/
lemma Sound.of_inverse (appends : arm.codec.Appends) (inverse : arm.Inverse tagOf) :
    arm.Sound tagOf where
  inject_project := inverse.inject_project
  tag_project v p known := by rw [← inverse.inject_project v p known, inverse.tag_inject]
  appends := appends

/-- An arm whose two directions are inverse to each other is lawful when its contents are. -/
lemma Lawful.of_inverse (codec : arm.codec.Lawful fun p => Fits (arm.inject p))
    (inverse : arm.Inverse tagOf) : arm.Lawful tagOf Fits where
  toSound := .of_inverse codec.appends inverse
  codec := codec.congr fun p => (and_iff_left (inverse.project_inject p)).symm

/-- An arm that carries nothing is lawful when its value fits. -/
lemma Lawful.void {tag : Int32} {value : α} {isValue : α → Bool}
    (isValue_iff : ∀ v, isValue v = true ↔ v = value) (tag_eq : tagOf value = tag)
    (fits : Fits value) : (Arm.void tag value isValue).Lawful tagOf Fits := by
  have known : ∀ v p, (Arm.void tag value isValue).project v = some p → v = value := by
    intro v p h
    apply (isValue_iff v).1
    by_contra other
    have unknown : (if isValue v then some () else none) = none := if_neg other
    cases unknown.symm.trans h
  have same : (if isValue value then some () else none) = some () :=
    if_pos ((isValue_iff value).2 rfl)
  constructor
  · constructor
    · intro v p h
      exact (known v p h).symm
    · intro v p h
      rw [known v p h, tag_eq]
      rfl
    · exact Codec.Lawful.void.appends
  · exact Codec.Lawful.void.congr fun _ => iff_of_true trivial ⟨fits, same⟩

/-- The arms of a union as arms of a wider one are lawful when the wider type keeps
the values apart. -/
lemma forall_widen {arms : List (Arm α)} (lawful : arms.Forall fun arm => arm.Lawful tagOf Fits)
    {tagOf' : β → Int32} {Fits' : β → Prop} {into : α → β} {back : β → Option α}
    (back_into : ∀ a, back (into a) = some a) (into_back : ∀ b a, back b = some a → into a = b)
    (tag : ∀ a, tagOf' (into a) = tagOf a) (fits : ∀ a, Fits' (into a) ↔ Fits a) :
    (arms.map (·.widen into back)).Forall fun arm => arm.Lawful tagOf' Fits' := by
  refine (List.forall_map_iff _).2 (lawful.imp fun arm h => ?_)
  have known : ∀ b p, (arm.widen into back).project b = some p →
      ∃ a, into a = b ∧ arm.project a = some p := by
    intro b p hp
    obtain ⟨a, ha, hp⟩ := Option.bind_eq_some_iff.1 hp
    exact ⟨a, into_back b a ha, hp⟩
  constructor
  · constructor
    · intro b p hp
      obtain ⟨a, rfl, inner⟩ := known b p hp
      exact congrArg into (h.inject_project a p inner)
    · intro b p hp
      obtain ⟨a, rfl, inner⟩ := known b p hp
      exact (tag a).trans (h.tag_project a p inner)
    · exact h.appends
  · refine h.codec.congr fun p => ?_
    have same : (arm.widen into back).project (into (arm.inject p)) =
        arm.project (arm.inject p) := by
      have first : (arm.widen into back).project (into (arm.inject p)) =
          (back (into (arm.inject p))).bind arm.project := rfl
      rw [first, back_into, Option.bind_some]
    exact and_congr (fits _).symm (by rw [← same]; exact Iff.rfl)

end Arm

namespace Codec
variable {arms : List (Arm α)} {tagOf : α → Int32} {name : String}

/-- A union writes a value through the arm that knows it. -/
lemma union_write (nodup : (arms.map Arm.tag).Nodup) (sound : ∀ arm ∈ arms, arm.Sound tagOf)
    {arm : Arm α} (mem : arm ∈ arms) {v p} (known : arm.project v = some p) (w : Writer) :
    (union name arms).write v w = arm.codec.write p (w.int32 arm.tag) := by
  -- An arm that knows the value has the tag of the value, and no two arms have the same tag.
  have only : ∀ other ∈ arms, ∀ q, other.project v = some q → other = arm := by
    intro other mem' q known'
    apply List.inj_on_of_nodup_map nodup mem' mem
    rw [← (sound other mem').tag_project v q known', (sound arm mem).tag_project v p known]
  have found : (arms.findSome? fun other =>
      (other.project v).map fun q => other.codec.write q (w.int32 other.tag)) =
      some (arm.codec.write p (w.int32 arm.tag)) := by
    cases first : arms.findSome? fun other =>
      (other.project v).map fun q => other.codec.write q (w.int32 other.tag) with
    | none =>
      have unknown := List.findSome?_eq_none_iff.1 first arm mem
      rw [known] at unknown
      cases unknown
    | some written =>
      obtain ⟨other, mem', wrote⟩ := List.exists_of_findSome?_eq_some first
      obtain ⟨q, known', rfl⟩ := Option.map_eq_some_iff.1 wrote
      obtain rfl := only other mem' q known'
      rw [known] at known'
      cases known'
      rfl
  rw [union]
  dsimp only
  rw [found, Option.getD_some]

/-- A value of a union is written behind the tag of its arm. -/
lemma encode_union (nodup : (arms.map Arm.tag).Nodup) (sound : ∀ arm ∈ arms, arm.Sound tagOf)
    {arm : Arm α} (mem : arm ∈ arms) {v p} (known : arm.project v = some p) :
    (union name arms).encode v = int32.encode arm.tag ++ arm.codec.encode p := by
  rw [encode, union_write nodup sound mem known, (sound arm mem).appends]
  rfl

/-- A union only appends, if each of its values is known to an arm. -/
lemma Appends.union (nodup : (arms.map Arm.tag).Nodup) (sound : ∀ arm ∈ arms, arm.Sound tagOf)
    (covers : ∀ v, (arms.any fun arm => (arm.project v).isSome) = true) :
    (union name arms).Appends := by
  intro v w
  obtain ⟨arm, mem, some⟩ := List.any_eq_true.1 (covers v)
  obtain ⟨p, known⟩ := Option.isSome_iff_exists.1 some
  rw [union_write nodup sound mem known, (sound arm mem).appends,
    encode_union nodup sound mem known]
  simp [encode_int32]

/-- A value with a tag has the tag in front. -/
lemma Appends.encode_tagged {c : Codec α} (h : c.Appends) (name : String) (tag : Int32) (v : α) :
    (Codec.union name [⟨tag, α, c, id, some⟩]).encode v = int32.encode tag ++ c.encode v :=
  h v _

/-- Values with a tag are written behind what is there. -/
lemma Appends.tagged {c : Codec α} (h : c.Appends) (name : String) (tag : Int32) :
    (Codec.union name [⟨tag, α, c, id, some⟩]).Appends := by
  intro v w
  have inside : ((Codec.union name [⟨tag, α, c, id, some⟩]).write v w).bytes =
      (w.int32 tag).bytes ++ c.encode v := h v _
  simp [inside, h.encode_tagged, encode_int32]

end Codec

/-- Spellings of the arms of a union, behind their tags, are the spellings of the union. -/
lemma Decode.Accepts.union {name : String} {arms : List (Arm α)}
    (nodup : (arms.map Arm.tag).Nodup) {S : (arm : Arm α) → arm.Payload → Bytes → Prop}
    (h : ∀ arm ∈ arms, arm.codec.read.Accepts (S arm)) :
    (Codec.union name arms).read.Accepts fun v bytes =>
      ∃ arm ∈ arms, ∃ p x, S arm p x ∧ arm.inject p = v ∧
        bytes = Codec.int32.encode arm.tag ++ x := by
  refine (int32.bind (T := fun tag v x =>
    ∃ arm ∈ arms, arm.tag = tag ∧ ∃ p, S arm p x ∧ arm.inject p = v) fun tag => ?_).congr
    fun v bytes => ?_
  · split
    case h_1 arm found =>
      have mem := List.mem_of_find?_eq_some found
      have hit : arm.tag = tag := by simpa using List.find?_some found
      refine ((h arm mem).map arm.inject).congr fun v x => ?_
      apply Iff.intro
      · intro h
        obtain ⟨p, hp, rfl⟩ := h
        exact ⟨arm, mem, hit, p, hp, rfl⟩
      · intro h
        obtain ⟨other, mem', hit', p, hp, rfl⟩ := h
        -- The arm that was found is the only one with the tag.
        obtain rfl := List.inj_on_of_nodup_map nodup mem' mem (hit'.trans hit.symm)
        exact ⟨p, hp, rfl⟩
    case h_2 missing =>
      refine .fault fun v x ⟨arm, mem, hit, _⟩ => ?_
      have miss := List.find?_eq_none.1 missing arm mem
      simp [hit] at miss
  · apply Iff.intro
    · intro h
      obtain ⟨_, _, x, rfl, ⟨arm, mem, rfl, p, hp, rfl⟩, rfl⟩ := h
      exact ⟨arm, mem, p, x, hp, rfl, by rw [Codec.encode_int32]⟩
    · intro h
      obtain ⟨arm, mem, p, x, hp, rfl, rfl⟩ := h
      exact ⟨arm.tag, _, x, rfl, ⟨arm, mem, rfl, p, hp, rfl⟩, by rw [Codec.encode_int32]⟩

/-- The spellings of a union are what its arms read as a whole, behind their tags. -/
lemma Codec.union_accepts {name : String} {arms : List (Arm α)}
    (h : arms.Forall fun arm => ∃ S, arm.codec.read.Accepts S)
    (nodup : (arms.map Arm.tag).Nodup) :
    (Codec.union name arms).read.Accepts fun v bytes =>
      ∃ arm ∈ arms, ∃ p x, arm.codec.decode x = .ok p ∧ arm.inject p = v ∧
        bytes = Codec.int32.encode arm.tag ++ x := by
  apply Decode.Accepts.union nodup
  intro arm mem
  obtain ⟨S, accepts⟩ := List.forall_iff_forall_mem.1 h arm mem
  exact accepts.congr fun p x => accepts.runAll_eq_ok.symm

namespace Codec.Lawful
variable {c : Codec α} {arms : List (Arm α)} {tagOf : α → Int32} {Fits : α → Prop}

/-- Values of a union fit as their arms say. -/
lemma union (name : String) (tagOf : α → Int32)
    (lawful : arms.Forall fun arm => arm.Lawful tagOf Fits)
    (nodup : (arms.map Arm.tag).Nodup)
    (covers : ∀ v, (arms.any fun arm => (arm.project v).isSome) = true) :
    (Codec.union name arms).Lawful Fits := by
  rw [List.forall_iff_forall_mem] at lawful
  have sound := fun arm mem => (lawful arm mem).toSound
  refine ⟨.union nodup sound covers, ?_⟩
  refine (Decode.Accepts.union nodup fun arm mem => (lawful arm mem).codec.accepts).congr
    fun v bytes => ?_
  apply Iff.intro
  · intro h
    obtain ⟨arm, mem, p, _, ⟨⟨fits, known⟩, rfl⟩, rfl, rfl⟩ := h
    exact ⟨fits, (encode_union nodup sound mem known).symm⟩
  · intro h
    obtain ⟨fits, rfl⟩ := h
    obtain ⟨arm, mem, some⟩ := List.any_eq_true.1 (covers v)
    obtain ⟨p, known⟩ := Option.isSome_iff_exists.1 some
    obtain rfl := (lawful arm mem).inject_project v p known
    exact ⟨arm, mem, p, _, ⟨⟨fits, known⟩, rfl⟩, rfl, encode_union nodup sound mem known⟩

/-- A value of a lawful union is not written as nothing, from which no tag can be read. -/
lemma union_pos {name : String} (h : (Codec.union name arms).Lawful Fits) (v : α) (fits : Fits v) :
    0 < ((Codec.union name arms).encode v).length := by
  rw [List.length_pos_iff]
  intro empty
  have read : (Codec.union name arms).decode [] = .ok v := by
    rw [h.decode_eq_ok]
    exact ⟨fits, empty.symm⟩
  have refused : (Codec.union name arms).decode [] = .error (.malformed (.truncated 4 0)) := rfl
  cases refused.symm.trans read

/-- A union with a single arm changes nothing but the wire form. -/
lemma versioned (h : c.Lawful Fits) (name : String) : (Codec.versioned name c).Lawful Fits := by
  refine .union name (fun _ => 0) ?_ (List.nodup_singleton _) fun _ => rfl
  exact .of_inverse h ⟨fun v p known => (Option.some.inj known).symm, fun _ => rfl, fun _ => rfl⟩

end Codec.Lawful

end LedgerWire
