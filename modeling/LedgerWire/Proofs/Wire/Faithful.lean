import LedgerWire.Proofs.Wire.Separation

/-!
# Wire forms that are read back or refused

Writing never fails, so a value beyond the limits of its type has a wire form too. Reading may
refuse it, but it must not take it for another value. `Codec.Faithful` says this of the values with
a property, which may go further than what reading accepts: it is not said that anything is read.
-/

namespace LedgerWire.Codec
variable {α β : Type}

/-- Where the wire form of a value with a property stands, nothing else is read. -/
structure Faithful (c : Codec α) (P : α → Prop) : Prop where
  appends : c.Appends
  reads {v v' : α} {rest : Bytes} {pos : Nat} {r : Reader} (holds : P v)
    (read : c.read ⟨pos, c.encode v ++ rest⟩ = .ok v' r) : v' = v ∧ r.rest = rest

/-- A lawful codec never reads a value for another one that it tells apart. -/
lemma Lawful.faithful_of_separates {c : Codec α} {Fits P : α → Prop} (h : c.Lawful Fits)
    (separates : c.Separates P) (fits : ∀ v, Fits v → P v) : c.Faithful P where
  appends := h.appends
  reads {v v' rest pos r} holds read := by
    obtain ⟨_, ⟨fits', rfl⟩, same, -⟩ := (h.accepts _ _ _ _).1 read
    obtain ⟨rfl, rfl⟩ := separates v v' rest r.rest holds (fits v' fits') same
    exact ⟨rfl, rfl⟩

/-- A codec with one wire form for each value is faithful. -/
lemma Lawful.faithful {c : Codec α} {Fits : α → Prop} (h : c.Lawful Fits) : c.Faithful Fits :=
  h.faithful_of_separates h.separates fun _ => id

namespace Faithful
variable {c : Codec α} {d : Codec β} {P : α → Prop} {Q : β → Prop}

/-- A codec is faithful to fewer values, too. -/
lemma mono {P' : α → Prop} (h : c.Faithful P) (less : ∀ v, P' v → P v) : c.Faithful P' :=
  ⟨h.appends, fun holds => h.reads (less _ holds)⟩

/-- Of a wire form that is read as a whole, nothing but its value comes. -/
lemma eq_of_decode (h : c.Faithful P) {v v' : α} (holds : P v)
    (read : c.decode (c.encode v) = .ok v') : v' = v := by
  obtain ⟨n, all⟩ := Decode.runAll_eq_ok.1 read
  rw [← List.append_nil (c.encode v)] at all
  exact (h.reads holds all).1

/-- Pairs are faithful if their parts are. -/
lemma pair (hc : c.Faithful P) (hd : d.Faithful Q) :
    (c.pair d).Faithful fun p => P p.1 ∧ Q p.2 where
  appends := hc.appends.pair hd.appends
  reads {p p' rest pos r} holds read := by
    rw [hd.appends.encode_pair, List.append_assoc] at read
    obtain ⟨a, ⟨pos', left⟩, first, read⟩ := Decode.bind_eq_ok.1 read
    obtain ⟨rfl, rfl⟩ := hc.reads holds.1 first
    obtain ⟨b, s, second, last⟩ := Decode.bind_eq_ok.1 read
    obtain ⟨rfl, rfl⟩ := hd.reads holds.2 second
    cases last
    exact ⟨rfl, rfl⟩

/-- A value that is its representation, put back, is read back when that is. -/
lemma map (h : c.Faithful P) {into : α → β} {back : β → α}
    (put_back : ∀ b, Q b → P (back b) ∧ into (back b) = b) : (c.map into back).Faithful Q where
  appends := h.appends.map into back
  reads {b b' rest pos r} holds read := by
    obtain ⟨fits, same⟩ := put_back b holds
    obtain ⟨a, s, first, last⟩ := Decode.bind_eq_ok.1 read
    obtain ⟨rfl, rfl⟩ := h.reads fits first
    cases last
    exact ⟨same, rfl⟩

/-- A check may refuse a value, but not replace it. -/
lemma check (h : c.Faithful P) {into : α → Except Forbidden β} {back : β → α}
    (put_back : ∀ b, Q b → P (back b) ∧ ∀ b', into (back b) = .ok b' → b' = b) :
    (c.check into back).Faithful Q where
  appends := h.appends.check into back
  reads {b b' rest pos r} holds read := by
    obtain ⟨fits, same⟩ := put_back b holds
    obtain ⟨a, s, first, last⟩ := Decode.bind_eq_ok.1 read
    obtain ⟨rfl, rfl⟩ := h.reads fits first
    cases passed : into (back b) with
    | ok b'' =>
      rw [passed] at last
      cases last
      exact ⟨same _ passed, rfl⟩
    | error fault =>
      rw [passed] at last
      cases last

/-- Bytes of any number are read back or refused, if the greatest number stands for too many. -/
lemma counted {max : Nat} (small : max < 2 ^ 32 - 1) :
    (Codec.counted max).Faithful fun _ => True where
  appends := .counted max
  reads {v v' rest pos r} _ read := by
    have narrow : max < 2 ^ 32 := by omega
    have lawful := Codec.Lawful.counted narrow
    obtain ⟨_, ⟨fits, rfl⟩, same, -⟩ := (lawful.accepts _ _ _ _).1 read
    have bytes := same
    rw [encode_counted, encode_counted, List.append_assoc, List.append_assoc] at bytes
    have lengths := congrArg Bytes.toNat (List.append_inj bytes (by simp)).1
    rw [Bytes.toNat_bigEndian_of_lt (by omega), Bytes.toNat_bigEndian_of_lt (by omega)] at lengths
    obtain ⟨rfl, rfl⟩ := lawful.separates v v' rest r.rest (by omega) fits same
    exact ⟨rfl, rfl⟩

/-- Texts are faithful, too long ones among them. -/
lemma text {max : Nat} (small : max < 2 ^ 32 - 1) : (Codec.text max).Faithful fun _ => True := by
  refine (counted small).check fun s _ => ⟨trivial, fun s' passed => ?_⟩
  rw [Utf8.decode_ofText] at passed
  cases passed
  rfl

/-- Values one after another are read back, if as many are read. -/
lemma repeated (h : c.Faithful P) {xs ys : List α} {rest : Bytes} {pos : Nat} {r : Reader}
    (all : ∀ x ∈ xs, P x)
    (read : Decode.repeated c.read xs.length ⟨pos, xs.flatMap c.encode ++ rest⟩ = .ok ys r) :
    ys = xs ∧ r.rest = rest := by
  induction xs generalizing ys pos r with
  | nil =>
    cases read
    exact ⟨rfl, rfl⟩
  | cons x xs ih =>
    rw [List.flatMap_cons, List.append_assoc] at read
    obtain ⟨y, ⟨pos', left⟩, first, read⟩ := Decode.bind_eq_ok.1 read
    obtain ⟨rfl, rfl⟩ := h.reads (all x List.mem_cons_self) first
    obtain ⟨ys, s, others, last⟩ := Decode.bind_eq_ok.1 read
    obtain ⟨rfl, rfl⟩ := ih (fun y mem => all y (List.mem_cons_of_mem _ mem)) others
    cases last
    exact ⟨rfl, rfl⟩

/-- Lists are faithful if their values are and their number can be written. -/
lemma list (h : c.Faithful P) (max : Nat) :
    (c.list max).Faithful fun xs => xs.length < 2 ^ 32 ∧ ∀ x ∈ xs, P x where
  appends := h.appends.list max
  reads {xs ys rest pos r} holds read := by
    rw [h.appends.encode_list, Nat.min_eq_left (by omega), List.append_assoc] at read
    obtain ⟨n, ⟨pos', left⟩, first, read⟩ := Decode.bind_eq_ok.1 read
    obtain ⟨_, small, _, input, _⟩ := Decode.length_eq_ok.1 first
    obtain ⟨count, rfl⟩ := List.append_inj input (by simp)
    have length := congrArg Bytes.toNat count
    rw [Bytes.toNat_bigEndian_of_lt holds.1, Bytes.toNat_bigEndian_of_lt small] at length
    subst length
    exact h.repeated holds.2 read

/-- Values of a union are read back or refused when the contents of each arm are. -/
lemma union {name : String} {arms : List (Arm α)} (tagOf : α → Int32)
    (sound : arms.Forall fun arm => arm.Sound tagOf)
    (faithful : arms.Forall fun arm => arm.codec.Faithful fun p => P (arm.inject p))
    (nodup : (arms.map Arm.tag).Nodup)
    (covers : ∀ v, (arms.any fun arm => (arm.project v).isSome) = true) :
    (Codec.union name arms).Faithful P := by
  rw [List.forall_iff_forall_mem] at sound faithful
  refine ⟨.union nodup sound covers, fun {v v' rest pos r} holds read => ?_⟩
  obtain ⟨arm, mem, some⟩ := List.any_eq_true.1 (covers v)
  obtain ⟨p, known⟩ := Option.isSome_iff_exists.1 some
  obtain rfl := (sound arm mem).inject_project v p known
  rw [encode_union nodup sound mem known, List.append_assoc] at read
  obtain ⟨tag, ⟨pos', left⟩, first, read⟩ := Decode.bind_eq_ok.1 read
  obtain ⟨rfl, rfl⟩ := Lawful.int32.faithful.reads trivial first
  cases found : arms.find? fun other => other.tag == arm.tag with
  | some arm' =>
    -- The tag that was written leads back to the arm.
    rw [found] at read
    have mem' := List.mem_of_find?_eq_some found
    have hit : arm'.tag = arm.tag := by simpa using List.find?_some found
    obtain rfl := List.inj_on_of_nodup_map nodup mem' mem hit
    obtain ⟨q, s, contents, last⟩ := Decode.bind_eq_ok.1 read
    obtain ⟨rfl, rfl⟩ := (faithful arm' mem).reads holds contents
    cases last
    exact ⟨rfl, rfl⟩
  | none =>
    rw [found] at read
    cases read

/-- A tag in front of them changes nothing about which values are read back. -/
lemma tagged (h : c.Faithful P) (name : String) (tag : Int32) :
    (Codec.union name [⟨tag, α, c, id, some⟩]).Faithful P := by
  refine .union (fun _ => tag) (.of_inverse h.appends ?_) h (List.nodup_singleton _) fun _ => rfl
  exact ⟨fun _ _ known => (Option.some.inj known).symm, fun _ => rfl, fun _ => rfl⟩

end Faithful

end LedgerWire.Codec
