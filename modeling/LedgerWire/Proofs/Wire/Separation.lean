import LedgerWire.Proofs.Wire.Union

/-!
# Wire forms that tell values apart

Two values are told apart by their wire forms, even when other bytes follow, if some reader gives
back each of them. The reader need not be that of the codec: where writing goes on beyond the limits
that reading has, a codec still separates the values it can write. `Codec.Separates` states this of
the writing direction alone.
-/

namespace LedgerWire.Codec
variable {α β : Type}

/-- The wire forms of values with a property differ before whatever follows them. -/
def Separates (c : Codec α) (P : α → Prop) : Prop :=
  ∀ v v' rest rest', P v → P v' → c.encode v ++ rest = c.encode v' ++ rest' → v = v' ∧ rest = rest'

/-- Values are told apart by the wire forms from which any reader gives them back. -/
lemma separates_of_accepts {c : Codec α} {d : Decode α} {P : α → Prop}
    (h : d.Accepts fun v bytes => P v ∧ bytes = c.encode v) : c.Separates P := by
  intro v v' rest rest' hv hv' same
  have read := h.read_append ⟨hv, rfl⟩ 0 rest
  have read' := h.read_append ⟨hv', rfl⟩ 0 rest'
  rw [same, read'] at read
  cases read
  exact ⟨rfl, rfl⟩

/-- A lawful codec tells the values that fit apart. -/
lemma Lawful.separates {c : Codec α} {Fits : α → Prop} (h : c.Lawful Fits) : c.Separates Fits :=
  separates_of_accepts h.accepts

namespace Separates
variable {c : Codec α} {d : Codec β} {P : α → Prop} {Q : β → Prop}

/-- Fewer values are told apart, too. -/
lemma mono {P' : α → Prop} (h : c.Separates P) (less : ∀ v, P' v → P v) : c.Separates P' :=
  fun v v' rest rest' hv hv' => h v v' rest rest' (less v hv) (less v' hv')

/-- Pairs are told apart if their parts are. -/
lemma pair (hc : c.Separates P) (hd : d.Separates Q) (appends : d.Appends) :
    (c.pair d).Separates fun p => P p.1 ∧ Q p.2 := by
  intro p p' rest rest' hp hp' same
  rw [appends.encode_pair, appends.encode_pair, List.append_assoc, List.append_assoc] at same
  obtain ⟨first, tails⟩ := hc _ _ _ _ hp.1 hp'.1 same
  obtain ⟨second, rests⟩ := hd _ _ _ _ hp.2 hp'.2 tails
  exact ⟨Prod.ext first second, rests⟩

/-- Values are told apart as what they are changed back to is. -/
lemma map (h : c.Separates P) {into : α → β} {back : β → α} (into_back : ∀ b, into (back b) = b) :
    (c.map into back).Separates fun b => P (back b) := by
  intro b b' rest rest' hb hb' same
  obtain ⟨equal, rests⟩ := h _ _ _ _ hb hb' same
  exact ⟨by rw [← into_back b, equal, into_back], rests⟩

/-- Values one after another, of the same number, are told apart when each of them is. -/
lemma flatMap (h : c.Separates P) {xs xs' : List α} {rest rest' : Bytes}
    (all : ∀ x ∈ xs, P x) (all' : ∀ x ∈ xs', P x) (length : xs.length = xs'.length)
    (same : xs.flatMap c.encode ++ rest = xs'.flatMap c.encode ++ rest') :
    xs = xs' ∧ rest = rest' := by
  induction xs generalizing xs' with
  | nil =>
    cases xs' with
    | nil => exact ⟨rfl, same⟩
    | cons x' xs' => cases length
  | cons x xs ih =>
    cases xs' with
    | nil => cases length
    | cons x' xs' =>
      rw [List.flatMap_cons, List.flatMap_cons, List.append_assoc, List.append_assoc] at same
      obtain ⟨rfl, tails⟩ := h _ _ _ _ (all x List.mem_cons_self) (all' x' List.mem_cons_self) same
      obtain ⟨rfl, rests⟩ := ih (fun y hy => all y (List.mem_cons_of_mem _ hy))
        (fun y hy => all' y (List.mem_cons_of_mem _ hy)) (Nat.succ.inj length) tails
      exact ⟨rfl, rests⟩

/-- Lists whose length fits its field are told apart when their values are. -/
lemma list (h : c.Separates P) (appends : c.Appends) (max : Nat) :
    (c.list max).Separates fun xs => xs.length < 2 ^ 32 ∧ ∀ x ∈ xs, P x := by
  intro xs xs' rest rest' hxs hxs' same
  rw [appends.encode_list, appends.encode_list, List.append_assoc, List.append_assoc,
    Nat.min_eq_left (by omega), Nat.min_eq_left (by omega)] at same
  obtain ⟨count, values⟩ := List.append_inj same
    (by simp)
  have length := congrArg Bytes.toNat count
  rw [Bytes.toNat_bigEndian_of_lt hxs.1, Bytes.toNat_bigEndian_of_lt hxs'.1] at length
  exact h.flatMap hxs.2 hxs'.2 length values

/-- Texts are told apart if their length can be written. -/
lemma text (max : Nat) : (Codec.text max).Separates fun s => (Bytes.ofText s).length < 2 ^ 32 := by
  have all : (Codec.text (2 ^ 32 - 1)).Lawful _ := .text (by decide)
  exact fun s s' rest rest' hs hs' same =>
    all.separates s s' rest rest' (Nat.le_pred_of_lt hs) (Nat.le_pred_of_lt hs') same

/-- A tag in front of them changes nothing about which values are told apart. -/
lemma tagged (h : c.Separates P) (appends : c.Appends) (name : String) (tag : Int32) :
    (Codec.union name [⟨tag, α, c, id, some⟩]).Separates P := by
  intro v v' rest rest' hv hv' same
  rw [appends.encode_tagged, appends.encode_tagged, List.append_assoc, List.append_assoc] at same
  exact h v v' rest rest' hv hv' (List.append_cancel_left same)

/-- Values of a union are told apart when the contents of each arm are. -/
lemma union {name : String} {arms : List (Arm α)} (tagOf : α → Int32)
    (sound : arms.Forall fun arm => arm.Sound tagOf)
    (separates : arms.Forall fun arm => arm.codec.Separates fun p => P (arm.inject p))
    (nodup : (arms.map Arm.tag).Nodup)
    (covers : ∀ v, (arms.any fun arm => (arm.project v).isSome) = true) :
    (Codec.union name arms).Separates P := by
  rw [List.forall_iff_forall_mem] at sound separates
  intro v v' rest rest' hv hv' same
  obtain ⟨arm, mem, some⟩ := List.any_eq_true.1 (covers v)
  obtain ⟨arm', mem', some'⟩ := List.any_eq_true.1 (covers v')
  obtain ⟨p, known⟩ := Option.isSome_iff_exists.1 some
  obtain ⟨p', known'⟩ := Option.isSome_iff_exists.1 some'
  rw [encode_union nodup sound mem known, encode_union nodup sound mem' known',
    List.append_assoc, List.append_assoc] at same
  obtain ⟨tag, contents⟩ := Lawful.int32.separates _ _ _ _ trivial trivial same
  obtain rfl := List.inj_on_of_nodup_map nodup mem mem' tag
  obtain rfl := (sound arm mem).inject_project v p known
  obtain rfl := (sound arm mem).inject_project v' p' known'
  obtain ⟨rfl, rests⟩ := separates arm mem _ _ _ _ hv hv' contents
  exact ⟨rfl, rests⟩

end Separates

end LedgerWire.Codec
