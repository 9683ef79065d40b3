import Mathlib.Tactic.Lemma
import Mathlib.Tactic.Ring
import LedgerWire.Bytes.Basic

/-!
# Bit strings, digits and bytes

A list is cut into groups of one size and a shorter rest in one way only, and a number below
`2 ^ width` has one string of `width` bits. So a bit string is determined by its digits, of which
the last is filled up with zeros, and whole bytes with the bits left over are determined by the bit
string that they make up.
-/

namespace LedgerWire
variable {α : Type} {size : Nat}

/-- The groups have the size that is asked for, and the rest is shorter. -/
lemma regroup_length (begun list : List α) (short : begun.length < size) :
    (∀ g ∈ (regroup size begun list).1, g.length = size) ∧
      (regroup size begun list).2.length < size := by
  induction list generalizing begun with
  | nil => exact ⟨nofun, short⟩
  | cons x list ih =>
    rw [regroup]
    split
    case isTrue full =>
      obtain ⟨groups, rest⟩ := ih [] (by simp; omega)
      refine ⟨fun g mem => ?_, rest⟩
      cases mem with
      | head => rw [List.length_append, List.length_singleton, full]
      | tail _ mem => exact groups g mem
    case isFalse more =>
      apply ih
      rw [List.length_append, List.length_singleton]
      omega

/-- Groups of one size and a shorter rest are determined by the list that they make up. -/
lemma flatten_append_inj {gs gs' : List (List α)} {rest rest' : List α}
    (sized : ∀ g ∈ gs, g.length = size) (sized' : ∀ g ∈ gs', g.length = size)
    (short : rest.length < size) (short' : rest'.length < size)
    (same : gs.flatten ++ rest = gs'.flatten ++ rest') : gs = gs' ∧ rest = rest' := by
  induction gs generalizing gs' with
  | nil =>
    cases gs' with
    | nil => exact ⟨rfl, same⟩
    | cons g gs' =>
      -- The rest would hold a whole group.
      have long := congrArg List.length same
      have first := sized' g List.mem_cons_self
      simp only [List.flatten_nil, List.nil_append, List.flatten_cons, List.length_append] at long
      omega
  | cons g gs ih =>
    have first := sized g List.mem_cons_self
    cases gs' with
    | nil =>
      have long := congrArg List.length same
      simp only [List.flatten_nil, List.nil_append, List.flatten_cons, List.length_append] at long
      omega
    | cons g' gs' =>
      have first' := sized' g' List.mem_cons_self
      rw [List.flatten_cons, List.flatten_cons, List.append_assoc, List.append_assoc] at same
      obtain ⟨rfl, tails⟩ := List.append_inj same (first.trans first'.symm)
      obtain ⟨rfl, rfl⟩ := ih (fun g mem => sized g (List.mem_cons_of_mem _ mem))
        (fun g mem => sized' g (List.mem_cons_of_mem _ mem)) tails
      exact ⟨rfl, rfl⟩

/-- The groups and the rest of a list are those that make it up. -/
lemma groups_eq_iff {list rest : List α} {gs : List (List α)} (pos : 0 < size) :
    groups size list = (gs, rest) ↔
      (∀ g ∈ gs, g.length = size) ∧ rest.length < size ∧ list = gs.flatten ++ rest := by
  have made := regroup_length [] list pos
  apply Iff.intro
  · intro cut
    rw [← groups, cut] at made
    have whole := groups_flatten size list
    rw [cut] at whole
    exact ⟨made.1, made.2, whole.symm⟩
  · intro h
    obtain ⟨sized, short, whole⟩ := h
    have same := (groups_flatten size list).trans whole
    obtain ⟨left, right⟩ := flatten_append_inj made.1 sized made.2 short same
    exact Prod.ext left right

namespace Bits

/-- A number has as many bits as it is given. -/
@[simp] lemma length_ofNat (width n : Nat) : (ofNat width n).length = width := by
  induction width with
  | zero => rfl
  | succ width ih => rw [ofNat, List.length_cons, ih]

/-- Numbers that agree in their lowest bits have the same of these. -/
lemma ofNat_congr {width n m : Nat} (same : ∀ i < width, n.testBit i = m.testBit i) :
    ofNat width n = ofNat width m := by
  induction width with
  | zero => rfl
  | succ width ih =>
    rw [ofNat, ofNat, same width (Nat.lt_succ_self _), ih fun i lt => same i (Nat.lt_succ_of_lt lt)]

/-- The bits of a number are those of its upper and of its lower part. -/
lemma ofNat_add (high low n : Nat) :
    ofNat (high + low) n = ofNat high (n / 2 ^ low) ++ ofNat low n := by
  induction high with
  | zero => rw [Nat.zero_add, ofNat, List.nil_append]
  | succ high ih =>
    rw [Nat.add_right_comm, ofNat, ofNat, ih, Nat.testBit_div_two_pow, List.cons_append]

/-- Bits read behind a number are the lower digits of the result. -/
lemma foldl_toNat (bits : List Bool) (acc : Nat) :
    bits.foldl (fun n b => 2 * n + b.toNat) acc = acc * 2 ^ bits.length + toNat bits := by
  induction bits generalizing acc with
  | nil => simp [toNat]
  | cons b bits ih =>
    have cons : toNat (b :: bits) = (2 * 0 + b.toNat) * 2 ^ bits.length + toNat bits := ih _
    rw [List.foldl_cons, ih, cons, List.length_cons]
    ring

/-- The first bit is the digit of the greatest weight. -/
lemma toNat_cons (b : Bool) (bits : List Bool) :
    toNat (b :: bits) = 2 ^ bits.length * b.toNat + toNat bits := by
  have h := foldl_toNat bits (2 * 0 + b.toNat)
  rw [toNat, List.foldl_cons, h]
  ring

/-- So many bits write a number below that power of two. -/
lemma toNat_lt (bits : List Bool) : toNat bits < 2 ^ bits.length := by
  induction bits with
  | nil => decide
  | cons b bits ih =>
    have bit := Bool.toNat_le b
    have high : 2 ^ bits.length * b.toNat ≤ 2 ^ bits.length * 1 := Nat.mul_le_mul_left _ bit
    rw [toNat_cons, List.length_cons, pow_succ]
    omega

/-- The bits of the number that some bits write are these bits. -/
@[simp] lemma ofNat_toNat (bits : List Bool) : ofNat bits.length (toNat bits) = bits := by
  induction bits with
  | nil => rfl
  | cons b bits ih =>
    have small := toNat_lt bits
    have top : (toNat (b :: bits)).testBit bits.length = b := by
      rw [toNat_cons, Nat.testBit_two_pow_mul_add _ small, if_neg (Nat.lt_irrefl _), Nat.sub_self]
      cases b <;> rfl
    have others : ofNat bits.length (toNat (b :: bits)) = ofNat bits.length (toNat bits) := by
      apply ofNat_congr
      intro i lt
      rw [toNat_cons, Nat.testBit_two_pow_mul_add _ small, if_pos lt]
    rw [List.length_cons, ofNat, top, others, ih]

/-- The number of the lowest bits of a number is what its width has room for. -/
@[simp] lemma toNat_ofNat (width n : Nat) : toNat (ofNat width n) = n % 2 ^ width := by
  induction width with
  | zero => rw [ofNat, Nat.pow_zero, Nat.mod_one, toNat, List.foldl_nil]
  | succ width ih =>
    rw [ofNat, toNat_cons, length_ofNat, ih, Nat.toNat_testBit, pow_succ, Nat.mod_mul, Nat.add_comm]

/-- A number that fits its bits is read back from them. -/
lemma toNat_ofNat_of_lt {width n : Nat} (h : n < 2 ^ width) : toNat (ofNat width n) = n := by
  rw [toNat_ofNat, Nat.mod_eq_of_lt h]

/-- Numbers that fit so many bits are told by them. -/
lemma ofNat_inj {width n m : Nat} (hn : n < 2 ^ width) (hm : m < 2 ^ width)
    (same : ofNat width n = ofNat width m) : n = m := by
  rw [← toNat_ofNat_of_lt hn, same, toNat_ofNat_of_lt hm]

/-- To be cut to a byte leaves the lowest eight bits of a number alone. -/
lemma ofNat_toNat_ofNat (n : Nat) : ofNat 8 (UInt8.ofNat n).toNat = ofNat 8 n := by
  apply ofNat_congr
  intro i lt
  rw [UInt8.toNat_ofNat', Nat.testBit_mod_two_pow, decide_eq_true lt, Bool.true_and]

/-- Bits write zero when none of them is set. -/
lemma toNat_eq_zero {bits : List Bool} :
    toNat bits = 0 ↔ bits = List.replicate bits.length false := by
  induction bits with
  | nil => exact iff_of_true rfl rfl
  | cons b bits ih =>
    rw [toNat_cons, List.length_cons, List.replicate_succ, List.cons.injEq, ← ih]
    cases b <;> simp

variable {width : Nat}

/-- The bits of the first digit come first. -/
@[simp] lemma ofDigits_cons (width d : Nat) (digits : List Nat) :
    ofDigits width (d :: digits) = ofNat width d ++ ofDigits width digits := List.flatMap_cons

/-- The bits of digits stand behind each other as the digits do. -/
@[simp] lemma ofDigits_append (width : Nat) (digits digits' : List Nat) :
    ofDigits width (digits ++ digits') = ofDigits width digits ++ ofDigits width digits' :=
  List.flatMap_append

/-- A single digit has the bits of a number. -/
@[simp] lemma ofDigits_singleton (width d : Nat) : ofDigits width [d] = ofNat width d :=
  List.flatMap_singleton _ _

/-- Every digit has as many bits as its width. -/
@[simp] lemma length_ofDigits (width : Nat) (digits : List Nat) :
    (ofDigits width digits).length = width * digits.length := by
  induction digits with
  | nil => rfl
  | cons d digits ih =>
    simp only [ofDigits_cons, List.length_append, length_ofNat, ih, List.length_cons]
    ring

/-- The bits of a byte string are those of digits of eight bits. -/
lemma ofBytes_eq (bytes : Bytes) : ofBytes bytes = ofDigits 8 (bytes.map UInt8.toNat) := by
  rw [ofBytes, ofDigits, List.flatMap_map]

/-- Every byte has eight bits. -/
@[simp] lemma length_ofBytes (bytes : Bytes) : (ofBytes bytes).length = 8 * bytes.length := by
  simp [ofBytes_eq]

/-- The bits of the first byte come first. -/
@[simp] lemma ofBytes_cons (b : UInt8) (bytes : Bytes) :
    ofBytes (b :: bytes) = ofNat 8 b.toNat ++ ofBytes bytes := List.flatMap_cons

/-- The bits of bytes stand behind each other as the bytes do. -/
@[simp] lemma ofBytes_append (bytes bytes' : Bytes) :
    ofBytes (bytes ++ bytes') = ofBytes bytes ++ ofBytes bytes' := List.flatMap_append

/-- Groups of one size are the bits of the numbers that they write. -/
lemma ofDigits_map_toNat {gs : List (List Bool)} (sized : ∀ g ∈ gs, g.length = width) :
    ofDigits width (gs.map toNat) = gs.flatten := by
  rw [ofDigits, List.flatMap_map, List.flatMap_def]
  congr 1
  conv => rhs; rw [← List.map_id gs]
  apply List.map_congr_left
  intro g mem
  rw [← sized g mem, ofNat_toNat, id]

/-- The bits of digits are cut into the bits of each digit again. -/
lemma groups_ofDigits {digits : List Nat} {rest : List Bool} (short : rest.length < width) :
    groups width (ofDigits width digits ++ rest) = (digits.map (ofNat width), rest) := by
  refine (groups_eq_iff (by omega)).2 ⟨fun g mem => ?_, short, ?_⟩
  · obtain ⟨d, -, rfl⟩ := List.mem_map.1 mem
    exact length_ofNat width d
  · rw [ofDigits, List.flatMap_def]

/-- Digits that fit their width are told by their bits. -/
lemma ofDigits_inj {digits digits' : List Nat} (pos : 0 < width)
    (small : ∀ d ∈ digits, d < 2 ^ width) (small' : ∀ d ∈ digits', d < 2 ^ width)
    (same : ofDigits width digits = ofDigits width digits') : digits = digits' := by
  have back : ∀ ds : List Nat, (∀ d ∈ ds, d < 2 ^ width) →
      (groups width (ofDigits width ds)).1.map toNat = ds := by
    intro ds small
    rw [← List.append_nil (ofDigits width ds), groups_ofDigits pos, List.map_map]
    conv => rhs; rw [← List.map_id ds]
    exact List.map_congr_left fun d mem => toNat_ofNat_of_lt (small d mem)
  rw [← back digits small, same, back digits' small']

/-- Whole bytes and fewer bits than make up another one are determined by the bits together. -/
theorem toBytes_eq_iff {bits rest : List Bool} {bytes : Bytes} :
    toBytes bits = (bytes, rest) ↔ bits = ofBytes bytes ++ rest ∧ rest.length < 8 := by
  apply Iff.intro
  · intro made
    rcases cut : groups 8 bits with ⟨full, unused⟩
    obtain ⟨sized, short, rfl⟩ := (groups_eq_iff (by decide)).1 cut
    rw [toBytes, cut, Prod.mk.injEq] at made
    obtain ⟨rfl, rfl⟩ := made
    have numbers : (full.map fun g => UInt8.ofNat (toNat g)).map UInt8.toNat = full.map toNat := by
      rw [List.map_map]
      apply List.map_congr_left
      intro g mem
      have small := toNat_lt g
      rw [sized g mem] at small
      exact UInt8.toNat_ofNat_of_lt' small
    rw [ofBytes_eq, numbers, ofDigits_map_toNat sized]
    exact ⟨rfl, short⟩
  · intro h
    obtain ⟨rfl, short⟩ := h
    have bytesBack : (bytes.map UInt8.toNat).map (fun d => UInt8.ofNat (toNat (ofNat 8 d))) =
        bytes := by
      rw [List.map_map]
      conv => rhs; rw [← List.map_id bytes]
      apply List.map_congr_left
      intro b _
      rw [Function.comp_apply, toNat_ofNat_of_lt b.toNat_lt, UInt8.ofNat_toNat, id]
    rw [toBytes, ofBytes_eq, groups_ofDigits short]
    dsimp only
    rw [List.map_map]
    exact congrArg (·, rest) bytesBack

/-- What the whole bytes leave over is fewer than `bound` zeros, and nothing else, when the bits are
written by the bytes with such zeros behind them. -/
lemma toBytes_zeros_iff {bits : List Bool} {bytes : Bytes} {bound : Nat} (small : bound ≤ 8) :
    (∃ rest, toBytes bits = (bytes, rest) ∧ rest.length < bound ∧ rest.any id = false) ↔
      ∃ zeros < bound, bits = ofBytes bytes ++ List.replicate zeros false := by
  apply Iff.intro
  · intro h
    obtain ⟨rest, cut, few, clear⟩ := h
    have zeros : rest = List.replicate rest.length false := by
      refine List.eq_replicate_iff.2 ⟨rfl, fun b mem => ?_⟩
      simpa using List.any_eq_false.1 clear b mem
    exact ⟨_, few, zeros ▸ (toBytes_eq_iff.1 cut).1⟩
  · intro h
    obtain ⟨zeros, few, whole⟩ := h
    have length : (List.replicate zeros false).length = zeros := List.length_replicate
    refine ⟨_, toBytes_eq_iff.2 ⟨whole, length.trans_lt (few.trans_le small)⟩, ?_, ?_⟩
    · exact length.trans_lt few
    · refine List.any_eq_false.2 fun b mem => ?_
      rw [List.eq_of_mem_replicate mem]
      exact nofun

/-- A byte string is told by its bits. -/
lemma ofBytes_inj {bytes bytes' : Bytes} (same : ofBytes bytes = ofBytes bytes') :
    bytes = bytes' := by
  have made : toBytes (ofBytes bytes) = (bytes, []) :=
    toBytes_eq_iff.2 ⟨(List.append_nil _).symm, by decide⟩
  have made' : toBytes (ofBytes bytes) = (bytes', []) :=
    toBytes_eq_iff.2 ⟨by rw [same, List.append_nil], by decide⟩
  exact (Prod.mk.inj (made.symm.trans made')).1

/-- The digits of a bit string are made of its bits and of zeros behind them. -/
lemma ofDigits_toDigits (bits : List Bool) (pos : 0 < width) :
    (∀ d ∈ toDigits width bits, d < 2 ^ width) ∧
      ∃ zeros < width, ofDigits width (toDigits width bits) =
        bits ++ List.replicate zeros false := by
  rcases cut : groups width bits with ⟨full, rest⟩
  obtain ⟨sized, short, rfl⟩ := (groups_eq_iff pos).1 cut
  have whole : ∀ d ∈ full.map toNat, d < 2 ^ width := by
    intro d mem
    obtain ⟨g, inside, rfl⟩ := List.mem_map.1 mem
    rw [← sized g inside]
    exact toNat_lt g
  rw [toDigits, cut]
  dsimp only
  cases rest with
  | nil =>
    rw [List.isEmpty_nil, if_pos rfl, List.append_nil, ofDigits_map_toNat sized]
    exact ⟨whole, 0, pos, by simp⟩
  | cons b rest =>
    have fill : ((b :: rest) ++ List.replicate (width - (b :: rest).length) false).length =
        width := by
      rw [List.length_append, List.length_replicate]
      omega
    generalize padded : (b :: rest) ++ List.replicate (width - (b :: rest).length) false = last
    rw [padded] at fill
    rw [List.isEmpty_cons, if_neg nofun]
    refine ⟨fun d mem => ?_, width - (b :: rest).length, ?_, ?_⟩
    · obtain mem | mem := List.mem_append.1 mem
      · exact whole d mem
      · cases List.mem_singleton.1 mem
        rw [← fill]
        exact toNat_lt last
    · rw [List.length_cons]
      omega
    · have single : ofNat width (toNat last) = last := by
        rw [← fill]
        exact ofNat_toNat last
      rw [ofDigits_append, ofDigits_singleton, single, ofDigits_map_toNat sized, ← padded,
        List.append_assoc]

/-- The digits of a bit string are those that fit their width and write it with zeros behind it that
do not make up another digit. -/
theorem toDigits_eq_iff {bits : List Bool} {digits : List Nat} (pos : 0 < width) :
    toDigits width bits = digits ↔
      (∀ d ∈ digits, d < 2 ^ width) ∧
        ∃ zeros < width, ofDigits width digits = bits ++ List.replicate zeros false := by
  apply Iff.intro
  · intro made
    subst made
    exact ofDigits_toDigits bits pos
  · intro h
    obtain ⟨small', zeros', few', written'⟩ := h
    obtain ⟨small, zeros, few, written⟩ := ofDigits_toDigits bits pos
    have total := congrArg List.length written
    have total' := congrArg List.length written'
    simp only [length_ofDigits, List.length_append, List.length_replicate] at total total'
    -- Fewer zeros than a digit has bits are told by the number of digits.
    have same : zeros = zeros' := by
      obtain less | same | more := Nat.lt_trichotomy (toDigits width bits).length digits.length
      · have step := Nat.mul_le_mul_left width less
        rw [Nat.succ_eq_add_one, Nat.mul_add] at step
        omega
      · rw [same] at total
        omega
      · have step := Nat.mul_le_mul_left width more
        rw [Nat.succ_eq_add_one, Nat.mul_add] at step
        omega
    exact ofDigits_inj pos small small' (by rw [written, written', same])

end Bits

end LedgerWire
