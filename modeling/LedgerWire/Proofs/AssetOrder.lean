import LedgerWire.Proofs.Asset

/-!
# The order of assets

Assets are ordered as their wire forms are: byte for byte, the first byte that differs deciding. It
is enough to look at the parts of a wire form in turn, because each part in front of another has the
same length in all values that agree so far.
-/

namespace LedgerWire

namespace Bytes

/-- Of two strings that have fronts of one length, the fronts are compared first. -/
lemma compare_append {x x' : Bytes} (length : x.length = x'.length) (y y' : Bytes) :
    compare (x ++ y) (x' ++ y') = (compare x x').then (compare y y') := by
  induction x generalizing x' with
  | nil =>
    obtain rfl := List.length_eq_zero_iff.1 length.symm
    rfl
  | cons b x ih =>
    cases x' with
    | nil => cases length
    | cons b' x' =>
      rw [List.cons_append, List.cons_append, List.compare_cons_cons, List.compare_cons_cons,
        ih (Nat.succ.inj length), Ordering.then_assoc]

/-- A byte string is equal to itself. -/
@[simp] lemma compare_self (x : Bytes) : compare x x = .eq := Std.ReflCmp.compare_self

/-- The lesser of two strings is the one with the lesser byte where they first differ, or the one
that ends first. -/
lemma compare_eq_lt {x y : Bytes} :
    compare x y = .lt ↔ List.Lex (fun b c : UInt8 => b.toNat < c.toNat) x y := by
  induction x generalizing y with
  | nil =>
    cases y with
    | nil => exact ⟨nofun, nofun⟩
    | cons c y => exact iff_of_true rfl .nil
  | cons b x ih =>
    cases y with
    | nil => exact ⟨nofun, nofun⟩
    | cons c y =>
      have less : compare b c = .lt ↔ b.toNat < c.toNat :=
        Std.compare_eq_lt.trans UInt8.lt_iff_toNat_lt
      rw [List.compare_cons_cons, Ordering.then_eq_lt, less, Std.compare_eq_iff_eq, ih,
        List.cons_lex_cons_iff]

end Bytes

namespace Codec

/-- Byte strings of one length are written in their order: the padding is the same for all. -/
lemma compare_encode_fixed {n : Nat} (a b : FixedBytes n) :
    compare ((fixed n).encode a) ((fixed n).encode b) = compare a b := by
  have written : ∀ a : FixedBytes n,
      (fixed n).encode a = a.bytes ++ List.replicate (Bytes.padLength n) 0 := by
    intro a
    have padded : (fixed n).encode a = Bytes.padded a.bytes := Writer.bytes_padded a.bytes .empty
    rw [padded, Bytes.padded, a.length_eq]
  rw [written, written, Bytes.compare_append (a.length_eq.trans b.length_eq.symm),
    Bytes.compare_self, Ordering.then_eq]
  rfl

/-- The tags from zero to three are written in their order. -/
lemma compare_encode_tag : ∀ m < 4, ∀ n < 4,
    compare (int32.encode (Int32.ofNat m)) (int32.encode (Int32.ofNat n)) = compare m n := by
  decide

/-- Behind tags, values are compared by the tags first. -/
lemma compare_tagged {m n : Nat} (hm : m < 4) (hn : n < 4) (x y : Bytes) :
    compare (int32.encode (Int32.ofNat m) ++ x) (int32.encode (Int32.ofNat n) ++ y) =
      (compare m n).then (compare x y) := by
  rw [← compare_encode_tag m hm n hn]
  apply Bytes.compare_append
  simp

end Codec

/-- Accounts are ordered as their wire forms. -/
lemma AccountId.compare_encode (a b : AccountId) :
    compare (codec.encode a) (codec.encode b) = compare a b := by
  have written : ∀ a : AccountId,
      codec.encode a = Codec.int32.encode (Int32.ofNat 0) ++ (Codec.fixed 32).encode a.key :=
    fun a => (Codec.Lawful.fixed 32).appends a.key _
  rw [written, written, Codec.compare_tagged (by decide) (by decide), Codec.compare_encode_fixed]
  rfl

/-- Credits are compared by their fields and then by the keys of their issuers. -/
lemma Credit.compare_encode {shortest longest : Nat} (a b : Credit shortest longest) :
    compare ((codec shortest longest).encode a) ((codec shortest longest).encode b) =
      compare a b := by
  have written : ∀ a : Credit shortest longest, (codec shortest longest).encode a =
      (Codec.fixed longest).encode a.code.field ++ AccountId.codec.encode a.issuer :=
    fun a => AccountId.lawful.appends.encode_pair (a.code.field, a.issuer)
  have length := (Codec.length_encode_fixed a.code.field).trans
    (Codec.length_encode_fixed b.code.field).symm
  rw [written, written, Bytes.compare_append length, Codec.compare_encode_fixed,
    AccountId.compare_encode]
  rfl

/-- Names of pools are ordered as their wire forms. -/
lemma PoolId.compare_encode (a b : PoolId) :
    compare (codec.encode a) (codec.encode b) = compare a b :=
  Codec.compare_encode_fixed a.hash b.hash

namespace Asset

/-- What stands behind the tag of an asset. -/
def contents : Asset → Bytes
  | .native => []
  | .alphanum4 credit => (Credit.codec 1 4).encode credit
  | .alphanum12 credit => (Credit.codec 5 12).encode credit

/-- There are three kinds of assets. -/
lemma rank_lt (a : Asset) : a.rank < 3 := by
  cases a <;> simp [rank]

/-- The wire form of an asset is its place among the kinds and what stands behind it. -/
lemma encode_eq (a : Asset) :
    codec.encode a = Codec.int32.encode (Int32.ofNat a.rank) ++ a.contents := by
  cases a with
  | native => rfl
  | alphanum4 credit => exact (Credit.lawful (by decide)).appends credit _
  | alphanum12 credit => exact (Credit.lawful (by decide)).appends credit _

/-- Assets are ordered as their wire forms. -/
@[simp] lemma compare_encode (a b : Asset) : compare (codec.encode a) (codec.encode b) = compare a b := by
  rw [encode_eq, encode_eq, Codec.compare_tagged (Nat.lt_succ_of_lt a.rank_lt)
    (Nat.lt_succ_of_lt b.rank_lt)]
  cases a with
  | native => cases b <;> rfl
  | alphanum4 credit =>
    cases b with
    | native | alphanum12 _ => rfl
    | alphanum4 other => exact Credit.compare_encode credit other
  | alphanum12 credit =>
    cases b with
    | native | alphanum4 _ => rfl
    | alphanum12 other => exact Credit.compare_encode credit other

/-- An asset of an earlier kind is the lesser one. -/
lemma compare_of_rank_lt {a b : Asset} (less : a.rank < b.rank) : compare a b = .lt := by
  rw [← compare_encode, encode_eq, encode_eq, Codec.compare_tagged (Nat.lt_succ_of_lt a.rank_lt)
    (Nat.lt_succ_of_lt b.rank_lt), Nat.compare_eq_lt.2 less, Ordering.lt_then]

end Asset

namespace TrustLineAsset

/-- The place of the kind of an asset of a trust line: pool shares come behind all assets. -/
def rank : TrustLineAsset → Nat
  | .asset a => a.rank
  | .poolShare _ => 3

/-- What stands behind the tag of an asset of a trust line. -/
def contents : TrustLineAsset → Bytes
  | .asset a => a.contents
  | .poolShare id => PoolId.codec.encode id

/-- There are four kinds of what a trust line holds. -/
lemma rank_lt (a : TrustLineAsset) : a.rank < 4 := by
  cases a with
  | asset a => exact Nat.lt_succ_of_lt a.rank_lt
  | poolShare id => exact Nat.lt_succ_self 3

/-- An asset on a trust line has the wire form that it has alone. -/
lemma encode_asset (a : Asset) : codec.encode (.asset a) = Asset.codec.encode a := by
  cases a <;> rfl

/-- The wire form of what a trust line holds is its place and what stands behind it. -/
lemma encode_eq (a : TrustLineAsset) :
    codec.encode a = Codec.int32.encode (Int32.ofNat a.rank) ++ a.contents := by
  cases a with
  | asset a => rw [encode_asset, Asset.encode_eq, rank, contents]
  | poolShare id => exact PoolId.lawful.appends id _

/-- An asset of an earlier kind is the lesser one. -/
lemma compare_encode_of_rank_lt {a b : TrustLineAsset} (less : a.rank < b.rank) :
    compare (codec.encode a) (codec.encode b) = .lt := by
  rw [encode_eq, encode_eq, Codec.compare_tagged a.rank_lt b.rank_lt, Nat.compare_eq_lt.2 less,
    Ordering.lt_then]

/-- Assets of trust lines are ordered as their wire forms. -/
@[simp] lemma compare_encode (a b : TrustLineAsset) :
    compare (codec.encode a) (codec.encode b) = compare a b := by
  cases a with
  | asset a =>
    cases b with
    | asset b =>
      rw [encode_asset, encode_asset]
      exact Asset.compare_encode a b
    | poolShare id => exact compare_encode_of_rank_lt a.rank_lt
  | poolShare id =>
    cases b with
    | asset b =>
      have less : rank (.asset b) < rank (.poolShare id) := b.rank_lt
      rw [Std.OrientedOrd.eq_swap, compare_encode_of_rank_lt less]
      rfl
    | poolShare other =>
      rw [encode_eq, encode_eq, Codec.compare_tagged (rank_lt _) (rank_lt _)]
      exact PoolId.compare_encode id other

end TrustLineAsset

/-- An order that is that of the wire forms: unsigned and lexicographic, and strict and total. -/
structure WireOrdered {α : Type} [Ord α] (c : Codec α) : Prop where
  /-- Two values compare as their wire forms do. -/
  compare_eq (a b : α) : compare a b = compare (c.encode a) (c.encode b)
  /-- The lesser of two values has the lesser byte where their wire forms first differ. -/
  lt_iff (a b : α) : compare a b = .lt ↔
    List.Lex (fun x y : UInt8 => x.toNat < y.toNat) (c.encode a) (c.encode b)
  /-- Only equal values compare as equal. -/
  eq_iff (a b : α) : compare a b = .eq ↔ a = b
  /-- Of two values that differ each is the lesser in one of the two directions only. -/
  swap (a b : α) : compare b a = (compare a b).swap
  /-- What is less than something lesser is less. -/
  trans (a b d : α) : compare a b = .lt → compare b d = .lt → compare a d = .lt

/-- A codec that keeps the order and loses nothing orders its values as their wire forms. -/
lemma WireOrdered.of_lawful {α : Type} [Ord α] {c : Codec α} (lawful : c.Lawful fun _ => True)
    (compare_encode : ∀ a b, compare (c.encode a) (c.encode b) = compare a b) :
    WireOrdered c where
  compare_eq a b := (compare_encode a b).symm
  lt_iff a b := by rw [← compare_encode, Bytes.compare_eq_lt]
  eq_iff a b := by
    rw [← compare_encode, Std.compare_eq_iff_eq]
    exact ⟨lawful.encode_inj trivial trivial, congrArg c.encode⟩
  swap a b := by
    rw [← compare_encode, ← compare_encode a b]
    exact Std.OrientedOrd.eq_swap
  trans a b d := by
    rw [← compare_encode, ← compare_encode b d, ← compare_encode a d]
    exact Std.TransCmp.lt_trans

/-- Assets are ordered as their wire forms, without a tie. -/
lemma Asset.wireOrdered : WireOrdered codec := .of_lawful lawful compare_encode

/-- Assets, and assets of trust lines, are ordered as their wire forms, byte for byte. The native
asset comes first, then the credits with a short code, then those with a long one, then pool shares;
within a kind the field of the code decides, and then the key of the issuer. -/
theorem assets_wireOrdered :
    WireOrdered Asset.codec ∧ WireOrdered TrustLineAsset.codec ∧
      (∀ a b : Asset, a.rank < b.rank → compare a b = .lt) ∧
      (∀ a b : TrustLineAsset, a.rank < b.rank → compare a b = .lt) ∧
      (∀ a b : Asset, compare (TrustLineAsset.asset a) (.asset b) = compare a b) ∧
      (∀ a b : Credit 1 4, compare (Asset.alphanum4 a) (.alphanum4 b) =
        (compare a.code.field.bytes b.code.field.bytes).then
          (compare a.issuer.key.bytes b.issuer.key.bytes)) ∧
      (∀ a b : Credit 5 12, compare (Asset.alphanum12 a) (.alphanum12 b) =
        (compare a.code.field.bytes b.code.field.bytes).then
          (compare a.issuer.key.bytes b.issuer.key.bytes)) ∧
      ∀ a b : PoolId, compare (TrustLineAsset.poolShare a) (.poolShare b) =
        compare a.hash.bytes b.hash.bytes := by
  refine ⟨Asset.wireOrdered, .of_lawful TrustLineAsset.lawful TrustLineAsset.compare_encode,
    fun _ _ => Asset.compare_of_rank_lt, ?_, fun _ _ => rfl, fun _ _ => rfl, fun _ _ => rfl,
    fun _ _ => rfl⟩
  intro a b less
  rw [← TrustLineAsset.compare_encode]
  exact TrustLineAsset.compare_encode_of_rank_lt less

/-- The last of the short codes. -/
def lastShort : Asset :=
  .alphanum4 ⟨⟨List.replicate 4 122, by decide, by decide, by decide⟩, ⟨default⟩⟩

/-- The first of the long codes. -/
def firstLong : Asset :=
  .alphanum12 ⟨⟨List.replicate 5 48, by decide, by decide, by decide⟩, ⟨default⟩⟩

/-- The last of the short codes comes before the first of the long ones, and so do the wire forms. -/
theorem assets_wireOrdered_codes :
    lastShort.rank < firstLong.rank ∧
      List.Lex (fun x y : UInt8 => x.toNat < y.toNat) (Asset.codec.encode lastShort)
        (Asset.codec.encode firstLong) ∧
      compare firstLong lastShort = .gt := by
  obtain ⟨assets, -, kinds, -⟩ := assets_wireOrdered
  have earlier : lastShort.rank < firstLong.rank := by decide
  have less := kinds lastShort firstLong earlier
  refine ⟨earlier, (assets.lt_iff _ _).1 less, ?_⟩
  rw [assets.swap, less]
  rfl

end LedgerWire
