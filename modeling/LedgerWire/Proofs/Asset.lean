import LedgerWire.Asset.Pool
import LedgerWire.Proofs.Identity

/-!
# Assets and pools on the wire

A code stands in its field in one way: its symbols, none of which is zero, and zeros behind them.
Assets, pools and the assets of trust lines therefore have one wire form each, and no limit of their
own on the wire.
-/

namespace LedgerWire

namespace AssetCode

/-- A symbol is an ASCII character, and not zero. -/
lemma isSymbol_bounds {b : UInt8} (h : isSymbol b = true) : b ≠ 0 ∧ b < 128 := by
  have bounds : 48 ≤ b.toNat ∧ b.toNat ≤ 122 := by
    simp only [isSymbol, Bool.or_eq_true, Bool.and_eq_true, decide_eq_true_eq,
      UInt8.le_iff_toNat_le] at h
    have codes : (48 : UInt8).toNat = 48 ∧ (57 : UInt8).toNat = 57 ∧ (65 : UInt8).toNat = 65 ∧
      (90 : UInt8).toNat = 90 ∧ (97 : UInt8).toNat = 97 ∧ (122 : UInt8).toNat = 122 := by decide
    omega
  refine ⟨?_, UInt8.lt_iff_toNat_lt.2 ?_⟩
  · intro same
    subst same
    exact absurd bounds.1 (by decide)
  · exact Nat.lt_of_le_of_lt bounds.2 (by decide)

/-- A field holds a code exactly when it is the code, not empty, and zeros behind it. -/
lemma unpad_eq_ok {field symbols : Bytes} :
    unpad field = .ok symbols ↔
      symbols ≠ [] ∧ symbols.all isSymbol = true ∧
        ∃ zeros, field = symbols ++ List.replicate zeros 0 := by
  apply Iff.intro
  · intro h
    rw [unpad] at h
    split at h
    case isTrue ok =>
      cases h
      simp only [Bool.and_eq_true, Bool.not_eq_true', List.isEmpty_eq_false_iff] at ok
      obtain ⟨⟨nonempty, symbols⟩, zeros⟩ := ok
      have whole := List.prefix_iff_eq_append.1 (List.takeWhile_prefix (l := field) (· != 0))
      -- What stands behind the symbols is all zeros, so its length alone tells it.
      have tail : field.drop (field.takeWhile (· != 0)).length =
          List.replicate (field.drop (field.takeWhile (· != 0)).length).length 0 := by
        apply List.eq_replicate_iff.2
        refine ⟨rfl, fun b hb => ?_⟩
        simpa using List.all_eq_true.1 zeros b hb
      exact ⟨nonempty, symbols, _, by rw [← tail, whole]⟩
    case isFalse => cases h
  · intro h
    obtain ⟨nonempty, all, zeros, rfl⟩ := h
    have nonzero : ∀ b ∈ symbols, (b != 0) = true := by
      intro b hb
      simpa using (isSymbol_bounds (List.all_eq_true.1 all b hb)).1
    have front : (symbols ++ List.replicate zeros 0).takeWhile (· != 0) = symbols := by
      rw [List.takeWhile_append_of_pos nonzero]
      cases zeros <;> simp
    rw [unpad, front]
    simp [nonempty, all]

variable {shortest longest : Nat}

/-- Symbols that fit a field and are not missing are read back from it. -/
lemma unpad_padded {symbols : Bytes} (pos : 0 < symbols.length) (le : symbols.length ≤ longest)
    (all : symbols.all isSymbol = true) :
    unpad (FixedBytes.padded longest symbols).bytes = .ok symbols := by
  refine unpad_eq_ok.2 ⟨List.ne_nil_of_length_pos pos, all, longest - symbols.length, ?_⟩
  rw [FixedBytes.bytes_padded_of_le le]

/-- A field that holds a code is made of its symbols. -/
lemma padded_of_unpad {field : FixedBytes longest} {symbols : Bytes}
    (h : unpad field.bytes = .ok symbols) :
    symbols.length ≤ longest ∧ FixedBytes.padded longest symbols = field := by
  obtain ⟨-, -, zeros, layout⟩ := unpad_eq_ok.1 h
  have total := field.length_eq
  rw [layout, List.length_append, List.length_replicate] at total
  have fill : longest - symbols.length = zeros := by omega
  refine ⟨by omega, FixedBytes.ext ?_⟩
  rw [FixedBytes.bytes_padded_of_le (by omega), fill, layout]

/-- A code is made of the symbols that it has. -/
lemma ofSymbols?_eq_some {symbols : Bytes} {code : AssetCode shortest longest} :
    ofSymbols? shortest longest symbols = some code ↔ code.symbols = symbols := by
  rw [ofSymbols?]
  split
  case isTrue ok =>
    apply Iff.intro
    · intro h
      cases h
      rfl
    · intro same
      subst same
      rfl
  case isFalse no =>
    refine ⟨nofun, ?_⟩
    intro same
    subst same
    exact (no ⟨code.shortest_le, code.le_longest, code.alphanumeric⟩).elim

/-- A text is the code that has its characters. -/
lemma validate_eq_ok_iff_symbols {text : String} {code : AssetCode 1 longWidth} :
    validate text = .ok code ↔ code.symbols = Bytes.ofText text := by
  rw [validate, ← ofSymbols?_eq_some]
  split
  case h_1 named found => rw [found, Except.ok.injEq, Option.some.injEq]
  case h_2 none => exact iff_of_false nofun (none ▸ nofun)

/-- The texts that are codes are those that some code has the characters of. -/
lemma isValid_iff_validate {text : String} :
    isValid text = true ↔ ∃ code, validate text = .ok code := by
  rw [isValid]
  cases validate text with
  | ok code => exact iff_of_true rfl ⟨code, rfl⟩
  | error fault => exact iff_of_false nofun nofun

/-- A text is a code when it has one to twelve symbols. -/
lemma isValid_iff {text : String} :
    isValid text = true ↔
      (1 ≤ (Bytes.ofText text).length ∧ (Bytes.ofText text).length ≤ longWidth) ∧
        (Bytes.ofText text).all isSymbol = true := by
  rw [isValid_iff_validate]
  apply Iff.intro
  · intro h
    obtain ⟨code, valid⟩ := h
    rw [← validate_eq_ok_iff_symbols.1 valid]
    exact ⟨⟨code.shortest_le, code.le_longest⟩, code.alphanumeric⟩
  · intro h
    obtain ⟨⟨some, few⟩, symbols⟩ := h
    exact ⟨⟨_, some, few, symbols⟩, validate_eq_ok_iff_symbols.2 rfl⟩

end AssetCode

/-- Every credit is read back, if its code cannot be empty. -/
lemma Credit.lawful {shortest longest : Nat} (pos : 0 < shortest) :
    (Credit.codec shortest longest).Lawful fun _ => True := by
  have fields := (Codec.Lawful.fixed longest).pair AccountId.lawful
  refine (fields.check ?_).congr fun credit => ?_
  · rintro ⟨field, issuer⟩ credit - h
    dsimp only at h
    split at h
    case h_1 => cases h
    case h_2 symbols read =>
      split at h
      case h_1 code made =>
        cases h
        obtain rfl := AssetCode.ofSymbols?_eq_some.1 made
        exact Prod.ext (AssetCode.padded_of_unpad read).2 rfl
      case h_2 => cases h
  · refine iff_of_true ⟨⟨trivial, trivial⟩, ?_⟩ trivial
    have read := AssetCode.unpad_padded (Nat.lt_of_lt_of_le pos credit.code.shortest_le)
      credit.code.le_longest credit.code.alphanumeric
    have made := AssetCode.ofSymbols?_eq_some.2 (rfl : credit.code.symbols = credit.code.symbols)
    simp only [AssetCode.field, read, made]

/-- The tag of an asset. -/
def Asset.tag : Asset → Int32
  | .native => 0
  | .alphanum4 _ => 1
  | .alphanum12 _ => 2

/-- The tag of what a trust line is opened for. -/
def ChangeTrustAsset.tag : ChangeTrustAsset → Int32
  | .asset inner => inner.tag
  | .poolShare _ => 3

/-- The tag of what a trust line holds. -/
def TrustLineAsset.tag : TrustLineAsset → Int32
  | .asset inner => inner.tag
  | .poolShare _ => 3

/-- Only the native asset is native. -/
@[simp] lemma Asset.isNative_iff (asset : Asset) : asset.isNative = true ↔ asset = .native := by
  cases asset <;> simp [isNative]

/-- The arms of an asset are lawful. -/
lemma Asset.arms_lawful : Asset.arms.Forall fun arm => arm.Lawful Asset.tag fun _ => True := by
  refine ⟨.void isNative_iff rfl trivial, .of_inverse (Credit.lawful (by decide)) ?_,
    .of_inverse (Credit.lawful (by decide)) ?_⟩
  all_goals exact ⟨fun v p known => by cases v <;> cases known; rfl, fun _ => rfl, fun _ => rfl⟩

/-- Assets have one wire form each and are read back from it. -/
lemma Asset.lawful : Asset.codec.Lawful fun _ => True :=
  .union _ Asset.tag Asset.arms_lawful (by decide) fun v => by cases v <;> rfl

/-- Parameters are made of the assets and the fee that they have. -/
lemma PoolParameters.make_eq_ok {a b : Asset} {fee : Int32} {p : PoolParameters} :
    make a b fee = .ok p ↔ p.assetA = a ∧ p.assetB = b ∧ p.fee = fee := by
  rw [make]
  split
  case isTrue less =>
    apply Iff.intro
    · intro h
      cases h
      exact ⟨rfl, rfl, rfl⟩
    · intro h
      obtain ⟨rfl, rfl, rfl⟩ := h
      rfl
  case isFalse no =>
    refine ⟨nofun, ?_⟩
    intro h
    obtain ⟨rfl, rfl, rfl⟩ := h
    exact (no p.ascending).elim

/-- Parameters of pools have one wire form each and are read back from it. -/
lemma PoolParameters.lawful : PoolParameters.codec.Lawful fun _ => True := by
  have fields := Asset.lawful.pair (Asset.lawful.pair .int32)
  refine Codec.Lawful.versioned ((fields.check ?_).congr fun p => ?_) _
  · rintro ⟨a, b, fee⟩ p - h
    obtain ⟨rfl, rfl, rfl⟩ := make_eq_ok.1 (mapError_eq_ok.1 h)
    rfl
  · have made : make p.assetA p.assetB p.fee = .ok p := make_eq_ok.2 ⟨rfl, rfl, rfl⟩
    exact iff_of_true ⟨⟨trivial, trivial, trivial⟩, mapError_eq_ok.2 made⟩ trivial

/-- Names of pools have one wire form each and are read back from it. -/
lemma PoolId.lawful : PoolId.codec.Lawful fun _ => True :=
  ((Codec.Lawful.fixed 32).map fun _ _ => rfl).congr fun _ => by simp

/-- What a trust line is opened for has one wire form and is read back from it. -/
lemma ChangeTrustAsset.lawful : ChangeTrustAsset.codec.Lawful fun _ => True := by
  refine .union _ tag ((List.forall_cons _ _ _).2 ⟨.of_inverse PoolParameters.lawful ?_, ?_⟩)
    (by decide) ?_
  · exact ⟨fun v p known => by cases v <;> cases known; rfl, fun _ => rfl, fun _ => rfl⟩
  · refine Arm.forall_widen Asset.arms_lawful (fun _ => rfl) ?_ (fun _ => rfl) fun _ => Iff.rfl
    exact fun v a known => by cases v <;> cases known; rfl
  · rintro ((_ | _ | _) | _) <;> rfl

/-- What a trust line holds has one wire form and is read back from it. -/
lemma TrustLineAsset.lawful : TrustLineAsset.codec.Lawful fun _ => True := by
  refine .union _ tag ((List.forall_cons _ _ _).2 ⟨.of_inverse PoolId.lawful ?_, ?_⟩)
    (by decide) ?_
  · exact ⟨fun v p known => by cases v <;> cases known; rfl, fun _ => rfl, fun _ => rfl⟩
  · refine Arm.forall_widen Asset.arms_lawful (fun _ => rfl) ?_ (fun _ => rfl) fun _ => Iff.rfl
    exact fun v a known => by cases v <;> cases known; rfl
  · rintro ((_ | _ | _) | _) <;> rfl

end LedgerWire
