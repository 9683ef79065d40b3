import Mathlib.Data.Sym.Sym2
import LedgerWire.Proofs.AssetOrder
import LedgerWire.Proofs.Wire.Answers

/-!
# One pool, one name

Two assets stand in the parameters of a pool in the order of assets, in which two different ones
have one place each, and whoever makes or reads parameters checks this. The wire form tells the
assets and the fee, so the bytes whose hash names a pool are the same for two pools only if the
pools are the same.
-/

namespace LedgerWire

namespace PoolParameters

/-- The wire form that two assets and a fee would have, whatever the order of the assets. -/
def form (a b : Asset) (fee : Int32) : Bytes :=
  Codec.int32.encode 0 ++
    (Asset.codec.encode a ++ (Asset.codec.encode b ++ Codec.int32.encode fee))

/-- What reading says of two assets and a fee: they are made into parameters. -/
def reading (a b : Asset) (fee : Int32) : Except WireFault PoolParameters :=
  (make a b fee).mapError fun fault => .forbidden (.asset fault)

/-- Parameters are made of two assets when these are in ascending order. -/
lemma exists_make {a b : Asset} {fee : Int32} :
    (∃ p, make a b fee = .ok p) ↔ compare a b = .lt := by
  apply Iff.intro
  · intro h
    obtain ⟨p, made⟩ := h
    obtain ⟨rfl, rfl, rfl⟩ := make_eq_ok.1 made
    exact p.ascending
  · intro less
    exact ⟨⟨a, b, fee, less⟩, make_eq_ok.2 ⟨rfl, rfl, rfl⟩⟩

/-- Two different assets are in ascending order in one of two directions. -/
lemma xor_ascending {a b : Asset} (differ : a ≠ b) :
    Xor (compare a b = .lt) (compare b a = .lt) := by
  rw [Asset.wireOrdered.swap a b]
  cases way : compare a b with
  | lt => exact .inl ⟨rfl, nofun⟩
  | eq => exact absurd ((Asset.wireOrdered.eq_iff a b).1 way) differ
  | gt => exact .inr ⟨rfl, nofun⟩

/-- The wire form of any two assets and a fee is read as what is made of them. -/
lemma form_answers (a b : Asset) (fee : Int32) :
    codec.read.Answers (form a b fee) (reading a b fee) := by
  have fields := Asset.lawful.pair (Asset.lawful.pair .int32)
  have written : form a b fee = Codec.int32.encode 0 ++
      (Codec.pair Asset.codec (.pair Asset.codec .int32)).encode (a, b, fee) := by
    rw [(Asset.lawful.appends.pair Codec.Lawful.int32.appends).encode_pair,
      Codec.Lawful.int32.appends.encode_pair, form]
  have read := fields.answers (v := (a, b, fee)) ⟨trivial, trivial, trivial⟩
  have outcome : reading a b fee = ((make a b fee).mapError .asset).mapError .forbidden := by
    rw [reading]
    cases make a b fee <;> rfl
  rw [written, outcome]
  exact Codec.versioned_answers (read.check _) _

/-- In what a trust line is opened for, parameters are read as they are alone. -/
lemma form_answers_line (a b : Asset) (fee : Int32) :
    ChangeTrustAsset.codec.read.Answers (Codec.int32.encode 3 ++ form a b fee)
      ((reading a b fee).map .poolShare) :=
  Codec.union_answers (by decide) List.mem_cons_self (form_answers a b fee)

/-- The wire form of parameters is that of their assets and their fee. -/
lemma encode_eq (p : PoolParameters) : codec.encode p = form p.assetA p.assetB p.fee := by
  have read := (form_answers p.assetA p.assetB p.fee).runAll_eq
  have made : make p.assetA p.assetB p.fee = .ok p := make_eq_ok.2 ⟨rfl, rfl, rfl⟩
  rw [reading, made] at read
  exact ((lawful.decode_eq_ok).1 read).2.symm

/-- Parameters stand behind the tag of pool shares on a trust line. -/
lemma encode_line (p : PoolParameters) :
    ChangeTrustAsset.codec.encode (.poolShare p) =
      Codec.int32.encode 3 ++ form p.assetA p.assetB p.fee := by
  have behind_tag : ChangeTrustAsset.codec.encode (.poolShare p) =
      Codec.int32.encode 3 ++ codec.encode p := lawful.appends p _
  rw [behind_tag, encode_eq]

/-- The preimage tells the parameters. -/
lemma preimage_inj {p q : PoolParameters} : p.preimage = q.preimage ↔ p = q :=
  ⟨lawful.encode_inj trivial trivial, congrArg preimage⟩

/-- Parameters of the same assets, in whichever order, and the same fee are the same. -/
lemma eq_of_pair {p q : PoolParameters} (assets : s(p.assetA, p.assetB) = s(q.assetA, q.assetB))
    (fee : p.fee = q.fee) : p = q := by
  obtain ⟨a, b, _, less⟩ := p
  obtain ⟨a', b', _, less'⟩ := q
  obtain ⟨rfl, rfl⟩ | ⟨rfl, rfl⟩ := Sym2.eq_iff.1 assets
  · cases fee
    rfl
  · rw [Asset.wireOrdered.swap, less] at less'
    cases less'

/-- Parameters are made of two assets exactly when these are in ascending order, which two different
assets are in one of two directions. Reading makes parameters of what it reads, alone or for a trust
line, so what is out of order is refused and nothing but ascending parameters is read. A pool is
named by the hash of its preimage, for trust lines too; the preimage tells the parameters, and two
different assets and a fee have one preimage. -/
theorem pools_canonical :
    (∀ (a b : Asset) (fee : Int32), ((∃ p, make a b fee = .ok p) ↔ compare a b = .lt) ∧
      ∀ p, make a b fee = .ok p →
        compare p.assetA p.assetB = .lt ∧ p.assetA = a ∧ p.assetB = b ∧ p.fee = fee) ∧
    (∀ (a b : Asset) (fee : Int32), a ≠ b →
      Xor (∃ p, make a b fee = .ok p) (∃ p, make b a fee = .ok p)) ∧
    (∀ a b : Asset, constantProduct a b = make a b 30) ∧
    (∀ (a b : Asset) (fee : Int32),
      codec.decode (form a b fee) = reading a b fee ∧
        ChangeTrustAsset.codec.decode (Codec.int32.encode 3 ++ form a b fee) =
          (reading a b fee).map .poolShare) ∧
    (∀ (input : Bytes) (p : PoolParameters),
      (codec.decode input = .ok p ↔
        compare p.assetA p.assetB = .lt ∧ input = form p.assetA p.assetB p.fee) ∧
      (ChangeTrustAsset.codec.decode input = .ok (.poolShare p) ↔
        compare p.assetA p.assetB = .lt ∧
          input = Codec.int32.encode 3 ++ form p.assetA p.assetB p.fee)) ∧
    (∀ p : PoolParameters, p.poolId.hash = sha256 p.preimage ∧
      (ChangeTrustAsset.poolShare p).toTrustLine = .poolShare p.poolId) ∧
    (∀ p q : PoolParameters, p.preimage = q.preimage ↔ p = q) ∧
    ∀ (a b : Asset) (fee : Int32), a ≠ b → ∃! preimage, ∃ p : PoolParameters,
      s(p.assetA, p.assetB) = s(a, b) ∧ p.fee = fee ∧ p.preimage = preimage := by
  refine ⟨?_, ?_, fun _ _ => rfl, ?_, ?_, fun _ => ⟨rfl, rfl⟩, fun _ _ => preimage_inj, ?_⟩
  · intro a b fee
    exact ⟨exists_make, fun p made => ⟨p.ascending, make_eq_ok.1 made⟩⟩
  · intro a b fee differ
    rw [exists_make, exists_make]
    exact xor_ascending differ
  · intro a b fee
    exact ⟨(form_answers a b fee).runAll_eq, (form_answers_line a b fee).runAll_eq⟩
  · intro input p
    rw [lawful.decode_eq_ok, ChangeTrustAsset.lawful.decode_eq_ok, encode_eq, encode_line]
    have ascending : True ↔ compare p.assetA p.assetB = .lt := iff_of_true trivial p.ascending
    exact ⟨and_congr_left fun _ => ascending, and_congr_left fun _ => ascending⟩
  · intro a b fee differ
    have some : ∃ p : PoolParameters, s(p.assetA, p.assetB) = s(a, b) ∧ p.fee = fee := by
      obtain ⟨less, -⟩ | ⟨less, -⟩ := xor_ascending differ
      · exact ⟨⟨a, b, fee, less⟩, rfl, rfl⟩
      · exact ⟨⟨b, a, fee, less⟩, Sym2.eq_swap, rfl⟩
    obtain ⟨p, assets, paid⟩ := some
    refine ⟨p.preimage, ⟨p, assets, paid, rfl⟩, ?_⟩
    intro preimage h
    obtain ⟨q, assets', paid', rfl⟩ := h
    rw [eq_of_pair (assets'.trans assets.symm) (paid'.trans paid.symm)]

/-- The native asset and a credit are the assets of a pool in this order and in no other, and what
would be the wire form of the other order is refused. -/
theorem pools_canonical_native :
    Asset.native ≠ lastShort ∧ (∃ p, make .native lastShort 30 = .ok p ∧ p.assetA = .native) ∧
      (¬ ∃ p, make lastShort .native 30 = .ok p) ∧
      codec.decode (form lastShort .native 30) = .error (.forbidden (.asset .invalidOrder)) ∧
      ∃! preimage, ∃ p : PoolParameters,
        s(p.assetA, p.assetB) = s(lastShort, .native) ∧ p.fee = 30 ∧ p.preimage = preimage := by
  obtain ⟨making, directions, -, reads, -, -, -, unique⟩ := pools_canonical
  have differ : Asset.native ≠ lastShort := nofun
  obtain ⟨p, made⟩ := (making .native lastShort 30).1.2 rfl
  obtain ⟨-, native, -⟩ := (making .native lastShort 30).2 p made
  obtain ⟨-, other⟩ | ⟨-, other⟩ := directions .native lastShort 30 differ
  · exact ⟨differ, ⟨p, made, native⟩, other, (reads _ _ _).1, unique _ _ 30 differ.symm⟩
  · exact absurd ⟨p, made⟩ other

end PoolParameters

end LedgerWire
