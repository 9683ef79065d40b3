import LedgerWire.Asset.Basic
import LedgerWire.Digest.Sha2

/-!
# Liquidity pools

A constant-product pool is given by two assets in ascending order and a fee. The ledger names a
pool by the hash of the wire form of its parameters; the order of the assets makes sure that one
pool has one name.
-/

namespace LedgerWire

/-- The parameters of a pool. -/
structure PoolParameters where
  /-- The lesser asset. -/
  assetA : Asset
  /-- The greater asset. -/
  assetB : Asset
  /-- The fee in hundredths of a percent. -/
  fee : Int32
  /-- The assets stand in ascending order. -/
  ascending : compare assetA assetB = .lt
deriving DecidableEq

/-- The name of a pool. -/
structure PoolId where
  /-- The hash of the parameters. -/
  hash : FixedBytes 32
deriving DecidableEq

namespace PoolParameters

/-- Parameters are ordered by the first asset, then by the second, then by the fee. -/
instance : Ord PoolParameters :=
  ⟨fun a b =>
    ((compare a.assetA b.assetA).then (compare a.assetB b.assetB)).then (compare a.fee b.fee)⟩

/-- The parameters with the given assets and fee. -/
def make (assetA assetB : Asset) (fee : Int32) : Except AssetFault PoolParameters :=
  if h : compare assetA assetB = .lt then .ok ⟨assetA, assetB, fee, h⟩
  else .error .invalidOrder

/-- The parameters of a pool with the fee that the ledger prescribes. -/
def constantProduct (assetA assetB : Asset) : Except AssetFault PoolParameters :=
  make assetA assetB Limits.poolFee

/-- Parameters on the wire: the kind of pool, the assets and the fee. -/
def codec : Codec PoolParameters :=
  .versioned "LiquidityPoolType"
    ((Codec.pair Asset.codec (.pair Asset.codec .int32)).check
      (fun (a, b, fee) => (make a b fee).mapError .asset)
      (fun p => (p.assetA, p.assetB, p.fee)))

/-- The bytes whose hash names the pool. -/
def preimage (parameters : PoolParameters) : Bytes := codec.encode parameters

/-- The name of the pool. -/
def poolId (parameters : PoolParameters) : PoolId := ⟨sha256 parameters.preimage⟩

end PoolParameters

namespace PoolId

/-- Names are ordered as byte strings. -/
instance : Ord PoolId := ⟨fun a b => compare a.hash b.hash⟩

/-- The hexadecimal text of a name. -/
def toText (id : PoolId) : String := Hex.encode id.hash.bytes

/-- The name with the given hexadecimal text. -/
def ofText (text : String) : Except AssetFault PoolId :=
  match Hex.decodeFixed? 32 text with
  | some hash => .ok ⟨hash⟩
  | none => .error (.invalidText text)

/-- The text of a name in diagnostics. -/
def debugText (id : PoolId) : String := "LiquidityPoolId(" ++ id.toText ++ ")"

/-- A name on the wire. -/
def codec : Codec PoolId := (Codec.fixed 32).map .mk PoolId.hash

end PoolId

/-!
## Assets of trust lines

A trust line holds an asset or a share of a pool. An operation that opens a trust line gives the
parameters of the pool, so that the ledger can create it; an entry of the ledger is found by the
name of the pool alone.
-/

/-- What a trust line is opened for. -/
inductive ChangeTrustAsset where
  /-- An asset. -/
  | asset (asset : Asset)
  /-- A share of the pool with the given parameters. -/
  | poolShare (parameters : PoolParameters)
deriving DecidableEq

/-- What a trust line holds. -/
inductive TrustLineAsset where
  /-- An asset. -/
  | asset (asset : Asset)
  /-- A share of the pool with the given name. -/
  | poolShare (id : PoolId)
deriving DecidableEq

namespace ChangeTrustAsset

/-- Assets come before pool shares. -/
instance : Ord ChangeTrustAsset :=
  ⟨fun
    | .asset a, .asset b => compare a b
    | .asset _, .poolShare _ => .lt
    | .poolShare _, .asset _ => .gt
    | .poolShare a, .poolShare b => compare a b⟩

/-- What the opened trust line holds: parameters give way to the name of the pool. -/
def toTrustLine : ChangeTrustAsset → TrustLineAsset
  | .asset a => .asset a
  | .poolShare parameters => .poolShare parameters.poolId

/-- The arms of an asset, and one for pool shares. -/
def codec : Codec ChangeTrustAsset :=
  .union "AssetType"
    (⟨3, PoolParameters, PoolParameters.codec, .poolShare,
        fun | .poolShare p => some p | _ => none⟩ ::
      Asset.arms.map (·.widen .asset fun | .asset a => some a | _ => none))

end ChangeTrustAsset

namespace TrustLineAsset

/-- Assets come before pool shares. -/
instance : Ord TrustLineAsset :=
  ⟨fun
    | .asset a, .asset b => compare a b
    | .asset _, .poolShare _ => .lt
    | .poolShare _, .asset _ => .gt
    | .poolShare a, .poolShare b => compare a b⟩

/-- The arms of an asset, and one for pool shares. -/
def codec : Codec TrustLineAsset :=
  .union "AssetType"
    (⟨3, PoolId, PoolId.codec, .poolShare, fun | .poolShare id => some id | _ => none⟩ ::
      Asset.arms.map (·.widen .asset fun | .asset a => some a | _ => none))

end TrustLineAsset

end LedgerWire
