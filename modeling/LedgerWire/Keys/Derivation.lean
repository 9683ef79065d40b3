import LedgerWire.Digest.Sha2
import LedgerWire.StrKey.Kind
import LedgerWire.Text.Basic

/-!
# Keys and their derivation

The reasons for which a key is refused, and the tree of keys that grows from one seed.
-/

/-!
## Faults of keys

The reasons for which a key is refused or cannot do what is asked of it.
-/

namespace LedgerWire

/-- Why a key or a derivation path is refused, or why nothing is signed. -/
inductive KeyFault where
  /-- The text is not a secret seed. -/
  | invalidSecretSeed (fault : StrKey.Fault)
  /-- The text is not an account. -/
  | invalidAccountId (fault : StrKey.Fault)
  /-- The bytes are not a point of the curve. -/
  | invalidPublicKey
  /-- The key pair has no seed. -/
  | missingSecretKey
  /-- The text is not a derivation path. -/
  | invalidPath (text : String)
deriving DecidableEq, Repr

/-- The wording of a fault. -/
def KeyFault.message : KeyFault → String
  | .invalidSecretSeed fault => "invalid secret seed: " ++ fault.message
  | .invalidAccountId fault => "invalid account id: " ++ fault.message
  | .invalidPublicKey => "invalid public key bytes: not a valid Ed25519 point"
  | .missingSecretKey => "keypair has no secret key and cannot sign"
  | .invalidPath text => "invalid derivation path " ++ Text.quoted text

/-!
## Key derivation

The hierarchical derivation SLIP-10 for Ed25519. Each node holds a key and a chain code, and only
hardened children exist: an index names the same child with and without its hardening bit.

A path in text is `m` followed by indices, each behind a slash and with optional hardening marks
behind it.
-/

/-- A node of the tree of keys. -/
structure ExtendedKey where
  /-- The seed of the key pair at the node. -/
  key : FixedBytes 32
  /-- What makes the children differ from those of other nodes. -/
  chainCode : FixedBytes 32
deriving DecidableEq

namespace ExtendedKey

/-- The node whose key and chain code are the halves of a hash. -/
def ofDigest (digest : FixedBytes 64) : ExtendedKey :=
  ⟨.padded 32 (digest.bytes.take 32), .padded 32 (digest.bytes.drop 32)⟩

/-- The root of the tree of a seed. -/
def master (seed : Bytes) : ExtendedKey :=
  ofDigest (hmacSha512 (Bytes.ofText "ed25519 seed") seed)

/-- The hardened child with an index. -/
def child (node : ExtendedKey) (index : UInt32) : ExtendedKey :=
  let hardened := index ||| Limits.hardenedOffset
  ofDigest (hmacSha512 node.chainCode.bytes
    (0 :: (node.key.bytes ++ Bytes.bigEndian 4 hardened.toNat)))

/-- The node at the end of a path from the root. -/
def derive (seed : Bytes) (path : List UInt32) : ExtendedKey := path.foldl child (master seed)

/-- The text of a node in diagnostics, which shows nothing of it. -/
def debugText (_ : ExtendedKey) : String := "ExtendedKey(..)"

end ExtendedKey

namespace DerivationPath

/-- Whether a character marks an index as hardened. -/
def isMark (c : Char) : Bool := c == '\x27' || c == 'h' || c == 'H'

/-- The index that a part of a path writes: digits, with an optional plus sign before and any
number of marks behind them, whose value lacks the hardening bit. -/
def index? (part : List Char) : Option UInt32 :=
  let unmarked := (part.reverse.dropWhile isMark).reverse
  let digits :=
    match unmarked with
    | '+' :: rest => rest
    | _ => unmarked
  match Text.number? digits with
  | some n => if n < Limits.hardenedOffset.toNat then some (UInt32.ofNat n) else none
  | none => none

/-- The indices that a path writes. -/
def ofText (text : String) : Except KeyFault (List UInt32) :=
  match Text.splitAll '/' text.toList with
  | ['m'] :: parts =>
    match parts.mapM index? with
    | some indices => .ok indices
    | none => .error (.invalidPath text)
  | _ => .error (.invalidPath text)

end DerivationPath

end LedgerWire
