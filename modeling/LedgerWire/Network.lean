import LedgerWire.Digest.Sha2

/-!
# Limits and networks

What is fixed for all ledgers, and what tells them apart.
-/

/-!
## Limits of the ledger

The numbers fixed by the ledger: fees, list and text limits, scales, and the flags of accounts and
trust lines.
-/

namespace LedgerWire.Limits

/-- The least fee for one operation, in stroops. -/
def minBaseFee : Nat := 100

/-- The most operations of a transaction. -/
def maxOperations : Nat := 100

/-- The most signatures on an envelope. -/
def maxSignatures : Nat := 20

/-- The most extra signers a transaction can ask for. -/
def maxExtraSigners : Nat := 2

/-- The most bytes of a text memo. -/
def memoTextBytes : Nat := 28

/-- The most bytes of the payload of a signed-payload signer. -/
def signedPayloadBytes : Nat := 64

/-- The most bytes of a signature. -/
def signatureBytes : Nat := 64

/-- The fee of a constant-product pool, in hundredths of a percent. -/
def poolFee : Int32 := 30

/-- The most claimants of a claimable balance. -/
def maxClaimants : Nat := 10

/-- The most assets between the two ends of a path payment. -/
def maxPathLength : Nat := 5

/-- The most bytes of the name, and of the value, of a data entry. -/
def dataEntryBytes : Nat := 64

/-- The most bytes of a home domain. -/
def homeDomainBytes : Nat := 32

/-- The decimal places of an amount. -/
def amountDecimals : Nat := 7

/-- The stroops in one unit of an asset. -/
def stroopsPerUnit : Nat := Nat.pow 10 amountDecimals

/-- The deepest claim predicate the ledger accepts. -/
def maxPredicateDepth : Nat := 4

/-- The deepest claim predicate that is read. -/
def readablePredicateDepth : Nat := 32

/-- The timeout that stands for no time limit. -/
def timeoutInfinite : UInt64 := 0

/-- The purpose level of the derivation path of an account key. -/
def derivationPurpose : UInt32 := 44

/-- The coin level of the derivation path of an account key. -/
def derivationCoin : UInt32 := 148

/-- The bit that marks a derivation index as hardened. -/
def hardenedOffset : UInt32 := 0x80000000

/-- The greatest ledger sequence number in a total-order position. -/
def maxLedgerSequence : Nat := 0x7FFFFFFF

/-- The greatest transaction number in a total-order position. -/
def maxTransactionOrder : Nat := 0xFFFFF

/-- The greatest operation number in a total-order position. -/
def maxOperationIndex : Nat := 0xFFF

/-- The flags of an account: trust lines need authorization, authorization can be revoked, the
flags cannot change, trust lines start with clawback enabled. -/
def accountFlags : List UInt32 := [1, 2, 4, 8]

/-- The flags of a trust line: authorized, authorized to keep its offers only, clawback enabled. -/
def trustLineFlags : List UInt32 := [1, 2, 4]

end LedgerWire.Limits

/-!
## Networks

A network is named by its passphrase. The hash of the passphrase is the first thing under every
signature of a transaction, so a transaction signed for one network means nothing on another.
-/

namespace LedgerWire

/-- A network, named by its passphrase. -/
structure Network where
  /-- The passphrase. -/
  passphrase : String
deriving DecidableEq

namespace Network

/-- The network where assets have value. -/
def pubnet : Network := ⟨"Public Global Stellar Network ; September 2015"⟩

/-- The network for tests. -/
def testnet : Network := ⟨"Test SDF Network ; September 2015"⟩

/-- The network where coming versions are tried out. -/
def futurenet : Network := ⟨"Test SDF Future Network ; October 2022"⟩

/-- A network of one node. -/
def standalone : Network := ⟨"Standalone Network ; February 2017"⟩

/-- A network for local tools. -/
def sandbox : Network := ⟨"Local Sandbox Stellar Network ; September 2022"⟩

/-- The hash of the passphrase. -/
def id (network : Network) : FixedBytes 32 := sha256 (Bytes.ofText network.passphrase)

end Network

end LedgerWire
