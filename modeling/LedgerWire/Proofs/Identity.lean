import LedgerWire.Identity.Signer
import LedgerWire.Proofs.Wire.Union

/-!
# Accounts and signers on the wire

Accounts, muxed accounts, signers and decorated signatures have no limit of their own on the wire:
what the types allow is what is read back, each from one wire form.
-/

namespace LedgerWire

/-- Accounts have one wire form each and are read back from it. -/
lemma AccountId.lawful : AccountId.codec.Lawful fun _ => True := by
  refine .union _ (fun _ => 0) (.of_inverse (.fixed 32) ⟨?_, fun _ => rfl, fun _ => rfl⟩)
    (by decide) fun _ => rfl
  intro v p known
  cases known
  rfl

/-- The tag of an account, with or without a number. -/
def MuxedAccount.tag (muxed : MuxedAccount) : Int32 := if muxed.isMuxed then 0x100 else 0

/-- Accounts with and without a number have one wire form each and are read back from it. -/
lemma MuxedAccount.lawful : MuxedAccount.codec.Lawful fun _ => True := by
  have withId := Codec.Lawful.pair .uint64 (.fixed 32)
  refine .union _ MuxedAccount.tag
    ⟨.of_inverse (.fixed 32) ⟨?_, fun _ => rfl, fun _ => rfl⟩,
      .of_inverse (withId.congr fun _ => by simp) ⟨?_, fun _ => rfl, fun _ => rfl⟩⟩ (by decide) ?_
  · rintro ⟨key, _ | id⟩ p known <;> cases known
    rfl
  · rintro ⟨key, _ | id⟩ p known <;> cases known
    rfl
  · rintro ⟨key, _ | id⟩ <;> rfl

/-- The tag of a signer. -/
def SignerKey.tag : SignerKey → Int32
  | .ed25519 _ => 0
  | .preAuthTx _ => 1
  | .hashX _ => 2
  | .signedPayload _ => 3

/-- A key with a payload is made of the key and the payload that it has. -/
lemma SignedPayload.make_eq_ok {key : FixedBytes 32} {payload : Bytes} {signer : SignedPayload} :
    make key payload = .ok signer ↔ signer.key = key ∧ signer.payload = payload := by
  rw [make]
  split
  case isTrue pos =>
    split
    case isTrue le =>
      apply Iff.intro
      · intro h
        cases h
        exact ⟨rfl, rfl⟩
      · intro h
        obtain ⟨rfl, rfl⟩ := h
        rfl
    case isFalse long =>
      refine ⟨nofun, fun ⟨_, e⟩ => (long ?_).elim⟩
      rw [← e]
      exact signer.length_le
  case isFalse empty =>
    refine ⟨nofun, fun ⟨_, e⟩ => (empty ?_).elim⟩
    rw [← e]
    exact signer.pos

/-- Signed payloads have one wire form each and are read back from it. -/
lemma SignedPayload.lawful : SignedPayload.codec.Lawful fun _ => True := by
  have small : Limits.signedPayloadBytes < 2 ^ 32 := by decide
  refine ((Codec.Lawful.pair (.fixed 32) (.counted small)).check ?_).congr fun signer => ?_
  · rintro ⟨key, payload⟩ signer - h
    obtain ⟨rfl, rfl⟩ := make_eq_ok.1 (mapError_eq_ok.1 h)
    rfl
  · have made : make signer.key signer.payload = .ok signer := make_eq_ok.2 ⟨rfl, rfl⟩
    exact iff_of_true ⟨⟨trivial, signer.length_le⟩, mapError_eq_ok.2 made⟩ trivial

/-- Signers have one wire form each and are read back from it. -/
lemma SignerKey.lawful : SignerKey.codec.Lawful fun _ => True := by
  refine .union _ SignerKey.tag
    ⟨.of_inverse (.fixed 32) ?_, .of_inverse (.fixed 32) ?_, .of_inverse (.fixed 32) ?_,
      .of_inverse SignedPayload.lawful ?_⟩ (by decide) fun v => by cases v <;> rfl
  all_goals exact ⟨fun v p known => by cases v <;> cases known; rfl, fun _ => rfl, fun _ => rfl⟩

/-- Signers with their weights have one wire form each and are read back from it. -/
lemma Signer.lawful : Signer.codec.Lawful fun _ => True :=
  ((SignerKey.lawful.pair .uint32).map fun _ _ => rfl).congr fun _ => by simp

/-- Signatures have one wire form each and are read back from it, uncut. -/
lemma DecoratedSignature.lawful : DecoratedSignature.codec.Lawful fun _ => True := by
  have small : Limits.signatureBytes < 2 ^ 32 := by decide
  refine ((Codec.Lawful.pair (.fixed 4) (.counted small)).map ?_).congr fun s => ?_
  · rintro ⟨hint, signature⟩ ⟨-, le⟩
    exact Prod.ext rfl (List.take_of_length_le le)
  · refine iff_of_true ⟨⟨trivial, s.length_le⟩, ?_⟩ trivial
    obtain ⟨hint, signature, le⟩ := s
    simp only [List.take_of_length_le le]

end LedgerWire
