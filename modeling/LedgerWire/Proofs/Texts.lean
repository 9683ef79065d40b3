import LedgerWire.Asset.Pool
import LedgerWire.Claim.Basic
import LedgerWire.Identity.Signer
import LedgerWire.Proofs.Asset
import LedgerWire.Proofs.Claim
import LedgerWire.Proofs.Hex
import LedgerWire.Proofs.StrKey.Typed
import LedgerWire.Proofs.Text

/-!
# One text for each value

Accounts, signers and assets are read from the texts that writing gives and from no others, and the
names of pools and balances from the texts that writing gives in either case. A text shows what kind
of key it is before anything else of it is checked; that look never sends a text to a reader other
than the one that accepts it.
-/

namespace LedgerWire

/-- An account is read from its text alone. -/
lemma AccountId.ofText_eq_ok {text : String} {account : AccountId} :
    ofText text = .ok account ↔ text = account.toText := by
  have read := @StrKey.decode32_eq_ok .accountId text account.key rfl
  rw [toText, ← read, ofText]
  cases StrKey.decode32 .accountId text with
  | ok key => exact ⟨fun h => by cases h; rfl, fun h => by cases h; rfl⟩
  | error fault => exact ⟨nofun, nofun⟩

namespace MuxedAccount

/-- A muxed account is read from its text alone. -/
lemma ofText_eq_ok {text : String} {muxed : MuxedAccount} :
    ofText text = .ok muxed ↔ text = muxed.toText := by
  apply Iff.intro
  · intro h
    rw [ofText] at h
    split at h
    case h_1 => cases h
    case h_2 =>
      split at h
      case h_1 key read =>
        cases h
        exact (StrKey.decode32_eq_ok rfl).1 read
      case h_2 => cases h
    case h_3 =>
      split at h
      case h_1 key id read =>
        cases h
        exact StrKey.decodeMuxed_eq_ok.1 read
      case h_2 => cases h
    case h_4 => cases h
  · intro written
    obtain ⟨key, none | id⟩ := muxed
    · have kind : StrKey.kindOf text = .ok .accountId := written ▸ StrKey.kindOf_encode _ _
      rw [ofText, kind]
      dsimp only
      rw [(StrKey.decode32_eq_ok rfl).2 written]
    · have kind : StrKey.kindOf text = .ok .muxedAccount := written ▸ StrKey.kindOf_encode _ _
      rw [ofText, kind]
      dsimp only
      rw [StrKey.decodeMuxed_eq_ok.2 written]

/-- The first look at a text refuses none that is an account with or without a number. -/
lemma exists_ofText {text : String} :
    (∃ muxed, ofText text = .ok muxed) ↔
      (∃ key, StrKey.decode32 .accountId text = .ok key) ∨
        ∃ content, StrKey.decodeMuxed text = .ok content := by
  simp only [ofText_eq_ok]
  apply Iff.intro
  · intro h
    obtain ⟨⟨key, none | id⟩, written⟩ := h
    · exact .inl ⟨key, (StrKey.decode32_eq_ok rfl).2 written⟩
    · exact .inr ⟨(key, id), StrKey.decodeMuxed_eq_ok.2 written⟩
  · rintro (⟨key, read⟩ | ⟨⟨key, id⟩, read⟩)
    · exact ⟨⟨key, none⟩, (StrKey.decode32_eq_ok rfl).1 read⟩
    · exact ⟨⟨key, some id⟩, StrKey.decodeMuxed_eq_ok.1 read⟩

end MuxedAccount

namespace SignerKey

/-- A payload that a signer holds is never refused when its text is written. -/
lemma encodeSignedPayload_eq (signer : SignedPayload) :
    StrKey.encodeSignedPayload signer.key signer.payload =
      .ok (StrKey.encode .signedPayload (StrKey.signedPayloadBody signer.key signer.payload)) :=
  StrKey.encodeSignedPayload_of_le signer.pos signer.length_le

/-- A signed payload has a text, which is that of its body. -/
lemma toText_signedPayload (signer : SignedPayload) :
    (SignerKey.signedPayload signer).toText =
      StrKey.encode .signedPayload (StrKey.signedPayloadBody signer.key signer.payload) := by
  rw [toText, encodeSignedPayload_eq]
  rfl

/-- A signed payload is read from its text alone. -/
lemma decodeSignedPayload_eq_ok {text : String} {signer : SignedPayload} :
    StrKey.decodeSignedPayload text = .ok (signer.key, signer.payload) ↔
      text = (SignerKey.signedPayload signer).toText := by
  rw [StrKey.decodeSignedPayload_eq_ok, toText_signedPayload]
  exact and_iff_left ⟨signer.pos, signer.length_le⟩

/-- A signer of 32 bytes is made of the bytes that a text carries. -/
lemma key32_eq_ok {text : String} {kind : StrKey.Kind} {make : FixedBytes 32 → SignerKey}
    {signer : SignerKey} :
    ofText.key32 text kind make = .ok signer ↔
      ∃ key, StrKey.decode32 kind text = .ok key ∧ make key = signer := by
  rw [ofText.key32]
  cases StrKey.decode32 kind text with
  | ok key =>
    apply Iff.intro
    · intro h
      cases h
      exact ⟨key, rfl, rfl⟩
    · intro h
      obtain ⟨key, read, made⟩ := h
      cases read
      exact congrArg Except.ok made
  | error fault => exact ⟨nofun, nofun⟩

/-- A signer is read from its text alone. -/
lemma ofText_eq_ok {text : String} {signer : SignerKey} :
    ofText text = .ok signer ↔ text = signer.toText := by
  apply Iff.intro
  · intro h
    rw [ofText] at h
    split at h
    case h_1 => cases h
    case h_2 | h_3 | h_4 =>
      obtain ⟨key, read, rfl⟩ := key32_eq_ok.1 h
      exact (StrKey.decode32_eq_ok rfl).1 read
    case h_5 =>
      split at h
      case h_1 key payload read =>
        obtain ⟨signed, made, rfl⟩ := map_eq_ok.1 h
        obtain ⟨rfl, rfl⟩ := SignedPayload.make_eq_ok.1 made
        exact decodeSignedPayload_eq_ok.1 read
      case h_2 => cases h
    case h_6 => cases h
  · intro written
    cases signer with
    | ed25519 key | preAuthTx key | hashX key =>
      rw [ofText, written, toText, StrKey.encode32, StrKey.kindOf_encode]
      exact key32_eq_ok.2 ⟨key, (StrKey.decode32_eq_ok rfl).2 rfl, rfl⟩
    | signedPayload signer =>
      have kind : StrKey.kindOf text = .ok .signedPayload := by
        rw [written, toText_signedPayload, StrKey.kindOf_encode]
      have made := SignedPayload.make_eq_ok.2 ⟨@rfl _ signer.key, @rfl _ signer.payload⟩
      rw [ofText, kind]
      dsimp only
      rw [decodeSignedPayload_eq_ok.2 written]
      dsimp only
      rw [made]
      rfl

/-- The first look at a text refuses none that is a signer. -/
lemma exists_ofText {text : String} :
    (∃ signer, ofText text = .ok signer) ↔
      (∃ key, StrKey.decode32 .accountId text = .ok key) ∨
        (∃ hash, StrKey.decode32 .preAuthTx text = .ok hash) ∨
          (∃ hash, StrKey.decode32 .sha256Hash text = .ok hash) ∨
            ∃ content, StrKey.decodeSignedPayload text = .ok content := by
  simp only [ofText_eq_ok]
  apply Iff.intro
  · intro h
    obtain ⟨signer, written⟩ := h
    cases signer with
    | ed25519 key => exact .inl ⟨key, (StrKey.decode32_eq_ok rfl).2 written⟩
    | preAuthTx hash => exact .inr (.inl ⟨hash, (StrKey.decode32_eq_ok rfl).2 written⟩)
    | hashX hash => exact .inr (.inr (.inl ⟨hash, (StrKey.decode32_eq_ok rfl).2 written⟩))
    | signedPayload signer => exact .inr (.inr (.inr ⟨_, decodeSignedPayload_eq_ok.2 written⟩))
  · rintro (⟨key, read⟩ | ⟨hash, read⟩ | ⟨hash, read⟩ | ⟨⟨key, payload⟩, read⟩)
    · exact ⟨.ed25519 key, (StrKey.decode32_eq_ok rfl).1 read⟩
    · exact ⟨.preAuthTx hash, (StrKey.decode32_eq_ok rfl).1 read⟩
    · exact ⟨.hashX hash, (StrKey.decode32_eq_ok rfl).1 read⟩
    · obtain ⟨-, pos, le⟩ := StrKey.decodeSignedPayload_eq_ok.1 read
      exact ⟨.signedPayload ⟨key, payload, pos, le⟩, decodeSignedPayload_eq_ok.1 read⟩

end SignerKey

namespace AssetCode

/-- The characters of a code are the ASCII letters and digits. -/
lemma isSymbol_ascii : ∀ n < 128, isSymbol (UInt8.ofNat n) = (Char.ofNat n).isAlphanum := by
  decide +kernel

/-- Letters and digits are ASCII characters. -/
lemma toNat_lt_of_isAlphanum {c : Char} (h : c.isAlphanum = true) : c.toNat < 128 := by
  cases (Bool.or_eq_true _ _).mp h with
  | inl letter =>
    cases (Bool.or_eq_true _ _).mp letter with
    | inl upper =>
      have bound := (of_decide_eq_true upper).2
      exact (UInt32.le_iff_toNat_le.1 bound).trans_lt (by decide)
    | inr lower =>
      have bound := of_decide_eq_true ((Bool.and_eq_true _ _).mp lower).2
      exact (UInt32.le_iff_toNat_le.1 bound).trans_lt (by decide)
  | inr digit => exact (Char.isDigit_iff_toNat.1 digit).2.trans_lt (by decide)

/-- The symbols of a code are letters and digits. -/
lemma isAlphanum_of_isSymbol {b : UInt8} (h : isSymbol b = true) :
    (Char.ofNat b.toNat).isAlphanum = true := by
  have ascii : b.toNat < 128 := UInt8.lt_iff_toNat_lt.1 (isSymbol_bounds h).2
  rw [← isSymbol_ascii _ ascii, UInt8.ofNat_toNat]
  exact h

/-- A text of letters and digits is made of their codes. -/
lemma toLatin_of_isAlphanum {text : String} (h : ∀ c ∈ text.toList, c.isAlphanum = true) :
    text = Bytes.toLatin (text.toList.map fun c => UInt8.ofNat c.toNat) := by
  have code : ∀ c ∈ text.toList, Char.ofNat (UInt8.ofNat c.toNat).toNat = c := by
    intro c mem
    have ascii := toNat_lt_of_isAlphanum (h c mem)
    rw [UInt8.toNat_ofNat_of_lt' (by simp only [UInt8.size]; omega), Char.ofNat_toNat]
  rw [Bytes.toLatin, List.map_map, ← String.toList_inj, String.toList_ofList]
  conv => lhs; rw [← List.map_id text.toList]
  exact List.map_congr_left fun c mem => (code c mem).symm

/-- The bytes of a text of letters and digits are their codes. -/
lemma ofText_of_isAlphanum {text : String} (h : ∀ c ∈ text.toList, c.isAlphanum = true) :
    Bytes.ofText text = text.toList.map (fun c => UInt8.ofNat c.toNat) ∧
      ∀ b ∈ Bytes.ofText text, isSymbol b = true := by
  have symbols : ∀ b ∈ text.toList.map fun c => UInt8.ofNat c.toNat, isSymbol b = true := by
    intro b mem
    obtain ⟨c, inside, rfl⟩ := List.mem_map.1 mem
    rw [isSymbol_ascii _ (toNat_lt_of_isAlphanum (h c inside)), Char.ofNat_toNat]
    exact h c inside
  have made : Bytes.ofText text = text.toList.map fun c => UInt8.ofNat c.toNat := by
    conv => lhs; rw [toLatin_of_isAlphanum h]
    exact Bytes.ofText_toLatin fun b mem => (isSymbol_bounds (symbols b mem)).2
  rw [made]
  exact ⟨rfl, symbols⟩

/-- Letters and digits have one byte each. -/
lemma length_ofText_of_isAlphanum {text : String} (h : ∀ c ∈ text.toList, c.isAlphanum = true) :
    (Bytes.ofText text).length = text.length := by
  rw [(ofText_of_isAlphanum h).1, List.length_map, String.length_toList]

/-- A code is a text of one to twelve ASCII letters and digits. -/
lemma isValid_iff_isAlphanum {text : String} :
    isValid text = true ↔
      (1 ≤ text.length ∧ text.length ≤ 12) ∧ ∀ c ∈ text.toList, c.isAlphanum = true := by
  rw [isValid_iff, List.all_eq_true]
  apply Iff.intro
  · intro h
    obtain ⟨size, symbols⟩ := h
    have made : Bytes.toLatin (Bytes.ofText text) = text :=
      Bytes.toLatin_ofText fun b mem => (isSymbol_bounds (symbols b mem)).2
    have chars : text.toList = (Bytes.ofText text).map fun b => Char.ofNat b.toNat := by
      conv => lhs; rw [← made, Bytes.toLatin, String.toList_ofList]
    have count : text.length = (Bytes.ofText text).length := by
      rw [← String.length_toList, chars, List.length_map]
    rw [count]
    refine ⟨size, fun c mem => ?_⟩
    rw [chars] at mem
    obtain ⟨b, inside, rfl⟩ := List.mem_map.1 mem
    exact isAlphanum_of_isSymbol (symbols b inside)
  · intro h
    obtain ⟨size, letters⟩ := h
    rw [length_ofText_of_isAlphanum letters]
    exact ⟨size, (ofText_of_isAlphanum letters).2⟩

variable {shortest longest : Nat}

/-- The text of a code has its characters. -/
@[simp] lemma ofText_toText (code : AssetCode shortest longest) :
    Bytes.ofText code.toText = code.symbols :=
  Bytes.ofText_toLatin fun b mem =>
    (isSymbol_bounds (List.all_eq_true.1 code.alphanumeric b mem)).2

/-- The characters of a code are what is read from its field. -/
lemma unpad_field (code : AssetCode shortest longest) (pos : 0 < shortest) :
    unpad code.field.bytes = .ok code.symbols :=
  unpad_padded (Nat.lt_of_lt_of_le pos code.shortest_le) code.le_longest code.alphanumeric

/-- A text is the code that has it as its text. -/
lemma validate_eq_ok {text : String} {code : AssetCode 1 longWidth} :
    validate text = .ok code ↔ code.toText = text := by
  rw [validate_eq_ok_iff_symbols]
  apply Iff.intro
  · intro symbols
    rw [toText, symbols, Bytes.toLatin_ofText]
    rw [← symbols]
    exact fun b mem => (isSymbol_bounds (List.all_eq_true.1 code.alphanumeric b mem)).2
  · rintro rfl
    exact (ofText_toText code).symm

/-- The text of a code is one, whatever its field. -/
lemma isValid_toText {code : AssetCode shortest longest} (pos : 0 < shortest)
    (le : longest ≤ longWidth) : isValid code.toText = true := by
  have least := code.shortest_le
  have most := code.le_longest
  rw [isValid_iff, ofText_toText]
  exact ⟨by omega, code.alphanumeric⟩

/-- A colon is no character of a code. -/
lemma not_mem_of_isValid {text : String} (valid : isValid text = true) : ':' ∉ text.toList :=
  fun mem => absurd ((isValid_iff_isAlphanum.1 valid).2 ':' mem) (by decide)

end AssetCode

namespace Asset

/-- A credit has the code that it is made of. -/
lemma code?_ofCode (code : AssetCode 1 AssetCode.longWidth) (issuer : AccountId) :
    (ofCode code issuer).code? = some code.toText := by
  rw [ofCode]
  split <;> rfl

/-- A credit has the issuer that it is made of. -/
lemma issuer?_ofCode (code : AssetCode 1 AssetCode.longWidth) (issuer : AccountId) :
    (ofCode code issuer).issuer? = some issuer := by
  rw [ofCode]
  split <;> rfl

/-- An asset that is not the native one is made of its code and its issuer. -/
lemma exists_ofCode {asset : Asset} {text : String} {issuer : AccountId}
    (named : asset.code? = some text) (issued : asset.issuer? = some issuer) :
    ∃ code, code.toText = text ∧ ofCode code issuer = asset := by
  cases asset with
  | native => cases named
  | alphanum4 credit =>
    cases named
    cases issued
    obtain ⟨⟨symbols, some, few, all⟩, issuer⟩ := credit
    have fits : symbols.length ≤ AssetCode.longWidth := few.trans (by decide)
    exact ⟨⟨symbols, some, fits, all⟩, rfl, dif_pos few⟩
  | alphanum12 credit =>
    cases named
    cases issued
    obtain ⟨⟨symbols, many, fits, all⟩, issuer⟩ := credit
    have some : 1 ≤ symbols.length := Nat.le_trans (by decide) many
    exact ⟨⟨symbols, some, fits, all⟩, rfl, dif_neg (Nat.not_le_of_lt many)⟩

/-- A code and an issuer are made into the credit that has them. -/
lemma credit_eq_ok {code : String} {issuer : AccountId} {asset : Asset} :
    credit code issuer = .ok asset ↔ asset.code? = some code ∧ asset.issuer? = some issuer := by
  rw [credit, bind_eq_ok]
  apply Iff.intro
  · intro h
    obtain ⟨named, valid, made⟩ := h
    cases made
    rw [code?_ofCode, AssetCode.validate_eq_ok.1 valid]
    exact ⟨rfl, issuer?_ofCode named issuer⟩
  · intro h
    obtain ⟨named, issued⟩ := h
    obtain ⟨code, written, rfl⟩ := exists_ofCode named issued
    exact ⟨code, AssetCode.validate_eq_ok.2 written, rfl⟩

/-- Every asset with a code has a valid one. -/
lemma isValid_of_code? {asset : Asset} {code : String} (named : asset.code? = some code) :
    AssetCode.isValid code = true := by
  cases asset with
  | native => cases named
  | alphanum4 | alphanum12 =>
    cases named
    exact AssetCode.isValid_toText (by decide) (by decide)

/-- The text of a credit is its code and its issuer with a colon between them. -/
lemma toText_of_credit {asset : Asset} {code : String} {issuer : AccountId}
    (named : asset.code? = some code) (issued : asset.issuer? = some issuer) :
    asset.toText = code ++ ":" ++ issuer.toText := by
  cases asset with
  | native => cases named
  | alphanum4 | alphanum12 =>
    cases named
    cases issued
    rfl

/-- An asset is the native one, or has a code and an issuer. -/
lemma eq_native_or_credit (asset : Asset) :
    asset = .native ∨ ∃ code issuer, asset.code? = some code ∧ asset.issuer? = some issuer := by
  cases asset with
  | native => exact .inl rfl
  | alphanum4 credit | alphanum12 credit => exact .inr ⟨_, _, rfl, rfl⟩

/-- The text of a credit is cut behind its code, which has no colon. -/
lemma splitFirst?_of_credit {text code issuer : String} (valid : AssetCode.isValid code = true)
    (written : text = code ++ ":" ++ issuer) :
    Text.splitFirst? ':' text.toList = some (code.toList, issuer.toList) := by
  refine Text.splitFirst?_eq_some.2 ⟨AssetCode.not_mem_of_isValid valid, ?_⟩
  rw [written, String.toList_append, String.toList_append, List.append_assoc]
  rfl

/-- The text of the native asset has no colon. -/
lemma ne_native_of_splitFirst? {text : String} {parts : List Char × List Char}
    (cut : Text.splitFirst? ':' text.toList = some parts) : text ≠ "native" := by
  rintro rfl
  cases cut

/-- Every text that is a code is the code of a credit of every issuer. -/
lemma exists_credit {code : String} (valid : AssetCode.isValid code = true) (issuer : AccountId) :
    ∃ asset, credit code issuer = .ok asset := by
  obtain ⟨named, read⟩ := AssetCode.isValid_iff_validate.1 valid
  exact ⟨ofCode named issuer, by rw [credit, read]; rfl⟩

/-- An asset is read from its text alone. -/
lemma ofText_eq_ok {text : String} {asset : Asset} :
    ofText text = .ok asset ↔ text = asset.toText := by
  apply Iff.intro
  · intro h
    rw [ofText] at h
    split at h
    case isTrue native =>
      cases h
      exact native
    case isFalse =>
      split at h
      case h_1 => cases h
      case h_2 code issuer cut =>
        split at h
        case h_1 account read =>
          obtain ⟨named, issued⟩ := credit_eq_ok.1 h
          obtain ⟨-, written⟩ := Text.splitFirst?_eq_some.1 cut
          rw [toText_of_credit named issued, ← AccountId.ofText_eq_ok.1 read, ← String.toList_inj,
            written]
          simp only [String.toList_append, String.toList_ofList, List.append_assoc]
          rfl
        case h_2 => cases h
  · intro written
    obtain rfl | ⟨code, issuer, named, issued⟩ := eq_native_or_credit asset
    · exact if_pos written
    · rw [toText_of_credit named issued] at written
      have cut := splitFirst?_of_credit (isValid_of_code? named) written
      rw [ofText, if_neg (ne_native_of_splitFirst? cut), cut]
      dsimp only
      rw [String.ofList_toList, String.ofList_toList, AccountId.ofText_eq_ok.2 rfl]
      exact credit_eq_ok.2 ⟨named, issued⟩

/-- The texts of assets are `native` and all of a code, a colon and an issuer. -/
lemma exists_ofText {text : String} :
    (∃ asset, ofText text = .ok asset) ↔
      text = "native" ∨
        ∃ code issuer, text = code ++ ":" ++ issuer ∧ AssetCode.isValid code = true ∧
          ∃ account, AccountId.ofText issuer = .ok account := by
  apply Iff.intro
  · intro h
    obtain ⟨asset, read⟩ := h
    have written := ofText_eq_ok.1 read
    obtain rfl | ⟨code, issuer, named, issued⟩ := eq_native_or_credit asset
    · exact .inl written
    · rw [toText_of_credit named issued] at written
      exact .inr ⟨code, _, written, isValid_of_code? named, issuer, AccountId.ofText_eq_ok.2 rfl⟩
  · rintro (native | ⟨code, issuer, written, valid, account, read⟩)
    · exact ⟨.native, ofText_eq_ok.2 native⟩
    · obtain ⟨asset, made⟩ := exists_credit valid account
      obtain ⟨named, issued⟩ := credit_eq_ok.1 made
      refine ⟨asset, ofText_eq_ok.2 ?_⟩
      rw [toText_of_credit named issued, written, AccountId.ofText_eq_ok.1 read]

end Asset

/-- The name of a pool is read from its text in either case. -/
lemma PoolId.ofText_eq_ok {text : String} {id : PoolId} :
    ofText text = .ok id ↔ text.toLower = id.toText := by
  rw [toText, ← Hex.decodeFixed?_eq_some, ofText]
  cases Hex.decodeFixed? 32 text with
  | some hash =>
    apply Iff.intro
    · intro h
      cases h
      rfl
    · intro h
      cases h
      rfl
  | none => exact ⟨nofun, nofun⟩

namespace BalanceId

/-- The name of a balance has 36 bytes. -/
@[simp] lemma length_encode (id : BalanceId) : (codec.encode id).length = 36 := by
  have hashes : ((Codec.fixed 32).map mk hash).Appends :=
    ((Codec.Lawful.fixed 32).map fun _ _ => rfl).appends
  have whole : codec.encode id = Codec.int32.encode 0 ++ (Codec.fixed 32).encode id.hash :=
    hashes.encode_tagged _ 0 id
  simp [whole, Bytes.padLength]

/-- The name of a balance is read from its text in either case. -/
lemma ofText_eq_ok {text : String} {id : BalanceId} :
    ofText text = .ok id ↔ text.toLower = id.toText := by
  apply Iff.intro
  · intro h
    rw [ofText] at h
    split at h
    case h_1 => cases h
    case h_2 bytes found =>
      split at h
      case h_1 held read =>
        cases h
        rw [toText, ← (lawful.decode_eq_ok.1 read).2]
        exact Hex.decodeFixed?_eq_some.1 found
      case h_2 => cases h
  · intro written
    have found : Hex.decodeFixed? 36 text = some ⟨codec.encode id, length_encode id⟩ :=
      Hex.decodeFixed?_eq_some.2 written
    have read : codec.decode (codec.encode id) = .ok id :=
      lawful.decode_eq_ok.2 ⟨trivial, rfl⟩
    rw [ofText, found]
    dsimp only
    rw [read]

end BalanceId

/-- Whether values are read from the texts that writing gives, up to what the spelling of a text
leaves out, and from no others. -/
structure Legible {ε α : Type} (read : String → Except ε α) (write : α → String)
    (spelling : String → String) (Accepted : String → Prop) : Prop where
  read_write : ∀ value, read (write value) = .ok value
  write_of_read : ∀ text value, read text = .ok value → write value = spelling text
  accepted : ∀ text, (∃ value, read text = .ok value) ↔ Accepted text

namespace Legible
variable {ε α : Type} {read : String → Except ε α} {write : α → String}
  {Accepted : String → Prop}

/-- Texts are legible when each is read as the value that it is written for. -/
lemma of_iff (h : ∀ {text value}, read text = .ok value ↔ text = write value)
    (accepted : ∀ text, (∃ value, read text = .ok value) ↔ Accepted text) :
    Legible read write id Accepted :=
  ⟨fun _ => h.2 rfl, fun _ _ found => (h.1 found).symm, accepted⟩

/-- The same when letters of either case are read, and lower ones written. -/
lemma of_toLower (h : ∀ {text value}, read text = .ok value ↔ text.toLower = write value)
    (lower : ∀ value, (write value).toLower = write value) :
    Legible read write String.toLower fun text => ∃ value, text.toLower = write value :=
  ⟨fun value => h.2 (lower value), fun _ _ found => (h.1 found).symm,
    fun _ => exists_congr fun _ => h⟩

end Legible

/-- Accounts, signers and assets are read from their one text each. Of the texts of keys, an account
takes those of two kinds and a signer those of four; assets take all of a code and an issuer. What
is written for a signer and for a code is never missing. The names of pools and of balances are read
from their texts in either case. -/
theorem texts_legible :
    Legible MuxedAccount.ofText MuxedAccount.toText id (fun text =>
        (∃ key, StrKey.decode32 .accountId text = .ok key) ∨
          ∃ content, StrKey.decodeMuxed text = .ok content) ∧
      Legible SignerKey.ofText SignerKey.toText id (fun text =>
        (∃ key, StrKey.decode32 .accountId text = .ok key) ∨
          (∃ hash, StrKey.decode32 .preAuthTx text = .ok hash) ∨
            (∃ hash, StrKey.decode32 .sha256Hash text = .ok hash) ∨
              ∃ content, StrKey.decodeSignedPayload text = .ok content) ∧
      Legible Asset.ofText Asset.toText id (fun text =>
        text = "native" ∨
          ∃ code issuer, text = code ++ ":" ++ issuer ∧
            ((1 ≤ code.length ∧ code.length ≤ 12) ∧ ∀ c ∈ code.toList, c.isAlphanum = true) ∧
              ∃ account, AccountId.ofText issuer = .ok account) ∧
      (∀ signer : SignedPayload, StrKey.encodeSignedPayload signer.key signer.payload =
        .ok (SignerKey.signedPayload signer).toText) ∧
      (∀ code : AssetCode 1 4, AssetCode.unpad code.field.bytes =
        .ok (Bytes.ofText code.toText)) ∧
      (∀ code : AssetCode 5 12, AssetCode.unpad code.field.bytes =
        .ok (Bytes.ofText code.toText)) ∧
      Legible PoolId.ofText PoolId.toText String.toLower (fun text =>
        ∃ id : PoolId, text.toLower = id.toText) ∧
      Legible BalanceId.ofText BalanceId.toText String.toLower (fun text =>
        ∃ id : BalanceId, text.toLower = id.toText) := by
  refine ⟨.of_iff MuxedAccount.ofText_eq_ok fun _ => MuxedAccount.exists_ofText,
    .of_iff SignerKey.ofText_eq_ok fun _ => SignerKey.exists_ofText,
    .of_iff Asset.ofText_eq_ok fun text => ?_, fun signer => ?_, fun code => ?_, fun code => ?_,
    .of_toLower PoolId.ofText_eq_ok fun _ => Hex.toLower_encode _,
    .of_toLower BalanceId.ofText_eq_ok fun _ => Hex.toLower_encode _⟩
  · simp only [Asset.exists_ofText, AssetCode.isValid_iff_isAlphanum]
  · rw [SignerKey.toText_signedPayload, SignerKey.encodeSignedPayload_eq]
  · rw [AssetCode.ofText_toText, code.unpad_field (by decide)]
  · rw [AssetCode.ofText_toText, code.unpad_field (by decide)]

end LedgerWire
