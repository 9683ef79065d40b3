import LedgerWire.Proofs.Operation
import LedgerWire.Proofs.Texts
import LedgerWire.Proofs.Wire.Answers

/-!
# One rule for the codes of assets

The field of a code stands in assets, in what trust lines are opened for and hold, and in the
authorization of a trust line, where a text takes the place of the code. Whether a field is accepted
does not depend on where it stands nor on the account beside it: it is accepted when it is a code of
a length that belongs to the field, and zeros behind it, and otherwise refused with one fault
everywhere.
-/

namespace LedgerWire

/-- The two fields that codes stand in. -/
inductive CodeField where
  /-- The field of codes of one to four characters. -/
  | short
  /-- The field of codes of five to twelve characters. -/
  | long

namespace CodeField

/-- The tag in front of the field. -/
def tag : CodeField → Int32
  | short => 1
  | long => 2

/-- The fewest characters of a code in the field. -/
def shortest : CodeField → Nat
  | short => 1
  | long => 5

/-- The number of bytes of the field, and the most characters of a code in it. -/
def width : CodeField → Nat
  | short => 4
  | long => 12

/-- Whether a field is a code of its own and zeros behind it. -/
structure Holds (kind : CodeField) (field : FixedBytes kind.width) (code : String) : Prop where
  alphanumeric : ∀ c ∈ code.toList, c.isAlphanum = true
  shortest_le : kind.shortest ≤ code.length
  le_width : code.length ≤ kind.width
  padded : field.bytes = Bytes.ofText code ++ List.replicate (kind.width - code.length) 0

/-- The wire form of a credit with a field of any contents. -/
def creditForm (kind : CodeField) (field : FixedBytes kind.width) (issuer : AccountId) : Bytes :=
  Codec.int32.encode kind.tag ++ (field.bytes ++ AccountId.codec.encode issuer)

/-- The wire form of an authorization with a field of any contents. -/
def authorizationForm (kind : CodeField) (field : FixedBytes kind.width) (trustor : AccountId)
    (authorize : UInt32) : Bytes :=
  AccountId.codec.encode trustor ++
    ((Codec.int32.encode kind.tag ++ field.bytes) ++ Codec.uint32.encode authorize)

/-- A field is read as one code wherever it stands. -/
structure Accepted (kind : CodeField) (field : FixedBytes kind.width) (code : String) : Prop where
  /-- Beside any issuer it is read as the credit of that issuer under the code. -/
  credit (issuer : AccountId) : ∃ asset, Asset.credit code issuer = .ok asset ∧
    asset.code? = some code ∧
    Asset.codec.decode (kind.creditForm field issuer) = .ok asset ∧
    ChangeTrustAsset.codec.decode (kind.creditForm field issuer) = .ok (.asset asset) ∧
    TrustLineAsset.codec.decode (kind.creditForm field issuer) = .ok (.asset asset)
  authorization (trustor : AccountId) (authorize : UInt32) :
    AllowTrust.codec.decode (kind.authorizationForm field trustor authorize) =
      .ok ⟨trustor, code, authorize⟩

/-- A field is refused with one fault wherever it stands. -/
structure Refused (kind : CodeField) (field : FixedBytes kind.width) (fault : Forbidden) :
    Prop where
  asset (issuer : AccountId) :
    Asset.codec.decode (kind.creditForm field issuer) = .error (.forbidden fault)
  changeTrust (issuer : AccountId) :
    ChangeTrustAsset.codec.decode (kind.creditForm field issuer) = .error (.forbidden fault)
  trustLine (issuer : AccountId) :
    TrustLineAsset.codec.decode (kind.creditForm field issuer) = .error (.forbidden fault)
  authorization (trustor : AccountId) (authorize : UInt32) :
    AllowTrust.codec.decode (kind.authorizationForm field trustor authorize) =
      .error (.forbidden fault)

variable {kind : CodeField} {field : FixedBytes kind.width} {code : String}

/-- No code is empty. -/
lemma shortest_pos (kind : CodeField) : 0 < kind.shortest := by
  cases kind <;> decide

/-- No field is longer than the long one. -/
lemma width_le (kind : CodeField) : kind.width ≤ AssetCode.longWidth := by
  cases kind <;> decide

/-- The bytes of a field need no zeros to fill a word. -/
lemma encode_field (kind : CodeField) (field : FixedBytes kind.width) :
    (Codec.fixed kind.width).encode field = field.bytes :=
  Codec.encode_fixed (by cases kind <;> rfl) field

/-- What a field holds is a valid code. -/
lemma Holds.isValid (h : kind.Holds field code) : AssetCode.isValid code = true := by
  have pos := kind.shortest_pos
  have least := h.shortest_le
  exact AssetCode.isValid_iff_isAlphanum.2
    ⟨⟨by omega, h.le_width.trans kind.width_le⟩, h.alphanumeric⟩

/-- Every code is held by one of the fields, filled up with zeros. -/
lemma exists_holds {code : String} (valid : AssetCode.isValid code = true) :
    ∃ (kind : CodeField) (field : FixedBytes kind.width), kind.Holds field code := by
  obtain ⟨⟨some, few⟩, letters⟩ := AssetCode.isValid_iff_isAlphanum.1 valid
  have count := AssetCode.length_ofText_of_isAlphanum letters
  have holds : ∀ kind : CodeField, kind.shortest ≤ code.length → code.length ≤ kind.width →
      kind.Holds (.padded kind.width (Bytes.ofText code)) code := by
    intro kind least most
    refine ⟨letters, least, most, ?_⟩
    rw [FixedBytes.bytes_padded_of_le (by rw [count]; exact most), count]
  obtain short | long := Nat.lt_or_ge code.length 5
  · exact ⟨.short, _, holds .short some (Nat.le_of_lt_succ short)⟩
  · exact ⟨.long, _, holds .long long few⟩

/-- What a field is read as is the code that it holds. -/
lemma holds_iff :
    kind.Holds field code ↔ AssetCode.fieldText kind.shortest field.bytes = .ok code := by
  rw [AssetCode.fieldText_eq_ok]
  apply Iff.intro
  · intro h
    have symbols := List.all_eq_true.2 (AssetCode.ofText_of_isAlphanum h.alphanumeric).2
    have count := AssetCode.length_ofText_of_isAlphanum h.alphanumeric
    have least : kind.shortest ≤ (Bytes.ofText code).length := by rw [count]; exact h.shortest_le
    have nonempty := List.ne_nil_of_length_pos (Nat.lt_of_lt_of_le kind.shortest_pos least)
    exact ⟨AssetCode.unpad_eq_ok.2 ⟨nonempty, symbols, _, h.padded⟩, least⟩
  · intro h
    obtain ⟨read, least⟩ := h
    obtain ⟨-, symbols, zeros, padded⟩ := AssetCode.unpad_eq_ok.1 read
    have most := (AssetCode.padded_of_unpad read).1
    have valid : AssetCode.isValid code = true := AssetCode.isValid_iff.2
      ⟨⟨kind.shortest_pos.trans_le least, most.trans kind.width_le⟩, symbols⟩
    have letters := (AssetCode.isValid_iff_isAlphanum.1 valid).2
    have count := AssetCode.length_ofText_of_isAlphanum letters
    have total := field.length_eq
    rw [padded, List.length_append, List.length_replicate] at total
    have fill : kind.width - code.length = zeros := by omega
    exact ⟨letters, count ▸ least, count ▸ most, fill ▸ padded⟩

end CodeField

/-- A credit is made of a field and an issuer, or the field is refused. -/
def Credit.ofField {shortest longest : Nat} (field : FixedBytes longest) (issuer : AccountId) :
    Except Forbidden (Credit shortest longest) :=
  match AssetCode.unpad field.bytes with
  | .error fault => .error (.asset fault)
  | .ok symbols =>
    match AssetCode.ofSymbols? shortest longest symbols with
    | some code => .ok ⟨code, issuer⟩
    | none => .error (.shortAssetCode (Bytes.toLatin symbols))

namespace Credit
variable {shortest longest : Nat}

/-- Beside an issuer, a field is judged as it is alone, and made into an asset with the code that
it has alone. -/
lemma map_ofField {inject : Credit shortest longest → Asset}
    (named : ∀ c, (inject c).code? = some c.code.toText)
    (issued : ∀ c, (inject c).issuer? = some c.issuer) (field : FixedBytes longest)
    (issuer : AccountId) :
    ((ofField field issuer).map inject).map (fun asset => (asset.code?, asset.issuer?)) =
      (AssetCode.fieldText shortest field.bytes).map fun code => (some code, some issuer) := by
  rw [ofField, AssetCode.fieldText]
  cases read : AssetCode.unpad field.bytes with
  | error fault => rfl
  | ok symbols =>
    have fits := (AssetCode.padded_of_unpad read).1
    have all := (AssetCode.unpad_eq_ok.1 read).2.1
    by_cases long : shortest ≤ symbols.length
    · have made : AssetCode.ofSymbols? shortest longest symbols = some ⟨symbols, long, fits, all⟩ :=
        AssetCode.ofSymbols?_eq_some.2 rfl
      simp only [made, if_neg (Nat.not_lt_of_le long), Except.map, named, issued]
      rfl
    · have none : AssetCode.ofSymbols? shortest longest symbols = none := dif_neg fun h => long h.1
      simp only [none, if_pos (Nat.lt_of_not_le long)]
      rfl

/-- A credit is read as what is made of its field and its issuer. -/
lemma ofField_answers (field : FixedBytes longest) (issuer : AccountId) :
    (codec shortest longest).read.Answers
      ((Codec.fixed longest).encode field ++ AccountId.codec.encode issuer)
      ((ofField field issuer).mapError .forbidden) := by
  have written := AccountId.lawful.appends.encode_pair (c := Codec.fixed longest) (field, issuer)
  have fields := (Codec.Lawful.fixed longest).pair AccountId.lawful
  rw [← written]
  exact (fields.answers ⟨trivial, trivial⟩).check _

end Credit

/-- An arm of assets answers for assets and for those of trust lines. -/
lemma Asset.arm_answers {arm : Arm Asset} (mem : arm ∈ arms) {x : Bytes}
    {made : Except Forbidden arm.Payload}
    (h : arm.codec.read.Answers x (made.mapError .forbidden)) :
    let outcome := (made.map arm.inject).mapError .forbidden
    codec.read.Answers (Codec.int32.encode arm.tag ++ x) outcome ∧
      ChangeTrustAsset.codec.read.Answers (Codec.int32.encode arm.tag ++ x)
        (outcome.map .asset) ∧
      TrustLineAsset.codec.read.Answers (Codec.int32.encode arm.tag ++ x)
        (outcome.map .asset) := by
  refine ⟨?_, Codec.widened_answers (by decide) mem h, Codec.widened_answers (by decide) mem h⟩
  cases made with
  | ok p => exact Codec.union_answers (by decide) mem h
  | error fault => exact Codec.union_answers (by decide) mem h

namespace CodeField
variable {kind : CodeField} {field : FixedBytes kind.width} {code : String}

/-- The asset that is made of a field and an issuer. -/
def asset : (kind : CodeField) → FixedBytes kind.width → AccountId → Except Forbidden Asset
  | short, field, issuer => (Credit.ofField field issuer).map .alphanum4
  | long, field, issuer => (Credit.ofField field issuer).map .alphanum12

/-- An asset is made of a field exactly when a code is read from it, and has the code. -/
lemma map_asset (kind : CodeField) (field : FixedBytes kind.width) (issuer : AccountId) :
    (kind.asset field issuer).map (fun asset => (asset.code?, asset.issuer?)) =
      (AssetCode.fieldText kind.shortest field.bytes).map fun code => (some code, some issuer) := by
  cases kind with
  | short => exact Credit.map_ofField (fun _ => rfl) (fun _ => rfl) field issuer
  | long => exact Credit.map_ofField (fun _ => rfl) (fun _ => rfl) field issuer

/-- What is made of a field is read of it. -/
lemma creditForm_answers (kind : CodeField) (field : FixedBytes kind.width) (issuer : AccountId) :
    let outcome := (kind.asset field issuer).mapError .forbidden
    Asset.codec.read.Answers (kind.creditForm field issuer) outcome ∧
      ChangeTrustAsset.codec.read.Answers (kind.creditForm field issuer) (outcome.map .asset) ∧
      TrustLineAsset.codec.read.Answers (kind.creditForm field issuer) (outcome.map .asset) := by
  rw [creditForm, ← kind.encode_field]
  cases kind with
  | short =>
    exact Asset.arm_answers (List.mem_cons_of_mem _ List.mem_cons_self)
      (Credit.ofField_answers field issuer)
  | long =>
    exact Asset.arm_answers (List.mem_cons_of_mem _ (List.mem_cons_of_mem _ List.mem_cons_self))
      (Credit.ofField_answers field issuer)

/-- The text in an authorization is what is read from the field alone. -/
lemma code_answers (kind : CodeField) (field : FixedBytes kind.width) :
    AllowTrust.codeCodec.read.Answers (Codec.int32.encode kind.tag ++ field.bytes)
      ((AssetCode.fieldText kind.shortest field.bytes).mapError .forbidden) := by
  have checked := ((Codec.Lawful.fixed kind.width).answers (v := field) trivial).check
    fun field => AssetCode.fieldText kind.shortest field.bytes
  have unchanged : ((AssetCode.fieldText kind.shortest field.bytes).mapError .forbidden).map id =
      (AssetCode.fieldText kind.shortest field.bytes).mapError WireFault.forbidden :=
    congrFun Except.map_id _
  rw [kind.encode_field] at checked
  rw [← unchanged]
  cases kind with
  | short => exact Codec.union_answers (by decide) List.mem_cons_self checked
  | long =>
    exact Codec.union_answers (by decide) (List.mem_cons_of_mem _ List.mem_cons_self) checked

/-- An authorization is read with the code that is read from the field alone. -/
lemma authorizationForm_answers (kind : CodeField) (field : FixedBytes kind.width)
    (trustor : AccountId) (authorize : UInt32) :
    AllowTrust.codec.read.Answers (kind.authorizationForm field trustor authorize)
      (((AssetCode.fieldText kind.shortest field.bytes).mapError .forbidden).map
        fun code => ⟨trustor, code, authorize⟩) := by
  have account := AccountId.lawful.answers (v := trustor) trivial
  have flags := Codec.Lawful.uint32.answers (v := authorize) trivial
  have code := kind.code_answers field
  cases read : AssetCode.fieldText kind.shortest field.bytes with
  | ok text =>
    rw [read] at code
    exact (Codec.pair_answers account (Codec.pair_answers code flags)).map _
  | error fault =>
    rw [read] at code
    exact (Codec.pair_answers account (Codec.pair_answers_error code)).map _

/-- A field that holds a code is read as that code everywhere. -/
lemma Holds.accepted (h : kind.Holds field code) : kind.Accepted field code := by
  have read := holds_iff.1 h
  refine ⟨fun issuer => ?_, fun trustor authorize => ?_⟩
  · have made := kind.map_asset field issuer
    rw [read] at made
    obtain ⟨asset, made, parts⟩ := map_eq_ok.1 made
    obtain ⟨named, issued⟩ := Prod.ext_iff.1 parts
    obtain ⟨alone, opened, held⟩ := kind.creditForm_answers field issuer
    rw [made] at alone opened held
    exact ⟨asset, Asset.credit_eq_ok.2 ⟨named, issued⟩, named, alone.runAll_eq,
      opened.runAll_eq, held.runAll_eq⟩
  · have answers := kind.authorizationForm_answers field trustor authorize
    rw [read] at answers
    exact answers.runAll_eq

/-- A field from which no code is read is refused everywhere. -/
lemma refused_of_fault {fault : Forbidden}
    (failed : AssetCode.fieldText kind.shortest field.bytes = .error fault) :
    kind.Refused field fault := by
  have unmade : ∀ issuer, kind.asset field issuer = .error fault := by
    intro issuer
    have made := kind.map_asset field issuer
    rw [failed] at made
    exact map_eq_error.1 made
  have credits := fun issuer => kind.creditForm_answers field issuer
  simp only [unmade] at credits
  refine
    { asset := fun issuer => (credits issuer).1.runAll_eq
      changeTrust := fun issuer => (credits issuer).2.1.runAll_eq
      trustLine := fun issuer => (credits issuer).2.2.runAll_eq
      authorization := fun trustor authorize => ?_ }
  have answers := kind.authorizationForm_answers field trustor authorize
  rw [failed] at answers
  exact answers.runAll_eq

/-- A field is read as one code only. -/
lemma Accepted.code_eq {code' : String} (h : kind.Accepted field code)
    (h' : kind.Accepted field code') : code = code' := by
  have same := (h.authorization ⟨default⟩ 0).symm.trans (h'.authorization ⟨default⟩ 0)
  exact congrArg AllowTrust.assetCode (Except.ok.inj same)

/-- A field that is accepted is not refused. -/
lemma Accepted.not_refused {fault : Forbidden} (h : kind.Accepted field code)
    (h' : kind.Refused field fault) : False := by
  cases (h.authorization ⟨default⟩ 0).symm.trans (h'.authorization ⟨default⟩ 0)

/-- A field is accepted as a code, or it holds none and is refused. -/
lemma accepted_or_refused (kind : CodeField) (field : FixedBytes kind.width) :
    (∃ code, kind.Holds field code ∧ kind.Accepted field code) ∨
      (∀ code, ¬ kind.Holds field code) ∧ ∃ fault, kind.Refused field fault := by
  cases read : AssetCode.fieldText kind.shortest field.bytes with
  | ok code =>
    have holds := holds_iff.2 read
    exact .inl ⟨code, holds, holds.accepted⟩
  | error fault =>
    refine .inr ⟨fun code h => ?_, fault, refused_of_fault read⟩
    cases read.symm.trans (holds_iff.1 h)

/-- Assets, what trust lines are opened for and hold, and authorizations accept the same fields of
codes: those that are a valid code of a length that belongs to the field, and zeros behind it. They
read that code, whatever account stands beside it, and refuse all other fields with one fault. The
valid codes are those that some field holds. An asset that is not the native one is therefore made
again of its code and its issuer. -/
theorem codes_read_alike :
    (∀ (kind : CodeField) (field : FixedBytes kind.width) (code : String),
      kind.Holds field code ↔
        (∃ named, AssetCode.validate code = .ok named ∧ named.toText = code) ∧
          kind.Accepted field code) ∧
    (∀ code : String, (∃ named, AssetCode.validate code = .ok named) ↔
      ∃ (kind : CodeField) (field : FixedBytes kind.width), kind.Holds field code) ∧
    (∀ (kind : CodeField) (field : FixedBytes kind.width),
      (∀ code, ¬ kind.Holds field code) ↔ ∃ fault, kind.Refused field fault) ∧
    ∀ asset : Asset, asset = .native ∨ ∃ code issuer, asset.code? = some code ∧
      asset.issuer? = some issuer ∧ Asset.credit code issuer = .ok asset := by
  refine ⟨?_, ?_, ?_, ?_⟩
  · intro kind field code
    apply Iff.intro
    · intro holds
      obtain ⟨named, valid⟩ := AssetCode.isValid_iff_validate.1 holds.isValid
      exact ⟨⟨named, valid, AssetCode.validate_eq_ok.1 valid⟩, holds.accepted⟩
    · intro h
      obtain ⟨-, accepted⟩ := h
      obtain ⟨code', holds, accepted'⟩ | ⟨-, fault, refused⟩ := kind.accepted_or_refused field
      · rwa [accepted.code_eq accepted']
      · exact (accepted.not_refused refused).elim
  · intro code
    rw [← AssetCode.isValid_iff_validate]
    refine ⟨exists_holds, fun h => ?_⟩
    obtain ⟨kind, field, holds⟩ := h
    exact holds.isValid
  · intro kind field
    obtain ⟨code, holds, accepted⟩ | ⟨none, refused⟩ := kind.accepted_or_refused field
    · refine iff_of_false (fun none => none code holds) fun h => ?_
      obtain ⟨fault, refused⟩ := h
      exact accepted.not_refused refused
    · exact iff_of_true none refused
  · intro asset
    cases asset with
    | native => exact .inl rfl
    | alphanum4 | alphanum12 => exact .inr ⟨_, _, rfl, rfl, Asset.credit_eq_ok.2 ⟨rfl, rfl⟩⟩

/-- A short code with a zero behind it is accepted in the short field and nowhere else, and a zero
inside of a code makes it refused. -/
theorem codes_read_alike_usd :
    short.Accepted ⟨[85, 83, 68, 0], rfl⟩ "USD" ∧
      (∃ fault, long.Refused ⟨[85, 83, 68, 0, 0, 0, 0, 0, 0, 0, 0, 0], rfl⟩ fault) ∧
      ∃ fault, short.Refused ⟨[85, 0, 83, 68], rfl⟩ fault := by
  obtain ⟨accepted, -, refused, -⟩ := codes_read_alike
  have usd : short.Holds ⟨[85, 83, 68, 0], rfl⟩ "USD" :=
    ⟨List.all_eq_true.1 rfl, by decide, by decide, by decide⟩
  refine ⟨((accepted _ _ _).1 usd).2, (refused _ _).1 fun code h => ?_,
    (refused _ _).1 fun code h => ?_⟩
  · cases holds_iff.1 h
  · cases holds_iff.1 h

end CodeField

end LedgerWire
