import LedgerWire.Keys.Derivation
import LedgerWire.Proofs.Decimal

/-!
# Derivation paths

A path is the letter `m` and an index behind each of its slashes. Of an index only the digits count,
so reading overlooks what may stand around them: a plus sign before them and any number of marks
behind them. The paths as they are meant to be written have no plus sign and one mark at most for
an index, and among the texts that are read these are the ones without a plus sign and without two
marks in a row.
-/

namespace LedgerWire

namespace DerivationPath

/-- An index of a path as it is written: its digits, with a plus sign before or without, and the
marks behind them. -/
structure Segment where
  (plus : Bool)
  (digits marks : List Char)
  digits_ne_nil : digits ≠ []
  isDigit : ∀ c ∈ digits, c.isDigit
  isMark : ∀ c ∈ marks, isMark c
  value_lt : Nat.ofDigitChars 10 digits 0 < 2 ^ 31

namespace Segment

/-- What stands before the digits. -/
def sign (s : Segment) : List Char := if s.plus then ['+'] else []

/-- The characters between two slashes. -/
def text (s : Segment) : List Char := s.sign ++ s.digits ++ s.marks

/-- The number that the digits write. -/
def value (s : Segment) : Nat := Nat.ofDigitChars 10 s.digits 0

/-- Whether the digits stand by themselves, or with one mark behind them. -/
def Plain (s : Segment) : Prop := s.plus = false ∧ s.marks.length ≤ 1

end Segment

/-- The text of a path. -/
def written (segments : List Segment) : List Char :=
  'm' :: segments.flatMap fun s => '/' :: s.text

/-! ### Indices -/

/-- A digit is no mark. -/
lemma not_isMark {c : Char} (digit : c.isDigit) : ¬ isMark c := by
  intro mark
  simp only [isMark, Bool.or_eq_true, beq_iff_eq] at mark
  obtain (rfl | rfl) | rfl := mark <;> exact absurd digit (by decide)

/-- The marks are told from the rest of an index because it ends with a digit before them. -/
lemma Segment.rdropWhile_text (s : Segment) : s.text.rdropWhile DerivationPath.isMark =
    s.sign ++ s.digits := by
  apply Text.rdropWhile_append s.isMark
  intro some
  rw [List.getLast_append_of_ne_nil _ s.digits_ne_nil]
  exact not_isMark (s.isDigit _ (List.getLast_mem _))

/-- The digits tell whether a plus sign stands before them, since they do not start with one. -/
lemma Segment.sign_append (s : Segment) :
    s.sign ++ s.digits = '+' :: s.digits ∨
      s.sign ++ s.digits = s.digits ∧ ∀ rest, s.digits ≠ '+' :: rest := by
  rw [sign]
  split
  case isTrue => exact .inl rfl
  case isFalse =>
    refine .inr ⟨rfl, fun rest same => ?_⟩
    have digit := s.isDigit '+' (same ▸ List.mem_cons_self)
    exact absurd digit (by decide)

/-- A part of a path is read as the number that its digits write. -/
lemma index?_eq_some {part : List Char} {index : UInt32} :
    index? part = some index ↔ ∃ s : Segment, part = s.text ∧ index.toNat = s.value := by
  have offset : Limits.hardenedOffset.toNat = 2 ^ 31 := rfl
  apply Iff.intro
  · intro h
    rw [index?, offset] at h
    split at h
    case h_1 n read =>
      split at h
      case isTrue small =>
        cases h
        have whole : part.rdropWhile isMark ++ part.rtakeWhile isMark = part :=
          List.rdropWhile_append_rtakeWhile
        have marks : ∀ c ∈ part.rtakeWhile isMark, isMark c := fun _ => List.mem_rtakeWhile_imp
        have exact : (UInt32.ofNat n).toNat = n :=
          UInt32.toNat_ofNat_of_lt' (Nat.lt_trans small (by decide))
        split at read
        case h_1 digits signed =>
          obtain ⟨some, digit, rfl⟩ := Text.number?_eq_some.1 read
          refine ⟨⟨true, digits, _, some, digit, marks, small⟩, ?_, exact⟩
          exact whole.symm.trans (congrArg (· ++ part.rtakeWhile isMark) signed)
        case h_2 =>
          obtain ⟨some, digit, rfl⟩ := Text.number?_eq_some.1 read
          exact ⟨⟨false, _, _, some, digit, marks, small⟩, whole.symm, exact⟩
      case isFalse => cases h
    case h_2 => cases h
  · intro h
    obtain ⟨s, rfl, same⟩ := h
    have read := Text.number?_eq_some.2 ⟨s.digits_ne_nil, s.isDigit, rfl⟩
    have stripped : (s.text.reverse.dropWhile isMark).reverse = s.sign ++ s.digits :=
      s.rdropWhile_text
    have small : Nat.ofDigitChars 10 s.digits 0 < Limits.hardenedOffset.toNat := s.value_lt
    have made : UInt32.ofNat (Nat.ofDigitChars 10 s.digits 0) = index := by
      rw [← UInt32.ofNat_toNat (x := index), same]
      rfl
    rw [index?, stripped]
    generalize number : Text.number? _ = n?
    have found : n? = some (Nat.ofDigitChars 10 s.digits 0) := by
      rw [← number, ← read]
      obtain signed | ⟨unsigned, noSign⟩ := s.sign_append
      · rw [signed]
        rfl
      · rw [unsigned]
        split
        case h_1 rest same => exact absurd same (noSign rest)
        case h_2 => rfl
    rw [found]
    dsimp only
    rw [if_pos small, made]

/-- The parts of a path are read when each of them is an index and its marks. -/
lemma mapM_index?_eq_some {parts : List (List Char)} {indices : List UInt32} :
    parts.mapM index? = some indices ↔
      ∃ segments : List Segment, parts = segments.map Segment.text ∧
        indices.map UInt32.toNat = segments.map Segment.value := by
  induction parts generalizing indices with
  | nil =>
    rw [List.mapM_nil]
    apply Iff.intro
    · intro h
      cases h
      exact ⟨[], rfl, rfl⟩
    · intro h
      obtain ⟨segments, none, values⟩ := h
      cases List.map_eq_nil_iff.1 none.symm
      cases List.map_eq_nil_iff.1 values
      rfl
  | cons part parts ih =>
    rw [List.mapM_cons, Option.bind_eq_bind, Option.bind_eq_some_iff]
    simp only [Option.bind_eq_bind, Option.bind_eq_some_iff, ih, index?_eq_some]
    apply Iff.intro
    · intro h
      obtain ⟨index, ⟨s, rfl, value⟩, rest, ⟨segments, rfl, values⟩, h⟩ := h
      cases h
      exact ⟨s :: segments, rfl, List.cons_eq_cons.2 ⟨value, values⟩⟩
    · intro h
      obtain ⟨segments, texts, values⟩ := h
      cases segments with
      | nil => cases texts
      | cons s segments =>
        cases texts
        obtain ⟨index, rest, rfl, value, values⟩ := List.map_eq_cons_iff.1 values
        exact ⟨index, ⟨s, rfl, value⟩, rest, ⟨segments, rfl, values⟩, rfl⟩

/-! ### Paths -/

/-- What stands before the marks is a plus sign or a digit. -/
lemma Segment.mem_sign_append {s : Segment} {c : Char} :
    c ∈ s.sign ++ s.digits ↔ s.plus = true ∧ c = '+' ∨ c ∈ s.digits := by
  rw [sign, List.mem_append]
  cases s.plus <;> simp

/-- No slash stands inside of an index. -/
lemma slash_not_mem_text (s : Segment) : '/' ∉ s.text := by
  intro mem
  obtain front | mark := List.mem_append.1 mem
  · obtain ⟨-, plus⟩ | digit := Segment.mem_sign_append.1 front
    · exact absurd plus (by decide)
    · exact absurd (s.isDigit _ digit) (by decide)
  · exact absurd (s.isMark _ mark) (by decide)

/-- A path is the letter m and its indices, each behind a slash. -/
lemma written_eq (segments : List Segment) :
    written segments = ['m'] ++ (segments.map Segment.text).flatMap ('/' :: ·) := by
  rw [List.flatMap_map]
  rfl

/-- A text is read as a path exactly when it is one, and its indices are the numbers in it. -/
lemma ofText_eq_ok {text : String} {indices : List UInt32} :
    ofText text = .ok indices ↔
      ∃ segments, text.toList = written segments ∧
        indices.map UInt32.toNat = segments.map Segment.value := by
  apply Iff.intro
  · intro h
    rw [ofText] at h
    split at h
    case h_1 parts cut =>
      split at h
      case h_1 read =>
        cases h
        obtain ⟨segments, rfl, values⟩ := mapM_index?_eq_some.1 read
        refine ⟨segments, ?_, values⟩
        rw [written_eq]
        exact (Text.splitAll_eq_cons.1 cut).2
      case h_2 => cases h
    case h_2 => cases h
  · intro h
    obtain ⟨segments, same, values⟩ := h
    have cut : Text.splitAll '/' text.toList = ['m'] :: segments.map Segment.text := by
      refine Text.splitAll_eq_cons.2 ⟨List.forall_mem_cons.2 ⟨by decide, ?_⟩, ?_⟩
      · exact List.forall_mem_map.2 fun s _ => slash_not_mem_text s
      · rw [same, written_eq]
    have read := mapM_index?_eq_some.2 ⟨segments, rfl, values⟩
    simp only [ofText, cut, read]

/-- A text that is not read is refused as a whole. -/
lemma ofText_eq_error {text : String} {fault : KeyFault} (h : ofText text = .error fault) :
    fault = .invalidPath text := by
  rw [ofText] at h
  split at h
  case h_1 =>
    split at h
    case h_1 => cases h
    case h_2 =>
      cases h
      rfl
  case h_2 =>
    cases h
    rfl

/-! ### Plain paths -/

/-- Whether two characters may stand next to each other in a plain path. -/
def Apart (a b : Char) : Prop := ¬ (isMark a ∧ isMark b)

instance : DecidableRel Apart := fun a b => inferInstanceAs (Decidable (¬ (isMark a ∧ isMark b)))

variable {c : Char} {cs front tail marks : List Char}

/-- A character that is no mark keeps no marks together. -/
lemma isChain_cons_apart (other : ¬ isMark c) : (c :: cs).IsChain Apart ↔ cs.IsChain Apart := by
  rw [List.isChain_cons]
  exact and_iff_right fun _ _ both => other both.1

/-- Characters that are no marks keep no marks together. -/
lemma isChain_append_apart (others : ∀ c ∈ front, ¬ isMark c) :
    (front ++ tail).IsChain Apart ↔ tail.IsChain Apart := by
  induction front with
  | nil => rfl
  | cons c front ih =>
    obtain ⟨other, others⟩ := List.forall_mem_cons.1 others
    rw [List.cons_append, isChain_cons_apart other, ih others]

/-- Marks stand apart from each other when there is one of them at most. -/
lemma isChain_marks (all : ∀ c ∈ marks, isMark c) (behind : ∀ c ∈ tail.head?, ¬ isMark c) :
    (marks ++ tail).IsChain Apart ↔ marks.length ≤ 1 ∧ tail.IsChain Apart := by
  cases marks with
  | nil => exact (and_iff_right (Nat.zero_le 1)).symm
  | cons a marks =>
    cases marks with
    | nil =>
      rw [List.singleton_append, List.isChain_cons]
      have apart : ∀ b ∈ tail.head?, Apart a b := fun b mem both => behind b mem both.2
      exact and_congr_left fun _ => iff_of_true apart (Nat.le_refl 1)
    | cons b marks =>
      have both : isMark a ∧ isMark b := ⟨all a (by simp), all b (by simp)⟩
      rw [List.cons_append, List.cons_append, List.isChain_cons_cons]
      exact iff_of_false (fun h => h.1 both) fun h => absurd h.1 (by simp)

/-- No two marks stand together in an index with at most one of them. -/
lemma Segment.isChain_text (s : Segment) (behind : ∀ c ∈ tail.head?, ¬ DerivationPath.isMark c) :
    ('/' :: s.text ++ tail).IsChain Apart ↔ s.marks.length ≤ 1 ∧ tail.IsChain Apart := by
  have others : ∀ c ∈ '/' :: (s.sign ++ s.digits), ¬ DerivationPath.isMark c := by
    intro c mem
    obtain rfl | front := List.mem_cons.1 mem
    · decide
    · obtain ⟨-, rfl⟩ | digit := Segment.mem_sign_append.1 front
      · decide
      · exact not_isMark (s.isDigit c digit)
  rw [Segment.text, ← List.cons_append, List.append_assoc, isChain_append_apart others,
    isChain_marks s.isMark behind]

/-- A plus sign stands in an index only in front. -/
lemma plus_mem_text {s : Segment} : '+' ∈ s.text ↔ s.plus = true := by
  rw [Segment.text, List.mem_append, Segment.mem_sign_append]
  apply Iff.intro
  · intro h
    obtain (⟨plus, -⟩ | digit) | mark := h
    · exact plus
    · exact absurd (s.isDigit _ digit) (by decide)
    · exact absurd (s.isMark _ mark) (by decide)
  · intro plus
    exact .inl (.inl ⟨plus, rfl⟩)

/-- A plus sign stands in a path only in front of an index. -/
lemma plus_mem_written {segments : List Segment} :
    '+' ∈ written segments ↔ ∃ s ∈ segments, s.plus = true := by
  have letter : '+' ≠ 'm' := by decide
  have slash : '+' ≠ '/' := by decide
  simp only [written, List.mem_cons, letter, slash, false_or, List.mem_flatMap, plus_mem_text]

/-- No two marks stand together in a path when every index has at most one of them. -/
lemma isChain_written (segments : List Segment) :
    (written segments).IsChain Apart ↔ ∀ s ∈ segments, s.marks.length ≤ 1 := by
  rw [written, isChain_cons_apart (by decide)]
  induction segments with
  | nil => exact iff_of_true .nil nofun
  | cons s segments ih =>
    have behind : ∀ c ∈ (segments.flatMap fun s => '/' :: s.text).head?, ¬ isMark c := by
      cases segments with
      | nil => exact nofun
      | cons s segments =>
        intro c mem
        cases mem
        decide
    rw [List.flatMap_cons, s.isChain_text behind, ih, List.forall_mem_cons]

/-- A path is plain when it has no plus sign and no two marks in a row. -/
lemma plain_iff (segments : List Segment) :
    (∀ s ∈ segments, s.Plain) ↔
      '+' ∉ written segments ∧ (written segments).IsChain Apart := by
  rw [isChain_written, plus_mem_written]
  simp only [Segment.Plain, not_exists, not_and, Bool.not_eq_true]
  exact forall₂_and

/-- A text is read as a path exactly when it is one, with plus signs and with any number of marks,
and otherwise it is refused as a whole. It is a plain path exactly when it is read, and has no plus
sign and no two marks in a row. -/
theorem ofText_eq_ok_iff (text : String) (indices : List UInt32) :
    (ofText text = .ok indices ↔
        ∃ segments, text.toList = written segments ∧
          indices.map UInt32.toNat = segments.map Segment.value) ∧
      ((∃ segments, (∀ s ∈ segments, s.Plain) ∧ text.toList = written segments ∧
          indices.map UInt32.toNat = segments.map Segment.value) ↔
        ofText text = .ok indices ∧ '+' ∉ text.toList ∧ text.toList.IsChain Apart) ∧
      ∀ fault, ofText text = .error fault → fault = .invalidPath text := by
  refine ⟨ofText_eq_ok, ?plain, fun _ => ofText_eq_error⟩
  case plain =>
    rw [ofText_eq_ok]
    apply Iff.intro
    · intro h
      obtain ⟨segments, plain, same, values⟩ := h
      refine ⟨⟨segments, same, values⟩, ?_⟩
      rw [same]
      exact (plain_iff segments).1 plain
    · intro h
      obtain ⟨⟨segments, same, values⟩, plain⟩ := h
      rw [same] at plain
      exact ⟨segments, (plain_iff segments).2 plain, same, values⟩

/-- A path with two kinds of marks and without a mark is plain. -/
theorem ofText_eq_ok_account : ofText "m/44'/148h/0" = .ok [44, 148, 0] := by
  let segments : List Segment := [
    ⟨false, ['4', '4'], ['\x27'], by decide, List.all_eq_true.1 rfl, List.all_eq_true.1 rfl,
      by decide⟩,
    ⟨false, ['1', '4', '8'], ['h'], by decide, List.all_eq_true.1 rfl, List.all_eq_true.1 rfl,
      by decide⟩,
    ⟨false, ['0'], [], by decide, List.all_eq_true.1 rfl, List.all_eq_true.1 rfl, by decide⟩]
  have plain : ∀ s ∈ segments, s.Plain :=
    List.forall_mem_cons.2 ⟨⟨rfl, by decide⟩, List.forall_mem_cons.2 ⟨⟨rfl, by decide⟩,
      List.forall_mem_singleton.2 ⟨rfl, by decide⟩⟩⟩
  exact ((ofText_eq_ok_iff _ _).2.1.1 ⟨segments, plain, rfl, rfl⟩).1

/-- Two marks behind an index, and a plus sign before it, are overlooked, though no plain path is
written with them. -/
theorem ofText_overlooks :
    ofText "m/44''" = .ok [44] ∧ ofText "m/+44" = .ok [44] ∧
      ¬ ∃ segments : List Segment, (∀ s ∈ segments, s.Plain) ∧
        (written segments = "m/44''".toList ∨ written segments = "m/+44".toList) := by
  refine ⟨by decide, by decide, fun h => ?_⟩
  obtain ⟨segments, plain, same⟩ := h
  obtain ⟨noPlus, apart⟩ := (plain_iff segments).1 plain
  obtain marks | plus := same
  · rw [marks] at apart
    exact absurd apart (by decide)
  · rw [plus] at noPlus
    exact noPlus (by decide)

end DerivationPath

end LedgerWire
