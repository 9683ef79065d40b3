import Mathlib.Data.List.DropRight
import Mathlib.Tactic.Lemma
import LedgerWire.Text.Basic

/-!
# Cutting texts

A text is cut at the first occurrence of a character, so the part before it is the longest one that
does without the character. Cut at every occurrence it falls into parts that do without it, in one
way only. At its two ends it is freed from white space, and nothing else is taken away there.
-/

namespace LedgerWire.Text
variable {mark : Char} {cs before behind part : List Char} {parts : List (List Char)}

/-- A text is not cut when the mark does not occur in it. -/
lemma splitFirst?_eq_none : splitFirst? mark cs = none ↔ mark ∉ cs := by
  induction cs with
  | nil => exact iff_of_true rfl List.not_mem_nil
  | cons c cs ih =>
    rw [splitFirst?, List.mem_cons, not_or]
    split
    case isTrue same => exact iff_of_false nofun fun h => h.1 same.symm
    case isFalse other =>
      rw [Option.map_eq_none_iff, ih]
      exact ⟨fun h => ⟨fun same => other same.symm, h⟩, And.right⟩

/-- A text is cut into what stands before the first occurrence and what stands behind it. -/
lemma splitFirst?_eq_some :
    splitFirst? mark cs = some (before, behind) ↔
      mark ∉ before ∧ cs = before ++ mark :: behind := by
  induction cs generalizing before with
  | nil => exact iff_of_false nofun fun h => nomatch List.append_eq_nil_iff.1 h.2.symm
  | cons c cs ih =>
    rw [splitFirst?]
    split
    case isTrue same =>
      subst same
      apply Iff.intro
      · intro h
        cases h
        exact ⟨List.not_mem_nil, rfl⟩
      · intro h
        obtain ⟨absent, written⟩ := h
        cases before with
        | nil =>
          cases written
          rfl
        | cons b before =>
          cases written
          exact (absent List.mem_cons_self).elim
    case isFalse other =>
      rw [Option.map_eq_some_iff]
      apply Iff.intro
      · intro h
        obtain ⟨⟨front, rest⟩, cut, made⟩ := h
        cases made
        obtain ⟨absent, rfl⟩ := ih.1 cut
        refine ⟨fun mem => ?_, rfl⟩
        cases mem with
        | head => exact other rfl
        | tail _ mem => exact absent mem
      · intro h
        obtain ⟨absent, written⟩ := h
        cases before with
        | nil =>
          cases written
          exact (other rfl).elim
        | cons b before =>
          cases written
          exact ⟨_, ih.2 ⟨fun mem => absent (List.mem_cons_of_mem _ mem), rfl⟩, rfl⟩

/-! ### Every occurrence -/

/-- A text without the mark is a single part. -/
lemma splitAll_of_not_mem (free : mark ∉ part) : splitAll mark part = [part] := by
  induction part with
  | nil => rfl
  | cons c part ih =>
    obtain ⟨other, free⟩ := List.ne_and_not_mem_of_not_mem_cons free
    rw [splitAll, if_neg (Ne.symm other), ih free]

/-- The first part ends at the first mark. -/
lemma splitAll_append (free : mark ∉ part) (cs : List Char) :
    splitAll mark (part ++ mark :: cs) = part :: splitAll mark cs := by
  induction part with
  | nil => rw [List.nil_append, splitAll, if_pos rfl]
  | cons c part ih =>
    obtain ⟨other, free⟩ := List.ne_and_not_mem_of_not_mem_cons free
    rw [List.cons_append, splitAll, if_neg (Ne.symm other), ih free]

/-- Parts without the mark are told apart by the marks between them. -/
lemma splitAll_join (free : ∀ p ∈ part :: parts, mark ∉ p) :
    splitAll mark (part ++ parts.flatMap (mark :: ·)) = part :: parts := by
  induction parts generalizing part with
  | nil =>
    rw [List.flatMap_nil, List.append_nil]
    exact splitAll_of_not_mem (free part List.mem_cons_self)
  | cons next parts ih =>
    obtain ⟨first, rest⟩ := List.forall_mem_cons.1 free
    rw [List.flatMap_cons, List.cons_append, splitAll_append first, ih rest]

/-- Every text is made of parts without the mark and the marks between them. -/
lemma exists_parts (mark : Char) (cs : List Char) :
    ∃ part parts, (∀ p ∈ part :: parts, mark ∉ p) ∧ cs = part ++ parts.flatMap (mark :: ·) := by
  induction cs with
  | nil => exact ⟨[], [], List.forall_mem_singleton.2 List.not_mem_nil, rfl⟩
  | cons c cs ih =>
    obtain ⟨part, parts, free, rfl⟩ := ih
    by_cases same : c = mark
    · subst same
      exact ⟨[], part :: parts, List.forall_mem_cons.2 ⟨List.not_mem_nil, free⟩, rfl⟩
    · obtain ⟨first, rest⟩ := List.forall_mem_cons.1 free
      refine ⟨c :: part, parts, List.forall_mem_cons.2 ⟨?_, rest⟩, rfl⟩
      exact List.not_mem_cons_of_ne_of_not_mem (Ne.symm same) first

/-- A text is cut into the parts without the character that it is put together of. -/
lemma splitAll_eq_cons :
    splitAll mark cs = part :: parts ↔
      (∀ p ∈ part :: parts, mark ∉ p) ∧ cs = part ++ parts.flatMap (mark :: ·) := by
  apply Iff.intro
  · intro cut
    obtain ⟨part', parts', free, written⟩ := exists_parts mark cs
    rw [written, splitAll_join free] at cut
    cases cut
    exact ⟨free, written⟩
  · intro h
    obtain ⟨free, rfl⟩ := h
    exact splitAll_join free

/-! ### The end of a text -/

/-- What is left without the characters at the end ends with none of them. -/
lemma rdropWhile_append {p : Char → Bool} {front behind : List Char} (all : ∀ c ∈ behind, p c)
    (last : ∀ some : front ≠ [], ¬ p (front.getLast some)) :
    (front ++ behind).rdropWhile p = front := by
  have reversed : ∀ c ∈ behind.reverse, p c := fun c mem => all c (List.mem_reverse.1 mem)
  rw [List.rdropWhile, List.reverse_append, List.dropWhile_append_of_pos reversed]
  exact List.rdropWhile_eq_self_iff.2 last

/-! ### White space at both ends -/

/-- Whether a text is the inner one with nothing but white space before and behind it. -/
def Framed (inner text : String) : Prop :=
  ∃ before behind : List Char, (∀ c ∈ before ++ behind, isBlank c) ∧
    text.toList = before ++ inner.toList ++ behind

/-- A text has no white space around itself. -/
lemma framed_self (text : String) : Framed text text :=
  ⟨[], [], nofun, (List.append_nil _).symm⟩

/-- A text is what is left of it with the white space around it. -/
lemma framed_trim (text : String) : Framed (trim text) text := by
  have kept : text.toList.takeWhile isBlank ++ text.toList.dropWhile isBlank = text.toList :=
    List.takeWhile_append_dropWhile
  refine ⟨text.toList.takeWhile isBlank, (text.toList.dropWhile isBlank).rtakeWhile isBlank,
    List.forall_mem_append.2 ⟨fun c mem => List.mem_takeWhile_imp mem,
      fun c mem => List.mem_rtakeWhile_imp mem⟩, ?_⟩
  have inner : (trim text).toList = (text.toList.dropWhile isBlank).rdropWhile isBlank :=
    String.toList_ofList
  rw [inner, List.append_assoc, List.rdropWhile_append_rtakeWhile, kept]

/-- A text without white space in it is what is left of it in any frame. -/
lemma trim_of_framed {inner text : String} (visible : ∀ c ∈ inner.toList, ¬ isBlank c)
    (framed : Framed inner text) : trim text = inner := by
  obtain ⟨before, behind, blank, written⟩ := framed
  obtain ⟨blank, blank'⟩ := List.forall_mem_append.1 blank
  have start : text.toList.dropWhile isBlank = (inner.toList ++ behind).dropWhile isBlank := by
    rw [written, List.append_assoc, List.dropWhile_append_of_pos blank]
  rw [trim, start]
  apply String.toList_inj.1
  rw [String.toList_ofList]
  generalize inner.toList = cs at visible
  cases cs with
  | nil =>
    rw [List.nil_append, List.dropWhile_eq_nil_iff.2 blank']
    rfl
  | cons c cs =>
    rw [List.cons_append, List.dropWhile_cons_of_neg (visible c List.mem_cons_self)]
    exact rdropWhile_append blank' fun some => visible _ (List.getLast_mem some)

end LedgerWire.Text
