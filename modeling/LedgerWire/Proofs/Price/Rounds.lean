import Mathlib.Algebra.Ring.Int.Units
import Mathlib.Data.Nat.Fib.Basic
import Mathlib.Tactic.LinearCombination
import LedgerWire.Proofs.Wide
import LedgerWire.Value.Price

/-!
# The rounds of an approximation

A round divides, and puts the term that it gets behind the convergents. What it keeps is how the
fraction from the start is made up of the last two convergents and the fraction that is left. The
convergents grow at least like the Fibonacci numbers, so they leave the bound after 47 rounds at the
latest.
-/

namespace LedgerWire.Price
variable {N D num den rounds : ℕ} {a b : Approximation} {c next : Convergents} {term : Wide}

/-! ### What a round does -/

/-- The next convergent is given when both of its parts are within the bound. -/
lemma Convergents.next?_eq_some :
    c.next? term = some next ↔
      (next.lastN = c.n ∧ next.lastD = c.d) ∧
        (next.n.toNat = term.toNat * c.n.toNat + c.lastN.toNat ∧
          next.d.toNat = term.toNat * c.d.toNat + c.lastD.toNat) ∧
        next.n.toNat ≤ bound ∧ next.d.toNat ≤ bound := by
  apply Iff.intro
  · intro h
    obtain ⟨tn, timesN, h⟩ := Option.bind_eq_some_iff.1 h
    obtain ⟨n, sumN, h⟩ := Option.bind_eq_some_iff.1 h
    obtain ⟨td, timesD, h⟩ := Option.bind_eq_some_iff.1 h
    obtain ⟨d, sumD, h⟩ := Option.bind_eq_some_iff.1 h
    split at h
    case isTrue within =>
      cases h
      rw [Wide.mul?_eq_some] at timesN timesD
      rw [Wide.add?_eq_some, timesN] at sumN
      rw [Wide.add?_eq_some, timesD] at sumD
      exact ⟨⟨rfl, rfl⟩, ⟨sumN, sumD⟩, within⟩
    case isFalse => cases h
  · intro h
    obtain ⟨⟨lastN, lastD⟩, ⟨sumN, sumD⟩, within⟩ := h
    obtain ⟨lastN', lastD', n, d⟩ := next
    cases lastN
    cases lastD
    have small : bound < 2 ^ 128 := by decide
    have timesN : Wide.mul? term c.n = some (BitVec.ofNat 128 (term.toNat * c.n.toNat)) :=
      Wide.mul?_eq_some.2 (Wide.toNat_ofNat (by omega))
    have timesD : Wide.mul? term c.d = some (BitVec.ofNat 128 (term.toNat * c.d.toNat)) :=
      Wide.mul?_eq_some.2 (Wide.toNat_ofNat (by omega))
    rw [← Wide.mul?_eq_some.1 timesN, ← Wide.add?_eq_some] at sumN
    rw [← Wide.mul?_eq_some.1 timesD, ← Wide.add?_eq_some] at sumD
    refine Option.bind_eq_some_iff.2 ⟨_, timesN, Option.bind_eq_some_iff.2 ⟨n, sumN, ?_⟩⟩
    exact Option.bind_eq_some_iff.2 ⟨_, timesD, Option.bind_eq_some_iff.2 ⟨d, sumD, if_pos within⟩⟩

/-- The convergents that come next are not within the bound. -/
def Convergents.Stuck (c : Convergents) (term : ℕ) : Prop :=
  bound < term * c.n.toNat + c.lastN.toNat ∨ bound < term * c.d.toNat + c.lastD.toNat

/-- Where no next convergent is given, one of its parts is beyond the bound. -/
lemma Convergents.stuck_of_next? (h : c.next? term = none) : c.Stuck term.toNat := by
  by_contra within
  rw [Stuck, not_or, Nat.not_lt, Nat.not_lt] at within
  have small : bound < 2 ^ 128 := by decide
  have n := Wide.toNat_ofNat (within.1.trans_lt small)
  have d := Wide.toNat_ofNat (within.2.trans_lt small)
  have more : c.next? term = some ⟨c.n, c.d,
      BitVec.ofNat 128 (term.toNat * c.n.toNat + c.lastN.toNat),
      BitVec.ofNat 128 (term.toNat * c.d.toNat + c.lastD.toNat)⟩ :=
    Convergents.next?_eq_some.2 ⟨⟨rfl, rfl⟩, ⟨n, d⟩, n.trans_le within.1, d.trans_le within.2⟩
  cases h.symm.trans more

/-- How a round comes out when the divisor is not zero. -/
inductive Outcome (a : Approximation) : Round → Prop where
  | stuck : a.convergents.next? (a.num / a.den) = none → Outcome a (.last a.convergents)
  | done {next : Convergents} : a.convergents.next? (a.num / a.den) = some next →
      a.num % a.den = 0 → Outcome a (.last next)
  | more {next : Convergents} : a.convergents.next? (a.num / a.den) = some next →
      a.num % a.den ≠ 0 → Outcome a (.more ⟨a.den, a.num % a.den, next⟩)

/-- A round does not trap, and has one of its outcomes. -/
lemma Approximation.round_eq_ok (pos : 0 < a.den.toNat) : ∃ r, a.round = .ok r ∧ Outcome a r := by
  rw [round, Wide.div_of_pos pos, Wide.mod_of_pos pos]
  dsimp only [bind, Except.bind]
  cases found : a.convergents.next? (a.num / a.den) with
  | none => exact ⟨_, rfl, .stuck found⟩
  | some next =>
    by_cases rest : a.num % a.den = 0
    case pos => exact ⟨_, if_pos rest, .done found rest⟩
    case neg => exact ⟨_, if_neg rest, .more found rest⟩

/-- The rounds from an approximation up to the convergents with which it ends. -/
inductive Ends : Approximation → ℕ → Convergents → Prop where
  | last {a : Approximation} {c : Convergents} : a.round = .ok (.last c) → Ends a 1 c
  | more {a b : Approximation} {rounds : ℕ} {c : Convergents} :
      a.round = .ok (.more b) → Ends b rounds c → Ends a (rounds + 1) c

/-- Rounds that end give the convergent at which they end. -/
lemma Ends.finish_eq (h : Ends a rounds c) : a.finish = .ok c := by
  induction h with
  | last same => rw [Approximation.finish, same]
  | more same _ ih =>
    rw [Approximation.finish, same]
    exact ih

/-! ### What a round keeps -/

/-- The determinant of two convergents that follow each other. -/
def Convergents.determinant (c : Convergents) : ℤ :=
  c.n.toNat * c.lastD.toNat - c.lastN.toNat * c.d.toNat

/-- The fraction `N / D`, made up of two of its convergents and of the fraction `num / den` that is
left of it. -/
structure Expansion (N D num den : ℕ) (c : Convergents) : Prop where
  numerator : N = c.n.toNat * num + c.lastN.toNat * den
  denominator : D = c.d.toNat * num + c.lastD.toNat * den
  determinant : IsUnit c.determinant
  bounded : c.n.toNat ≤ bound ∧ c.d.toNat ≤ bound
  lastBounded : c.lastN.toNat ≤ bound ∧ c.lastD.toNat ≤ bound
  /-- Before the first round the fraction that is left can be any. -/
  descent : c.d.toNat = 0 ∨ den < num

/-- Before the first round, the whole fraction is left. -/
lemma Expansion.start : Expansion N D N D .start where
  numerator := by change N = 1 * N + 0 * D; omega
  denominator := by change D = 0 * N + 1 * D; omega
  determinant := isUnit_one
  bounded := by decide
  lastBounded := by decide
  descent := .inl rfl

/-- One more term leaves the rest of the division. -/
lemma Expansion.step (h : Expansion N D num den c) (found : c.next? term = some next)
    (whole : term.toNat = num / den) (pos : 0 < den) : Expansion N D den (num % den) next := by
  obtain ⟨⟨lastN, lastD⟩, ⟨n, d⟩, bounded⟩ := Convergents.next?_eq_some.1 found
  have divided : num = den * term.toNat + num % den := by rw [whole, Nat.div_add_mod]
  constructor
  case numerator =>
    calc N = c.n.toNat * num + c.lastN.toNat * den := h.numerator
      _ = c.n.toNat * (den * term.toNat + num % den) + c.lastN.toNat * den := by rw [← divided]
      _ = next.n.toNat * den + next.lastN.toNat * (num % den) := by
        rw [n, lastN]
        ring
  case denominator =>
    calc D = c.d.toNat * num + c.lastD.toNat * den := h.denominator
      _ = c.d.toNat * (den * term.toNat + num % den) + c.lastD.toNat * den := by rw [← divided]
      _ = next.d.toNat * den + next.lastD.toNat * (num % den) := by
        rw [d, lastD]
        ring
  case determinant =>
    have turned : next.determinant = -c.determinant := by
      rw [Convergents.determinant, Convergents.determinant, n, d, lastN, lastD]
      push_cast
      ring
    rw [turned]
    exact h.determinant.neg
  case bounded => exact bounded
  case lastBounded =>
    rw [lastN, lastD]
    exact h.bounded
  case descent => exact .inr (Nat.mod_lt _ pos)

/-- Denominators grow as the Fibonacci numbers do, at least. -/
lemma Expansion.growth (h : Expansion N D num den c) (found : c.next? term = some next)
    (whole : term.toNat = num / den) (pos : 0 < den) :
    c.d.toNat + c.lastD.toNat ≤ next.d.toNat := by
  rw [(Convergents.next?_eq_some.1 found).2.1.2, whole]
  apply Nat.add_le_add_right
  cases h.descent with
  | inl zero =>
    rw [zero]
    exact Nat.zero_le _
  | inr less => exact Nat.le_mul_of_pos_left _ (Nat.div_pos less.le pos)

/-- An approximation of `N / D` before its last round, after so many rounds. -/
structure Reached (N D rounds : ℕ) (a : Approximation) : Prop where
  expansion : Expansion N D a.num.toNat a.den.toNat a.convergents
  pos : 0 < a.den.toNat
  growth : Nat.fib rounds ≤ a.convergents.d.toNat
  nextGrowth : Nat.fib (rounds + 1) ≤ a.convergents.d.toNat + a.convergents.lastD.toNat

/-- No round has been made at the start. -/
lemma Reached.start {n d : Wide} (pos : 0 < d.toNat) :
    Reached n.toNat d.toNat 0 ⟨n, d, .start⟩ where
  expansion := .start
  pos := pos
  growth := Nat.le_refl 0
  nextGrowth := Nat.le_refl 1

/-- There is no room for more than 46 rounds. -/
lemma Reached.rounds_le (h : Reached N D rounds a) : rounds ≤ 46 := by
  by_contra more
  have large : Nat.fib 47 ≤ Nat.fib rounds := Nat.fib_mono (by omega)
  have growth := h.growth
  have bounded := h.expansion.bounded.2
  have exceeded : bound < Nat.fib 47 := by decide
  omega

/-- A round with a next convergent and a rest leads on. -/
lemma Reached.more (h : Reached N D rounds a)
    (found : a.convergents.next? (a.num / a.den) = some next) (rest : a.num % a.den ≠ 0) :
    Reached N D (rounds + 1) ⟨a.den, a.num % a.den, next⟩ where
  expansion := by
    rw [BitVec.toNat_umod]
    exact h.expansion.step found BitVec.toNat_udiv h.pos
  pos := Nat.pos_of_ne_zero fun zero => rest (BitVec.eq_of_toNat_eq zero)
  growth := h.nextGrowth.trans (h.expansion.growth found BitVec.toNat_udiv h.pos)
  nextGrowth := by
    have growth := h.nextGrowth.trans (h.expansion.growth found BitVec.toNat_udiv h.pos)
    rw [Nat.fib_add_two, Nat.add_comm, (Convergents.next?_eq_some.1 found).1.2]
    exact Nat.add_le_add growth h.growth

/-- The convergents with which an approximation of `N / D` ends: nothing is left of the fraction, or
the next convergents are not within the bound. -/
inductive Final (N D : ℕ) (c : Convergents) : Prop where
  | done {num : ℕ} : Expansion N D num 0 c → Final N D c
  | stuck {num den : ℕ} : Expansion N D num den c → 0 < den → c.Stuck (num / den) → Final N D c

/-- From every approximation on the rounds come to an end, the 47th at the latest. -/
lemma Reached.ends {rounds : ℕ} {a : Approximation} (h : Reached N D rounds a) :
    ∃ more c, Ends a more c ∧ rounds + more ≤ 47 ∧ Final N D c := by
  have few := h.rounds_le
  obtain ⟨r, same, outcome⟩ := Approximation.round_eq_ok h.pos
  cases outcome with
  | stuck none =>
    have stuck := Convergents.stuck_of_next? none
    rw [BitVec.toNat_udiv] at stuck
    exact ⟨1, _, .last same, by omega, .stuck h.expansion h.pos stuck⟩
  | done found zero =>
    have done := h.expansion.step found BitVec.toNat_udiv h.pos
    rw [← BitVec.toNat_umod, zero] at done
    exact ⟨1, _, .last same, by omega, .done done⟩
  | more found rest =>
    have reached := h.more found rest
    have fewer := reached.rounds_le
    obtain ⟨more, c, ends, room, final⟩ := reached.ends
    exact ⟨more + 1, c, .more same ends, by omega, final⟩
termination_by 46 - rounds
decreasing_by omega

end LedgerWire.Price
