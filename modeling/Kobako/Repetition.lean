import Mathlib.Computability.Language
import Mathlib.Algebra.Group.Pointwise.Set.Basic
import Mathlib.Algebra.GroupWithZero.Nat

/-!
# Repetition of a language

A language repeated as often as a set of counts allows. Repeating a repetition is one repetition
again, by the sums the counts make, so an identity between nested repetitions is one between sets
of numbers.
-/

namespace Kobako

open Pointwise

variable {α : Type}

/-- The words made of as many words of a language as `counts` allows. -/
def repeated (language : Language α) (counts : Set Nat) : Language α :=
  {word | ∃ count ∈ counts, word ∈ language ^ count}

/-- Membership in a repetition. -/
theorem mem_repeated {language : Language α} {counts : Set Nat} {word : List α} :
    word ∈ repeated language counts ↔ ∃ count ∈ counts, word ∈ language ^ count := Iff.rfl

/-- Two repetitions one after the other are one by the sums of their counts. -/
theorem repeated_mul_repeated (language : Language α) (left right : Set Nat) :
    repeated language left * repeated language right = repeated language (left + right) := by
  ext word
  rw [Language.mem_mul, mem_repeated]
  constructor
  · intro split
    obtain ⟨front, ⟨m, inLeft, hasFront⟩, back, ⟨n, inRight, hasBack⟩, whole⟩ := split
    have joined : word ∈ language ^ m * language ^ n := by
      rw [← whole]
      exact Language.append_mem_mul hasFront hasBack
    rw [← pow_add] at joined
    exact ⟨m + n, Set.add_mem_add inLeft inRight, joined⟩
  · intro counted
    obtain ⟨count, inSum, has⟩ := counted
    obtain ⟨m, inLeft, n, inRight, sum⟩ := Set.mem_add.mp inSum
    rw [← sum, pow_add, Language.mem_mul] at has
    obtain ⟨front, hasFront, back, hasBack, whole⟩ := has
    exact ⟨front, ⟨m, inLeft, hasFront⟩, back, ⟨n, inRight, hasBack⟩, whole⟩

/-- A repetition made a fixed number of times is one by the sums of that many counts. -/
theorem repeated_pow (language : Language α) (counts : Set Nat) (times : Nat) :
    repeated language counts ^ times = repeated language (times • counts) := by
  induction times with
  | zero =>
    ext word
    simp [mem_repeated]
  | succ times ih => rw [pow_succ, ih, repeated_mul_repeated, succ_nsmul]

/-- A repetition repeated is one repetition. -/
theorem repeated_repeated (language : Language α) (inner outer : Set Nat) :
    repeated (repeated language inner) outer =
      repeated language {count | ∃ times ∈ outer, count ∈ times • inner} := by
  ext word
  rw [mem_repeated, mem_repeated]
  constructor
  · intro outside
    obtain ⟨times, allowed, has⟩ := outside
    rw [repeated_pow] at has
    obtain ⟨count, summed, has⟩ := has
    exact ⟨count, ⟨times, allowed, summed⟩, has⟩
  · intro counted
    obtain ⟨count, ⟨times, allowed, summed⟩, has⟩ := counted
    refine ⟨times, allowed, ?_⟩
    rw [repeated_pow]
    exact ⟨count, summed, has⟩

/-! ## Intervals of counts -/

/-- The counts from `lower` to `upper`, or from `lower` on. -/
def countsBetween (lower : Nat) (upper : Option Nat) : Set Nat :=
  {count | lower ≤ count ∧ ∀ most ∈ upper, count ≤ most}

/-- Counts up to a bound. -/
theorem mem_countsBetween_some {lower upper count : Nat} :
    count ∈ countsBetween lower (some upper) ↔ lower ≤ count ∧ count ≤ upper := by
  simp [countsBetween]

/-- Counts without a bound. -/
theorem mem_countsBetween_none {lower count : Nat} :
    count ∈ countsBetween lower none ↔ lower ≤ count := by
  simp [countsBetween]

/-- The sums of a fixed number of counts of a bounded interval. -/
theorem mem_nsmul_some {lower upper : Nat} (ordered : lower ≤ upper) (times : Nat) :
    ∀ count, count ∈ times • countsBetween lower (some upper) ↔
      times * lower ≤ count ∧ count ≤ times * upper := by
  induction times with
  | zero =>
    intro count
    rw [zero_nsmul, Set.mem_zero]
    omega
  | succ times ih =>
    intro count
    rw [succ_nsmul, Set.mem_add, Nat.succ_mul, Nat.succ_mul]
    constructor
    · intro summed
      obtain ⟨front, inFront, last, inLast, sum⟩ := summed
      rw [ih] at inFront
      rw [mem_countsBetween_some] at inLast
      omega
    · intro within
      -- The last count takes what the others cannot.
      have scaled : times * lower ≤ times * upper := Nat.mul_le_mul_left times ordered
      by_cases small : count ≤ times * lower + upper
      · refine ⟨times * lower, (ih _).mpr ⟨Nat.le_refl _, scaled⟩, count - times * lower, ?_, ?_⟩
        · rw [mem_countsBetween_some]
          omega
        · show times * lower + (count - times * lower) = count
          omega
      · refine ⟨count - upper, (ih _).mpr (by omega), upper, ?_, ?_⟩
        · exact mem_countsBetween_some.mpr ⟨ordered, Nat.le_refl _⟩
        · show count - upper + upper = count
          omega

/-- The sums of a fixed number of counts without a bound. -/
theorem mem_nsmul_none (lower times : Nat) :
    ∀ count, count ∈ times • countsBetween lower none ↔
      times * lower ≤ count ∧ (times = 0 → count = 0) := by
  induction times with
  | zero =>
    intro count
    rw [zero_nsmul, Set.mem_zero]
    omega
  | succ times ih =>
    intro count
    rw [succ_nsmul, Set.mem_add, Nat.succ_mul]
    constructor
    · intro summed
      obtain ⟨front, inFront, last, inLast, sum⟩ := summed
      rw [ih] at inFront
      rw [mem_countsBetween_none] at inLast
      omega
    · intro within
      refine ⟨times * lower, (ih _).mpr ⟨Nat.le_refl _, ?_⟩, count - times * lower, ?_, ?_⟩
      · intro never
        rw [never, Nat.zero_mul]
      · rw [mem_countsBetween_none]
        omega
      · show times * lower + (count - times * lower) = count
        omega

end Kobako
