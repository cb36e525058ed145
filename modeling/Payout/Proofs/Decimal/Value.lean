import Mathlib.Algebra.Order.Field.Basic
import Mathlib.Data.Rat.Cast.Order
import Mathlib.Tactic.FieldSimp
import Mathlib.Tactic.Linarith
import Mathlib.Tactic.NormNum
import Mathlib.Tactic.Positivity
import Mathlib.Tactic.Ring
import Payout.Decimal.Arithmetic

/-!
# What amounts stand for

The number that an amount stands for, however many decimal places it is written with (`value`).
Whether an amount is positive or whole, and what its whole part is, can be read off that number.
-/

namespace Payout.Decimal

/-- The number that an amount stands for. -/
def value (a : Decimal) : ℚ := a.coefficient / 10 ^ a.scale

variable {a : Decimal} {m scale k u : ℕ}

/-- A number without places stands for itself. -/
lemma value_ofUInt64 {n : UInt64} (number : n.toNat = m) : (ofUInt64 n).value = m := by
  simp [value, ofUInt64, number]

/-- An amount is positive just if the number that it stands for is. -/
lemma isPositive_iff : a.isPositive = true ↔ 0 < a.value := by
  have places : (0 : ℚ) < 10 ^ a.scale := by positivity
  rw [isPositive, decide_eq_true_eq, value, div_pos_iff_of_pos_right places, Int.cast_pos]

/-- The value of an amount that is not negative, by its magnitude. -/
lemma value_eq (nonneg : 0 ≤ a.coefficient) : a.value = a.coefficient.natAbs / 10 ^ a.scale := by
  rw [value, ← Int.cast_natCast, Int.natAbs_of_nonneg nonneg]

/-- The coefficient of a positive amount is positive. -/
lemma coefficient_pos (positive : 0 < a.value) : 0 < a.coefficient := by
  have h := isPositive_iff.2 positive
  rwa [isPositive, decide_eq_true_eq] at h

/-- No amount reaches the limit, nor does it come closer than by one. -/
lemma value_le (nonneg : 0 ≤ a.coefficient) : a.value ≤ limit - 1 := by
  have small : a.coefficient.natAbs + 1 ≤ limit := a.coefficient_lt
  have magnitude : (a.coefficient.natAbs : ℚ) ≤ limit - 1 := by
    have h : ((a.coefficient.natAbs + 1 : ℕ) : ℚ) ≤ limit := Nat.cast_le.2 small
    push_cast at h
    linarith
  rw [value_eq nonneg]
  exact (div_le_self (Nat.cast_nonneg _) (one_le_pow₀ (by norm_num))).trans magnitude

/-- Parts in range make an amount. -/
lemma exists_ofParts? (small : m < limit) (places : scale ≤ maxScale) :
    ∃ a, ofParts? (signed false m) scale = some a ∧ 0 ≤ a.coefficient ∧ a.scale = scale ∧
      a.value = m / 10 ^ scale := by
  have range : (signed false m).natAbs < 2 ^ 96 ∧ scale ≤ 28 := ⟨small, places⟩
  refine ⟨⟨signed false m, scale, range.1, range.2⟩, dif_pos range, Int.natCast_nonneg m, rfl, ?_⟩
  rw [value_eq (Int.natCast_nonneg m)]
  rfl

/-- Zeros at the end that are given up together with their places change no value. -/
lemma shortened_div (places : k ≤ scale) :
    ((m * 10 ^ k : ℕ) : ℚ) / 10 ^ scale = m / 10 ^ (scale - k) := by
  obtain ⟨rest, rfl⟩ := Nat.exists_eq_add_of_le places
  rw [Nat.add_sub_cancel_left, pow_add]
  push_cast
  field_simp

/-- An amount that is not negative is whole if and only if its value is, and then its value is its
whole part. -/
lemma whole_iff (nonneg : 0 ≤ a.coefficient) :
    a.isWhole = true ∧ a.wholePart = u ↔ a.value = u := by
  have places : 0 < 10 ^ a.scale := Nat.pow_pos (by decide)
  have whole : a.isWhole = true ↔ 10 ^ a.scale ∣ a.coefficient.natAbs := by
    rw [isWhole, decide_eq_true_eq, ← Int.dvd_iff_emod_eq_zero,
      ← Int.natAbs_dvd_natAbs, Int.natAbs_pow]
    rfl
  have value : a.value = u ↔ a.coefficient.natAbs = u * 10 ^ a.scale := by
    rw [value_eq nonneg, div_eq_iff (by positivity)]
    exact_mod_cast Iff.rfl
  rw [whole, value, wholePart]
  constructor
  · rintro ⟨dvd, rfl⟩
    exact (Nat.div_mul_cancel dvd).symm
  · intro product
    rw [product]
    exact ⟨Nat.dvd_mul_left _ _, Nat.mul_div_cancel _ places⟩

end Payout.Decimal
