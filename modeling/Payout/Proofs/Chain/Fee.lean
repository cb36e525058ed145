import Mathlib.Tactic.Lemma
import Payout.Chain.Fee

/-!
# Fees in words

The percentage of an estimate, taken in words of 128 bits (`adjustWord`). The percentage of the
hundreds and its sum with that of the rest are tested for being words. The product for the rest is
not, and would wrap if it were none; but it always is a word, and so each step in words comes to
what it comes to without bound (`Unwrapped`). Hundreds and rest together lose nothing
(`hundreds_add_rest`), which makes the price the exact percentage, rounded down, as far as there are
prices (`price_of_percentage`).
-/

namespace Payout.Fee

/-- A number of 128 bits. -/
abbrev Word := BitVec 128

/-- The word of a number, if it has one. -/
def word? (n : Nat) : Option Word := if n ≤ maxPrice then some (BitVec.ofNat 128 n) else none

/-- A percentage as a word. -/
def wide (percent : UInt64) : Word := percent.toBitVec.setWidth 128

/-- The percentage of the hundreds of an estimate, tested. -/
def hundreds? (percent : UInt64) (estimate : Word) : Option Word :=
  word? ((estimate / 100).toNat * (wide percent).toNat)

/-- The percentage of what the hundreds of an estimate leave over, untested. -/
def rest (percent : UInt64) (estimate : Word) : Word := estimate % 100 * wide percent / 100

/-- The percentage of an estimate, if all tests are passed. -/
def price? (percent : UInt64) (estimate : Word) : Option Word :=
  (hundreds? percent estimate).bind fun hundreds =>
    word? (hundreds.toNat + (rest percent estimate).toNat)

/-- The percentage of an estimate, or the largest word. -/
def adjustWord (percent : UInt64) (estimate : Word) : Word :=
  (price? percent estimate).getD (BitVec.allOnes 128)

/-- Every step in words comes to what it comes to without bound; a tested one, where that is a
word. -/
structure Unwrapped (percent : UInt64) (estimate : Word) : Prop where
  hundreds : hundreds? percent estimate = word? (estimate.toNat / 100 * percent.toNat)
  product : (estimate % 100 * wide percent).toNat = estimate.toNat % 100 * percent.toNat
  rest : (rest percent estimate).toNat = estimate.toNat % 100 * percent.toNat / 100
  price : price? percent estimate = word? (estimate.toNat * percent.toNat / 100)

variable {percent percent' : UInt64} {estimate w : Word} {e e' n : Nat}

/-! ## Words and their numbers -/

/-- No word stands for more than the largest price. -/
lemma toNat_le_maxPrice : w.toNat ≤ maxPrice := Nat.le_sub_one_of_lt w.isLt

/-- A percentage stands for the same number as a word. -/
lemma toNat_wide : (wide percent).toNat = percent.toNat :=
  (BitVec.toNat_setWidth_of_le (by decide)).trans (UInt64.toNat_toBitVec percent)

/-- A number has a word that stands for it, or it has none and is above the largest price. -/
lemma word?_cases (n : Nat) :
    (∃ w, word? n = some w ∧ w.toNat = n) ∨ word? n = none ∧ maxPrice < n := by
  by_cases small : n ≤ maxPrice
  · exact .inl ⟨_, if_pos small, Nat.mod_eq_of_lt (Nat.lt_of_le_of_lt small (by decide))⟩
  · exact .inr ⟨if_neg small, Nat.lt_of_not_le small⟩

/-- The largest word stands for every number without a word. -/
lemma toNat_word?_getD (n : Nat) :
    ((word? n).getD (BitVec.allOnes 128)).toNat = min n maxPrice := by
  obtain ⟨w, word, rfl⟩ | ⟨word, large⟩ := word?_cases n
  · rw [word, Option.getD_some, Nat.min_eq_left toNat_le_maxPrice]
  · rw [word, Option.getD_none, Nat.min_eq_right (Nat.le_of_lt large)]
    rfl

/-! ## Step by step -/

/-- The percentage of the hundreds is the word of the product, if that has one. -/
lemma hundreds?_eq : hundreds? percent estimate = word? (estimate.toNat / 100 * percent.toNat) := by
  rw [hundreds?, BitVec.toNat_udiv, toNat_wide]
  rfl

/-- The product that nothing tests does not wrap. -/
lemma toNat_product :
    (estimate % 100 * wide percent).toNat = estimate.toNat % 100 * percent.toNat := by
  -- Not tested, this product is a word because less than a hundred is left over.
  have left : estimate.toNat % 100 < 100 := Nat.mod_lt _ (by decide)
  have small : estimate.toNat % 100 * percent.toNat < 2 ^ 128 :=
    calc estimate.toNat % 100 * percent.toNat
      _ ≤ 100 * 2 ^ 64 := Nat.mul_le_mul (Nat.le_of_lt left) (Nat.le_of_lt percent.toNat_lt)
      _ < 2 ^ 128 := by decide
  rw [BitVec.toNat_mul, BitVec.toNat_umod, toNat_wide]
  exact Nat.mod_eq_of_lt small

/-- The percentage of what is left over is the one without bound. -/
lemma toNat_rest : (rest percent estimate).toNat = estimate.toNat % 100 * percent.toNat / 100 := by
  rw [rest, BitVec.toNat_udiv, toNat_product]
  rfl

/-- Hundreds and rest lose nothing against the whole. -/
lemma hundreds_add_rest (e p : Nat) : e / 100 * p + e % 100 * p / 100 = e * p / 100 := by
  rw [← Nat.mul_add_div (by decide), ← Nat.mul_assoc, ← Nat.add_mul, Nat.div_add_mod]

/-- The hundreds alone make no more than the whole. -/
lemma hundreds_le (e p : Nat) : e / 100 * p ≤ e * p / 100 :=
  hundreds_add_rest e p ▸ Nat.le_add_right _ _

/-- The price passes all tests just if the exact percentage is a word, and then it is that word. -/
lemma price?_eq : price? percent estimate = word? (estimate.toNat * percent.toNat / 100) := by
  rw [price?, hundreds?_eq]
  obtain ⟨hundreds, tested, number⟩ | ⟨tested, large⟩ :=
    word?_cases (estimate.toNat / 100 * percent.toNat)
  · rw [tested, Option.bind_some, number, toNat_rest, hundreds_add_rest]
  · -- What the rest adds would only be more.
    have beyond := Nat.lt_of_lt_of_le large (hundreds_le estimate.toNat percent.toNat)
    rw [tested, Option.bind_none, word?, if_neg (Nat.not_le_of_lt beyond)]

/-- No step in words wraps, whatever the percentage and the estimate. -/
lemma unwrapped (percent : UInt64) (estimate : Word) : Unwrapped percent estimate :=
  ⟨hundreds?_eq, toNat_product, toNat_rest, price?_eq⟩

/-! ## The price -/

/-- The price is the exact percentage, rounded down, or the largest price if that is less. -/
lemma adjust_eq_min (percent : UInt64) (e : Nat) :
    adjust percent e = min (e * percent.toNat / 100) maxPrice := by
  have le := hundreds_le e percent.toNat
  rw [adjust, hundreds_add_rest]
  split
  case isTrue small => exact (Nat.min_eq_left small.2).symm
  case isFalse large =>
    have beyond : maxPrice ≤ e * percent.toNat / 100 := by omega
    exact (Nat.min_eq_right beyond).symm

/-- The price in words is the price that is computed without bound. -/
lemma toNat_adjustWord : (adjustWord percent estimate).toNat = adjust percent estimate.toNat := by
  rw [adjustWord, price?_eq, toNat_word?_getD, adjust_eq_min]

/-- The price does not fall when the percentage or the estimate grows. -/
lemma adjust_le_adjust (percents : percent ≤ percent') (estimates : e ≤ e') :
    adjust percent e ≤ adjust percent' e' := by
  have products : e * percent.toNat ≤ e' * percent'.toNat :=
    Nat.mul_le_mul estimates (UInt64.le_iff_toNat_le.1 percents)
  have wholes : e * percent.toNat / 100 ≤ e' * percent'.toNat / 100 := Nat.div_le_div_right products
  rw [adjust_eq_min, adjust_eq_min]
  omega

/-- From a hundred percent on, the price is no less than the estimate. -/
lemma le_adjust (full : 100 ≤ percent) (price : e ≤ maxPrice) : e ≤ adjust percent e := by
  have product : e * 100 ≤ e * percent.toNat :=
    Nat.mul_le_mul_left e (UInt64.le_iff_toNat_le.1 full)
  rw [adjust_eq_min]
  omega

/-- **The price is the exact percentage.** Of any estimate and at any percentage, the price is the
percentage of the estimate without bound, rounded down, or the largest price where that is more. It
is taken in words of 128 bits with no step that wraps; it does not fall when the estimate or the
percentage grows, and is no less than the estimate from a hundred percent on. -/
theorem price_of_percentage (percent : UInt64) (estimate : Word) :
    adjust percent estimate.toNat = min (estimate.toNat * percent.toNat / 100) maxPrice ∧
      (adjustWord percent estimate).toNat = adjust percent estimate.toNat ∧
      Unwrapped percent estimate ∧
      (∀ percent' estimate', percent ≤ percent' → estimate ≤ estimate' →
        adjust percent estimate.toNat ≤ adjust percent' estimate'.toNat) ∧
      (100 ≤ percent → estimate.toNat ≤ adjust percent estimate.toNat) := by
  refine ⟨adjust_eq_min percent _, toNat_adjustWord, unwrapped percent estimate, ?_, ?_⟩
  · intro percent' estimate' percents estimates
    exact adjust_le_adjust percents estimates
  · intro full
    exact le_adjust full toNat_le_maxPrice

/-- A hundred and twenty percent of 99 is 118.8, and of the largest price there is no more than
itself. -/
example : adjustWord 120 99 = 118 ∧ adjustWord 120 (BitVec.allOnes 128) = BitVec.allOnes 128 := by
  decide

end Payout.Fee
