import Payout.Proofs.Decimal.Value

/-!
# Products by powers of ten

An amount times a power of ten is exact or refused. How many digits have to go for a product to fit
is estimated from its length in bits, and the estimate is right (`excessDigits_le_iff`): it is the
least number of digits that will do. A product by a power of ten ends in as many zeros as have to go
at the most, so no other digit goes; and it is refused only where its whole part does not fit
(`mul?_power`).
-/

namespace Payout.Decimal

variable {a p : Decimal} {product n d k j : ℕ}

/-- So many digits are worth no more than so many bits. -/
lemma ten_pow_le_two_pow (n : ℕ) : 10 ^ (n * 77 / 256) ≤ 2 ^ n := by
  have digits : 256 * (n * 77 / 256) ≤ 77 * n := by omega
  refine (Nat.pow_le_pow_iff_left (by decide : 77 ≠ 0)).1 ?_
  calc (10 ^ (n * 77 / 256)) ^ 77
    _ = (10 ^ 77) ^ (n * 77 / 256) := by rw [← Nat.pow_mul, ← Nat.pow_mul, Nat.mul_comm]
    _ ≤ (2 ^ 256) ^ (n * 77 / 256) := Nat.pow_le_pow_left (by decide) _
    _ = 2 ^ (256 * (n * 77 / 256)) := (Nat.pow_mul ..).symm
    _ ≤ 2 ^ (77 * n) := Nat.pow_le_pow_right (by decide) digits
    _ = (2 ^ n) ^ 77 := by rw [← Nat.pow_mul, Nat.mul_comm]

/-- Two digits more are worth a bit more. This holds only up to the length that products have: in
the long run the estimate falls behind. -/
lemma two_pow_le_ten_pow (short : n ≤ 93) : 2 ^ (n + 1) ≤ 10 ^ (n * 77 / 256 + 2) := by
  have all : ∀ n ≤ 93, 2 ^ (n + 1) ≤ 10 ^ (n * 77 / 256 + 2) := by decide +kernel
  exact all n short

/-- A number between two powers of ten, counted in limits, has just so many digits too many. -/
lemma succ_le_iff_of_between (below : limit * 10 ^ k ≤ product)
    (above : product < limit * 10 ^ (k + 1)) :
    k + 1 ≤ j ↔ product < limit * 10 ^ j := by
  constructor
  · intro more
    exact Nat.lt_of_lt_of_le above (Nat.mul_le_mul_left _ (Nat.pow_le_pow_right (by decide) more))
  · intro fits
    by_contra fewer
    have : limit * 10 ^ j ≤ limit * 10 ^ k :=
      Nat.mul_le_mul_left _ (Nat.pow_le_pow_right (by decide) (by omega))
    omega

/-- A number that is too long has a number of bits above the limit, up to a factor of two. -/
lemma exists_bits (long : 96 < bitLength product) :
    ∃ n, bitLength product = 97 + n ∧ limit * 2 ^ n ≤ product ∧ product < limit * 2 ^ (n + 1) := by
  have notZero : product ≠ 0 := by
    rintro rfl
    exact absurd long (by decide)
  rw [bitLength, if_neg notZero] at long ⊢
  refine ⟨product.log2 - 96, by omega, ?_, ?_⟩
  · rw [limit, ← Nat.pow_add, show 96 + (product.log2 - 96) = product.log2 by omega]
    exact Nat.log2_self_le notZero
  · rw [limit, ← Nat.pow_add, show 96 + (product.log2 - 96 + 1) = product.log2 + 1 by omega]
    exact Nat.lt_log2_self

/-- The estimate of the digits that have to go for a product to fit is right. -/
lemma excessDigits_le_iff (small : product < limit * 10 ^ maxScale) :
    excessDigits product ≤ j ↔ product < limit * 10 ^ j := by
  unfold excessDigits
  dsimp only
  split
  case isTrue short =>
    have fits : product < limit := by
      by_cases zero : product = 0
      · rw [zero]
        decide
      · rw [bitLength, if_neg zero] at short
        exact (Nat.log2_lt zero).1 (by omega)
    have room : limit ≤ limit * 10 ^ j := Nat.le_mul_of_pos_right _ (Nat.pow_pos (by decide))
    exact iff_of_true (Nat.zero_le j) (Nat.lt_of_lt_of_le fits room)
  case isFalse long =>
    -- By the number of bits one digit more than `n * 77 / 256` has to go, or two.
    obtain ⟨n, length, below, above⟩ := exists_bits (Nat.lt_of_not_le long)
    have short : n ≤ 93 := by
      have bits : limit * 2 ^ n < limit * 2 ^ 94 :=
        Nat.lt_trans (Nat.lt_of_le_of_lt below small) (by decide)
      have fewer :=
        (Nat.pow_lt_pow_iff_right (by decide : 1 < 2)).1 (Nat.lt_of_mul_lt_mul_left bits)
      omega
    rw [length, show 97 + n - 97 = n by omega]
    have least : limit * 10 ^ (n * 77 / 256) ≤ product :=
      Nat.le_trans (Nat.mul_le_mul_left _ (ten_pow_le_two_pow n)) below
    have most : product < limit * 10 ^ (n * 77 / 256 + 2) :=
      Nat.lt_of_lt_of_le above (Nat.mul_le_mul_left _ (two_pow_le_ten_pow short))
    have fits_iff : product / 10 ^ (n * 77 / 256 + 1) < limit ↔
        product < limit * 10 ^ (n * 77 / 256 + 1) :=
      Nat.div_lt_iff_lt_mul (Nat.pow_pos (by decide))
    split
    case isTrue enough => exact succ_le_iff_of_between least (fits_iff.1 enough)
    case isFalse tooFew =>
      exact succ_le_iff_of_between (Nat.le_of_not_lt (mt fits_iff.2 tooFew)) most

/-- What divides leaves nothing to round. -/
lemma divRound_mul {c den : ℕ} (positive : 0 < den) : divRound (c * den) den false = c := by
  have exact : c * den / den = c := Nat.mul_div_cancel _ positive
  simp [divRound, exact, positive.ne]

/-- An amount without decimal places is its coefficient. -/
lemma coefficient_eq (whole : p.scale = 0) (power : p.value = 10 ^ d) : p.coefficient = 10 ^ d := by
  rw [value, whole, pow_zero, div_one] at power
  exact_mod_cast power

/-- In a product by a power of ten, the digits that have to go are zeros. -/
lemma exists_shortened {m : ℕ} (fits : m < limit) (small : d ≤ maxScale) :
    ∃ k c, excessDigits (m * 10 ^ d) = k ∧ m * 10 ^ d = c * 10 ^ k ∧ c < limit ∧
      ∀ j, k ≤ j ↔ m * 10 ^ d < limit * 10 ^ j := by
  have least (j : ℕ) : excessDigits (m * 10 ^ d) ≤ j ↔ m * 10 ^ d < limit * 10 ^ j := by
    refine excessDigits_le_iff
      (Nat.lt_of_lt_of_le (Nat.mul_lt_mul_of_pos_right fits (Nat.pow_pos (by decide))) ?_)
    exact Nat.mul_le_mul_left _ (Nat.pow_le_pow_right (by decide) small)
  generalize excessDigits (m * 10 ^ d) = k at least
  have zeros : k ≤ d := (least d).2 (Nat.mul_lt_mul_of_pos_right fits (Nat.pow_pos (by decide)))
  have product : m * 10 ^ d = m * 10 ^ (d - k) * 10 ^ k := by
    rw [Nat.mul_assoc, ← Nat.pow_add, Nat.sub_add_cancel zeros]
  refine ⟨k, m * 10 ^ (d - k), rfl, product, ?_, least⟩
  have fits' := (least k).1 k.le_refl
  rw [product] at fits'
  exact Nat.lt_of_mul_lt_mul_right fits'

/-- The product by a power of ten is exact, unless its whole part does not fit. -/
lemma mul?_power (positive : 0 < a.value) (whole : p.scale = 0) (power : p.value = 10 ^ d)
    (small : d ≤ maxScale) :
    (a.value * 10 ^ d < limit ∧
        ∃ b, mul? a p = some b ∧ 0 ≤ b.coefficient ∧ b.scale ≤ a.scale ∧
          b.value = a.value * 10 ^ d) ∨
      (limit ≤ a.value * 10 ^ d ∧ mul? a p = none) := by
  have pos := coefficient_pos positive
  have factor := coefficient_eq whole power
  obtain ⟨k, c, digits, shortened, room, least⟩ := exists_shortened a.coefficient_lt small
  have product : a.coefficient.natAbs * p.coefficient.natAbs = a.coefficient.natAbs * 10 ^ d := by
    rw [factor, Int.natAbs_pow]
    rfl
  have multiplied : mul? a p = if a.scale < k then none
    else ofParts? (signed false c) (a.scale - k) := by
    have notZero : ¬ (a.coefficient = 0 ∨ p.coefficient = 0) := by
      rw [factor]
      exact not_or.2 ⟨pos.ne', pow_ne_zero d (by decide)⟩
    have places : a.scale + p.scale - maxScale ≤ k := by
      have := a.scale_le
      rw [whole, maxScale]
      omega
    have sign : (decide (a.coefficient < 0) != decide (p.coefficient < 0)) = false := by
      rw [factor, decide_eq_false pos.not_gt, decide_eq_false (pow_pos (by decide) d).not_gt]
      rfl
    rw [mul?, if_neg notZero]
    dsimp only
    rw [product, digits, Nat.max_eq_left places, whole, Nat.add_zero, shortened,
      divRound_mul (Nat.pow_pos (by decide)), sign, settle, if_pos room]
    rfl
  have scaled : a.value * 10 ^ d = (c * 10 ^ k : ℕ) / 10 ^ a.scale := by
    rw [value_eq pos.le, ← shortened]
    push_cast
    ring
  -- The product has to lose `k` places, and fits exactly if the amount has that many.
  have fits_iff : a.value * 10 ^ d < limit ↔ k ≤ a.scale := by
    rw [scaled, least, shortened, div_lt_iff₀ (by positivity)]
    exact_mod_cast Iff.rfl
  rw [multiplied]
  by_cases fits : k ≤ a.scale
  · obtain ⟨b, parts, nonneg, scale, value⟩ :=
      exists_ofParts? room (Nat.le_trans (Nat.sub_le a.scale k) a.scale_le)
    refine .inl ⟨fits_iff.2 fits, b, ?_, nonneg, ?_, ?_⟩
    · rw [if_neg (Nat.not_lt.2 fits), parts]
    · rw [scale]
      exact Nat.sub_le _ _
    · rw [scaled, value, shortened_div fits]
  · refine .inr ⟨le_of_not_gt (mt fits_iff.1 fits), if_pos (Nat.lt_of_not_le fits)⟩

/-- Every power of ten that has a place among amounts can be multiplied up. -/
lemma exists_powerOfTen? (small : d ≤ maxScale) :
    ∃ p, powerOfTen? d = some p ∧ p.scale = 0 ∧ p.value = 10 ^ d := by
  induction d with
  | zero => exact ⟨ofUInt64 1, rfl, rfl, (value_ofUInt64 (m := 1) rfl).trans (by norm_num)⟩
  | succ d ih =>
    obtain ⟨p, made, whole, power⟩ := ih (Nat.le_of_succ_le small)
    have positive : 0 < p.value := by
      rw [power]
      positivity
    have ten : (ofUInt64 10).value = 10 ^ 1 := (value_ofUInt64 (m := 10) rfl).trans (by norm_num)
    have next : p.value * 10 ^ 1 = 10 ^ (d + 1) := by rw [power, ← pow_add]
    have fits : (10 : ℚ) ^ (d + 1) < limit := by
      calc (10 : ℚ) ^ (d + 1) ≤ 10 ^ maxScale := pow_le_pow_right₀ (by norm_num) small
        _ < limit := by norm_num [maxScale, limit]
    rw [powerOfTen?, made]
    obtain ⟨-, b, multiplied, -, fewer, product⟩ | ⟨large, -⟩ :=
      mul?_power positive rfl ten (by decide)
    · exact ⟨b, multiplied, Nat.le_zero.1 (whole ▸ fewer), product.trans next⟩
    · exact absurd fits (not_lt.2 (next ▸ large))

end Payout.Decimal
