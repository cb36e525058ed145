import Payout.Proofs.Decimal.Rounding

/-!
# Quotients

The quotient of an amount by a whole number is its exact quotient, rounded to the places for which
there is room (`divNat?_rounds`). Long division keeps what is left to divide together with the
digits it has (`Reached`), so that when it stops, for want of a remainder or of room, the digits are
those of the exact quotient.
-/

namespace Payout.Decimal

variable {a : Decimal} {x ε : ℚ} {n num den divisor quotient remainder scale : ℕ} {sticky : Bool}

section Nearest

/-- A number is nearest to the whole number below it, or to the one above, by its distance. -/
lemma nearest_below {f : ℚ} (nonneg : 0 ≤ f) (near : f < 1 / 2 ∨ f = 1 / 2 ∧ Even n) :
    Nearest (n + f) n := by
  unfold Nearest
  rwa [add_sub_cancel_left, abs_of_nonneg nonneg]

/-- A fraction above one half, or one half on an odd number, is rounded up. -/
lemma nearest_above {f : ℚ} (le : f ≤ 1) (near : 1 / 2 < f ∨ f = 1 / 2 ∧ Even (n + 1)) :
    Nearest (n + f) (n + 1) := by
  have distance : |(n : ℚ) + f - (n + 1 : ℕ)| = 1 - f := by
    rw [Nat.cast_succ, abs_sub_comm, abs_of_nonneg] <;> linarith
  unfold Nearest
  rw [distance]
  obtain far | ⟨half, even⟩ := near
  · exact .inl (by linarith)
  · exact .inr ⟨by linarith, even⟩

variable {q r : ℕ}

/-- Rounding up is right where the remainder outweighs the rest of the divisor, or balances it and
is tipped. -/
lemma nearest_up (less : r < den) (nonneg : 0 ≤ ε) (small : ε < 1) (told : sticky = true ↔ 0 < ε)
    (up : den < 2 * r ∨ 2 * r = den ∧ (sticky = true ∨ q % 2 = 1)) :
    Nearest (q + (r + ε) / den) (q + 1) := by
  have den_pos : (0 : ℚ) < den := Nat.cast_pos.2 (Nat.zero_lt_of_lt less)
  have rest_le : (r : ℚ) + 1 ≤ den := by exact_mod_cast less
  refine nearest_above ((div_le_one den_pos).2 (by linarith)) ?_
  obtain more | ⟨half, tipped⟩ := up
  · have more' : (den : ℚ) < 2 * r := by exact_mod_cast more
    exact .inl ((lt_div_iff₀ den_pos).2 (by linarith))
  · have half' : 2 * (r : ℚ) = den := by exact_mod_cast half
    obtain zero | rest := nonneg.eq_or_lt
    · have odd : q % 2 = 1 := tipped.resolve_left fun said => (told.1 said).ne zero
      refine .inr ⟨(div_eq_iff den_pos.ne').2 (by linarith), ?_⟩
      rw [Nat.even_iff]
      omega
    · exact .inl ((lt_div_iff₀ den_pos).2 (by linarith))

/-- Rounding down is right everywhere else. -/
lemma nearest_down (less : r < den) (nonneg : 0 ≤ ε) (small : ε < 1) (told : sticky = true ↔ 0 < ε)
    (even : ε = 0 ∨ Even den) (down : ¬ (den < 2 * r ∨ 2 * r = den ∧ (sticky = true ∨ q % 2 = 1))) :
    Nearest (q + (r + ε) / den) q := by
  have den_pos : (0 : ℚ) < den := Nat.cast_pos.2 (Nat.zero_lt_of_lt less)
  refine nearest_below (by positivity) ?_
  obtain ⟨notMore, balanced⟩ := not_or.1 down
  obtain fewer | half := Nat.lt_or_eq_of_le (Nat.le_of_not_lt notMore)
  · refine .inl ((div_lt_iff₀ den_pos).2 ?_)
    obtain zero | even := even
    · have fewer' : 2 * (r : ℚ) < den := by exact_mod_cast fewer
      linarith
    · -- Between an even divisor and twice the remainder there is room for what is left.
      have fewer' : 2 * (r : ℚ) + 2 ≤ den := by
        obtain ⟨h, rfl⟩ := even
        exact_mod_cast (by omega : 2 * r + 2 ≤ h + h)
      linarith
  · have half' : 2 * (r : ℚ) = den := by exact_mod_cast half
    obtain ⟨untold, notOdd⟩ := not_or.1 fun tipped => balanced ⟨half, tipped⟩
    have zero : ε = 0 := (not_lt.1 (mt told.2 untold)).antisymm nonneg
    refine .inr ⟨(div_eq_iff den_pos.ne').2 (by linarith), ?_⟩
    rw [Nat.even_iff]
    omega

/-- Rounding a quotient gives the nearest whole number. What is left of the dividend beyond whole
numbers, if there is any, can only tip the balance for an even divisor. -/
lemma nearest_divRound (positive : 0 < den) (nonneg : 0 ≤ ε) (small : ε < 1)
    (told : sticky = true ↔ 0 < ε)
    (even : ε = 0 ∨ Even den) : Nearest ((num + ε) / den) (divRound num den sticky) := by
  have less : num % den < den := Nat.mod_lt _ positive
  have whole : (num + ε) / den = (num / den : ℕ) + ((num % den : ℕ) + ε) / den := by
    have den_pos : (0 : ℚ) < den := Nat.cast_pos.2 positive
    have split : ((den * (num / den) + num % den : ℕ) : ℚ) = num :=
      congrArg Nat.cast (Nat.div_add_mod num den)
    push_cast at split ⊢
    rw [← split]
    field_simp
    ring
  rw [whole]
  unfold divRound
  dsimp only
  split
  case isTrue up => exact nearest_up less nonneg small told up
  case isFalse down => exact nearest_down less nonneg small told even down

end Nearest

section Room

/-- A value is rounded if its scale is the number of places and its coefficient the nearest one. -/
lemma rounds_of_nearest (all : places x = scale) (near : Nearest (x * 10 ^ scale) n) :
    Rounds x (n / 10 ^ scale) :=
  ⟨n, all.symm ▸ near, all.symm ▸ rfl⟩

/-- Rounding adds at most one to the quotient without its fraction. -/
lemma divRound_le : divRound num den sticky ≤ num / den + 1 := by
  unfold divRound
  dsimp only
  split
  · exact Nat.le_refl _
  · exact Nat.le_succ _

/-- A place too many for a number that does not reach ten times the limit is the only one. -/
lemma places_of_over (nonneg : 0 ≤ x) (few : scale + 1 ≤ maxScale)
    (beyond : (limit : ℚ) - 1 / 2 ≤ x * 10 ^ (scale + 1))
    (near : x * 10 ^ (scale + 1) < limit + 10 ^ 9) :
    places x = scale := by
  refine places_eq nonneg (Nat.le_of_succ_le few) ?_ (.inr beyond)
  have much : (10 : ℚ) ^ 10 < limit := by norm_num [limit]
  rw [pow_succ] at near
  linarith

/-- Digits that have outgrown the limit are rounded to one place less. -/
lemma settle_over (nonneg : 0 ≤ ε) (small : ε < 1) (told : sticky = true ↔ 0 < ε)
    (beyond : limit ≤ num) (reached : x * 10 ^ (scale + 1) = num + ε)
    (near : x * 10 ^ (scale + 1) < limit + 10 ^ 9) (few : scale + 1 ≤ maxScale) :
    ∃ c t, settle num (scale + 1) sticky = some (c, t) ∧ c < limit ∧ t ≤ maxScale ∧
      Rounds x (c / 10 ^ t) := by
  have beyond' : (limit : ℚ) ≤ num := Nat.cast_le.2 beyond
  have nonneg' : 0 ≤ x := by
    refine nonneg_of_mul_nonneg_left (b := 10 ^ (scale + 1)) ?_ (by positivity)
    rw [reached]
    positivity
  have close : num < limit + 10 ^ 9 := by
    have h : (num : ℚ) < limit + 10 ^ 9 := by linarith
    exact_mod_cast h
  have nearest : Nearest (x * 10 ^ scale) (divRound num 10 sticky) := by
    have tenth : x * 10 ^ scale = (num + ε) / (10 : ℕ) := by
      rw [← reached, pow_succ]
      push_cast
      ring
    rw [tenth]
    exact nearest_divRound (by decide) nonneg small told (.inr (by decide))
  refine ⟨divRound num 10 sticky, scale, ?_, ?_, Nat.le_of_succ_le few,
    rounds_of_nearest (places_of_over nonneg' few (by linarith) near) nearest⟩
  · rw [settle, if_neg (Nat.not_lt.2 beyond), if_neg (Nat.succ_ne_zero _), Nat.add_sub_cancel]
  · refine Nat.lt_of_le_of_lt divRound_le ?_
    rw [limit] at close ⊢
    omega

/-- Digits that rounding takes to the limit are rounded once more, which does not take them away
from the number. -/
lemma settle_limit (nonneg : 0 ≤ x) (rounded : (limit : ℚ) - 1 / 2 ≤ x * 10 ^ (scale + 1))
    (below : x * 10 ^ (scale + 1) < limit) (few : scale + 1 ≤ maxScale) :
    ∃ c t, settle limit (scale + 1) true = some (c, t) ∧ c < limit ∧ t ≤ maxScale ∧
      Rounds x (c / 10 ^ t) := by
  have all : places x = scale := places_of_over nonneg few rounded (below.trans (by norm_num))
  have nearest : Nearest (x * 10 ^ scale) (divRound limit 10 true) := by
    rw [show divRound limit 10 true = 7922816251426433759354395034 by decide, Nearest, abs_lt]
    rw [pow_succ] at rounded below
    norm_num [limit] at rounded below ⊢
    left
    constructor <;> linarith
  refine ⟨divRound limit 10 true, scale, ?_, by decide, Nat.le_of_succ_le few,
    rounds_of_nearest all nearest⟩
  rw [settle, if_neg (Nat.lt_irrefl _), if_neg (Nat.succ_ne_zero _), Nat.add_sub_cancel]

end Room

section Division

/-- So much of a number is divided as a quotient and its scale say; what is left of it is the
remainder. -/
structure Divided (x : ℚ) (divisor quotient remainder scale : ℕ) : Prop where
  reached : x * 10 ^ scale = quotient + (remainder : ℚ) / divisor
  remainder_lt : remainder < divisor
  few : scale ≤ maxScale

/-- What is divided this way is not negative. -/
lemma Divided.nonneg (h : Divided x divisor quotient remainder scale) : 0 ≤ x := by
  refine nonneg_of_mul_nonneg_left (b := 10 ^ scale) ?_ (by positivity)
  rw [h.reached]
  positivity

/-- A fraction is left, and the remainder tells whether it is zero. -/
lemma Divided.fraction (h : Divided x divisor quotient remainder scale) :
    0 ≤ (remainder : ℚ) / divisor ∧ (remainder : ℚ) / divisor < 1 ∧
      ((remainder != 0) = true ↔ 0 < (remainder : ℚ) / divisor) := by
  have positive : (0 : ℚ) < divisor := Nat.cast_pos.2 (Nat.zero_lt_of_lt h.remainder_lt)
  refine ⟨by positivity, (div_lt_one positive).2 (Nat.cast_lt.2 h.remainder_lt), ?_⟩
  rw [div_pos_iff_of_pos_right positive, Nat.cast_pos, bne_iff_ne, Nat.pos_iff_ne_zero]

/-- The digits so far fall short of the number by less than one of their last place. -/
lemma Divided.lt (h : Divided x divisor quotient remainder scale) :
    x * 10 ^ scale < quotient + 1 := by
  rw [h.reached]
  linarith [h.fraction.2.1]

/-- Any number of digits can be appended at once. -/
lemma Divided.grow (h : Divided x divisor quotient remainder scale) {k : ℕ}
    (few : scale + k ≤ maxScale) :
    Divided x divisor (quotient * 10 ^ k + remainder * 10 ^ k / divisor)
      (remainder * 10 ^ k % divisor)
      (scale + k) where
  reached := by
    have positive : (0 : ℚ) < divisor := Nat.cast_pos.2 (Nat.zero_lt_of_lt h.remainder_lt)
    have split := congrArg (Nat.cast (R := ℚ)) (Nat.div_add_mod (remainder * 10 ^ k) divisor)
    rw [pow_add, ← mul_assoc, h.reached]
    push_cast at split ⊢
    field_simp
    linarith
  remainder_lt := Nat.mod_lt _ (Nat.zero_lt_of_lt h.remainder_lt)
  few := few

/-- A step has room for its digits, and is none only if there is no room for one. -/
lemma growth_spec (small : quotient < limit) (few : scale ≤ maxScale) :
    growth quotient scale ≤ 9 ∧ scale + growth quotient scale ≤ maxScale ∧
      quotient * 10 ^ growth quotient scale < limit ∧
      (growth quotient scale = 0 → scale = maxScale ∨ limit ≤ quotient * 10) := by
  have chosen :
      (0 :: (List.range 10).filter fun k => scale + k ≤ maxScale ∧ quotient * 10 ^ k < limit).max? =
      some (growth quotient scale) := List.max?_cons'
  obtain ⟨mem, greatest⟩ := List.max?_eq_some_iff.1 chosen
  have room : growth quotient scale < 10 ∧ scale + growth quotient scale ≤ maxScale ∧
      quotient * 10 ^ growth quotient scale < limit := by
    obtain none | mem := List.mem_cons.1 mem
    · rw [none]
      exact ⟨by decide, few, by simpa using small⟩
    · simpa using mem
  refine ⟨Nat.le_of_lt_succ room.1, room.2.1, room.2.2, fun none => ?_⟩
  by_contra both
  obtain ⟨notFull, fits⟩ := not_or.1 both
  have one : 1 ≤ growth quotient scale := by
    refine greatest 1 (List.mem_cons_of_mem _ (List.mem_filter.2 ⟨by decide, ?_⟩))
    have more : scale + 1 ≤ maxScale := by omega
    simpa [more] using fits
  omega

/-- The digits that there are, rounded by the remainder, are nearest to the number. -/
lemma Divided.nearest (h : Divided x divisor quotient remainder scale) :
    Nearest (x * 10 ^ scale) (divRound (quotient * divisor + remainder) divisor false) := by
  have positive : 0 < divisor := Nat.zero_lt_of_lt h.remainder_lt
  have exact : x * 10 ^ scale = ((quotient * divisor + remainder : ℕ) + 0) / divisor := by
    have : (0 : ℚ) < divisor := Nat.cast_pos.2 positive
    rw [h.reached]
    push_cast
    field_simp
    ring
  rw [exact]
  exact nearest_divRound positive le_rfl one_pos (by simp) (.inl rfl)

/-- Where there is no room for another digit, the digits there are get rounded. -/
lemma Divided.settle (h : Divided x divisor quotient remainder scale) (small : quotient < limit)
    (full : scale = maxScale ∨ limit ≤ quotient * 10) (room : x < limit - 1 / 2) :
    ∃ c t, settle (divRound (quotient * divisor + remainder) divisor false) scale true =
      some (c, t) ∧ c < limit ∧ t ≤ maxScale ∧ Rounds x (c / 10 ^ t) := by
  have less : x * 10 ^ scale < limit := h.lt.trans_le (by exact_mod_cast small)
  have nearest := h.nearest
  have le : divRound (quotient * divisor + remainder) divisor false ≤ limit := by
    refine Nat.le_trans divRound_le ?_
    rw [Nat.mul_comm, Nat.mul_add_div (Nat.zero_lt_of_lt h.remainder_lt),
      Nat.div_eq_of_lt h.remainder_lt]
    exact small
  generalize divRound (quotient * divisor + remainder) divisor false = c at nearest le ⊢
  obtain fits | rfl := Nat.lt_or_eq_of_le le
  · have room' : x * 10 ^ scale < limit - 1 / 2 :=
      lt_sub_half_of_nearest nearest fits less ⟨2 ^ 95, by decide⟩
    have full' : scale = maxScale ∨ (limit : ℚ) - 1 / 2 ≤ x * 10 ^ (scale + 1) := by
      refine full.imp_right fun ten => ?_
      have ten' : (limit : ℚ) ≤ quotient * 10 := by exact_mod_cast ten
      rw [pow_succ, ← mul_assoc, h.reached]
      linarith [h.fraction.1]
    refine ⟨c, scale, by rw [Decimal.settle, if_pos fits], fits, h.few, ?_⟩
    exact rounds_of_nearest (places_eq h.nonneg h.few room' full') nearest
  · have rounded : (limit : ℚ) - 1 / 2 ≤ x * 10 ^ scale := by linarith [(abs_le.1 nearest.le).1]
    cases scale with
    | zero =>
      rw [pow_zero, mul_one] at rounded
      exact absurd room (not_lt.2 rounded)
    | succ scale => exact settle_limit h.nonneg rounded less h.few

/-- Long division rounds the exact quotient. -/
lemma Divided.rounds (h : Divided x divisor quotient remainder scale) (small : quotient < limit)
    (room : x < limit - 1 / 2) :
    ∃ c t, longDivide divisor quotient remainder scale = some (c, t) ∧ c < limit ∧ t ≤ maxScale ∧
      Rounds x (c / 10 ^ t) := by
  -- The division comes out, is out of places, goes on, or has gone one digit too far.
  induction quotient, remainder, scale using longDivide.induct divisor with
  | case1 quotient scale =>
    have exact : x = quotient / 10 ^ scale := by
      rw [eq_div_iff (by positivity), h.reached]
      simp
    refine ⟨quotient, scale, ?_, small, h.few, exact ▸ rounds_self small h.few exact⟩
    rw [longDivide, if_pos rfl]
  | case2 quotient remainder scale left k stop =>
    obtain ⟨-, fits, -, full⟩ := growth_spec small h.few
    have none : growth quotient scale = 0 := stop.resolve_right (Nat.not_lt.2 fits)
    rw [longDivide, if_neg left, dif_pos stop]
    exact h.settle small (full none) room
  | case3 quotient remainder scale left k go next grown fits ih =>
    rw [longDivide, if_neg left, dif_neg go, if_pos fits]
    exact ih (h.grow (growth_spec small h.few).2.1) fits
  | case4 quotient remainder scale left k go next grown beyond =>
    obtain ⟨nine, few, fits, -⟩ := growth_spec small h.few
    have grown' : Divided x divisor grown (next % divisor) (scale + k) := h.grow few
    have near : x * 10 ^ (scale + k) < limit + 10 ^ 9 := by
      have fits' : (quotient : ℚ) * 10 ^ k < limit := by exact_mod_cast fits
      have step : (10 : ℚ) ^ k ≤ 10 ^ 9 := pow_le_pow_right₀ (by norm_num) nine
      calc x * 10 ^ (scale + k) = x * 10 ^ scale * 10 ^ k := by rw [pow_add, mul_assoc]
        _ < (quotient + 1) * 10 ^ k := mul_lt_mul_of_pos_right h.lt (by positivity)
        _ < limit + 10 ^ 9 := by linarith
    rw [longDivide, if_neg left, dif_neg go, if_neg beyond]
    obtain ⟨nonneg, part, told⟩ := grown'.fraction
    obtain ⟨t, more⟩ : ∃ t, scale + k = t + 1 := Nat.exists_eq_succ_of_ne_zero (by omega)
    rw [more] at grown' near few
    exact more ▸ settle_over nonneg part told (Nat.le_of_not_lt beyond) grown'.reached near few

end Division

section Trimming

/-- Digits and places of a value, none of them more than before. -/
structure Trims (before after : ℕ × ℕ) : Prop where
  coefficient_le : after.1 ≤ before.1
  scale_le : after.2 ≤ before.2
  value : (after.1 : ℚ) / 10 ^ after.2 = before.1 / 10 ^ before.2

/-- A value that is left alone is trimmed of nothing. -/
lemma Trims.refl (before : ℕ × ℕ) : Trims before before := ⟨Nat.le_refl _, Nat.le_refl _, rfl⟩

/-- Trimming can be done in turns. -/
lemma Trims.trans {before between after : ℕ × ℕ} (h : Trims before between)
    (h' : Trims between after) :
    Trims before after :=
  ⟨Nat.le_trans h'.coefficient_le h.coefficient_le, Nat.le_trans h'.scale_le h.scale_le,
    h'.value.trans h.value⟩

/-- Zeros at the end can be given up together with their places. -/
lemma trims_zeros {k : ℕ} {before : ℕ × ℕ} (few : k ≤ before.2) (zeros : before.1 % 10 ^ k = 0) :
    Trims before (before.1 / 10 ^ k, before.2 - k) where
  coefficient_le := Nat.div_le_self _ _
  scale_le := Nat.sub_le _ _
  value := by
    dsimp only
    rw [← shortened_div few, Nat.div_mul_cancel (Nat.dvd_of_mod_eq_zero zeros)]

/-- One step of trimming keeps the value. -/
lemma trims_trimStep (k : ℕ) (before : ℕ × ℕ) : Trims before (trimStep k before) := by
  unfold trimStep
  split
  case isTrue h => exact trims_zeros h.2.1 h.2.2
  case isFalse => exact .refl before

/-- Trimming eight zeros at a time keeps the value. -/
lemma trims_trimEights (fuel : ℕ) (before : ℕ × ℕ) : Trims before (trimEights fuel before) := by
  induction fuel generalizing before with
  | zero => exact .refl before
  | succ fuel ih =>
    unfold trimEights
    split
    case isTrue h => exact (trims_zeros h.2.1 h.2.2).trans (ih _)
    case isFalse => exact .refl before

/-- Trimming keeps the value. -/
lemma trims_trim (before : ℕ × ℕ) : Trims before (trim before) :=
  (((trims_trimEights 4 before).trans (trims_trimStep 4 _)).trans (trims_trimStep 2 _)).trans
    (trims_trimStep 1 _)

end Trimming

/-- The quotient of an amount is the exact one, rounded to the places for which there is room. -/
lemma divNat?_rounds (positive : 0 < a.value) (notZero : divisor ≠ 0) :
    ∃ b, divNat? a divisor = some b ∧ 0 ≤ b.coefficient ∧ Rounds (a.value / divisor) b.value := by
  have pos := coefficient_pos positive
  have divisor_pos : 0 < divisor := Nat.pos_of_ne_zero notZero
  have start : Divided (a.value / divisor) divisor (a.coefficient.natAbs / divisor)
      (a.coefficient.natAbs % divisor)
      a.scale := by
    refine ⟨?_, Nat.mod_lt _ divisor_pos, a.scale_le⟩
    have split := congrArg (Nat.cast (R := ℚ)) (Nat.div_add_mod a.coefficient.natAbs divisor)
    rw [value_eq pos.le, ← split]
    push_cast
    field_simp
  have small : a.coefficient.natAbs / divisor < limit :=
    Nat.lt_of_le_of_lt (Nat.div_le_self _ _) a.coefficient_lt
  have room : a.value / divisor < limit - 1 / 2 := by
    have le : a.value / divisor ≤ a.value := div_le_self positive.le (by exact_mod_cast divisor_pos)
    linarith [value_le pos.le]
  obtain ⟨c, t, divided, fits, few, rounds⟩ := start.rounds small room
  have made {after : ℕ × ℕ} (trims : Trims (c, t) after) :
      ∃ b, ofParts? (signed false after.1) after.2 = some b ∧
      0 ≤ b.coefficient ∧ Rounds (a.value / divisor) b.value := by
    obtain ⟨b, parts, nonneg, -, value⟩ :=
      exists_ofParts? (Nat.lt_of_le_of_lt trims.coefficient_le fits)
      (Nat.le_trans trims.scale_le few)
    exact ⟨b, parts, nonneg, by rw [value, trims.value]; exact rounds⟩
  rw [divNat?, if_neg notZero, if_neg pos.ne']
  dsimp only
  rw [decide_eq_false pos.not_gt]
  -- Zeros are taken off only where something was left to divide.
  split
  case isTrue none =>
    rw [none, longDivide, if_pos rfl] at divided
    cases divided
    exact made (.refl _)
  case isFalse =>
    rw [divided]
    exact made (trims_trim _)

end Payout.Decimal
