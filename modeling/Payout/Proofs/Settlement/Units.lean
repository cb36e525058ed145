import Payout.Proofs.Decimal.Product
import Payout.Proofs.Decimal.Quotient
import Payout.Settlement.Units

/-!
# Amounts in on-chain units

Which amounts can be paid out, and as how many on-chain units. Both are a matter of the value of an
amount, not of the places that it is written with (`Conversion`). An amount whose units can be
written is converted exactly or refused; one whose units cannot is converted if they round to a
whole number.
-/

namespace Payout.Decimal

/-- A value counted in units of a token, by the ledger's scale and the token's number of
decimals. -/
def unitsOf (x : ℚ) (r : Rescale) : ℚ := x * 10 ^ r.decimals.toNat / r.scale.toNat

/-- A value is paid out as a number of on-chain units. -/
def Amounts (x : ℚ) : Option Rescale → ℕ → Prop
  | none, u => 0 < x ∧ x = u
  | some r, u =>
    0 < x ∧ r.scale ≠ 0 ∧ r.decimals.toNat ≤ maxScale ∧ x * 10 ^ r.decimals.toNat < limit ∧
      Rounds (unitsOf x r) u

/-- What becomes of a value: it is paid out, or refused, for the scale if that is zero and else for
itself. -/
inductive Conversion (x : ℚ) (r : Option Rescale) : Except SettlementError ℕ → Prop where
  | converted {u} :
    Amounts x r u →
    Conversion x r (.ok u)
  | unscaled {s reason} :
    0 < x →
    r = some s →
    s.scale = 0 →
    Conversion x r (.error (.config reason))
  | refused {reason} :
    (0 < x → ∀ s, r = some s → s.scale ≠ 0) →
    (∀ u, ¬ Amounts x r u) →
    Conversion x r (.error (.invalidAmount reason))

variable {a b units : Decimal} {x : ℚ} {r : Rescale} {u u' : ℕ}

/-- A scale that is not zero is not zero as a number either. -/
lemma toNat_ne_zero (scaled : r.scale ≠ 0) : r.scale.toNat ≠ 0 :=
  fun zero => scaled (UInt64.toNat_inj.1 zero)

/-- An amount that is rescaled is multiplied exactly and then divided, or overflows. -/
lemma rescale_cases (positive : 0 < a.value) (scaled : r.scale ≠ 0)
    (few : r.decimals.toNat ≤ maxScale) :
    (a.value * 10 ^ r.decimals.toNat ≤ limit - 1 ∧
        ∃ b, a.rescale r = .ok b ∧ 0 ≤ b.coefficient ∧ Rounds (unitsOf a.value r) b.value) ∨
      (limit ≤ a.value * 10 ^ r.decimals.toNat ∧ a.rescale r = .error a.overflow) := by
  obtain ⟨p, power, whole, value⟩ := exists_powerOfTen? few
  rw [rescale, if_neg scaled, if_neg (Nat.not_lt.2 few), power]
  obtain ⟨-, b, multiplied, nonneg, -, product⟩ | ⟨large, none⟩ :=
    mul?_power positive whole value few
  · have positive' : 0 < b.value := by
      rw [product]
      positivity
    obtain ⟨c, divided, nonneg', rounds⟩ := divNat?_rounds positive' (toNat_ne_zero scaled)
    refine .inl ⟨product ▸ value_le nonneg, c, ?_, nonneg',
      by rw [unitsOf, ← product]; exact rounds⟩
    simp only [Option.bind_eq_bind, Option.bind_some, multiplied, divided]
  · refine .inr ⟨large, ?_⟩
    simp only [Option.bind_eq_bind, Option.bind_some, none, Option.bind_none]

/-- A value is paid out as no more than one number of units. -/
lemma Amounts.eq {r : Option Rescale} (h : Amounts x r u) (h' : Amounts x r u') : u = u' := by
  cases r with
  | none => exact Nat.cast_injective (h.2.symm.trans h'.2)
  | some r => exact Nat.cast_injective (h.2.2.2.2.eq h'.2.2.2.2)

/-- What is counted from a positive amount is not negative. -/
lemma coefficient_nonneg_of_inUnits {r : Option Rescale} (positive : 0 < a.value)
    (counted : a.inUnits r = .ok units) :
    0 ≤ units.coefficient := by
  cases r with
  | none =>
    cases counted
    exact (coefficient_pos positive).le
  | some r =>
    have ok : a.rescale r = .ok units := counted
    have scaled : r.scale ≠ 0 := by
      intro zero
      rw [rescale, if_pos zero] at ok
      cases ok
    have few : r.decimals.toNat ≤ maxScale := by
      by_contra many
      rw [rescale, if_neg scaled, if_pos (Nat.lt_of_not_le many)] at ok
      cases ok
    obtain ⟨-, b, rescaled, nonneg, -⟩ | ⟨-, overflows⟩ := rescale_cases positive scaled few
    · cases ok.symm.trans rescaled
      exact nonneg
    · cases ok.symm.trans overflows

/-- No amount is too large for 128 bits. -/
lemma toUInt128?_eq (nonneg : 0 ≤ units.coefficient) : units.toUInt128? = some units.wholePart := by
  have small : units.wholePart < 2 ^ 128 :=
    Nat.lt_of_le_of_lt (Nat.div_le_self _ _) (Nat.lt_trans units.coefficient_lt (by decide))
  exact if_neg (not_or.2 ⟨nonneg.not_gt, Nat.not_le.2 small⟩)

section Conversion

variable {r : Option Rescale}

/-- An amount that is not positive is refused. -/
lemma toChainUnits_of_not_pos (notPositive : ¬ 0 < a.value) :
    ∃ reason, a.toChainUnits r = .error (.invalidAmount reason) := by
  have h : a.isPositive = false := Bool.eq_false_iff.2 (mt isPositive_iff.1 notPositive)
  simp only [toChainUnits, h, Bool.not_false, if_true]
  exact ⟨_, rfl⟩

/-- A positive amount that cannot be counted in units is refused with that error. -/
lemma toChainUnits_of_error {e} (positive : 0 < a.value) (counted : a.inUnits r = .error e) :
    a.toChainUnits r = .error e := by
  simp only [toChainUnits, isPositive_iff.2 positive, Bool.not_true, Bool.false_eq_true,
    if_false, counted]
  rfl

/-- What was counted is paid out if it is whole. -/
lemma toChainUnits_of_ok (positive : 0 < a.value) (counted : a.inUnits r = .ok units) :
    (∃ u : ℕ, units.value = u ∧ a.toChainUnits r = .ok u) ∨
      ((∀ u : ℕ, units.value ≠ u) ∧
        ∃ reason, a.toChainUnits r = .error (.invalidAmount reason)) := by
  have nonneg := coefficient_nonneg_of_inUnits positive counted
  simp only [toChainUnits, isPositive_iff.2 positive, Bool.not_true, Bool.false_eq_true,
    if_false, counted, Bind.bind, Except.bind]
  cases whole : units.isWhole with
  | true =>
    refine .inl ⟨units.wholePart, (whole_iff nonneg).1 ⟨whole, rfl⟩, ?_⟩
    simp only [Bool.not_true, Bool.false_eq_true, if_false, toUInt128?_eq nonneg]
    rfl
  | false =>
    refine .inr ⟨fun u value => ?_, ?_⟩
    · cases whole.symm.trans ((whole_iff nonneg).2 value).1
    · simp only [Bool.not_false, if_true]
      exact ⟨_, rfl⟩

/-- An amount that is rescaled is refused where it overflows, and where its units are not whole. -/
lemma conversion_of_rescaled {r : Rescale} (positive : 0 < a.value) (scaled : r.scale ≠ 0) :
    Conversion a.value (some r) (a.toChainUnits (some r)) := by
  have notZero : 0 < a.value → ∀ s, some r = some s → s.scale ≠ 0 := by
    rintro - _ ⟨⟩
    exact scaled
  by_cases few : r.decimals.toNat ≤ maxScale
  case neg =>
    have many : a.inUnits (some r) = .error _ :=
      (if_neg scaled).trans (if_pos (Nat.lt_of_not_le few))
    rw [toChainUnits_of_error positive many]
    exact .refused notZero fun u amounts => few amounts.2.2.1
  case pos =>
    obtain ⟨fits, b, counted, -, rounds⟩ | ⟨large, overflows⟩ := rescale_cases positive scaled few
    · obtain ⟨u, whole, converted⟩ | ⟨notWhole, reason, failed⟩ :=
        toChainUnits_of_ok (r := some r) positive counted
      · rw [converted]
        exact .converted ⟨positive, scaled, few, by linarith, whole ▸ rounds⟩
      · rw [failed]
        exact .refused notZero fun u amounts => notWhole u (rounds.eq amounts.2.2.2.2)
    · rw [toChainUnits_of_error (r := some r) positive overflows]
      exact .refused notZero fun u amounts => absurd amounts.2.2.2.1 (not_lt.2 large)

/-- What becomes of an amount is a matter of its value. -/
lemma conversion (a : Decimal) (r : Option Rescale) : Conversion a.value r (a.toChainUnits r) := by
  by_cases positive : 0 < a.value
  case neg =>
    obtain ⟨reason, failed⟩ := toChainUnits_of_not_pos (r := r) positive
    rw [failed]
    refine .refused (absurd · positive) fun u amounts => ?_
    cases r with
    | none => exact positive amounts.1
    | some r => exact positive amounts.1
  case pos =>
    cases r with
    | none =>
      obtain ⟨u, whole, converted⟩ | ⟨notWhole, reason, failed⟩ :=
        toChainUnits_of_ok (r := none) positive rfl
      · rw [converted]
        exact .converted ⟨positive, whole⟩
      · rw [failed]
        exact .refused nofun fun u amounts => notWhole u amounts.2
    | some r =>
      by_cases zero : r.scale = 0
      · rw [toChainUnits_of_error (r := some r) positive (if_pos zero)]
        exact .unscaled positive rfl zero
      · exact conversion_of_rescaled positive zero

/-- An amount is converted to the units that its value amounts to. -/
lemma toChainUnits_eq_ok_iff : a.toChainUnits r = .ok u ↔ Amounts a.value r u := by
  have h := conversion a r
  generalize a.toChainUnits r = result at h
  cases h with
  | converted amounts =>
    exact ⟨fun same => by cases same; exact amounts, fun other => by rw [amounts.eq other]⟩
  | @unscaled s _ positive scale zero =>
    refine ⟨nofun, fun amounts => ?_⟩
    rw [scale] at amounts
    exact absurd zero amounts.2.1
  | refused _ none => exact ⟨nofun, fun amounts => absurd amounts (none u)⟩

end Conversion

section Exact

/-- A positive value is a positive number of units. -/
lemma unitsOf_pos (positive : 0 < x) (scaled : r.scale ≠ 0) : 0 < unitsOf x r := by
  have scale : 0 < r.scale.toNat := Nat.pos_of_ne_zero (toNat_ne_zero scaled)
  unfold unitsOf
  positivity

/-- The units of a value are whole if the scale takes them out of the power of ten. -/
lemma unitsOf_eq_iff (scaled : r.scale ≠ 0) :
    unitsOf x r = u ↔ (u : ℚ) * r.scale.toNat = x * 10 ^ r.decimals.toNat := by
  rw [unitsOf, div_eq_iff (Nat.cast_ne_zero.2 (toNat_ne_zero scaled)), eq_comm]

/-- By a scale that is a power of ten, no greater than that of the token's unit, units keep the
digits of the amount. -/
lemma rounds_of_power {k : ℕ} (positive : 0 < a.value) (less : k ≤ r.decimals.toNat)
    (power : r.scale.toNat = 10 ^ k) (fits : a.value * 10 ^ r.decimals.toNat < limit) :
    Rounds (unitsOf a.value r) (unitsOf a.value r) := by
  obtain ⟨e, decimals⟩ := Nat.exists_eq_add_of_le less
  have units : unitsOf a.value r = (a.coefficient.natAbs * 10 ^ e : ℕ) / 10 ^ a.scale := by
    rw [unitsOf, power, decimals, value_eq (coefficient_pos positive).le, pow_add]
    push_cast
    field_simp
  by_cases few : e ≤ a.scale
  · rw [shortened_div few] at units
    exact rounds_self a.coefficient_lt (Nat.le_trans (Nat.sub_le _ _) a.scale_le) units
  · obtain ⟨f, more⟩ := Nat.exists_eq_add_of_le (Nat.le_of_not_le few)
    have whole : unitsOf a.value r = (a.coefficient.natAbs * 10 ^ f : ℕ) / 10 ^ 0 := by
      rw [units, more, pow_add]
      push_cast
      field_simp
    have le : unitsOf a.value r ≤ a.value * 10 ^ r.decimals.toNat := by
      refine div_le_self (by positivity) ?_
      rw [power]
      exact_mod_cast Nat.one_le_pow _ _ (by decide)
    have small : a.coefficient.natAbs * 10 ^ f < limit := by
      have h := le.trans_lt fits
      rw [whole, pow_zero, div_one] at h
      exact_mod_cast h
    exact rounds_self small (Nat.zero_le _) whole

end Exact

/-- **What is accepted is rounded.** An amount that is not rescaled is accepted as so many units if
and only if it is that number. An amount that is rescaled is accepted if and only if it can be
scaled without overflow and its units, rounded to the places for which there is room, come to a
whole number. That number is exact, and then not zero, if and only if the units can be written in
these places, that is, are rounded to themselves. They can whenever the scale is a power of ten that
divides the token's unit. -/
theorem units_of_accepted (amount : Decimal) (u : ℕ) :
    (amount.toChainUnits none = .ok u ↔ 1 ≤ u ∧ (u : ℚ) = amount.value) ∧
      ∀ r : Rescale,
        (amount.toChainUnits (some r) = .ok u ↔ Amounts amount.value (some r) u) ∧
          (amount.toChainUnits (some r) = .ok u →
            ((u : ℚ) * r.scale.toNat = amount.value * 10 ^ r.decimals.toNat ↔
                Rounds (unitsOf amount.value r) (unitsOf amount.value r)) ∧
              (Rounds (unitsOf amount.value r) (unitsOf amount.value r) → 1 ≤ u) ∧
              ((∃ k ≤ r.decimals.toNat, r.scale.toNat = 10 ^ k) →
                Rounds (unitsOf amount.value r) (unitsOf amount.value r))) := by
  refine ⟨toChainUnits_eq_ok_iff.trans ⟨fun h => ?_, fun h => ?_⟩,
    fun r => ⟨toChainUnits_eq_ok_iff, fun ok => ?_⟩⟩
  · obtain ⟨positive, whole⟩ := h
    rw [whole] at positive
    exact ⟨Nat.cast_pos.1 positive, whole.symm⟩
  · obtain ⟨positive, whole⟩ := h
    rw [← whole]
    exact ⟨Nat.cast_pos.2 positive, rfl⟩
  · obtain ⟨positive, scaled, few, fits, rounds⟩ := toChainUnits_eq_ok_iff.1 ok
    rw [← unitsOf_eq_iff scaled]
    refine ⟨⟨fun exact => by rwa [← exact] at rounds, fun self => self.eq rounds⟩,
      fun self => ?_, ?_⟩
    · have units := unitsOf_pos positive scaled
      rw [self.eq rounds] at units
      exact Nat.cast_pos.1 units
    · rintro ⟨k, less, power⟩
      exact rounds_of_power positive less power fits

/-- A hundred at a scale of a hundred and with six decimals is paid out as a million units. -/
theorem units_of_accepted_hundred :
    (ofUInt64 100).toChainUnits (some ⟨100, 6⟩) = .ok 1000000 ∧
      ((1000000 : ℕ) : ℚ) * (100 : UInt64).toNat =
        (ofUInt64 100).value * 10 ^ (6 : UInt8).toNat := by
  have accepted : (ofUInt64 100).toChainUnits (some ⟨100, 6⟩) = .ok 1000000 := rfl
  obtain ⟨exact, -, power⟩ := ((units_of_accepted (ofUInt64 100) 1000000).2 ⟨100, 6⟩).2 accepted
  exact ⟨accepted, exact.2 (power ⟨2, by decide, rfl⟩)⟩

/-- An accepted amount need not be its units: the least amount there is, in hundredths of a token
without decimals, is accepted as no unit at all. -/
theorem least_accepted_as_nothing :
    ¬ ∀ (amount : Decimal) (r : Rescale) (u : ℕ), amount.toChainUnits (some r) = .ok u →
      1 ≤ u ∧ (u : ℚ) * r.scale.toNat = amount.value * 10 ^ r.decimals.toNat := by
  intro exact
  have accepted : toChainUnits ⟨1, 28, by decide, by decide⟩ (some ⟨100, 0⟩) = .ok 0 := by
    decide +kernel
  exact absurd (exact _ _ _ accepted).1 (by decide)

/-- **What is exact is accepted.** A positive amount that comes to a whole number of units is
converted to it, as long as it can be scaled without overflow; if it cannot, it is refused for
that. A whole amount that is not rescaled is its own number of units. Whatever was counted fits
128 bits. -/
theorem units_of_exact (amount : Decimal) (positive : 0 < amount.value) :
    (∀ r : Rescale, r.scale ≠ 0 → r.decimals.toNat ≤ 28 →
        (∀ u : ℕ, amount.value * 10 ^ r.decimals.toNat ≤ 2 ^ 96 - 1 →
            amount.value * 10 ^ r.decimals.toNat / r.scale.toNat = u →
              amount.toChainUnits (some r) = .ok u) ∧
          (2 ^ 96 - 1 < amount.value * 10 ^ r.decimals.toNat →
            amount.toChainUnits (some r) = .error amount.overflow)) ∧
      (∀ u : ℕ, amount.value = u → amount.toChainUnits none = .ok u) ∧
      ∀ r units, amount.inUnits r = .ok units → units.toUInt128? = some units.wholePart := by
  refine ⟨fun r scaled few => ⟨fun u fits whole => ?_, fun large => ?_⟩, fun u whole => ?_,
    fun r units counted => ?_⟩
  · have less : amount.value * 10 ^ r.decimals.toNat < limit := by
      norm_num [limit]
      linarith
    have small : u < limit := by
      have le : (u : ℚ) ≤ amount.value * 10 ^ r.decimals.toNat := by
        rw [← whole]
        exact div_le_self (by positivity)
          (by exact_mod_cast Nat.pos_of_ne_zero (toNat_ne_zero scaled))
      exact_mod_cast le.trans_lt less
    -- A number of units that can be written rounds to itself.
    have self : Rounds (unitsOf amount.value r) (unitsOf amount.value r) :=
      rounds_self small (Nat.zero_le _) (by rw [unitsOf, whole, pow_zero, div_one])
    exact toChainUnits_eq_ok_iff.2 ⟨positive, scaled, few, less, whole ▸ self⟩
  · obtain ⟨fits, -⟩ | ⟨-, overflows⟩ := rescale_cases positive scaled few
    · norm_num [limit] at fits
      linarith
    · exact toChainUnits_of_error (r := some r) positive overflows
  · exact toChainUnits_eq_ok_iff.2 ⟨positive, whole⟩
  · exact toUInt128?_eq (coefficient_nonneg_of_inUnits positive counted)

/-- A hundred is positive, and its units can be written. -/
theorem units_of_exact_hundred :
    0 < (ofUInt64 100).value ∧ (ofUInt64 100).toChainUnits (some ⟨100, 6⟩) = .ok 1000000 := by
  have value : (ofUInt64 100).value = (100 : ℕ) := value_ofUInt64 rfl
  have positive : 0 < (ofUInt64 100).value := by
    rw [value]
    norm_num
  refine ⟨positive, ((units_of_exact _ positive).1 ⟨100, 6⟩ (by decide) (by decide)).1 1000000 ?_
    ?_⟩
  · rw [value]
    change ((100 : ℕ) : ℚ) * 10 ^ 6 ≤ 2 ^ 96 - 1
    norm_num
  · rw [value]
    change ((100 : ℕ) : ℚ) * 10 ^ 6 / (100 : ℕ) = (1000000 : ℕ)
    norm_num

/-- **Units are a matter of value.** Amounts of one value, written with whatever places, are both
converted to the same number of units or both refused for the same kind of reason. -/
theorem units_eq_of_value_eq {a b : Decimal} (same : a.value = b.value) (r : Option Rescale) :
    (∃ u, a.toChainUnits r = .ok u ∧ b.toChainUnits r = .ok u) ∨
      ∃ e e', a.toChainUnits r = .error e ∧ b.toChainUnits r = .error e' ∧ e.kind = e'.kind := by
  have first := conversion a r
  have second := conversion b r
  -- What becomes of an amount is told by its value, so both have the same choice.
  rw [← same] at second
  generalize a.toChainUnits r = result at first
  generalize b.toChainUnits r = result' at second
  cases first with
  | @converted u amounts =>
    cases second with
    | converted amounts' => exact .inl ⟨u, rfl, by rw [amounts.eq amounts']⟩
    | unscaled _ set zero =>
      rw [set] at amounts
      exact absurd zero amounts.2.1
    | refused _ none => exact absurd amounts (none u)
  | unscaled positive set zero =>
    cases second with
    | converted amounts =>
      rw [set] at amounts
      exact absurd zero amounts.2.1
    | unscaled => exact .inr ⟨_, _, rfl, rfl, rfl⟩
    | refused scaled => exact absurd zero (scaled positive _ set)
  | refused scaled none =>
    cases second with
    | converted amounts => exact absurd amounts (none _)
    | unscaled positive set zero => exact absurd zero (scaled positive _ set)
    | refused => exact .inr ⟨_, _, rfl, rfl, rfl⟩

/-- A hundred and a hundred with two places are paid out alike. -/
theorem units_eq_of_value_eq_hundred :
    (ofUInt64 100).value = value ⟨10000, 2, by decide, by decide⟩ ∧
      ∃ u, (ofUInt64 100).toChainUnits (some ⟨100, 6⟩) = .ok u ∧
        toChainUnits ⟨10000, 2, by decide, by decide⟩ (some ⟨100, 6⟩) = .ok u := by
  have same : (ofUInt64 100).value = value ⟨10000, 2, by decide, by decide⟩ :=
    (value_ofUInt64 (m := 100) rfl).trans (by norm_num [value])
  obtain converted | ⟨e, e', refused, -⟩ := units_eq_of_value_eq same (some ⟨100, 6⟩)
  · exact ⟨same, converted⟩
  · cases (rfl : (ofUInt64 100).toChainUnits (some ⟨100, 6⟩) = .ok 1000000).symm.trans refused

end Payout.Decimal
