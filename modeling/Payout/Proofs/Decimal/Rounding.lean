import Mathlib.Algebra.Order.Ring.Abs
import Mathlib.Data.Nat.Find
import Payout.Proofs.Decimal.Value

/-!
# Rounding to the places there are

What it means that an amount is a number rounded to as many decimal places as there is room for
(`Rounds`): its coefficient is the whole number nearest to that number, moved by as many places as
possible, of two the even one. There is one such value, and it is the number itself if that can be
written.
-/

namespace Payout.Decimal

/-- The whole number that is nearest to a number, of two the even one. -/
def Nearest (x : ℚ) (n : ℕ) : Prop := |x - n| < 1 / 2 ∨ |x - n| = 1 / 2 ∧ Even n

/-- The most decimal places for which there is room when a number is rounded to them. -/
def places (x : ℚ) : ℕ := Nat.findGreatest (fun p => x * 10 ^ p < limit - 1 / 2) maxScale

/-- A value is a number rounded to the places for which there is room. -/
def Rounds (x y : ℚ) : Prop := ∃ n : ℕ, Nearest (x * 10 ^ places x) n ∧ y = n / 10 ^ places x

variable {x y y' : ℚ} {m n p scale : ℕ}

section Nearest

/-- The nearest whole number is no more than one half away. -/
lemma Nearest.le (h : Nearest x n) : |x - n| ≤ 1 / 2 := by
  obtain near | ⟨half, -⟩ := h
  · exact near.le
  · exact half.le

/-- Of two neighbours one is odd. -/
lemma Nearest.not_lt (hm : Nearest x m) (hn : Nearest x n) : ¬ m < n := by
  intro less
  have below := (abs_le.1 hm.le).2
  have above := (abs_le.1 hn.le).1
  have step : (m : ℚ) + 1 ≤ n := by exact_mod_cast less
  have next : n = m + 1 := by
    have close : (n : ℚ) ≤ m + 1 := by linarith
    have close' : n ≤ m + 1 := by exact_mod_cast close
    omega
  have middle : x - m = 1 / 2 := by linarith
  obtain near | ⟨-, even⟩ := hm
  · rw [middle] at near
    exact absurd near (by norm_num)
  obtain near | ⟨-, even'⟩ := hn
  · rw [next, Nat.cast_succ, show x - (m + 1) = -(1 / 2) by linarith] at near
    exact absurd near (by norm_num)
  · exact Nat.even_add_one.1 (next ▸ even') even

/-- There is only one nearest whole number. -/
lemma Nearest.eq (hm : Nearest x m) (hn : Nearest x n) : m = n :=
  Nat.le_antisymm (Nat.le_of_not_lt (hn.not_lt hm)) (Nat.le_of_not_lt (hm.not_lt hn))

/-- A whole number is nearest to itself. -/
lemma nearest_self (n : ℕ) : Nearest n n := .inl (by norm_num)

/-- What is rounded to less than an even number is farther from that than a half. -/
lemma lt_sub_half_of_nearest {bound : ℕ} (near : Nearest x n) (fits : n < bound) (less : x < bound)
    (even : Even bound) : x < bound - 1 / 2 := by
  by_contra beyond
  have distance : |x - bound| = bound - x := by rw [abs_sub_comm, abs_of_pos (sub_pos.2 less)]
  have close : bound - x ≤ 1 / 2 := by linarith
  have near' : Nearest x bound := by
    unfold Nearest
    rw [distance]
    exact close.lt_or_eq.imp_right fun half => ⟨half, even⟩
  exact fits.ne (near.eq near')

end Nearest

section Places

/-- As many places as there is room for are among those that are kept. -/
lemma le_places (small : p ≤ maxScale) (room : x * 10 ^ p < limit - 1 / 2) : p ≤ places x :=
  Nat.le_findGreatest small room

/-- Places are as many as there are if one more is too many, or would be beyond the largest number
of them. -/
lemma places_eq (nonneg : 0 ≤ x) (small : p ≤ maxScale) (room : x * 10 ^ p < limit - 1 / 2)
    (full : p = maxScale ∨ (limit : ℚ) - 1 / 2 ≤ x * 10 ^ (p + 1)) : places x = p := by
  refine Nat.findGreatest_eq_iff.2 ⟨small, fun _ => room, fun n more few => ?_⟩
  obtain rfl | full := full
  · omega
  · refine not_lt.2 (full.trans (mul_le_mul_of_nonneg_left ?_ nonneg))
    exact pow_le_pow_right₀ (by norm_num) more

end Places

section Rounds

/-- A number is rounded to one value only. -/
lemma Rounds.eq (h : Rounds x y) (h' : Rounds x y') : y = y' := by
  obtain ⟨n, near, rfl⟩ := h
  obtain ⟨n', near', rfl⟩ := h'
  rw [near.eq near']

/-- What can be written is rounded to itself. -/
lemma rounds_self (small : m < limit) (few : scale ≤ maxScale) (exact : x = m / 10 ^ scale) :
    Rounds x x := by
  have moved : x * 10 ^ scale = m := by rw [exact, div_mul_cancel₀ _ (by positivity)]
  have room : x * 10 ^ scale < limit - 1 / 2 := by
    have less : (m : ℚ) + 1 ≤ limit := by exact_mod_cast small
    rw [moved]
    linarith
  obtain ⟨rest, more⟩ := Nat.exists_eq_add_of_le (le_places few room)
  have all : x * 10 ^ places x = (m * 10 ^ rest : ℕ) := by
    rw [more, pow_add, ← mul_assoc, moved]
    push_cast
    rfl
  refine ⟨m * 10 ^ rest, all ▸ nearest_self _, ?_⟩
  rw [← all, mul_div_cancel_right₀ _ (by positivity)]

end Rounds

end Payout.Decimal
