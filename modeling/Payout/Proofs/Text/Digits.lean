import Mathlib.Tactic.Lemma
import Payout.Text.Number

/-!
# Digits

What every reader of numbers needs to know about the digits that a number is written in: there is
one, they are digits, the first is zero only for zero, and read from the left they give the number
back.
-/

namespace Payout.Text

/-- A digit is a character from zero to nine. -/
lemma isDigit_iff {c : Char} : c.isDigit = true ↔ '0' ≤ c ∧ c ≤ '9' := by
  simp only [Char.isDigit, Bool.and_eq_true, decide_eq_true_eq]
  exact Iff.rfl

/-- The code of a digit is one of the ten from 48 on. -/
lemma toNat_of_isDigit {c : Char} (h : c.isDigit = true) : 48 ≤ c.toNat ∧ c.toNat ≤ 57 := by
  simp only [Char.isDigit, Bool.and_eq_true, decide_eq_true_eq] at h
  exact h

/-- A digit of value zero is zero. -/
lemma eq_zero_of_isDigit {c : Char} (h : c.isDigit = true) (zero : c.toNat - 48 = 0) : c = '0' := by
  have range := toNat_of_isDigit h
  apply Char.toNat_inj.1
  have value : '0'.toNat = 48 := rfl
  omega

/-- A number is written in digits. -/
lemma isDigit_of_mem {n : Nat} {c : Char} (h : c ∈ Nat.toDigits 10 n) : c.isDigit = true :=
  Nat.isDigit_of_mem_toDigits (by decide) (by decide) h

/-- Reading one more digit multiplies what was read by ten and adds the digit. -/
lemma ofDigitChars_next (c : Char) (digits : List Char) (n : Nat) :
    Nat.ofDigitChars 10 (c :: digits) n = Nat.ofDigitChars 10 digits (10 * n + (c.toNat - 48)) :=
  Nat.ofDigitChars_cons

/-- Digits on the right only make a number greater. -/
lemma le_ofDigitChars (n : Nat) (digits : List Char) : n ≤ Nat.ofDigitChars 10 digits n := by
  induction digits generalizing n with
  | nil => exact Nat.le_refl n
  | cons c digits ih =>
    rw [ofDigitChars_next]
    have rest := ih (10 * n + (c.toNat - 48))
    omega

/-- Only zero is written with a zero in front. -/
lemma head_toDigits {n : Nat} (h : (Nat.toDigits 10 n).head? = some '0') : n = 0 := by
  induction n using Nat.strongRecOn with
  | ind n ih =>
    rw [Nat.toDigits_eq_if (by decide)] at h
    split at h
    case isTrue small =>
      have zero : n.digitChar = '0' := Option.some.inj h
      have value := Nat.toNat_digitChar_sub_48_of_lt_ten small
      rw [zero] at value
      exact value.symm
    case isFalse large =>
      obtain ⟨c, cs, cons⟩ :=
        List.exists_cons_of_ne_nil (Nat.toDigits_ne_nil (n := n / 10) (b := 10))
      rw [cons] at h
      have first : (Nat.toDigits 10 (n / 10)).head? = some '0' := by
        rw [cons]
        exact h
      have zero := ih (n / 10) (by omega) first
      omega

section Padding

variable {zeros n : Nat} {c : Char}

/-- Zeros put in front of a number leave it written in digits. -/
lemma isDigit_of_mem_padded (h : c ∈ List.replicate zeros '0' ++ Nat.toDigits 10 n) :
    c.isDigit = true := by
  rcases List.mem_append.1 h with zero | digit
  · rw [List.eq_of_mem_replicate zero]
    rfl
  · exact isDigit_of_mem digit

/-- Zeros on the left change no number. -/
lemma ofDigitChars_padded :
    Nat.ofDigitChars 10 (List.replicate zeros '0' ++ Nat.toDigits 10 n) 0 = n := by
  rw [Nat.ofDigitChars_append, Nat.ofDigitChars_replicate_zero, Nat.mul_zero,
    Nat.ofDigitChars_ten_toDigits]

end Padding

end Payout.Text
