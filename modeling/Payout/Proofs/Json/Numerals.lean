import Payout.Json.Reader
import Payout.Proofs.Text.Digits

/-!
# Whole numbers

Whole numbers of 64 bits are read back from their digits (`readNumber_integerText`), wherever
something follows that no number goes on with.
-/

namespace Payout.Json

/-- A text that no number goes on into. -/
def Delimited (rest : List Char) : Prop :=
  ∀ c more, rest = c :: more → c = ',' ∨ c = '\n' ∨ c = ']' ∨ c = '}'

/-- The whole numbers that are written without fraction and exponent. -/
def Fits (n : Int) : Prop := -2 ^ 63 ≤ n ∧ n < 2 ^ 64

section Digits

variable {digits rest : List Char}

/-- Digits are read up to the first character that no number goes on into. -/
lemma readDigits_append (all : ∀ c ∈ digits, c.isDigit = true) (stop : Delimited rest) :
    readDigits (digits ++ rest) = (digits.map fun c => c.toNat - 48, rest) := by
  induction digits with
  | nil =>
    cases rest with
    | nil => rfl
    | cons c rest =>
      have notDigit : ¬ ('0' ≤ c ∧ c ≤ '9') := by
        rcases stop c rest rfl with rfl | rfl | rfl | rfl <;> decide
      simp only [List.nil_append, readDigits, if_neg notDigit]
      rfl
  | cons c digits ih =>
    have digit := Text.isDigit_iff.1 (all c List.mem_cons_self)
    simp only [List.cons_append, readDigits, if_pos digit,
      ih fun c hc => all c (List.mem_cons_of_mem _ hc)]
    rfl

/-- The values of digits add up to the number that the digits spell. -/
lemma foldl_values (n : Nat) (digits : List Char) :
    (digits.map fun c => c.toNat - 48).foldl (fun n d => 10 * n + d) n =
      Nat.ofDigitChars 10 digits n := by
  rw [List.foldl_map]
  rfl

/-- Nothing but whole digits stands before a delimiter. -/
lemma readFraction_of_delimited (stop : Delimited rest) :
    readFraction rest = some (none, rest) := by
  cases rest with
  | nil => rfl
  | cons c rest => rcases stop c rest rfl with rfl | rfl | rfl | rfl <;> rfl

/-- Where no number goes on, there is no exponent. -/
lemma readExponent_of_delimited (stop : Delimited rest) :
    readExponent rest = some (none, rest) := by
  cases rest with
  | nil => rfl
  | cons c rest => rcases stop c rest rfl with rfl | rfl | rfl | rfl <;> rfl

end Digits

/-- The digits of a number are read as the whole part of a literal. -/
lemma readDigits_toDigits (n : Nat) {rest} (stop : Delimited rest) :
    ∃ whole, readDigits (Nat.toDigits 10 n ++ rest) = (whole, rest) ∧
      whole.foldl (fun n d => 10 * n + d) 0 = n ∧
      ¬ (whole.isEmpty ∨ (whole.head? = some 0 ∧ whole.length ≠ 1)) := by
  refine ⟨_, readDigits_append (fun c => Text.isDigit_of_mem) stop, ?_, ?_⟩
  · rw [foldl_values, Nat.ofDigitChars_ten_toDigits]
  · rintro (empty | ⟨zero, long⟩)
    · simp at empty
    · obtain ⟨c, cs, digits⟩ := List.exists_cons_of_ne_nil (Nat.toDigits_ne_nil (n := n) (b := 10))
      rw [digits] at zero long
      have first : c.toNat - 48 = 0 := Option.some.inj zero
      have isDigit : c.isDigit = true := Text.isDigit_of_mem (n := n) (by simp [digits])
      have none : n = 0 :=
        Text.head_toDigits (by simp [digits, Text.eq_zero_of_isDigit isDigit first])
      subst none
      cases digits
      exact long rfl

/-- A literal without sign, fraction and exponent is a whole number. -/
lemma value_of_nat {whole : List Nat} {n : Nat} (value : whole.foldl (fun n d => 10 * n + d) 0 = n)
    (fits : Fits n) : Literal.value ⟨false, whole, none, none⟩ = .integer n := by
  have small : n < Literal.wordLimit := by
    unfold Literal.wordLimit
    have := fits.2
    omega
  simp [Literal.value, value, small]

/-- A literal with a sign, without fraction and exponent, is a whole number below zero. -/
lemma value_of_negative {whole : List Nat} {n : Nat}
    (value : whole.foldl (fun n d => 10 * n + d) 0 = n) (positive : 0 < n) (fits : Fits (-n)) :
    Literal.value ⟨true, whole, none, none⟩ = .integer (-n) := by
  have small : n ≤ 2 ^ 63 := by
    have := fits.1
    omega
  unfold Literal.value
  dsimp only
  rw [if_neg (by simp), value, if_pos ⟨by simp, rfl, positive, small⟩]

/-- A whole number is read back. -/
lemma readNumber_integerText {n : Int} {rest} (fits : Fits n) (stop : Delimited rest) :
    readNumber (integerText n ++ rest) = some (.integer n, rest) := by
  obtain ⟨whole, digits, value, proper⟩ := readDigits_toDigits n.natAbs stop
  by_cases negative : n < 0
  · have same : n = -(n.natAbs : Int) := by omega
    simp only [readNumber, integerText, negative, if_true, List.cons_append, List.nil_append,
      digits, if_neg proper, readFraction_of_delimited stop, readExponent_of_delimited stop,
      Option.bind_eq_bind, Option.bind_some]
    rw [value_of_negative value (by omega) (same ▸ fits), ← same]
  · have same : n = (n.natAbs : Int) := by omega
    obtain ⟨c, cs, first⟩ :=
      List.exists_cons_of_ne_nil (Nat.toDigits_ne_nil (n := n.natAbs) (b := 10))
    have isDigit : c.isDigit = true := Text.isDigit_of_mem (n := n.natAbs) (by simp [first])
    -- A number that is not negative begins with a digit, and is not taken for a signed one.
    have notSign : c ≠ '-' := by
      rintro rfl
      cases isDigit
    have text : integerText n ++ rest = Nat.toDigits 10 n.natAbs ++ rest := by
      simp [integerText, negative]
    rw [text]
    unfold readNumber
    dsimp only
    split
    case h_1 sign =>
      rw [first] at sign
      exact absurd (List.cons.inj sign).1 notSign
    case h_2 =>
      simp only [digits, if_neg proper, readFraction_of_delimited stop,
        readExponent_of_delimited stop, Option.bind_eq_bind, Option.bind_some]
      rw [value_of_nat value (same ▸ fits), ← same]

end Payout.Json
