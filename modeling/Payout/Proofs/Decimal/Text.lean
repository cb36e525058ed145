import Payout.Decimal.Reader
import Payout.Proofs.Text.Digits

/-!
# Amounts in text

Every amount is read back from its text with all of its decimal places (`ofText?_text`). No digit is
rounded away, since what is read before the last digit is no greater than the coefficient.
-/

namespace Payout.Decimal

section Digits

variable {m scale : Nat} {seen : Bool} {digits rest : List Char}

/-- A decimal digit has the value of its place after zero. -/
lemma digitValue?_of_isDigit {c : Char} (h : c.isDigit = true) :
    digitValue? c = some (c.toNat - 48) :=
  if_pos (Text.isDigit_iff.1 h)

/-- Digits before the point are read into the coefficient as long as it stays in range. -/
lemma readWhole_append (all : ∀ c ∈ digits, c.isDigit = true)
    (small : Nat.ofDigitChars 10 digits m < limit) :
    readWhole m seen (digits ++ rest) =
      readWhole (Nat.ofDigitChars 10 digits m) (seen || !digits.isEmpty) rest := by
  induction digits generalizing m seen with
  | nil => simp
  | cons c digits ih =>
    rw [Text.ofDigitChars_next] at small ⊢
    have fits : 10 * m + (c.toNat - 48) < limit :=
      Nat.lt_of_le_of_lt (Text.le_ofDigitChars _ _) small
    rw [List.cons_append, readWhole, digitValue?_of_isDigit (all c List.mem_cons_self)]
    simp only [if_pos fits]
    rw [ih (fun c h => all c (List.mem_cons_of_mem _ h)) small]
    simp

/-- Digits after the point are read into the coefficient, and each counts as a place. -/
lemma readFraction_digits (all : ∀ c ∈ digits, c.isDigit = true)
    (small : Nat.ofDigitChars 10 digits m < limit) (places : scale + digits.length ≤ maxScale) :
    readFraction m scale true digits =
      some (Nat.ofDigitChars 10 digits m, scale + digits.length) := by
  induction digits generalizing m scale with
  | nil => rfl
  | cons c digits ih =>
    rw [Text.ofDigitChars_next] at small ⊢
    rw [List.length_cons] at places ⊢
    have fits : 10 * m + (c.toNat - 48) < limit :=
      Nat.lt_of_le_of_lt (Text.le_ofDigitChars _ _) small
    have room : ¬ scale = maxScale := by omega
    rw [readFraction, if_neg room, digitValue?_of_isDigit (all c List.mem_cons_self)]
    simp only [if_pos fits]
    rw [ih (fun c h => all c (List.mem_cons_of_mem _ h)) small (by omega)]
    congr 2
    omega

end Digits

/-- A magnitude is written with a digit before the point and all of its places after it. -/
lemma exists_digits (m scale : Nat) :
    ∃ whole fraction : List Char, digitsText m scale =
      whole ++ (if scale = 0 then [] else '.' :: fraction) ∧
      whole ≠ [] ∧ (∀ c ∈ whole, c.isDigit = true) ∧ (∀ c ∈ fraction, c.isDigit = true) ∧
      fraction.length = scale ∧ Nat.ofDigitChars 10 (whole ++ fraction) 0 = m := by
  let digits := List.replicate (scale + 1 - (Nat.toDigits 10 m).length) '0' ++ Nat.toDigits 10 m
  have text : digitsText m scale = if scale = 0 then digits
      else digits.take (digits.length - scale) ++ '.' :: digits.drop (digits.length - scale) := rfl
  have value : Nat.ofDigitChars 10 digits 0 = m := Text.ofDigitChars_padded
  have all : ∀ c ∈ digits, c.isDigit = true := fun c => Text.isDigit_of_mem_padded
  have length : scale < digits.length := by
    simp only [digits, List.length_append, List.length_replicate]
    omega
  clear_value digits
  refine ⟨digits.take (digits.length - scale), digits.drop (digits.length - scale), ?_, ?_,
    fun c h => all c (List.mem_of_mem_take h), fun c h => all c (List.mem_of_mem_drop h), ?_, ?_⟩
  · rw [text]
    split
    case isTrue whole => simp [whole]
    case isFalse => rfl
  · intro empty
    have count := congrArg List.length empty
    rw [List.length_take, List.length_nil] at count
    omega
  · rw [List.length_drop]
    omega
  · rw [List.take_append_drop, value]

/-- The digits of a coefficient with a point among them are read back with its scale. -/
lemma readWhole_digitsText {m scale : Nat} (small : m < limit) (places : scale ≤ maxScale) :
    readWhole 0 false (digitsText m scale) = some (m, scale) := by
  obtain ⟨whole, fraction, text, notEmpty, allWhole, allFraction, length, value⟩ :=
    exists_digits m scale
  rw [Nat.ofDigitChars_append] at value
  have smaller : Nat.ofDigitChars 10 whole 0 < limit := by
    refine Nat.lt_of_le_of_lt ?_ small
    rw [← value]
    exact Text.le_ofDigitChars _ _
  have some : (false || !whole.isEmpty) = true := by simp [notEmpty]
  rw [text, readWhole_append allWhole smaller, some]
  by_cases none : scale = 0
  · rw [if_pos none]
    have empty : fraction = [] := List.length_eq_zero_iff.1 (length.trans none)
    rw [empty] at value
    rw [none, ← value]
    rfl
  · have read : readFraction (Nat.ofDigitChars 10 whole 0) 0 true fraction =
        Option.some (Nat.ofDigitChars 10 fraction (Nat.ofDigitChars 10 whole 0),
          0 + fraction.length) :=
      readFraction_digits allFraction (value.symm ▸ small) (by omega)
    have point : digitValue? '.' = Option.none := by decide
    rw [if_neg none, readWhole, point]
    simp only [if_true]
    rw [read, value, length, Nat.zero_add]

/-- An amount is made again from its sign, its magnitude and its scale. -/
lemma ofParts?_signed (a : Decimal) :
    ofParts? (signed (decide (a.coefficient < 0)) a.coefficient.natAbs) a.scale = some a := by
  have same : signed (decide (a.coefficient < 0)) a.coefficient.natAbs = a.coefficient := by
    unfold signed
    by_cases negative : a.coefficient < 0
    · rw [decide_eq_true negative, if_pos rfl]
      omega
    · rw [decide_eq_false negative, if_neg Bool.false_ne_true]
      omega
  rw [same, ofParts?, dif_pos ⟨a.coefficient_lt, a.scale_le⟩]

/-- A text that starts with a digit has no sign. -/
lemma ofPlain?_digit {c : Char} {more : List Char} (digit : c.isDigit = true) :
    ofPlain? (c :: more) =
      (readWhole 0 false (c :: more)).bind fun p => ofParts? (signed false p.1) p.2 := by
  unfold ofPlain?
  split
  case h_1 negative digits sign =>
    split at sign
    case h_1 minus =>
      rw [(List.cons.inj minus).1] at digit
      cases digit
    case h_2 plus =>
      rw [(List.cons.inj plus).1] at digit
      cases digit
    case h_3 =>
      cases sign
      rfl

/-- An amount is read back from its text by the reader of plain numbers. -/
lemma ofPlain?_text (a : Decimal) : ofPlain? a.text = some a := by
  have read : readWhole 0 false (digitsText a.coefficient.natAbs a.scale) =
      some (a.coefficient.natAbs, a.scale) :=
    readWhole_digitsText a.coefficient_lt a.scale_le
  have same := ofParts?_signed a
  by_cases negative : a.coefficient < 0
  · have text : a.text = '-' :: digitsText a.coefficient.natAbs a.scale := by
      simp [Decimal.text, negative]
    simp only [negative, decide_true] at same
    simp only [ofPlain?, text, read, Option.bind_eq_bind, Option.bind_some, same]
  · have text : a.text = digitsText a.coefficient.natAbs a.scale := by simp [Decimal.text, negative]
    simp only [negative, decide_false] at same
    -- Without a sign the text starts with a digit.
    obtain ⟨whole, fraction, digits, notEmpty, allWhole, -⟩ :=
      exists_digits a.coefficient.natAbs a.scale
    obtain ⟨c, whole, rfl⟩ := List.exists_cons_of_ne_nil notEmpty
    have digit := allWhole c List.mem_cons_self
    rw [digits, List.cons_append] at text read
    rw [text, ofPlain?_digit digit, read]
    exact same

/-- An amount is read back from its text. -/
theorem ofText?_text (a : Decimal) : ofText? a.text = some a := by
  rw [ofText?, ofPlain?_text]
  rfl

end Payout.Decimal
