import Mathlib.Tactic.Lemma
import Payout.Json.Reader

/-!
# Quoted text

Text survives being quoted: the reader takes back every character that was escaped, and stops at the
closing quote (`readText_quote`).
-/

namespace Payout.Json

section Escapes

variable {c : Char} {rest : List Char}

/-- A character put before units that were read. -/
abbrev prepend (c : Char) (p : List Nat × List Char) : List Nat × List Char := (c.toNat :: p.1, p.2)

/-- A character that needs no escape is read as itself. -/
lemma readUnits_plain (quote : c ≠ '"') (slash : c ≠ '\\') (visible : ¬ c.toNat < 32) :
    readUnits (c :: rest) = (readUnits rest).map (prepend c) := by
  rw [readUnits.eq_def]
  split
  case h_1 h => cases h
  case h_2 h => exact absurd (List.cons.inj h).1 quote
  case h_3 h => exact absurd (List.cons.inj h).1 slash
  case h_4 h => exact absurd (List.cons.inj h).1 slash
  case h_5 h =>
    cases h
    rw [if_neg (by simp [visible, slash])]
    cases readUnits rest <;> rfl

/-- A short escape is read as the character that it stands for. -/
lemma readUnits_short {e : Char} (notCode : e ≠ 'u') (h : unescape? e = some c) :
    readUnits ('\\' :: e :: rest) = (readUnits rest).map (prepend c) := by
  rw [readUnits.eq_def]
  split
  case h_1 h => cases h
  case h_2 h => cases h
  case h_3 h =>
    cases h
    exact absurd rfl notCode
  case h_4 h' =>
    cases h'
    rw [h]
    cases readUnits rest <;> rfl
  case h_5 other h' =>
    cases h'
    exact absurd rfl (other e rest rfl)

/-- The four digits of a code, high digits first. -/
lemma hexOfNat_four (n : Nat) :
    Text.hexOfNat 4 n = [Text.hexDigit (n / 16 / 16 / 16 % 16), Text.hexDigit (n / 16 / 16 % 16),
      Text.hexDigit (n / 16 % 16), Text.hexDigit (n % 16)] := by
  simp [Text.hexOfNat]

/-- The code of a control character is read back. -/
lemma readUnits_code (h : c.toNat < 32) :
    readUnits ('\\' :: 'u' :: Text.hexOfNat 4 c.toNat ++ rest) =
      (readUnits rest).map (prepend c) := by
  have codes : ∀ m : Fin 32,
      unit? (Text.hexDigit (m.val / 16 / 16 / 16 % 16)) (Text.hexDigit (m.val / 16 / 16 % 16))
        (Text.hexDigit (m.val / 16 % 16)) (Text.hexDigit (m.val % 16)) = some m.val := by decide
  have code := codes ⟨c.toNat, h⟩
  simp only [hexOfNat_four, List.cons_append, List.nil_append, readUnits, code, Option.bind_eq_bind,
    Option.bind_some]
  cases readUnits rest <;> rfl

/-- An escaped character is read back. -/
lemma readUnits_escape (c : Char) (rest : List Char) :
    readUnits (escape c ++ rest) = (readUnits rest).map (prepend c) := by
  unfold escape
  split
  case isTrue h => subst h; exact readUnits_short (by decide) rfl
  case isFalse quote =>
    split
    case isTrue h => subst h; exact readUnits_short (by decide) rfl
    case isFalse slash =>
      split
      case isTrue h => subst h; exact readUnits_short (by decide) rfl
      split
      case isTrue h => subst h; exact readUnits_short (by decide) rfl
      split
      case isTrue h => subst h; exact readUnits_short (by decide) rfl
      split
      case isTrue h => subst h; exact readUnits_short (by decide) rfl
      split
      case isTrue h => subst h; exact readUnits_short (by decide) rfl
      split
      case isTrue h => exact readUnits_code h
      case isFalse visible => exact readUnits_plain quote slash visible

end Escapes

/-- Escaped text is read back up to the quote after it. -/
lemma readUnits_flatMap (cs rest : List Char) :
    readUnits (cs.flatMap escape ++ '"' :: rest) = some (cs.map Char.toNat, rest) := by
  induction cs with
  | nil => rfl
  | cons c cs ih =>
    rw [List.flatMap_cons, List.append_assoc, readUnits_escape, ih]
    rfl

/-- A character is no half of a pair. -/
lemma not_half (c : Char) : isHighHalf c.toNat = false ∧ isLowHalf c.toNat = false := by
  have valid := c.valid
  have value : c.toNat = c.val.toNat := rfl
  rw [value]
  simp only [isHighHalf, isLowHalf, decide_eq_false_iff_not]
  rcases valid with small | large
  · constructor <;> omega
  · constructor <;> omega

/-- The code points of characters are joined to them. -/
lemma joinUnits_map (cs : List Char) : joinUnits (cs.map Char.toNat) = some cs := by
  induction cs with
  | nil => rfl
  | cons c cs ih =>
    obtain ⟨notHigh, notLow⟩ := not_half c
    cases cs with
    | nil => simp [joinUnits, notHigh, notLow, Char.ofNat_toNat]
    | cons c' cs =>
      simp only [List.map_cons] at ih ⊢
      simp [joinUnits, notHigh, notLow, ih, Char.ofNat_toNat]

/-- Text that was quoted is read back. -/
lemma readText_quote (s : String) (rest : List Char) :
    readText (s.toList.flatMap escape ++ '"' :: rest) = some (some s, rest) := by
  simp [readText, readUnits_flatMap, joinUnits_map, String.ofList_toList]

end Payout.Json
