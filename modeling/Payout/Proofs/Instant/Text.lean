import Payout.Instant.Reader
import Payout.Proofs.Text.Digits

/-!
# Instants in text

Every instant is read back from its text (`ofText?_text`), years of more than four digits and leap
seconds included. The reader is told by widths where a number ends, and by the sign where a year
does not.
-/

namespace Payout.Instant

section Numbers

variable {w n : Nat} {digits rest : List Char}

/-- A number is read off as many leading digits as its width allows. -/
lemma readNumber?_append (notEmpty : digits ≠ [])
    (leading : ((digits ++ rest).takeWhile Char.isDigit).take w = digits) :
    readNumber? w (digits ++ rest) = some (Nat.ofDigitChars 10 digits 0, rest) := by
  have some : ¬ digits.isEmpty = true := by simp [notEmpty]
  unfold readNumber?
  simp only [leading]
  rw [if_neg some, List.drop_left]
  rfl

/-- A padded number consists of digits. -/
lemma isDigit_of_mem_number {c : Char} (h : c ∈ padded w n) : c.isDigit = true :=
  Text.isDigit_of_mem_padded h

/-- A padded number has a digit. -/
lemma padded_ne_nil : padded w n ≠ [] := by
  intro empty
  exact Nat.toDigits_ne_nil (List.append_eq_nil_iff.1 empty).2

/-- A number that is small enough has the width that it is padded to. -/
lemma length_padded (positive : 0 < w) (small : n < 10 ^ w) :
    (padded w n).length = w := by
  have short := (Nat.length_toDigits_le_iff (b := 10) (by decide) positive).2 small
  simp only [padded, List.length_append, List.length_replicate]
  omega

/-- A number of a known width is read, whatever follows it. -/
lemma readNumber?_padded (positive : 0 < w) (small : n < 10 ^ w) :
    readNumber? w (padded w n ++ rest) = some (n, rest) := by
  have leading : ((padded w n ++ rest).takeWhile Char.isDigit).take w = padded w n := by
    rw [List.takeWhile_append_of_pos fun c => isDigit_of_mem_number]
    exact List.take_left' (length_padded positive small)
  rw [readNumber?_append padded_ne_nil leading]
  simp only [padded, Text.ofDigitChars_padded]

/-- A number of any width is read up to what is no digit. -/
lemma readNumber?_until {c : Char} (stop : c.isDigit = false) {bound : Nat}
    (room : (padded w n).length ≤ bound) :
    readNumber? bound (padded w n ++ c :: rest) = some (n, c :: rest) := by
  have leading : ((padded w n ++ c :: rest).takeWhile Char.isDigit).take bound =
      padded w n := by
    rw [List.takeWhile_append_of_pos fun c => isDigit_of_mem_number, List.takeWhile_cons, stop]
    simp only [Bool.false_eq_true, if_false, List.append_nil]
    exact List.take_of_length_le room
  rw [readNumber?_append padded_ne_nil leading]
  simp only [padded, Text.ofDigitChars_padded]

/-- No digit is a blank. -/
lemma isBlank_of_isDigit {c : Char} (h : c.isDigit = true) : Text.isBlank c = false := by
  have range := Text.toNat_of_isDigit h
  simp only [Text.isBlank, decide_eq_false_iff_not]
  omega

/-- A text that starts with a number starts with no blank. -/
lemma trimStart_padded : Text.trimStart (padded w n ++ rest) = padded w n ++ rest := by
  obtain ⟨c, more, digits⟩ := List.exists_cons_of_ne_nil (padded_ne_nil (w := w) (n := n))
  have digit : c.isDigit = true := isDigit_of_mem_number (w := w) (n := n) (by simp [digits])
  rw [digits, List.cons_append, Text.trimStart, List.dropWhile_cons_of_neg]
  simp [isBlank_of_isDigit digit]

/-- A field of two digits is read back. -/
lemma readField?_padded (small : n < 100) : readField? 2 (padded 2 n ++ rest) = some (n, rest) := by
  rw [readField?, trimStart_padded]
  exact readNumber?_padded (by decide) small

end Numbers

/-- A year is read back up to the dash behind it, with its sign if it has one. -/
lemma readYear?_yearText (year : Int) (rest : List Char) :
    readYear? (yearText year ++ '-' :: rest) = some (year, '-' :: rest) := by
  -- Years of four digits are written without a sign, and all others with one.
  by_cases plain : 0 ≤ year ∧ year ≤ 9999
  · have same : (year.toNat : Int) = year := Int.toNat_of_nonneg plain.1
    have read : readNumber? 4 (padded 4 year.toNat ++ '-' :: rest) =
        some (year.toNat, '-' :: rest) :=
      readNumber?_padded (by decide) (by omega)
    obtain ⟨c, more, digits⟩ := List.exists_cons_of_ne_nil
      (padded_ne_nil (w := 4) (n := year.toNat))
    have digit : c.isDigit = true :=
      isDigit_of_mem_number (w := 4) (n := year.toNat) (by simp [digits])
    rw [yearText, if_pos plain, readYear?, trimStart_padded]
    rw [digits, List.cons_append] at read ⊢
    split
    case h_1 minus =>
      rw [(List.cons.inj minus).1] at digit
      cases digit
    case h_2 plus =>
      rw [(List.cons.inj plus).1] at digit
      cases digit
    case h_3 =>
      rw [read]
      simp [same]
  · have read (bound : Nat) (room : (padded 4 year.natAbs).length ≤ bound) :
        readNumber? bound (padded 4 year.natAbs ++ '-' :: rest) = some (year.natAbs, '-' :: rest) :=
      readNumber?_until rfl room
    have room : (padded 4 year.natAbs).length ≤ (padded 4 year.natAbs ++ '-' :: rest).length := by
      simp
    rw [yearText, if_neg plain]
    by_cases negative : year < 0
    · have first : Text.trimStart ('-' :: (padded 4 year.natAbs ++ '-' :: rest)) =
          '-' :: (padded 4 year.natAbs ++ '-' :: rest) := rfl
      rw [if_pos negative, List.cons_append, readYear?, first]
      simp only [read _ room, Option.map_eq_map, Option.map_some]
      congr 2
      omega
    · have first : Text.trimStart ('+' :: (padded 4 year.natAbs ++ '-' :: rest)) =
          '+' :: (padded 4 year.natAbs ++ '-' :: rest) := rfl
      rw [if_neg negative, List.cons_append, readYear?, first]
      simp only [read _ room, Option.map_eq_map, Option.map_some]
      congr 2
      omega

/-- A mark that stands where it is expected is passed over. -/
lemma readMark?_same {mark : Char} {rest : List Char} (visible : Text.isBlank mark = false) :
    readMark? mark (mark :: rest) = some rest := by
  have first : Text.trimStart (mark :: rest) = mark :: rest := by
    rw [Text.trimStart, List.dropWhile_cons_of_neg]
    simp [visible]
  rw [readMark?, first]
  exact if_pos rfl

section Fractions

variable {w m nano : Nat}

/-- A fraction is read in nanoseconds, whatever number of digits it has. -/
lemma readFraction?_digits (positive : 0 < w) (short : w ≤ 9) (small : m < 10 ^ w) :
    readFraction? ('.' :: (padded w m ++ ['Z'])) = some (m * 10 ^ (9 - w), ['Z']) := by
  have length := length_padded positive small
  have read : readNumber? 9 (padded w m ++ ['Z']) = some (m, ['Z']) :=
    readNumber?_until rfl (by omega)
  have digits : (padded w m ++ ['Z']).takeWhile Char.isDigit = padded w m := by
    rw [List.takeWhile_append_of_pos fun c => isDigit_of_mem_number]
    exact List.append_nil _
  have rest : (padded w m ++ ['Z']).drop w = ['Z'] := List.drop_left' length
  simp only [readFraction?, read, Option.bind_eq_bind, Option.bind_some, digits, length, rest,
    Nat.min_eq_right short]

/-- The fraction of a second is read back in front of the final letter. -/
lemma readFraction?_fractionText (small : nano < 10 ^ 9) :
    readFraction? (fractionText nano ++ ['Z']) = some (nano, ['Z']) := by
  unfold fractionText
  split
  case isTrue zero =>
    rw [zero]
    rfl
  case isFalse =>
    split
    case isTrue millis =>
      have exact : nano / 10 ^ 6 * 10 ^ (9 - 3) = nano := by omega
      rw [List.cons_append, readFraction?_digits (by decide) (by decide) (by omega), exact]
    case isFalse =>
      split
      case isTrue micros =>
        have exact : nano / 10 ^ 3 * 10 ^ (9 - 6) = nano := by omega
        rw [List.cons_append, readFraction?_digits (by decide) (by decide) (by omega), exact]
      case isFalse =>
        rw [List.cons_append, readFraction?_digits (by decide) (by decide) small]
        simp

end Fractions

/-- An instant is made again from its own fields at offset zero. -/
lemma ofLocal?_zero (i : Instant) : ofLocal? i.date i.hour i.minute i.second i.nano 0 = some i := by
  have hour := i.hour_lt
  have minute := i.minute_lt
  have notBefore : ¬ (60 * (i.hour : Int) + i.minute - 0 < 0) := by omega
  have notAfter : ¬ (1440 ≤ 60 * (i.hour : Int) + i.minute - 0) := by omega
  have inDay : ((60 * (i.hour : Int) + i.minute - 0) % 1440).toNat = 60 * i.hour + i.minute := by
    omega
  have hours : (60 * i.hour + i.minute) / 60 = i.hour := by omega
  have minutes : (60 * i.hour + i.minute) % 60 = i.minute := by omega
  simp only [ofLocal?, if_neg notBefore, if_neg notAfter, Option.bind_eq_bind, Option.bind_some,
    inDay, hours, minutes]
  exact dif_pos ⟨hour, minute, i.second_le, i.nano_lt⟩

/-- A date is made again from its own year, month and day. -/
lemma Date.ofParts?_self (d : Date) : Date.ofParts? d.year d.month d.day = some d :=
  dif_pos ⟨d.year_mem, d.month_mem, d.day_mem⟩

/-- An instant is read back from its text. -/
theorem ofText?_text (i : Instant) : ofText? i.text = some i := by
  have month := i.date.month_mem
  have day : i.date.day < 100 := by
    have last := i.date.day_mem.2
    have days : daysInMonth i.date.year i.date.month ≤ 31 := by
      unfold daysInMonth
      split <;> (try split) <;> omega
    omega
  have hour := i.hour_lt
  have minute := i.minute_lt
  have second := i.second_le
  have text : i.text = yearText i.date.year ++ '-' :: (padded 2 i.date.month ++
      '-' :: (padded 2 i.date.day ++ 'T' :: (padded 2 i.hour ++ ':' :: (padded 2 i.minute ++
        ':' :: (padded 2 i.second ++ (fractionText i.nano ++ ['Z'])))))) := by
    simp [Instant.text]
  have offset : readOffset? ['Z'] = some (0, []) := by decide
  have dash : Text.isBlank '-' = false := by decide
  have colon : Text.isBlank ':' = false := by decide
  rw [ofText?, text]
  refine Option.bind_eq_some_iff.2 ⟨_, readYear?_yearText _ _, ?_⟩
  refine Option.bind_eq_some_iff.2 ⟨_, readMark?_same dash, ?_⟩
  refine Option.bind_eq_some_iff.2 ⟨_, readField?_padded (by omega), ?_⟩
  refine Option.bind_eq_some_iff.2 ⟨_, readMark?_same dash, ?_⟩
  refine Option.bind_eq_some_iff.2 ⟨_, readField?_padded day, ?_⟩
  -- The mark between date and time is there.
  refine Option.bind_eq_some_iff.2 ⟨_, readField?_padded (by omega), ?_⟩
  refine Option.bind_eq_some_iff.2 ⟨_, readMark?_same colon, ?_⟩
  refine Option.bind_eq_some_iff.2 ⟨_, readField?_padded (by omega), ?_⟩
  refine Option.bind_eq_some_iff.2 ⟨_, readMark?_same colon, ?_⟩
  refine Option.bind_eq_some_iff.2 ⟨_, readField?_padded (by omega), ?_⟩
  refine Option.bind_eq_some_iff.2 ⟨_, readFraction?_fractionText i.nano_lt, ?_⟩
  refine Option.bind_eq_some_iff.2 ⟨_, offset, ?_⟩
  refine Option.bind_eq_some_iff.2 ⟨_, Date.ofParts?_self _, ?_⟩
  exact (if_pos ⟨hour, minute, rfl⟩).trans (ofLocal?_zero i)

end Payout.Instant
