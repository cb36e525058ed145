import Payout.Asset
import Payout.Proofs.Settings.Validation

/-!
# Spellings of addresses

An address can be spelled with digits of either case, and with or without the mark `0x`. Its digits
in lower case are those that its bytes are written in, so two spellings that are the same up to case
stand for the same bytes; but of two spellings of the same bytes, one may have the mark and the
other not (`sameAddress_iff`).
-/

namespace Payout

namespace Text

/-- Whether a text starts with the mark `0x`. -/
def Marked (text : String) : Prop := ['0', 'x'] <+: text.toList

instance (text : String) : Decidable (Marked text) :=
  inferInstanceAs (Decidable (['0', 'x'] <+: text.toList))

/-- In lower case, a digit is the one that its value is written with. -/
lemma toLower_of_hexValue? {c : Char} {v : Nat} (value : hexValue? c = some v) :
    v < 16 ∧ c.toLower = hexDigit v := by
  have all : ∀ n < 128, ∀ v ∈ hexValue? (Char.ofNat n), v < 16 ∧
      (Char.ofNat n).toLower = hexDigit v := by
    decide +kernel
  have ascii : c.toNat ≤ 127 := toNat_le_of_hexValue? (Option.isSome_of_eq_some value)
  have h := all c.toNat (by omega)
  rw [Char.ofNat_toNat] at h
  exact h v value

/-- Digits in lower case are those that their bytes are written in. -/
lemma map_toLower_of_bytesOfHex? {digits : List Char} {bytes : List UInt8}
    (read : bytesOfHex? digits = some bytes) :
    digits.map Char.toLower = hexOfBytes bytes := by
  induction digits using bytesOfHex?.induct generalizing bytes with
  | case1 =>
    cases read
    rfl
  | case2 => cases read
  | case3 high low rest ih =>
    simp only [bytesOfHex?, Option.bind_eq_bind, Option.bind_eq_some_iff] at read
    obtain ⟨h, highRead, l, lowRead, bytes', restRead, ⟨⟩⟩ := read
    obtain ⟨hSmall, highLower⟩ := toLower_of_hexValue? highRead
    obtain ⟨lSmall, lowLower⟩ := toLower_of_hexValue? lowRead
    have byte : (UInt8.ofNat (16 * h + l)).toNat = 16 * h + l := by
      rw [UInt8.toNat_ofNat', Nat.mod_eq_of_lt (by omega)]
    have pair : hexOfByte (UInt8.ofNat (16 * h + l)) = [hexDigit h, hexDigit l] := by
      rw [hexOfByte, byte, show (16 * h + l) / 16 = h by omega, show (16 * h + l) % 16 = l by omega]
    have written : hexOfBytes (UInt8.ofNat (16 * h + l) :: bytes') =
        hexDigit h :: hexDigit l :: hexOfBytes bytes' := by
      rw [hexOfBytes, List.flatMap_cons, pair]
      rfl
    rw [List.map_cons, List.map_cons, highLower, lowLower, ih restRead, written]

/-- Bytes are told apart by their digits. -/
lemma hexOfBytes_inj {x y : List UInt8} : hexOfBytes x = hexOfBytes y ↔ x = y := by
  refine ⟨fun same => ?_, congrArg _⟩
  have read := congrArg bytesOfHex? same
  rw [bytesOfHex?_hexOfBytes, bytesOfHex?_hexOfBytes] at read
  exact Option.some.inj read

/-- A marked text is the mark and what is left without it. -/
lemma toList_of_marked {text : String} (marked : Marked text) :
    text.toList = '0' :: 'x' :: dropHexMark text.toList := by
  obtain ⟨digits, said⟩ := marked
  rw [← said]
  rfl

/-- A text without the mark stays whole when the mark is dropped. -/
lemma dropHexMark_of_not_marked {text : String} (bare : ¬ Marked text) :
    dropHexMark text.toList = text.toList := by
  unfold dropHexMark
  split
  case h_1 digits said => exact absurd ⟨digits, said.symm⟩ bare
  case h_2 => rfl

end Text

namespace Settings
open Text

variable {f g a b : String}

/-- An address in lower case: the digits of its bytes, after the mark if it has one. -/
lemma lower_of_addressCheck (h : (addressCheck f a).holds = true) :
    ∃ bytes, Text.fixedBytes 20 a = .ok bytes ∧ (hexOfBytes bytes).length = 40 ∧
      (Marked a ∧ a.toList.map Char.toLower = '0' :: 'x' :: hexOfBytes bytes ∨
        ¬ Marked a ∧ a.toList.map Char.toLower = hexOfBytes bytes) := by
  obtain ⟨length, -⟩ : (dropHexMark a.toList).length = 40 ∧ isHex (dropHexMark a.toList) := by
    simpa [addressCheck] using h
  obtain ⟨bytes, digits, read⟩ := fixedBytes_of_addressCheck h
  have lower := map_toLower_of_bytesOfHex? digits
  refine ⟨bytes, read, by rw [← lower, List.length_map, length], ?_⟩
  by_cases marked : Marked a
  · refine .inl ⟨marked, ?_⟩
    rw [toList_of_marked marked, List.map_cons, List.map_cons, lower]
    rfl
  · refine .inr ⟨marked, ?_⟩
    rw [← lower, dropHexMark_of_not_marked marked]

/-- Addresses with the same digits are read as the same bytes. -/
lemma read_eq_of_digits (ha : (addressCheck f a).holds = true)
    (hb : (addressCheck g b).holds = true)
    (same : dropHexMark a.toList = dropHexMark b.toList) : Address.read a = Address.read b := by
  obtain ⟨x, digitsA, readA⟩ := fixedBytes_of_addressCheck ha
  obtain ⟨y, digitsB, readB⟩ := fixedBytes_of_addressCheck hb
  rw [same, digitsB] at digitsA
  rw [Address.read, Address.read, readA, readB, Option.some.inj digitsA]

/-- Two addresses are found to be the same if they stand for the same bytes, and both have the mark
or both do not. -/
lemma sameAddress_iff (ha : (addressCheck f a).holds = true)
    (hb : (addressCheck g b).holds = true) :
    sameAddress a b = true ↔ Address.read a = Address.read b ∧ (Marked a ↔ Marked b) := by
  obtain ⟨x, readA, lengthA, spelledA⟩ := lower_of_addressCheck ha
  obtain ⟨y, readB, lengthB, spelledB⟩ := lower_of_addressCheck hb
  have read : Address.read a = Address.read b ↔ x = y := by
    rw [Address.read, Address.read, readA, readB]
    simp [Functor.map, Except.map]
  rw [sameAddress, decide_eq_true_eq, read, ← hexOfBytes_inj]
  obtain ⟨markedA, lowerA⟩ | ⟨bareA, lowerA⟩ := spelledA <;>
    obtain ⟨markedB, lowerB⟩ | ⟨bareB, lowerB⟩ := spelledB <;> rw [lowerA, lowerB]
  · simp [markedA, markedB]
  · refine iff_of_false (fun same => ?_) fun both => bareB (both.2.1 markedA)
    have length := congrArg List.length same
    simp [lengthA, lengthB] at length
  · refine iff_of_false (fun same => ?_) fun both => bareA (both.2.2 markedB)
    have length := congrArg List.length same
    simp [lengthA, lengthB] at length
  · simp [bareA, bareB]

end Settings

end Payout
