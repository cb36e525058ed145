import Payout.Power

/-!
# Decimal amounts

An amount is a whole coefficient below `2 ^ 96` in magnitude and a number of decimal places, at most
twenty-eight. Places are kept as written, so `1.5` and `1.50` are two amounts of one value. Zero has
no sign.
-/

namespace Payout

/-- The number `coefficient / 10 ^ scale`. -/
structure Decimal where
  coefficient : Int
  scale : Nat
  coefficient_lt : coefficient.natAbs < 2 ^ 96
  scale_le : scale ≤ 28
deriving DecidableEq

namespace Decimal

/-- The bound below which every coefficient lies. -/
def limit : Nat := 2 ^ 96

/-- The largest number of decimal places. -/
def maxScale : Nat := 28

/-- The amount with a given coefficient and scale, if both are in range. -/
def ofParts? (coefficient : Int) (scale : Nat) : Option Decimal :=
  if h : coefficient.natAbs < 2 ^ 96 ∧ scale ≤ 28 then some ⟨coefficient, scale, h.1, h.2⟩ else none

/-- The amount zero, without decimal places. -/
def zero : Decimal := ⟨0, 0, by decide, by decide⟩

/-- A 64-bit number as an amount. -/
def ofUInt64 (n : UInt64) : Decimal :=
  ⟨n.toNat, 0, by have := n.toNat_lt; simp only [Int.natAbs_natCast]; omega, by omega⟩

/-- Whether the amount is greater than zero. -/
def isPositive (a : Decimal) : Bool := 0 < a.coefficient

/-- The digits of a magnitude with `scale` of them after the point. -/
def digitsText (magnitude scale : Nat) : List Char :=
  let digits := Nat.toDigits 10 magnitude
  let padded := List.replicate (scale + 1 - digits.length) '0' ++ digits
  if scale = 0 then padded
  else padded.take (padded.length - scale) ++ '.' :: padded.drop (padded.length - scale)

/-- The amount in digits, with every decimal place it has. -/
def text (a : Decimal) : List Char :=
  (if a.coefficient < 0 then ['-'] else []) ++ digitsText a.coefficient.natAbs a.scale

instance : ToString Decimal := ⟨fun a => String.ofList a.text⟩

/-- Whether the amount has no fractional part. -/
def isWhole (a : Decimal) : Bool := a.coefficient % 10 ^ a.scale = 0

/-- The magnitude of the amount without its fractional part. -/
def wholePart (a : Decimal) : Nat := a.coefficient.natAbs / 10 ^ a.scale

end Decimal

end Payout
