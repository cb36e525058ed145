import Payout.Decimal.Basic

/-!
# Decimal arithmetic

Products and quotients that either fit ninety-six bits, after dropping decimal places, or are
refused. Dropped digits round to nearest, a half to the even coefficient.
-/

namespace Payout.Decimal

/-- The quotient `num / den` to the nearest whole number, a half to the even one; `sticky` tells
that the exact dividend lies a little above `num`. -/
def divRound (num den : Nat) (sticky : Bool) : Nat :=
  let q := num / den
  let r := num % den
  if 2 * r > den ∨ (2 * r = den ∧ (sticky ∨ q % 2 = 1)) then q + 1 else q

/-- The number of binary digits. -/
def bitLength (n : Nat) : Nat := if n = 0 then 0 else n.log2 + 1

/-- How many digits of a product have to go for it to fit ninety-six bits; an estimate from the bit
length, one more when it falls short. -/
def excessDigits (product : Nat) : Nat :=
  let bits := bitLength product
  if bits ≤ 96 then 0
  else
    let k := ((bits - 97) * 77) / 256 + 1
    if product / 10 ^ k < limit then k else k + 1

/-- A coefficient that rounding has taken to the limit gives up one more place. -/
def settle (coefficient scale : Nat) (sticky : Bool) : Option (Nat × Nat) :=
  if coefficient < limit then some (coefficient, scale)
  else if scale = 0 then none
  else some (divRound coefficient 10 sticky, scale - 1)

def signed (negative : Bool) (magnitude : Nat) : Int :=
  if negative then -(magnitude : Int) else magnitude

/-- The product, with as few decimal places dropped as make it fit; none if that takes more places
than there are. -/
def mul? (a b : Decimal) : Option Decimal :=
  if a.coefficient = 0 ∨ b.coefficient = 0 then some zero
  else
    let product := a.coefficient.natAbs * b.coefficient.natAbs
    let scale := a.scale + b.scale
    let k := max (excessDigits product) (scale - maxScale)
    if scale < k then none
    else do
      let (coefficient, scale) ← settle (divRound product (10 ^ k) false) (scale - k) false
      ofParts? (signed (decide (a.coefficient < 0) != decide (b.coefficient < 0)) coefficient) scale

/-- Ten to a power, multiplied one factor after another. -/
def powerOfTen? : Nat → Option Decimal
  | 0 => some (ofUInt64 1)
  | n + 1 => do mul? (← powerOfTen? n) (ofUInt64 10)

/-- The largest step, at most nine digits, by which a quotient can grow without leaving the
range. -/
def growth (quotient scale : Nat) : Nat :=
  ((List.range 10).filter fun x => scale + x ≤ maxScale ∧ quotient * 10 ^ x < limit).foldl max 0

/-- Long division: appends digits to the quotient while there is a remainder and room for them, then
rounds. Returns the quotient and its scale. -/
def longDivide (divisor quotient remainder scale : Nat) : Option (Nat × Nat) :=
  if remainder = 0 then some (quotient, scale)
  else
    let x := growth quotient scale
    if _h : x = 0 ∨ maxScale < scale + x then
      settle (divRound (quotient * divisor + remainder) divisor false) scale true
    else
      let next := remainder * 10 ^ x
      let grown := quotient * 10 ^ x + next / divisor
      if grown < limit then longDivide divisor grown (next % divisor) (scale + x)
      else settle grown (scale + x) (next % divisor != 0)
termination_by maxScale - scale
decreasing_by omega

/-- Takes `10 ^ k` out of a coefficient once, if it divides and the scale allows. -/
def trimStep (k : Nat) (x : Nat × Nat) : Nat × Nat :=
  if x.1 % 2 ^ k = 0 ∧ k ≤ x.2 ∧ x.1 % 10 ^ k = 0 then (x.1 / 10 ^ k, x.2 - k) else x

/-- Takes `10 ^ 8` out of a coefficient as often as its low thirty-two bits are zero. -/
def trimEights : Nat → Nat × Nat → Nat × Nat
  | 0, x => x
  | fuel + 1, x =>
    if x.1 % 2 ^ 32 = 0 ∧ 8 ≤ x.2 ∧ x.1 % 10 ^ 8 = 0 then trimEights fuel (x.1 / 10 ^ 8, x.2 - 8)
    else x

/-- Takes trailing zeros off a quotient in steps of eight, four, two and one; a single pass, so some
may remain. -/
def trim (x : Nat × Nat) : Nat × Nat :=
  trimStep 1 (trimStep 2 (trimStep 4 (trimEights 4 x)))

/-- The quotient by a whole number other than zero, exact when twenty-eight places suffice, else
rounded. -/
def divNat? (a : Decimal) (divisor : Nat) : Option Decimal :=
  if divisor = 0 then none
  else if a.coefficient = 0 then some zero
  else do
    let magnitude := a.coefficient.natAbs
    let start := (magnitude / divisor, a.scale)
    let (coefficient, scale) ←
      if magnitude % divisor = 0 then pure start
      else trim <$> longDivide divisor start.1 (magnitude % divisor) start.2
    ofParts? (signed (a.coefficient < 0) coefficient) scale

/-- The amount without trailing zeros after the point. -/
def normalize (a : Decimal) : Decimal :=
  if a.coefficient = 0 then zero
  else go a.scale a
where
  /-- Drops at most `fuel` zeros. -/
  go : Nat → Decimal → Decimal
    | 0, a => a
    | fuel + 1, a =>
      if a.coefficient % 10 = 0 then
        match ofParts? (a.coefficient / 10) (a.scale - 1) with
        | some b => go fuel b
        | none => a
      else a

end Payout.Decimal
