import Payout.Json.Basic
import Payout.Power

/-!
# JSON numbers

A literal without fraction and exponent is a whole number if it fits 64 bits. Any other is binary64:
the leading digits that fit 64 bits, scaled by a power of ten in one rounded step (two, far below
the range). Minus zero is binary64.
-/

namespace Payout.Json

/-- A number as written: whether negative, its whole digits, its fraction digits if there is a
point, and the exponent if there is one. -/
structure Literal where
  negative : Bool
  whole : List Nat
  fraction : Option (List Nat)
  exponent : Option (Bool × List Nat)

namespace Literal

/-- The bound of unsigned 64-bit numbers. -/
def wordLimit : Nat := 2 ^ 64

/-- Appends digits to a significand as long as it stays within 64 bits; returns it with the digits
left over. -/
def accumulate (significand : Nat) : List Nat → Nat × List Nat
  | [] => (significand, [])
  | d :: rest =>
    if 10 * significand + d < wordLimit then accumulate (10 * significand + d) rest
    else (significand, d :: rest)

/-- A significand times a power of ten; none beyond the range of binary64. -/
def scale : Nat → Binary64 → Int → Option Binary64
  | 0, x, _ => some x
  | fuel + 1, x, exponent =>
    if exponent.natAbs ≤ 308 then do
      let power ← Binary64.ofNat? false (10 ^ exponent.natAbs)
      if 0 ≤ exponent then x.mul? power else x.div? power
    else if x.mantissa = 0 then some x
    else if 0 ≤ exponent then none
    else do
      let power ← Binary64.ofNat? false (10 ^ 308)
      scale fuel (← x.div? power) (exponent + 308)

def toBinary64? (l : Literal) : Option Binary64 := do
  let (significand, dropped) := accumulate 0 l.whole
  let fraction : List Nat := l.fraction.getD []
  let (significand, unread) := accumulate significand fraction
  let shift : Int := (dropped.length : Int) - (fraction.length - unread.length : Nat)
  let unscaled ← Binary64.ofNat? l.negative significand
  match l.exponent with
  | none => scale 3 unscaled shift
  | some (negative, digits) =>
    let exponent : Nat := digits.foldl (fun n d => 10 * n + d) 0
    if exponent < 2 ^ 31 then
      scale 3 unscaled (if negative then shift - (exponent : Int) else shift + (exponent : Int))
    else if significand ≠ 0 ∧ !negative then none
    else some (Binary64.zero l.negative)

def value (l : Literal) : Json :=
  let n := l.whole.foldl (fun n d => 10 * n + d) 0
  let isWhole := l.fraction.isNone ∧ l.exponent.isNone
  if isWhole ∧ !l.negative ∧ n < wordLimit then .integer n
  else if isWhole ∧ l.negative ∧ 0 < n ∧ n ≤ 2 ^ 63 then .integer (-n)
  else match l.toBinary64? with
    | some x => .float x
    | none => .unusable

end Literal

end Payout.Json
