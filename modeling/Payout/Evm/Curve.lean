import Payout.Power

/-!
# The signing curve

The curve `y ^ 2 = x ^ 3 + 7` over a prime field, on which private keys have their public points. A
point is given by its coordinates; the point at infinity has none.
-/

namespace Payout.Curve

def fieldSize : Nat := 2 ^ 256 - 2 ^ 32 - 977

/-- The number of points. Private keys lie between zero and it. -/
def order : Nat := 0xFFFFFFFFFFFFFFFFFFFFFFFFFFFFFFFEBAAEDCE6AF48A03BBFD25E8CD0364141

/-- A point by its coordinates. -/
abbrev Point := Option (Nat × Nat)

/-- The point that stands for the key one. -/
def generator : Point := some
  (0x79BE667EF9DCBBAC55A06295CE870B07029BFCDB2DCE28D959F2815B16F81798,
    0x483ADA7726A3C4655DA4FBFC0E1108A8FD17B448A68554199C47D08FFB10D4B8)

/-- A power in the field; `fuel` bounds the number of binary digits of the exponent. -/
def power : Nat → Nat → Nat → Nat
  | 0, _, _ => 1
  | fuel + 1, base, exponent =>
    if exponent = 0 then 1
    else
      let half := power fuel (base * base % fieldSize) (exponent / 2)
      if exponent % 2 = 1 then half * base % fieldSize else half

/-- The inverse in the field, as a power. -/
def inverse (a : Nat) : Nat := power 256 a (fieldSize - 2)

/-- The difference in the field. -/
def difference (a b : Nat) : Nat := (a + fieldSize - b) % fieldSize

/-- The third point on the line of a slope through a point and another, mirrored. -/
def third (slope : Nat) (x y other : Nat) : Point :=
  let x' := difference (slope * slope % fieldSize) ((x + other) % fieldSize)
  some (x', difference (slope * difference x x' % fieldSize) y)

/-- The sum of two points. -/
def add : Point → Point → Point
  | none, q => q
  | p, none => p
  | some (x, y), some (x', y') =>
    if x = x' then
      if (y + y') % fieldSize = 0 then none
      else third (3 * x * x * inverse (2 * y % fieldSize) % fieldSize) x y x'
    else third (difference y' y * inverse (difference x' x) % fieldSize) x y x'

/-- A point taken some number of times; `fuel` bounds the number of binary digits of the number. -/
def multiple : Nat → Nat → Point → Point
  | 0, _, _ => none
  | fuel + 1, n, p =>
    if n = 0 then none
    else
      let rest := multiple fuel (n / 2) (add p p)
      if n % 2 = 1 then add p rest else rest

/-- The public point of a private key. -/
def publicPoint (key : Nat) : Point := multiple 256 key generator

/-- A coordinate in thirty-two bytes, the highest first. -/
def coordinateBytes (a : Nat) : List UInt8 :=
  (List.range 32).map fun n => UInt8.ofNat (a / 256 ^ (31 - n))

end Payout.Curve
