import Payout.Power

/-!
# Binary64 numbers

Finite numbers of the 64-bit binary format, as sign, mantissa and exponent. A ratio of natural
numbers is rounded to the nearest such number, ties to the even mantissa; multiplication and
division are exact results rounded that way. A number is written with the fewest decimal digits that
read back as it, and of those with the digits nearest to it.
-/

namespace Payout

/-- The number `± mantissa * 2 ^ exponent`, where `mantissa < 2 ^ 53` and `-1074 ≤ exponent`. -/
structure Binary64 where
  negative : Bool
  mantissa : Nat
  exponent : Int
deriving DecidableEq

namespace Binary64

/-- Zero with a sign. -/
def zero (negative : Bool) : Binary64 := ⟨negative, 0, -1074⟩

/-- The quotient `num / den` rounded to the nearest whole number, a half to the even one. -/
def divHalfEven (num den : Nat) : Nat :=
  let q := num / den
  let r := num % den
  if 2 * r > den ∨ (2 * r = den ∧ q % 2 = 1) then q + 1 else q

/-- The number nearest to `± num / den`, ties to the even mantissa; none when it lies beyond the
largest finite number. -/
def ofRatio? (negative : Bool) (num den : Nat) : Option Binary64 :=
  if num = 0 then some (zero negative)
  else
    let low : Int := max ((num.log2 : Int) - den.log2 - 53) (-1074)
    let scaled (e : Int) : Nat × Nat :=
      if 0 ≤ e then (num, den * 2 ^ e.toNat) else (num * 2 ^ (-e).toNat, den)
    let e := if (scaled low).1 / (scaled low).2 < 2 ^ 53 then low else low + 1
    let m := divHalfEven (scaled e).1 (scaled e).2
    let (m, e) := if m = 2 ^ 53 then (2 ^ 52, e + 1) else (m, e)
    if 971 < e then none else some ⟨negative, m, e⟩

/-- The number nearest to a natural number. -/
def ofNat? (negative : Bool) (n : Nat) : Option Binary64 := ofRatio? negative n 1

/-- The magnitude as a ratio of natural numbers. -/
def ratio (x : Binary64) : Nat × Nat :=
  if 0 ≤ x.exponent then (x.mantissa * 2 ^ x.exponent.toNat, 1)
  else (x.mantissa, 2 ^ (-x.exponent).toNat)

/-- The product, rounded. -/
def mul? (x y : Binary64) : Option Binary64 :=
  ofRatio? (x.negative != y.negative) (x.ratio.1 * y.ratio.1) (x.ratio.2 * y.ratio.2)

/-- The quotient by a non-zero number, rounded. -/
def div? (x y : Binary64) : Option Binary64 :=
  ofRatio? (x.negative != y.negative) (x.ratio.1 * y.ratio.2) (x.ratio.2 * y.ratio.1)

/-- The number of decimal digits of a natural number. -/
def decimalLength (n : Nat) : Nat := (Nat.toDigits 10 n).length

/-- Takes trailing zeros off a decimal coefficient, at most `fuel` of them. -/
def stripZeros : Nat → Nat → Int → Nat × Int
  | 0, digits, exponent => (digits, exponent)
  | fuel + 1, digits, exponent =>
    if digits % 10 = 0 then stripZeros fuel (digits / 10) (exponent + 1) else (digits, exponent)

/-- The point of the grid `10 ^ grid` that rounds to `x` and lies nearest to it, if one does. The
reals that round to `x` reach half a step to each side, a quarter below a power of two, ends
included when the mantissa is even. -/
def onGrid? (x : Binary64) (grid : Int) : Option Nat :=
  let unit := 2 ^ x.exponent.toNat
  let value := 4 * x.mantissa * unit
  let below := if x.mantissa = 2 ^ 52 ∧ -1074 < x.exponent then unit else 2 * unit
  let scale := 10 ^ (-grid).toNat
  let step := 4 * 2 ^ (-x.exponent).toNat * 10 ^ grid.toNat
  let low := (value - below) * scale
  let high := (value + 2 * unit) * scale
  let inside (c : Nat) : Bool :=
    if x.mantissa % 2 = 0 then low ≤ c * step ∧ c * step ≤ high
    else low < c * step ∧ c * step < high
  let c := value * scale / step
  let rest := value * scale % step
  match inside c, inside (c + 1) with
  | true, true => some (if 2 * rest < step ∨ (2 * rest = step ∧ c % 2 = 0) then c else c + 1)
  | true, false => some c
  | false, true => some (c + 1)
  | false, false => none

/-- The exponent `p` with `10 ^ (p - 1) ≤ |x| < 10 ^ p`, for a non-zero number. -/
def magnitude (x : Binary64) : Int :=
  let (num, den) := x.ratio
  if den ≤ num then decimalLength (num / den)
  else 1 - (decimalLength ((den + num - 1) / num - 1) : Int)

/-- The fewest decimal digits that read back as the number, and the power of ten of the last one. -/
def shortest (x : Binary64) : Nat × Int :=
  if x.mantissa = 0 then (0, 0)
  else
    let p := x.magnitude
    let hit := (List.range 17).findSome? fun (n : Nat) =>
      let grid := p - ((n : Int) + 1)
      (x.onGrid? grid).map (·, grid)
    match hit with
    | some (digits, grid) => stripZeros 20 digits grid
    | none => (0, 0)

/-- The sign as written before the digits. -/
def signText (x : Binary64) : List Char := if x.negative then ['-'] else []

/-- The number in plain decimal digits, never with an exponent; whole numbers have no point. -/
def plainText (x : Binary64) : List Char :=
  let (digits, exponent) := x.shortest
  let ds := Nat.toDigits 10 digits
  let shift := (-exponent).toNat
  x.signText ++
    if 0 ≤ exponent then ds ++ (if digits = 0 then [] else List.replicate exponent.toNat '0')
    else if shift < ds.length then ds.take (ds.length - shift) ++ '.' :: ds.drop (ds.length - shift)
    else '0' :: '.' :: List.replicate (shift - ds.length) '0' ++ ds

/-- The number with a point or an exponent: positional from `10 ^ -5` up to sixteen whole digits,
else one digit, the point, the others, and the exponent. -/
def scientificText (x : Binary64) : List Char :=
  let (digits, exponent) := x.shortest
  let ds := Nat.toDigits 10 digits
  let point := (ds.length : Int) + exponent
  x.signText ++
    if digits = 0 then ['0', '.', '0']
    else if 0 ≤ exponent ∧ point ≤ 16 then ds ++ List.replicate exponent.toNat '0' ++ ['.', '0']
    else if 0 < point ∧ point ≤ 16 then ds.take point.toNat ++ '.' :: ds.drop point.toNat
    else if -5 < point ∧ point ≤ 0 then '0' :: '.' :: List.replicate (-point).toNat '0' ++ ds
    else
      let fraction := if ds.length = 1 then [] else '.' :: ds.drop 1
      ds.take 1 ++ fraction ++ 'e' :: (toString (point - 1)).toList

/-- The 64 bits of the interchange format. -/
def bits (x : Binary64) : Nat :=
  let sign := if x.negative then 2 ^ 63 else 0
  if x.mantissa < 2 ^ 52 then sign + x.mantissa
  else sign + (x.exponent + 1075).toNat * 2 ^ 52 + (x.mantissa - 2 ^ 52)

end Binary64

end Payout
