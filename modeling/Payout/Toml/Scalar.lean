import Payout.Toml.Basic
import Payout.Text.Hex

/-!
# Unquoted TOML values

Truth values, whole numbers in four bases, floating-point numbers and moments. Single underscores
may divide digits; whole parts have no leading zeros.
-/

namespace Payout.Toml

/-- The digits of a run without the underscores, each of which has to stand between two digits. -/
def ungrouped? (isDigit : Char → Bool) : List Char → Option (List Char)
  | [] => none
  | [c] => if isDigit c then some [c] else none
  | c :: '_' :: rest => if isDigit c then (c :: ·) <$> ungrouped? isDigit rest else none
  | c :: rest => if isDigit c then (c :: ·) <$> ungrouped? isDigit rest else none

def natOfDigits (base : Nat) (digits : List Char) : Nat :=
  digits.foldl (fun n c => base * n + (Text.hexValue? c).getD 0) 0

/-- The value of a run of digits of a base, underscores among them. -/
def nat? (base : Nat) (text : List Char) : Option Nat :=
  natOfDigits base <$> ungrouped? (fun c => (Text.hexValue? c).any (· < base)) text

/-- The decimal digits of a whole part: none is a leading zero. -/
def wholeDigits? (text : List Char) : Option (List Char) := do
  let digits ← ungrouped? Char.isDigit text
  if digits.head? = some '0' ∧ digits.length ≠ 1 then none else some digits

/-- A text without its sign, and whether the sign is a minus. -/
def splitSign : List Char → Bool × List Char
  | '-' :: rest => (true, rest)
  | '+' :: rest => (false, rest)
  | text => (false, text)

/-- The whole number of a text: decimal with or without a sign, or in another base without one. -/
def integer? (text : List Char) : Option Int :=
  match text with
  | '0' :: 'x' :: rest => Int.ofNat <$> nat? 16 rest
  | '0' :: 'o' :: rest => Int.ofNat <$> nat? 8 rest
  | '0' :: 'b' :: rest => Int.ofNat <$> nat? 2 rest
  | _ => do
    let (negative, rest) := splitSign text
    let n := natOfDigits 10 (← wholeDigits? rest)
    some (if negative then -(n : Int) else n)

/-- The number `± digits * 10 ^ exponent`. Exponents far outside the range of binary64 are settled
without the power. -/
def Real.ofDecimal (negative : Bool) (digits : List Char) (exponent : Int) : Real :=
  let n := natOfDigits 10 digits
  let size : Int := (Nat.toDigits 10 n).length + exponent
  if n = 0 ∨ size < -400 then .finite (Binary64.zero negative)
  else if 400 < size then .tooLarge
  else
    let num := n * 10 ^ exponent.toNat
    let den := 10 ^ (-exponent).toNat
    (Binary64.ofRatio? negative num den).elim .tooLarge .finite

/-- The exponent of a text that starts after the exponent mark. -/
def exponent? (text : List Char) : Option Int := do
  let (negative, rest) := splitSign text
  let n := natOfDigits 10 (← ungrouped? Char.isDigit rest)
  some (if negative then -(n : Int) else n)

/-- The floating-point number of a text: digits with a fraction, an exponent or both, an infinity,
or not a number. -/
def real? (text : List Char) : Option Real :=
  let (negative, rest) := splitSign text
  if rest = ['i', 'n', 'f'] then some (.infinite negative)
  else if rest = ['n', 'a', 'n'] then some (.notANumber negative)
  else do
    let isMark (c : Char) : Bool := c = 'e' ∨ c = 'E'
    let significand := rest.takeWhile (!isMark ·)
    let whole := significand.takeWhile (· ≠ '.')
    let wholeDigits ← wholeDigits? whole
    let fractionDigits ← match significand.drop whole.length with
      | [] => some []
      | _ :: fraction => ungrouped? Char.isDigit fraction
    let exponent ← match rest.drop significand.length with
      | [] => some 0
      | _ :: exponent => exponent? exponent
    some (.ofDecimal negative (wholeDigits ++ fractionDigits) (exponent - fractionDigits.length))

/-- The value of an unquoted text. -/
def scalar? (text : List Char) : Option Toml :=
  if text = ['t', 'r', 'u', 'e'] then some (.bool true)
  else if text = ['f', 'a', 'l', 's', 'e'] then some (.bool false)
  else
    match Moment.ofText? text, integer? text with
    | some m, _ => some (.moment m)
    | none, some n => some (.integer n)
    | none, none => real <$> real? text

end Payout.Toml
