import Payout.Binary64
import Payout.Decimal.Arithmetic

/-!
# Reading decimal amounts

An amount is written in plain digits (an optional sign, digits with at most one point among them,
and underscores after the first digit) or as such a base with an exponent of ten. Digits of the
fraction beyond what fits are rounded away by the first of them, a half upwards; a whole part that
does not fit is refused.
-/

namespace Payout.Decimal

def digitValue? (c : Char) : Option Nat :=
  if '0' ≤ c ∧ c ≤ '9' then some (c.toNat - 48) else none

/-- A magnitude and its number of decimal places. -/
abbrev Magnitude := Nat × Nat

/-- Ends a fraction at its first digit that does not fit; the characters from there on have to be
digits or underscores. -/
def roundAt (m scale : Nat) (rest : List Char) : Option Magnitude :=
  if rest.all fun c => c = '_' ∨ (digitValue? c).isSome then
    let roundsUp := match rest.head? >>= digitValue? with
      | some d => 5 ≤ d
      | none => false
    if !roundsUp then some (m, scale)
    else if m + 1 < limit then some (m + 1, scale)
    else if scale = 0 then none
    else some ((m + 1 + 4) / 10, scale - 1)
  else none

/-- Reads the digits after the point; `seen` tells that some digit came before. -/
def readFraction (m scale : Nat) (seen : Bool) : List Char → Option Magnitude
  | [] => if seen then some (m, scale) else none
  | c :: rest =>
    if scale = maxScale then roundAt m scale (c :: rest)
    else match digitValue? c with
      | some d =>
        if 10 * m + d < limit then readFraction (10 * m + d) (scale + 1) true rest
        else roundAt m scale (c :: rest)
      | none => if c = '_' ∧ seen then readFraction m scale seen rest else none

/-- Reads the digits before the point and, after it, the fraction. -/
def readWhole (m : Nat) (seen : Bool) : List Char → Option Magnitude
  | [] => if seen then some (m, 0) else none
  | c :: rest =>
    match digitValue? c with
    | some d => if 10 * m + d < limit then readWhole (10 * m + d) true rest else none
    | none =>
      if c = '.' then readFraction m 0 seen rest
      else if c = '_' ∧ seen then readWhole m seen rest
      else none

/-- Reads an amount in plain digits. -/
def ofPlain? (text : List Char) : Option Decimal :=
  let (negative, digits) := match text with
    | '-' :: rest => (true, rest)
    | '+' :: rest => (false, rest)
    | _ => (false, text)
  do
    let (m, scale) ← readWhole 0 false digits
    ofParts? (signed negative m) scale

/-- Reads an exponent: digits below `2 ^ 32`, after an optional plus. -/
def readExponent? (text : List Char) : Option Nat :=
  let digits := match text with
    | '+' :: rest => rest
    | _ => text
  if digits.isEmpty then none
  else do
    let n ← digits.foldlM (fun n c => (digitValue? c).map (10 * n + ·)) 0
    if n < 2 ^ 32 then some n else none

/-- The amount `a * 10 ^ n`: decimal places are given up first, then the coefficient grows. -/
def shiftUp? (a : Decimal) (n : Nat) : Option Decimal :=
  if n ≤ a.scale then ofParts? a.coefficient (a.scale - n)
  else if maxScale < n then none
  else do
    let power ← ofParts? (10 ^ n) 0
    normalize <$> mul? a power

/-- Reads an amount as a base and an exponent. -/
def ofScientific? (text : List Char) : Option Decimal := do
  let isMark (c : Char) : Bool := c = 'e' ∨ c = 'E'
  let base ← ofPlain? (text.takeWhile (!isMark ·))
  match text.dropWhile (!isMark ·) with
  | [] => none
  | _ :: '-' :: exponent => do
    let n ← readExponent? exponent
    if maxScale < n then none else ofParts? base.coefficient (base.scale + n)
  | _ :: exponent => do
    let n ← readExponent? exponent
    shiftUp? base n

/-- Reads an amount in plain digits or, failing that, with an exponent. -/
def ofText? (text : List Char) : Option Decimal :=
  (ofPlain? text).orElse fun _ => ofScientific? text

/-- The amount that a binary64 number is written as in plain digits. -/
def ofBinary64? (x : Binary64) : Option Decimal := ofPlain? x.plainText

end Payout.Decimal
