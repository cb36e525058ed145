import Payout.Power

/-!
# Numbers in text

Unsigned 64-bit numbers as digits, and why a text is none.
-/

namespace Payout.Text

/-- Why a text is not an unsigned 64-bit number. -/
inductive NumberError where
  | empty
  | invalidDigit
  | tooLarge
deriving DecidableEq

def NumberError.message : NumberError → String
  | empty => "cannot parse integer from empty string"
  | invalidDigit => "invalid digit found in string"
  | tooLarge => "number too large to fit in target type"

/-- Reads digits after a number read so far; the first character that is no digit or makes the
number too large decides. -/
def readDigits (n : Nat) : List Char → Except NumberError UInt64
  | [] => .ok (UInt64.ofNat n)
  | c :: rest =>
    if !c.isDigit then .error .invalidDigit
    else
      let n := 10 * n + (c.toNat - 48)
      if n < 2 ^ 64 then readDigits n rest else .error .tooLarge

/-- Reads an unsigned 64-bit number, which may have a plus sign. -/
def readUInt64 (text : String) : Except NumberError UInt64 :=
  match text.toList with
  | [] => .error .empty
  | ['+'] => .error .invalidDigit
  | '+' :: digits => readDigits 0 digits
  | digits => readDigits 0 digits

end Payout.Text
