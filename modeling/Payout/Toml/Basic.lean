import Payout.Binary64
import Payout.Toml.Moment

/-!
# TOML values

The values that a settings document can hold. Numbers are kept whatever their size, since one that
is too large is refused only where it is looked at.
-/

namespace Payout

/-- A floating-point number as written. -/
inductive Toml.Real where
  | finite (x : Binary64)
  | infinite (negative : Bool)
  | notANumber (negative : Bool)
  /-- Digits beyond the range of binary64. -/
  | tooLarge
deriving DecidableEq

/-- The 64 bits of a number, if it is in range. -/
def Toml.Real.bits? : Toml.Real → Option Nat
  | finite x => some x.bits
  | infinite negative => some ((if negative then 0xFFF else 0x7FF) * 2 ^ 52)
  | notANumber negative => some ((if negative then 0xFFF8 else 0x7FF8) * 2 ^ 48)
  | tooLarge => none

inductive Toml where
  | string (value : String)
  | integer (value : Int)
  | real (value : Toml.Real)
  | bool (value : Bool)
  | moment (value : Moment)
  | array (items : List Toml)
  | table (members : List (String × Toml))

namespace Toml

mutual

/-- Whether every number in a value can be looked at, given the range of whole numbers. -/
def inRange (low high : Int) : Toml → Bool
  | integer n => low ≤ n ∧ n ≤ high
  | real x => x.bits?.isSome
  | array items => inRangeItems low high items
  | table members => inRangeMembers low high members
  | _ => true

/-- Whether every number among items can be looked at. -/
def inRangeItems (low high : Int) : List Toml → Bool
  | [] => true
  | v :: rest => inRange low high v && inRangeItems low high rest

/-- Whether every number among members can be looked at. -/
def inRangeMembers (low high : Int) : List (String × Toml) → Bool
  | [] => true
  | (_, v) :: rest => inRange low high v && inRangeMembers low high rest

end

/-- Whether a value can be passed over: its whole numbers fit 128 bits, signed or not. -/
def isSkippable (v : Toml) : Bool := v.inRange (-2 ^ 127) (2 ^ 128 - 1)

/-- Whether a value can be kept as it is: its whole numbers fit signed 64 bits. -/
def isKeepable (v : Toml) : Bool := v.inRange (-2 ^ 63) (2 ^ 63 - 1)

end Toml

end Payout
