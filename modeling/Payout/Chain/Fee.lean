import Payout.Power

/-!
# Fees

The gas price paid is a percentage of the node's estimate, capped at the largest 128-bit number.
-/

namespace Payout.Fee

/-- The largest gas price. -/
def maxPrice : Nat := 2 ^ 128 - 1

/-- A percentage of an estimate, taken of its hundreds and of what is left over; at most
`maxPrice`. -/
def adjust (percent : UInt64) (estimate : Nat) : Nat :=
  let hundreds := estimate / 100 * percent.toNat
  let price := hundreds + estimate % 100 * percent.toNat / 100
  if hundreds ≤ maxPrice ∧ price ≤ maxPrice then price else maxPrice

end Payout.Fee
