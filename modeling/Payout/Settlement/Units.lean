import Payout.Decimal.Arithmetic
import Payout.Settlement.Error

/-!
# On-chain units

A ledger amount becomes a whole number of on-chain units, or is refused. Classes with an internal
scale hold amounts in that fraction of the token's unit; all others hold on-chain units.
-/

namespace Payout

/-- How ledger amounts of a class relate to on-chain units: the ledger's scale and the token's
number of decimals. -/
structure Rescale where
  scale : UInt64
  decimals : UInt8

namespace Decimal

/-- The refusal of an amount too large to convert. -/
def overflow (amount : Decimal) : SettlementError := .invalidAmount s!"{amount} overflows"

/-- The amount in the token's units: `amount / scale * 10 ^ decimals`, the power first so that an
exact quotient stays exact. -/
def rescale (amount : Decimal) (r : Rescale) : Except SettlementError Decimal :=
  if r.scale = 0 then .error (.config "internal scale must be non-zero")
  else if maxScale < r.decimals.toNat then
    .error (.invalidAmount s!"{r.decimals} token decimals cannot be represented")
  else
    let units := do
      let power ← powerOfTen? r.decimals.toNat
      let scaled ← mul? amount power
      divNat? scaled r.scale.toNat
    match units with
    | some units => .ok units
    | none => .error amount.overflow

/-- The amount counted in on-chain units, be they whole or not. -/
def inUnits (amount : Decimal) : Option Rescale → Except SettlementError Decimal
  | none => .ok amount
  | some r => amount.rescale r

/-- The amount without its fractional part as a number of 128 bits. -/
def toUInt128? (a : Decimal) : Option Nat :=
  if a.coefficient < 0 ∨ 2 ^ 128 ≤ a.wholePart then none else some a.wholePart

/-- The amount in on-chain units. Amounts that are not positive, that leave a fraction of a unit or
that overflow are refused. -/
def toChainUnits (amount : Decimal) (r : Option Rescale) : Except SettlementError Nat := do
  if !amount.isPositive then throw (.invalidAmount s!"{amount} is not positive")
  let units ← amount.inUnits r
  if !units.isWhole then
    throw (.invalidAmount s!"{amount} leaves a fractional on-chain unit ({units})")
  match units.toUInt128? with
  | some n => pure n
  | none => throw amount.overflow

end Decimal

end Payout
