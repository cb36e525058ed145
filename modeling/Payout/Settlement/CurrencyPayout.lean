import Payout.Settlement.Submission
import Payout.Settlement.Units

/-!
# Paying out currency

An amount is turned into on-chain units and minted or transferred. For a class with an internal
scale the token's number of decimals is read from its contract until that succeeds once, and kept.
-/

namespace Payout.Settlement

/-- How one currency is paid out. -/
structure CurrencyPayout where
  currencyClass : CurrencyClass
  call : CallKind
  /-- The address that signs payouts. -/
  signer : String
  /-- The ledger's scale, for a class whose amounts are not in on-chain units. -/
  scale : Option UInt64

namespace CurrencyPayout

/-- The call that pays a number of on-chain units to a receiver. -/
def callFor (x : CurrencyPayout) (receiver : String) (amount : Nat) : ContractCall :=
  match x.call with
  | .mint => .mintCurrency x.currencyClass receiver amount
  | .transfer => .transferCurrency x.currencyClass receiver amount

/-- The token's number of decimals: the one known, else what the contract reports. -/
def decimals (x : CurrencyPayout) : StateT (Option UInt8) Step (Except ChainError UInt8) := do
  match ← get with
  | some d => pure (.ok d)
  | none =>
    match ← ask (.decimals x.currencyClass) with
    | .error e => pure (.error e)
    | .ok (d : UInt8) => do
      set (some d)
      pure (.ok d)

/-- An amount in on-chain units. -/
def chainAmount (x : CurrencyPayout) (amount : Decimal) :
    StateT (Option UInt8) Step (Except SettlementError Nat) := do
  match x.scale with
  | none => pure (amount.toChainUnits none)
  | some scale =>
    match ← x.decimals with
    | .error e => pure (.error (.chain e))
    | .ok d => pure (amount.toChainUnits (some ⟨scale, d⟩))

/-- Pays an order out. -/
def settle (x : CurrencyPayout) (p : Policy) (order : CurrencyOrder) :
    StateT (Option UInt8) Step (Except SettlementError Confirmed) := do
  match ← x.chainAmount order.amount with
  | .error e => pure (.error e)
  | .ok amount => submit p x.signer (x.callFor order.destination amount)

/-- What is written to the row of a payout. -/
def outcomeOf : Except SettlementError Confirmed → Outcome
  | .ok confirmed => confirmed.outcome
  | .error e => e.outcome

/-- Settles a row that was taken up and writes what became of it. The known number of decimals goes
in and comes out. -/
def withdraw (x : CurrencyPayout) (p : Policy) (row : Withdrawal CurrencyOrder) :
    StateT (Option UInt8) Step (Except SettlementError Confirmed) := do
  let result ← x.settle p row.order
  if let .error e := result then note (.withdrawalFailed .currency e)
  let written ← ledger (.update .currency row.id (outcomeOf result))
  if let .error e := written then note (.currencyOutcomeNotRecorded e)
  match result, written with
  | .error e, _ => pure (.error e)
  | .ok _, .error e => pure (.error (.ledger e))
  | .ok confirmed, .ok _ => do
    note (.settled .currency confirmed.submitted.hash confirmed.submitted.nonce)
    pure (.ok confirmed)

end CurrencyPayout

end Payout.Settlement
