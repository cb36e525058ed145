import Payout.Settlement.AssetPayout
import Payout.Settlement.CurrencyPayout

/-!
# Batches

One pass over the ledger: every unclaimed asset row, then every unclaimed currency row, each taken
up before anything is sent for it. A row that fails never stops the pass; only a list that cannot be
loaded does.
-/

namespace Payout

/-- What a pass made of one row. -/
inductive RowResult where
  | submitted
  | failed
  | skipped
deriving DecidableEq

namespace RowResult

/-- The result of a row that was handed to its payout. -/
def ofResult {ε α : Type} : Except ε α → RowResult
  | .ok _ => submitted
  | .error _ => failed

end RowResult

namespace Summary

/-- No rows counted. -/
def zero : Summary := ⟨0, 0, 0⟩

/-- Counts one more row. -/
def record (s : Summary) : RowResult → Summary
  | .submitted => { s with submitted := s.submitted + 1 }
  | .failed => { s with failed := s.failed + 1 }
  | .skipped => { s with skipped := s.skipped + 1 }

end Summary

namespace Settlement

/-- A settler: how each class is paid out, if it is, and the policy shared by all. A class is paid
out by a payout of that class. -/
structure Settler where
  policy : Policy
  assetPayout : AssetClass → Option AssetPayout
  currencyPayout : CurrencyClass → Option CurrencyPayout
  assetClass_eq : ∀ {c x}, assetPayout c = some x → x.assetClass = c
  currencyClass_eq : ∀ {c x}, currencyPayout c = some x → x.currencyClass = c

/-- The numbers of decimals that are known. -/
abbrev KnownDecimals := CurrencyClass → Option UInt8

/-- A settlement program that keeps the known numbers of decimals. -/
abbrev Pass := StateT KnownDecimals Step

namespace Settler

/-- A settler that pays nothing out. -/
def idle (policy : Policy) : Settler := ⟨policy, fun _ => none, fun _ => none, nofun, nofun⟩

/-- Sets how a class of assets is paid out. -/
def withAsset (s : Settler) (x : AssetPayout) : Settler :=
  { s with
    assetPayout := fun c => if c = x.assetClass then some x else s.assetPayout c
    assetClass_eq := by
      intro c y h
      split at h
      · cases h; exact Eq.symm ‹_›
      · exact s.assetClass_eq h }

/-- Sets how a currency is paid out. -/
def withCurrency (s : Settler) (x : CurrencyPayout) : Settler :=
  { s with
    currencyPayout := fun c => if c = x.currencyClass then some x else s.currencyPayout c
    currencyClass_eq := by
      intro c y h
      split at h
      · cases h; exact Eq.symm ‹_›
      · exact s.currencyClass_eq h }

/-- Settles an asset row that was taken up. -/
def settleAsset (s : Settler) (row : Withdrawal AssetOrder) : Step RowResult := do
  let c := row.order.assetClass
  let n := row.order.tokenId
  match s.assetPayout c with
  | none => do
    let e := SettlementError.notConfigured c.name
    note (.unsettleable .asset row.id e)
    recordFailure s.policy row.id c n e true
    pure .failed
  | some x =>
    match ← ledger (.asset c n) with
    | .error e => do
      note (.assetNotLoaded row.id (.ledger e))
      recordFailure s.policy row.id c n (.ledger e) false
      pure .failed
    | .ok a => do
      let result ← x.withdraw s.policy row a
      pure (.ofResult result)

/-- Settles a currency row that was taken up. -/
def settleCurrency (s : Settler) (row : Withdrawal CurrencyOrder) : Pass RowResult := do
  let c := row.order.currencyClass
  match s.currencyPayout c with
  | none => do
    let e := SettlementError.notConfigured c.symbol
    note (.unsettleable .currency row.id e)
    match ← ledger (.update .currency row.id e.outcome) with
    | .error failure => note (.errorNotRecorded .currency row.id failure)
    | .ok _ => pure ()
    pure .failed
  | some x => do
    let known ← get
    let (result, d) ← x.withdraw s.policy row (known c)
    set fun c' => if c' = c then d else known c'
    pure (.ofResult result)

/-- Settles a row that was taken up. -/
def settleRow (s : Settler) : (k : Kind) → Withdrawal k.Order → Pass RowResult
  | .asset, row => s.settleAsset row
  | .currency, row => s.settleCurrency row

/-- Takes a row up and, if nobody else had, settles it. -/
def processRow (s : Settler) (k : Kind) (row : Withdrawal k.Order) : Pass RowResult := do
  match ← ledger (.claim k row.id) with
  | .error e => do
    note (.claimFailed k row.id e)
    pure .skipped
  | .ok (claimed : Bool) => if claimed then s.settleRow k row else pure .skipped

/-- Processes rows one after another and counts what became of them. -/
def processRows (s : Settler) (k : Kind) (summary : Summary) :
    List (Withdrawal k.Order) → Pass Summary
  | [] => pure summary
  | row :: rest => do
    let result ← s.processRow k row
    s.processRows k (summary.record result) rest

/-- Loads the unclaimed rows of a table and processes them. -/
def pollTable (s : Settler) (k : Kind) (summary : Summary) :
    Pass (Except SettlementError Summary) := do
  match ← ledger (.unprocessed k) with
  | .error e => pure (.error (.ledger e))
  | .ok (rows : List (Withdrawal k.Order)) => do
    if !rows.isEmpty then note (.batch k rows.length)
    let summary ← s.processRows k summary rows
    pure (.ok summary)

/-- One pass over both tables. -/
def poll (s : Settler) : Pass (Except SettlementError Summary) := do
  match ← s.pollTable .asset .zero with
  | .error e => pure (.error e)
  | .ok summary => s.pollTable .currency summary

/-- Passes one after another, whatever comes of each. -/
def polls (s : Settler) : Nat → Pass Unit
  | 0 => pure ()
  | n + 1 => do
    let _ ← s.poll
    s.polls n

end Settler

end Settlement

end Payout
