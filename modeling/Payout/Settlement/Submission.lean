import Payout.Chain.Fee
import Payout.Settlement.Request

/-!
# Submission

The part that every withdrawal shares: a fresh fee, one call, one wait for its receipt. The other
shared part undoes a withdrawal: it writes the failure to the row and hands the asset back where
that is safe.
-/

namespace Payout.Settlement

/-- How transactions are priced and awaited, and how long failing services are asked again. -/
structure Policy where
  /-- The percentage of the node's estimate to pay. -/
  feePercent : UInt64
  /-- How long a failing estimate is asked for again, in milliseconds. -/
  estimateWindowMs : Nat
  /-- How many blocks deep a transaction has to be. -/
  confirmations : UInt64
  /-- How long a confirmation is awaited, in milliseconds. -/
  timeoutMs : Nat
  /-- How long a failing release of an asset is tried again, in milliseconds. -/
  releaseWindowMs : Nat

/-- The gas price to pay now: the estimate, asked for anew, with the percentage applied. -/
def gasPrice (p : Policy) : Step (Except ChainError Nat) := do
  let estimate ← retry ChainError.isTransient (ask .estimate)
    (furtherAttempts p.estimateWindowMs)
  pure (estimate.map (Fee.adjust p.feePercent))

/-- Sends a call at the current gas price and waits for its receipt. -/
def submit (p : Policy) (signer : String) (c : ContractCall) :
    Step (Except SettlementError Confirmed) := do
  match ← gasPrice p with
  | .error e => pure (.error (.chain e))
  | .ok price =>
    match ← ask (.call c price) with
    | .error e => pure (.error (.chain e))
    | .ok pending =>
      let tx : Submitted := ⟨pending.hash, pending.nonce, signer⟩
      match ← ask (.wait pending p.confirmations p.timeoutMs) with
      | .error e => pure (.error (.unconfirmed tx e))
      | .ok receipt =>
        if receipt.success then do
          note (.confirmed tx.hash receipt.block)
          pure (.ok ⟨tx, receipt⟩)
        else pure (.error (.reverted tx))

/-- Whether a release may succeed when it is tried again. -/
def isTransient : LedgerError → Bool
  | .backend _ => true
  | _ => false

/-- Asks once to put an asset back in custody, and reports a failure that may pass. -/
def releaseOnce (assetClass : AssetClass) (tokenId : UInt64) : Step (Except LedgerError Unit) := do
  match ← ledger (.release assetClass tokenId) with
  | .error e => do
    if isTransient e then note (.releaseFailed assetClass tokenId e)
    pure (.error e)
  | .ok _ => pure (.ok ())

/-- Puts an asset back in custody, trying again while the ledger's backend fails. -/
def release (p : Policy) (assetClass : AssetClass) (tokenId : UInt64) :
    Step (Except LedgerError Unit) :=
  retry isTransient (releaseOnce assetClass tokenId) (furtherAttempts p.releaseWindowMs)

/-- Writes a failure to the row of an asset and, if asked to compensate, hands the asset back unless
its transaction may still be included. Failing writes are reported and otherwise ignored. -/
def recordFailure (p : Policy) (id : String) (assetClass : AssetClass) (tokenId : UInt64)
    (e : SettlementError) (compensate : Bool) : Step Unit := do
  match ← ledger (.update .asset id e.outcome) with
  | .error failure => note (.errorNotRecorded .asset id failure)
  | .ok _ => pure ()
  if compensate then
    if e.allowsCompensation then
      match ← release p assetClass tokenId with
      | .ok _ => note (.returned id assetClass tokenId)
      | .error failure => note (.notReturned id assetClass tokenId failure)
    else note (.leftOutOfCustody id assetClass tokenId)

end Payout.Settlement
