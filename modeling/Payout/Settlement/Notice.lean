import Payout.Log
import Payout.Settlement.Error

/-!
# Notices

What settlement reports while it runs, and how each notice reads as a log line: a level, the part of
the program that speaks, a message and named values.
-/

namespace Payout

/-- Counts from one pass over the ledger: rows settled, rows failed, and rows that somebody else had
taken up. -/
structure Summary where
  submitted : Nat
  failed : Nat
  skipped : Nat
deriving DecidableEq

/-- The number of rows counted. -/
def Summary.total (s : Summary) : Nat := s.submitted + s.failed + s.skipped

/-- Something to report. -/
inductive Notice where
  | batch (k : Kind) (count : Nat)
  | claimFailed (k : Kind) (id : String) (e : LedgerError)
  | unsettleable (k : Kind) (id : String) (e : SettlementError)
  | assetNotLoaded (id : String) (e : SettlementError)
  | withdrawalFailed (k : Kind) (e : SettlementError)
  | errorNotRecorded (k : Kind) (id : String) (e : LedgerError)
  | currencyOutcomeNotRecorded (e : LedgerError)
  | confirmedNotRecorded (hash : TransactionHash) (e : LedgerError)
  | leftOutOfCustody (id : String) (assetClass : AssetClass) (tokenId : UInt64)
  | returned (id : String) (assetClass : AssetClass) (tokenId : UInt64)
  | notReturned (id : String) (assetClass : AssetClass) (tokenId : UInt64) (e : LedgerError)
  | releaseFailed (assetClass : AssetClass) (tokenId : UInt64) (e : LedgerError)
  | confirmed (hash : TransactionHash) (block : UInt64)
  | settled (k : Kind) (hash : TransactionHash) (nonce : UInt64)
  | scheduleStarted (intervalMs : Nat)
  | cycleFinished (s : Summary)
  | cycleFailed (e : SettlementError)
  | scheduleStopped

namespace Notice

/-- The counts of a summary as named values. -/
def ofSummary (s : Summary) : List (String × LogValue) :=
  [("submitted", .number s.submitted), ("failed", .number s.failed), ("skipped", .number s.skipped)]

/-- The id of a row and an asset as named values. -/
def ofRow (id : String) (assetClass : AssetClass) (tokenId : UInt64) :
    List (String × LogValue) :=
  [("withdrawal_id", .text id), ("asset_class", .text assetClass.name),
    ("token_id", .number tokenId.toNat)]

/-- An error as a named value. -/
def ofError (message : String) : String × LogValue := ("error", .text message)

/-- The part of the program that settles a batch. -/
def batchTarget : String := "settler_core::coordinator"

/-- The part of the program that settles rows. -/
def rowTarget : String := "settler_core::executor"

/-- The part of the program that settles rows of one table. -/
def kindTarget : Kind → String
  | .asset => rowTarget ++ "::nft"
  | .currency => rowTarget ++ "::currency"

/-- The part of the program that keeps the schedule. -/
def scheduleTarget : String := "settler_core::driver"

def line : Notice → LogLine
  | batch k count =>
    let name := match k with
      | .asset => "NFT"
      | .currency => "currency"
    ⟨.info, batchTarget, s!"Processing {name} withdrawals", [("count", .number count)]⟩
  | claimFailed k id e =>
    let name := match k with
      | .asset => "withdrawal"
      | .currency => "currency withdrawal"
    ⟨.warn, batchTarget, s!"Failed to claim {name}",
      [("withdrawal_id", .text id), ofError e.message]⟩
  | unsettleable k id e =>
    let name := match k with
      | .asset => "withdrawal"
      | .currency => "currency withdrawal"
    ⟨.error, batchTarget, s!"Cannot settle {name}",
      [("withdrawal_id", .text id), ofError e.message]⟩
  | assetNotLoaded id e =>
    ⟨.error, batchTarget, "Failed to load asset", [("withdrawal_id", .text id), ofError e.message]⟩
  | withdrawalFailed k e =>
    let name := match k with
      | .asset => "NFT"
      | .currency => "Currency"
    ⟨.error, kindTarget k, s!"{name} withdrawal failed", [ofError e.message]⟩
  | errorNotRecorded k id e =>
    let (target, name) := match k with
      | .asset => (rowTarget, "withdrawal")
      | .currency => (batchTarget, "currency withdrawal")
    ⟨.error, target, s!"Failed to record {name} error",
      [("withdrawal_id", .text id), ofError e.message]⟩
  | currencyOutcomeNotRecorded e =>
    ⟨.error, kindTarget .currency, "Failed to record currency withdrawal outcome",
      [ofError e.message]⟩
  | confirmedNotRecorded hash e =>
    ⟨.error, kindTarget .asset, "Confirmed withdrawal could not be recorded",
      [("tx_hash", .text hash.text), ofError e.message]⟩
  | leftOutOfCustody id c n =>
    ⟨.warn, rowTarget, "Asset left out of custody; transaction outcome unknown", ofRow id c n⟩
  | returned id c n => ⟨.info, rowTarget, "Asset returned to custody", ofRow id c n⟩
  | notReturned id c n e =>
    ⟨.error, rowTarget, "Failed to return asset to custody", ofRow id c n ++ [ofError e.message]⟩
  | releaseFailed c n e =>
    ⟨.warn, "settler_ledger", "Retrying asset release",
      [("asset_class", .text c.name), ("token_id", .number n.toNat), ofError e.message]⟩
  | confirmed hash block =>
    ⟨.info, "settler_core::submission", "Transaction confirmed",
      [("tx_hash", .text hash.short), ("block", .number block.toNat)]⟩
  | settled k hash nonce =>
    let name := match k with
      | .asset => "NFT"
      | .currency => "Currency"
    ⟨.info, kindTarget k, s!"{name} withdrawal pending",
      [("tx_hash", .text hash.text), ("nonce", .number nonce.toNat)]⟩
  | scheduleStarted intervalMs =>
    ⟨.info, scheduleTarget, "Settlement driver started",
      [("interval_secs", .number (intervalMs / 1000))]⟩
  | cycleFinished s => ⟨.info, scheduleTarget, "Settlement cycle finished", ofSummary s⟩
  | cycleFailed e =>
    ⟨.error, scheduleTarget, "Settlement cycle failed; retrying next interval", [ofError e.message]⟩
  | scheduleStopped => ⟨.info, scheduleTarget, "Settlement driver stopped", []⟩

end Notice

end Payout
