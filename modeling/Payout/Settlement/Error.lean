import Payout.Chain.Basic
import Payout.Ledger.Tables

/-!
# Settlement errors

Why a withdrawal could not be settled, what is written to its row then, and whether its asset may be
handed back.
-/

namespace Payout

/-- Why a withdrawal could not be settled. -/
inductive SettlementError where
  | config (reason : String)
  | notConfigured (what : String)
  | ownershipMismatch (reason : String)
  | untrackedCustody (asset location : String)
  | invalidAmount (reason : String)
  /-- The transaction was included and failed. -/
  | reverted (tx : Submitted)
  /-- The transaction was sent and no receipt came back. -/
  | unconfirmed (tx : Submitted) (source : ChainError)
  | chain (source : ChainError)
  | ledger (source : LedgerError)
deriving DecidableEq

namespace SettlementError

def message : SettlementError → String
  | config reason => s!"Configuration error: {reason}"
  | notConfigured what => s!"No executor configured for {what}"
  | ownershipMismatch reason => s!"Ownership mismatch: {reason}"
  | untrackedCustody asset location => s!"{asset} is held by untracked address {location}"
  | invalidAmount reason => s!"Invalid amount: {reason}"
  | reverted tx => s!"Transaction {tx.hash.text} reverted"
  | unconfirmed tx source => s!"Transaction {tx.hash.text} was not confirmed: {source.message}"
  | chain source => source.message
  | ledger source => source.message

/-- The name of the kind of an error, with that of the error behind it. -/
def kind : SettlementError → String
  | config _ => "Config"
  | notConfigured _ => "NotConfigured"
  | ownershipMismatch _ => "OwnershipMismatch"
  | untrackedCustody _ _ => "UntrackedCustody"
  | invalidAmount _ => "InvalidAmount"
  | reverted _ => "Reverted"
  | unconfirmed _ source => s!"Unconfirmed.{source.kind}"
  | chain source => s!"Chain.{source.kind}"
  | ledger source => s!"Ledger.{source.kind}"

/-- The transaction behind the failure, if one was sent. -/
def submitted : SettlementError → Option Submitted
  | reverted tx => some tx
  | unconfirmed tx _ => some tx
  | _ => none

/-- Whether the asset may be handed back: not when a wait for confirmation ran out of time. -/
def allowsCompensation : SettlementError → Bool
  | unconfirmed _ (.confirmationTimeout _ _) => false
  | _ => true

/-- The error that lies behind this one and is told apart from it. -/
def cause : SettlementError → Option ChainError
  | unconfirmed _ source => some source
  | _ => none

/-- What is written to the row: the reason, and the transaction if one was sent. -/
def outcome (e : SettlementError) : Outcome :=
  match e.submitted with
  | some tx => (Outcome.failed e.message).withTransaction tx.hash.text tx.nonce tx.signer
  | none => .failed e.message

end SettlementError

/-- What is written to the row of a confirmed withdrawal. -/
def Confirmed.outcome (c : Confirmed) : Outcome :=
  .settled c.submitted.hash.text c.submitted.nonce c.submitted.signer
    (c.receipt.raw.map Json.compactText)

end Payout
