import Payout.Asset
import Payout.Currency
import Payout.Decimal.Basic
import Payout.Instant.Basic
import Payout.Transaction

/-!
# Withdrawals

A withdrawal row asks for an asset or an amount of currency and keeps what became of the request.
Rows of both tables share everything but their order.
-/

namespace Payout

/-- How far a withdrawal has come. -/
inductive WithdrawalState where
  | unprocessed
  | inProgress
  /-- Submitted and confirmed. -/
  | pending
  | error
deriving DecidableEq

namespace WithdrawalState

def all : List WithdrawalState := [.unprocessed, .inProgress, .pending, .error]

/-- The name of the state in the ledger and in messages. -/
def name : WithdrawalState → String
  | .unprocessed => "UNPROCESSED"
  | .inProgress => "IN_PROGRESS"
  | .pending => "PENDING"
  | .error => "ERROR"

def ofName? (s : String) : Option WithdrawalState := all.find? (·.name = s)

end WithdrawalState

/-- The two tables of withdrawals. -/
inductive Kind where
  | asset
  | currency
deriving DecidableEq

/-- A request for one asset. -/
structure AssetOrder where
  assetClass : AssetClass
  tokenId : UInt64
deriving DecidableEq

/-- A request for an amount of currency, in the ledger's scale. -/
structure CurrencyOrder where
  currencyClass : CurrencyClass
  amount : Decimal
  destination : String
deriving DecidableEq

/-- What a row of a table asks for. -/
def Kind.Order : Kind → Type
  | .asset => AssetOrder
  | .currency => CurrencyOrder

/-- What became of a withdrawal. -/
structure Outcome where
  state : WithdrawalState
  errorMessage : Option String
  txHash : Option String
  nonce : Option UInt64
  signer : Option String
  rawResponse : Option String
deriving DecidableEq

namespace Outcome

/-- Nothing was done yet. -/
def fresh : Outcome := ⟨.unprocessed, none, none, none, none, none⟩

/-- A transaction was sent and confirmed. -/
def settled (txHash : String) (nonce : UInt64) (signer : String) (rawResponse : Option String) :
    Outcome :=
  ⟨.pending, none, some txHash, some nonce, some signer, rawResponse⟩

def failed (reason : String) : Outcome := ⟨.error, some reason, none, none, none, none⟩

/-- Adds the transaction that was sent. -/
def withTransaction (txHash : String) (nonce : UInt64) (signer : String) (o : Outcome) : Outcome :=
  { o with txHash := some txHash, nonce := some nonce, signer := some signer }

end Outcome

/-- A row of a withdrawal table. -/
structure Withdrawal (κ : Type) where
  id : String
  order : κ
  outcome : Outcome
  updatedAt : Option Instant
deriving DecidableEq

namespace Withdrawal

variable {κ : Type}

/-- A row as it is first entered. -/
def new (id : String) (order : κ) : Withdrawal κ := ⟨id, order, .fresh, none⟩

/-- How far the row has come. -/
def state (w : Withdrawal κ) : WithdrawalState := w.outcome.state

/-- The row taken up for processing. -/
def claimed (now : Instant) (w : Withdrawal κ) : Withdrawal κ :=
  { w with outcome := { w.outcome with state := .inProgress }, updatedAt := some now }

/-- The row with an outcome written to it. -/
def updated (now : Instant) (o : Outcome) (w : Withdrawal κ) : Withdrawal κ :=
  { w with outcome := o, updatedAt := some now }

end Withdrawal

end Payout
