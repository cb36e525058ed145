import Payout.Program
import Payout.Withdrawal

/-!
# Ledger tables

The tables that settlement reads and writes, the requests that a ledger answers, and what each
request does to the tables. Rows are looked up by id and assets by class and token; of equals the
first counts.
-/

namespace Payout

/-- Why a ledger refuses a request. -/
inductive LedgerError where
  | notFound (what : String)
  | invalidTransition (id : String) (source target : WithdrawalState)
  | serialization (reason : String)
  | backend (reason : String)
deriving DecidableEq

def LedgerError.message : LedgerError → String
  | .notFound what => s!"Not found: {what}"
  | .invalidTransition id source target =>
    s!"Invalid transition for {id}: {source.name} -> {target.name}"
  | .serialization reason => s!"Serialization error: {reason}"
  | .backend reason => s!"Backend error: {reason}"

def LedgerError.kind : LedgerError → String
  | .notFound _ => "NotFound"
  | .invalidTransition _ _ _ => "InvalidTransition"
  | .serialization _ => "Serialization"
  | .backend _ => "Backend"

namespace Ledger

/-- The tables of withdrawals, assets and users. -/
structure Tables where
  assetRows : List (Withdrawal AssetOrder)
  currencyRows : List (Withdrawal CurrencyOrder)
  assets : List Asset
  users : List User
deriving DecidableEq

/-- What settlement asks of a ledger. -/
inductive Request where
  /-- The rows nobody has claimed. -/
  | unprocessed (k : Kind)
  /-- The record of an asset. -/
  | asset (assetClass : AssetClass) (tokenId : UInt64)
  | user (id : String)
  /-- The user who registered a wallet. -/
  | userByWallet (wallet : String)
  /-- Takes up a row; true if it was unprocessed. -/
  | claim (k : Kind) (id : String)
  /-- Writes the outcome of a row that was taken up. -/
  | update (k : Kind) (id : String) (outcome : Outcome)
  /-- Puts an asset back in custody. -/
  | release (assetClass : AssetClass) (tokenId : UInt64)

/-- What a request brings back when it is not refused. -/
abbrev Request.Value : Request → Type
  | .unprocessed k => List (Withdrawal k.Order)
  | .asset _ _ => Asset
  | .user _ => Option User
  | .userByWallet _ => Option User
  | .claim _ _ => Bool
  | .update _ _ _ => Unit
  | .release _ _ => Unit

/-- Whether a request may change the tables. -/
def Request.writes : Request → Bool
  | .claim _ _ | .update _ _ _ | .release _ _ => true
  | _ => false

abbrev interface : Interface := ⟨Request, fun r => Except LedgerError r.Value⟩

/-- The list with `f` applied to the first element that satisfies `p`. -/
def modifyFirst {α : Type} (p : α → Bool) (f : α → α) : List α → List α
  | [] => []
  | a :: rest => if p a then f a :: rest else a :: modifyFirst p f rest

namespace Tables

/-- Tables without rows. -/
def empty : Tables := ⟨[], [], [], []⟩

def rows (t : Tables) : (k : Kind) → List (Withdrawal k.Order)
  | .asset => t.assetRows
  | .currency => t.currencyRows

/-- The tables with one withdrawal table replaced. -/
def setRows (t : Tables) : (k : Kind) → List (Withdrawal k.Order) → Tables
  | .asset, rows => { t with assetRows := rows }
  | .currency, rows => { t with currencyRows := rows }

/-- The tables with a row added at the end of its table. -/
def insert (t : Tables) (k : Kind) (row : Withdrawal k.Order) : Tables :=
  t.setRows k (t.rows k ++ [row])

/-- The rows that nobody has claimed, in table order. -/
def unprocessed (t : Tables) (k : Kind) : List (Withdrawal k.Order) :=
  (t.rows k).filter (·.state = .unprocessed)

/-- The first row of an id. -/
def row? (t : Tables) (k : Kind) (id : String) : Option (Withdrawal k.Order) :=
  (t.rows k).find? (·.id = id)

/-- The first record of an asset. -/
def asset? (t : Tables) (assetClass : AssetClass) (tokenId : UInt64) : Option Asset :=
  t.assets.find? (·.isFor assetClass tokenId)

/-- The first user of an id. -/
def user? (t : Tables) (id : String) : Option User := t.users.find? (·.id = id)

/-- The first user who registered a wallet. -/
def userByWallet? (t : Tables) (wallet : String) : Option User :=
  t.users.find? fun u => u.wallet.any (sameAddress · wallet)

def missingRow (id : String) : LedgerError := .notFound s!"withdrawal {id}"

def missingAsset (assetClass : AssetClass) (tokenId : UInt64) : LedgerError :=
  .notFound s!"{assetClass.name} {tokenId}"

/-- Takes up the first row of an id if it is unprocessed, and tells whether it was. -/
def claim (now : Instant) (k : Kind) (id : String) (t : Tables) :
    Except LedgerError (Bool × Tables) :=
  match t.row? k id with
  | none => .error (missingRow id)
  | some row =>
    if row.state = .unprocessed then
      .ok (true, t.setRows k (modifyFirst (·.id = id) (·.claimed now) (t.rows k)))
    else .ok (false, t)

/-- Writes an outcome to the first row of an id, which has to be in progress. -/
def update (now : Instant) (k : Kind) (id : String) (o : Outcome) (t : Tables) :
    Except LedgerError Tables :=
  match t.row? k id with
  | none => .error (missingRow id)
  | some row =>
    if row.state = .inProgress then
      .ok (t.setRows k (modifyFirst (·.id = id) (·.updated now o) (t.rows k)))
    else .error (.invalidTransition id row.state o.state)

/-- Puts the first record of an asset back in custody. -/
def release (assetClass : AssetClass) (tokenId : UInt64) (t : Tables) :
    Except LedgerError Tables :=
  match t.asset? assetClass tokenId with
  | none => .error (missingAsset assetClass tokenId)
  | some _ =>
    .ok { t with assets := modifyFirst (·.isFor assetClass tokenId) Asset.released t.assets }

/-- Answers a request at a time, with the tables after it. -/
def perform (now : Instant) : (r : Request) → Tables → Except LedgerError (r.Value × Tables)
  | .unprocessed k, t => .ok (t.unprocessed k, t)
  | .asset c n, t =>
    match t.asset? c n with
    | some a => .ok (a, t)
    | none => .error (missingAsset c n)
  | .user id, t => .ok (t.user? id, t)
  | .userByWallet wallet, t => .ok (t.userByWallet? wallet, t)
  | .claim k id, t => t.claim now k id
  | .update k id o, t => (t.update now k id o).map ((), ·)
  | .release c n, t => (t.release c n).map ((), ·)

end Tables

end Ledger

end Payout
