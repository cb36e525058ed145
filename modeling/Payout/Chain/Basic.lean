import Payout.Currency
import Payout.Asset
import Payout.Transaction

/-!
# The chain

The contract calls that pay withdrawals out, and what can go wrong on the way.
-/

namespace Payout

/-- Why the chain did not do what it was asked. -/
inductive ChainError where
  | invalidAddress (reason : String)
  | config (reason : String)
  | rpc (reason : String)
  | submission (reason : String)
  | confirmation (reason : String)
  /-- No receipt arrived in time; the transaction may still be included. -/
  | confirmationTimeout (hash : TransactionHash) (afterSecs : Nat)
deriving DecidableEq

namespace ChainError

def message : ChainError → String
  | invalidAddress reason => s!"Invalid address: {reason}"
  | config reason => s!"Configuration error: {reason}"
  | rpc reason => s!"RPC error: {reason}"
  | submission reason => s!"Submission failed: {reason}"
  | confirmation reason => s!"Confirmation failed: {reason}"
  | confirmationTimeout hash secs => s!"Timed out after {secs}s waiting for {hash.text}"

def kind : ChainError → String
  | invalidAddress _ => "InvalidAddress"
  | config _ => "Config"
  | rpc _ => "Rpc"
  | submission _ => "Submission"
  | confirmation _ => "Confirmation"
  | confirmationTimeout _ _ => "ConfirmationTimeout"

/-- Whether the same question may be answered when it is asked again. -/
def isTransient : ChainError → Bool
  | rpc _ => true
  | _ => false

end ChainError

/-- A key that signs a group of calls. -/
inductive SignerRole where
  /-- Moves tokens out of the vault. -/
  | vault
  /-- Creates assets and vault-minted currency. -/
  | minter
  /-- Hands over currency it holds. -/
  | treasury
deriving DecidableEq

/-- A call that pays a withdrawal out. -/
inductive ContractCall where
  /-- Creates a token that never existed, for its receiver. -/
  | mintAsset (assetClass : AssetClass) (receiver : String) (tokenId : UInt64) (uri : String)
  /-- Moves a token out of the vault. -/
  | transferFromVault (assetClass : AssetClass) (receiver : String) (tokenId : UInt64)
  /-- Creates units of a currency. -/
  | mintCurrency (currencyClass : CurrencyClass) (receiver : String) (amount : Nat)
  /-- Hands over units of a currency from the treasury. -/
  | transferCurrency (currencyClass : CurrencyClass) (receiver : String) (amount : Nat)
deriving DecidableEq

/-- The role whose key signs a call. -/
def ContractCall.role : ContractCall → SignerRole
  | .mintAsset .. => .minter
  | .transferFromVault .. => .vault
  | .mintCurrency .. => .minter
  | .transferCurrency .. => .treasury

end Payout
