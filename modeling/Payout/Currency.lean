/-!
# Currencies

Classes of fungible currency and how each is paid out unless settings say otherwise.
-/

namespace Payout

/-- The contract call that pays out a currency. -/
inductive CallKind where
  /-- The currency vault creates new units for the recipient. -/
  | mint
  /-- The treasury hands over units it holds. -/
  | transfer
deriving DecidableEq

namespace CallKind

def all : List CallKind := [.mint, .transfer]

/-- The name of the call in settings. -/
def name : CallKind → String
  | .mint => "mint"
  | .transfer => "transfer"

/-- The name of the call in messages. -/
def title : CallKind → String
  | .mint => "Mint"
  | .transfer => "Transfer"

def ofName? (s : String) : Option CallKind := all.find? (·.name = s)

end CallKind

/-- A class of fungible currency. -/
inductive CurrencyClass where
  | akir
  | akv
  | usdc
deriving DecidableEq

namespace CurrencyClass

/-- Every class, in the order in which classes are listed. -/
def all : List CurrencyClass := [.akir, .akv, .usdc]

/-- The name of the class in the ledger and in settings. -/
def name : CurrencyClass → String
  | .akir => "akir"
  | .akv => "akv"
  | .usdc => "usdc"

/-- The name of the class in messages. -/
def symbol : CurrencyClass → String
  | .akir => "AKIR"
  | .akv => "AKV"
  | .usdc => "USDC"

def ofName? (s : String) : Option CurrencyClass := all.find? (·.name = s)

/-- The call that pays out the class unless settings name one. -/
def defaultCall : CurrencyClass → CallKind
  | .akir => .mint
  | .akv | .usdc => .transfer

/-- The scale of ledger amounts for classes whose amounts are not in on-chain units. -/
def defaultScale : CurrencyClass → Option UInt64
  | .usdc => some 100
  | .akir | .akv => none

end CurrencyClass

end Payout
