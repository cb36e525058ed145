import Payout.Evm.Address
import Payout.Transaction

/-!
# The node

What the program asks of the node that leads to the chain. A transaction is sent with the account
that signs it.
-/

namespace Payout

/-- A private key and the address it signs for. -/
structure Account where
  key : PrivateKey
  address : Address
  address_eq : address = key.address

def Account.ofKey (key : PrivateKey) : Account := ⟨key, key.address, rfl⟩

namespace Node

/-- Why a node does not answer. -/
inductive Failure where
  /-- The node says so. -/
  | refused (code : Int) (reason : String) (data : Option Json)
  /-- The node cannot be asked, or what it says is no answer. -/
  | unusable (reason : String)

def Failure.message : Failure → String
  | refused code reason data =>
    let more := data.elim "" fun v => s!", data: {v.compactText}"
    s!"server returned an error response: error code {code}: {reason}{more}"
  | unusable reason => reason

/-- A transaction that calls a contract. -/
structure Call where
  /-- The contract. -/
  target : Address
  nonce : UInt64
  gasPrice : Nat
  chainId : UInt64
  input : List UInt8
deriving DecidableEq

/-- What a node says of a transaction in a block. -/
structure Report where
  hash : TransactionHash
  block : Option UInt64
  success : Bool
  raw : Json

/-- What is asked of a node. -/
inductive Request where
  /-- The number of its chain. -/
  | chainId
  /-- A gas price that should do at present. -/
  | gasPrice
  /-- How many transactions an address sent, those not yet in a block included. -/
  | pendingCount (a : Address)
  /-- What a function of a contract returns. -/
  | view (target : Address) (input : List UInt8)
  /-- How much gas a transaction of an address would use. -/
  | gas (sender : Address) (c : Call)
  /-- Takes a transaction signed by an account; the answer is its hash. -/
  | send (signer : Account) (c : Call) (gas : Nat)
  /-- The report of a transaction once its block lies deep enough; none when the time, in
  milliseconds, is over before that. -/
  | report (hash : TransactionHash) (confirmations : UInt64) (timeoutMs : Nat)

/-- What a node answers when it does. -/
abbrev Request.Value : Request → Type
  | .chainId => UInt64
  | .gasPrice => Nat
  | .pendingCount _ => UInt64
  | .view _ _ => List UInt8
  | .gas _ _ => Nat
  | .send _ _ _ => TransactionHash
  | .report _ _ _ => Option Report

end Node

end Payout
