import Payout.Chain.Basic
import Payout.Evm.Abi
import Payout.Evm.Url
import Payout.Host
import Payout.Settings.Basic

/-!
# Connections to the chain

A connection holds one account for each role of signers. Over it contracts are called: the account
of the call's role takes the next nonce of its address, signs, and sends.
-/

namespace Payout

/-- The contract of a class of assets and the vault that holds them. -/
structure AssetContract where
  token : Address
  vault : Address
deriving DecidableEq

/-- The accounts of all roles on a chain. -/
structure Connection where
  chainId : UInt64
  vault : Account
  minter : Account
  treasury : Account

namespace Connection

open Host (askNode log)

/-- The part of the program that talks to the chain. -/
def target : String := "settler_chain::implementations::evm::alloy"

def account (x : Connection) : SignerRole → Account
  | .vault => x.vault
  | .minter => x.minter
  | .treasury => x.treasury

/-- The address of a role as it is written down. -/
def signer (x : Connection) (role : SignerRole) : String := (x.account role).address.text

def readAddress (text : String) : Except ChainError Address :=
  (Address.read text).mapError fun e => .invalidAddress s!"{text}: {e.message}"

/-- The account of a private key in writing. -/
def readAccount (text : String) : Except ChainError Account :=
  match PrivateKey.read text with
  | .ok key => .ok (.ofKey key)
  | .error e => .error (.config s!"Invalid private key: {e.message}")

/-- The accounts of all keys. -/
def ofKeys (chainId : UInt64) (keys : SignerSettings) : Except ChainError Connection := do
  let vault ← readAccount keys.vault
  let minter ← readAccount keys.minter
  let treasury ← readAccount keys.treasury
  pure ⟨chainId, vault, minter, treasury⟩

/-- The report of a connection. -/
def notice (x : Connection) : LogLine :=
  ⟨.info, target, "Connected to chain",
    [("chain_id", .number x.chainId.toNat), ("vault_signer", .text (x.signer .vault)),
      ("minter", .text (x.signer .minter)), ("treasury", .text (x.signer .treasury))]⟩

/-- Connects to the node at an address, which has to serve the chain of a number. -/
def connect (url : String) (chainId : UInt64) (keys : SignerSettings) :
    Program Host.interface (Except ChainError Connection) := do
  if !Url.isValid url then
    pure (.error (.config "Invalid RPC URL: not the address of a node"))
  else
    match ← askNode .chainId with
    | .error e => pure (.error (.rpc s!"Failed to get chain ID: {e.message}"))
    | .ok (served : UInt64) =>
      if served ≠ chainId then
        pure (.error (.config s!"Chain ID mismatch: expected {chainId}, got {served}"))
      else
        match ofKeys chainId keys with
        | .error e => pure (.error e)
        | .ok x => do
          log x.notice
          pure (.ok x)

/-- The contract of a class of assets, by the addresses of the token and the vault. -/
def assetContract (token vault : String) : Except ChainError AssetContract := do
  let token ← readAddress token
  let vault ← readAddress vault
  pure ⟨token, vault⟩

/-- A call as it is sent: the contract, its input, and what is said when it cannot be sent. -/
structure Order where
  target : Address
  input : List UInt8
  complaint : String

def mintAssetOrder (c : AssetContract) (receiver : Address) (tokenId : UInt64) (uri : String) :
    Order :=
  ⟨c.token, Abi.call "mint" [.address receiver, .number tokenId.toNat, .text uri],
    "Failed to send mint"⟩

/-- The order that moves an asset out of the vault. -/
def transferFromVaultOrder (c : AssetContract) (receiver : Address) (tokenId : UInt64) : Order :=
  ⟨c.vault, Abi.call "transferFromVault"
    [.address c.token, .address receiver, .number tokenId.toNat], "Failed to send vault transfer"⟩

def mintCurrencyOrder (contract receiver : Address) (amount : Nat) : Order :=
  ⟨contract, Abi.call "mint" [.address receiver, .number amount], "Failed to send currency mint"⟩

def transferCurrencyOrder (contract receiver : Address) (amount : Nat) : Order :=
  ⟨contract, Abi.call "transfer" [.address receiver, .number amount], "Failed to send transfer"⟩

/-- The report of a transaction that was sent. -/
def submittedNotice (hash : TransactionHash) (nonce : UInt64) : LogLine :=
  ⟨.info, target, "Submitted transaction",
    [("tx_hash", .text hash.short), ("nonce", .number nonce.toNat)]⟩

/-- Sends an order from the account of a role: the next nonce of its address, an estimate of the
gas, then the signed transaction. -/
def submit (x : Connection) (role : SignerRole) (o : Order) (gasPrice : Nat) :
    Program Host.interface (Except ChainError Pending) := do
  let signer := x.account role
  match ← askNode (.pendingCount signer.address) with
  | .error e => pure (.error (.rpc s!"Failed to get nonce: {e.message}"))
  | .ok (nonce : UInt64) =>
    let c : Node.Call := ⟨o.target, nonce, gasPrice, x.chainId, o.input⟩
    match ← askNode (.gas signer.address c) with
    | .error e => pure (.error (.submission s!"{o.complaint}: {e.message}"))
    | .ok (gas : Nat) =>
      match ← askNode (.send signer c gas) with
      | .error e => pure (.error (.submission s!"{o.complaint}: {e.message}"))
      | .ok (hash : TransactionHash) => do
        log (submittedNotice hash nonce)
        pure (.ok ⟨hash, nonce, 0⟩)

/-- The order of a call, once its receiver is read. -/
def order (asset : AssetClass → Option AssetContract) (currency : CurrencyClass → Option Address)
    (call : ContractCall) : Except ChainError Order :=
  let found {α : Type} (contract : Option α) : Except ChainError α :=
    match contract with
    | some a => .ok a
    | none => .error (.config "no contract for the class")
  match call with
  | .mintAsset c receiver tokenId uri => do
    let contract ← found (asset c)
    pure (mintAssetOrder contract (← readAddress receiver) tokenId uri)
  | .transferFromVault c receiver tokenId => do
    let contract ← found (asset c)
    pure (transferFromVaultOrder contract (← readAddress receiver) tokenId)
  | .mintCurrency c receiver amount => do
    let contract ← found (currency c)
    pure (mintCurrencyOrder contract (← readAddress receiver) amount)
  | .transferCurrency c receiver amount => do
    let contract ← found (currency c)
    pure (transferCurrencyOrder contract (← readAddress receiver) amount)

/-- The report of a wait. -/
def waitNotice (hash : TransactionHash) (confirmations : UInt64) (timeoutMs : Nat) : LogLine :=
  ⟨.info, target, s!"Waiting for {confirmations} confirmations (timeout: {timeoutMs / 1000}s)",
    [("tx_hash", .text hash.short)]⟩

/-- Waits for the receipt of a sent transaction. -/
def wait (p : Pending) (confirmations : UInt64) (timeoutMs : Nat) :
    Program Host.interface (Except ChainError Receipt) := do
  log (waitNotice p.hash confirmations timeoutMs)
  match ← askNode (.report p.hash confirmations timeoutMs) with
  | .error e => pure (.error (.confirmation s!"Failed to get receipt: {e.message}"))
  | .ok (found : Option Node.Report) =>
    match found with
    | none => pure (.error (.confirmationTimeout p.hash (timeoutMs / 1000)))
    | some r => pure (.ok ⟨r.hash, r.block.getD 0, r.success, some r.raw⟩)

/-- The number of decimals that a contract reports. -/
def decimals (contract : Address) : Program Host.interface (Except ChainError UInt8) := do
  match ← askNode (.view contract (Abi.call "decimals" [])) with
  | .error e => pure (.error (.rpc s!"Failed to read decimals: {e.message}"))
  | .ok (answer : List UInt8) =>
    match Abi.firstWord? answer with
    | some n => pure (.ok (UInt8.ofNat n))
    | none => pure (.error (.rpc "Failed to read decimals: the answer is too short"))

/-- The node's gas price. -/
def estimate : Program Host.interface (Except ChainError Nat) := do
  match ← askNode .gasPrice with
  | .ok (price : Nat) => pure (.ok price)
  | .error e => pure (.error (.rpc s!"Failed to get gas price: {e.message}"))

end Connection

end Payout
