import Payout.Evm.Connection
import Payout.Ledger.Opening

/-!
# Wiring a settler

Settings become a ledger, a connection to the chain, and a settler that pays out every class that
settings give a contract. The address that a payout names as its signer is the one of the account
that the connection signs the payout's calls with.
-/

namespace Payout

def CallKind.role : CallKind → SignerRole
  | .mint => .minter
  | .transfer => .treasury

/-- How transactions are priced and awaited, by settings. -/
def Settings.policy (s : Settings) : Settlement.Policy where
  feePercent := s.gas.adjustmentPercent
  estimateWindowMs := 1000 * s.gas.retryWindowSecs.toNat
  confirmations := s.service.confirmations
  timeoutMs := 1000 * s.service.confirmationTimeoutSecs.toNat
  releaseWindowMs := 1000 * s.ledger.retryWindowSecs.toNat

/-- A settler wired to a chain. -/
structure Assembly where
  settler : Settlement.Settler
  connection : Connection
  assetContract : AssetClass → Option AssetContract
  currencyContract : CurrencyClass → Option Address
  /-- The rest between two passes in milliseconds. -/
  intervalMs : Nat

namespace Assembly

open Host (log onDisk)

/-- The part of the program that wires settlers. -/
def target : String := "settler_core::builder"

/-- A settler that pays nothing out. -/
def idle (s : Settings) (x : Connection) : Assembly :=
  ⟨.idle s.policy, x, fun _ => none, fun _ => none, 1000 * s.service.pollIntervalSecs.toNat⟩

/-- Pays out a class of assets from a contract. -/
def withAsset (a : Assembly) (p : Settlement.AssetPayout) (contract : AssetContract) : Assembly :=
  { a with
    settler := a.settler.withAsset p
    assetContract := fun c => if c = p.assetClass then some contract else a.assetContract c }

/-- Pays out a currency from a contract. -/
def withCurrency (a : Assembly) (p : Settlement.CurrencyPayout) (contract : Address) : Assembly :=
  { a with
    settler := a.settler.withCurrency p
    currencyContract := fun c =>
      if c = p.currencyClass then some contract else a.currencyContract c }

/-- How settings pay out a class of assets. -/
def assetPayout (s : Settings) (x : Connection) (c : AssetClass) (a : AssetSettings) :
    Settlement.AssetPayout :=
  ⟨c, s.chain.vaultAddress, x.signer .vault, x.signer .minter, a.metadataBaseUri⟩

/-- How settings pay out a currency. -/
def currencyPayout (x : Connection) (c : CurrencyClass) (s : CurrencySettings) :
    Settlement.CurrencyPayout :=
  ⟨c, s.callFor c, x.signer (s.callFor c).role, s.scaleFor c⟩

/-- A class that settings give a contract. -/
inductive Registration where
  | asset (c : AssetClass) (a : AssetSettings)
  | currency (c : CurrencyClass) (a : CurrencySettings)

/-- The classes of settings, assets first. -/
def registrations (s : Settings) : List Registration :=
  s.assets.map (fun (c, a) => .asset c a) ++ s.currencies.map (fun (c, a) => .currency c a)

/-- The report of a class that was registered. -/
def Registration.notice : Registration → LogLine
  | asset c a =>
    ⟨.info, target, "Registered NFT executor",
      [("asset_class", .text c.name), ("contract", .text a.contract)]⟩
  | currency c a =>
    ⟨.info, target, "Registered currency executor",
      [("currency_class", .text c.symbol), ("contract", .text a.contract),
        ("call", .text (a.callFor c).title)]⟩

/-- Registers a class, once the addresses of its contract are read. -/
def register (s : Settings) (a : Assembly) : Registration → Except ChainError Assembly
  | .asset c x => do
    let contract ← Connection.assetContract x.contract s.chain.vaultAddress
    pure (a.withAsset (assetPayout s a.connection c x) contract)
  | .currency c x => do
    let contract ← Connection.readAddress x.contract
    pure (a.withCurrency (currencyPayout a.connection c x) contract)

/-- Registers classes one after another and reports each. -/
def registerAll (s : Settings) (a : Assembly) :
    List Registration → Program Host.interface (Except ChainError Assembly)
  | [] => pure (.ok a)
  | r :: rest =>
    match register s a r with
    | .error e => pure (.error e)
    | .ok a => do
      log r.notice
      registerAll s a rest

/-- The settler that settings describe, connected to the chain. -/
def connect (s : Settings) : Program Host.interface (Except ChainError Assembly) := do
  match ← Connection.connect s.chain.rpcUrl s.chain.chainId s.signers with
  | .error e => pure (.error e)
  | .ok x => registerAll s (idle s x) (registrations s)

/-- The ledger that settings name, unless one is given. -/
def openLedger (s : Settings) (given : Option Ledger.Store) :
    Program Host.interface (Except SettlementError Ledger.Store) := do
  match given, Ledger.Backend.ofName? s.ledger.backend s.ledger.config with
  | some store, _ => pure (.ok store)
  | none, none => pure (.error (.config s!"Unknown ledger backend: {s.ledger.backend}"))
  | none, some b => do
    let opened ← onDisk (Ledger.Store.opened b)
    pure (opened.mapError .ledger)

/-- Opens the ledger and connects the settler, in this order. -/
def build (s : Settings) (given : Option Ledger.Store) :
    Program Host.interface (Except SettlementError (Assembly × Ledger.Store)) := do
  match ← openLedger s given with
  | .error e => pure (.error e)
  | .ok store =>
    match ← connect s with
    | .error e => pure (.error (.chain e))
    | .ok a => pure (.ok (a, store))

end Assembly

end Payout
