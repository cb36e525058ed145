import Payout.Settings.Variables
import Payout.Toml.Record

/-!
# Reading settings

The settings that a TOML table says. Sections and entries that are not known are passed over.
-/

namespace Payout

open Toml (string? uint64?)

namespace Toml.Field

variable {α : Type}

/-- A field that may be missing from a table. -/
def nullable (read : Toml → Option α) : Toml.Field → Option (Option α) :=
  Payout.Field.omittable none fun v => some <$> read v

/-- A field that may be missing. -/
def optional (read : Toml → Option α) : Toml.Field → Option (Option α) :=
  Payout.Field.withDefault none fun v => some <$> read v

end Toml.Field

/-- Reads the section of the service. -/
def ServiceSettings.ofToml? (v : Toml) : Option ServiceSettings := do
  let names :=
    ["name", "poll_interval_secs", "confirmations", "confirmation_timeout_secs", "log_level"]
  match ← v.fields? names with
  | [name, interval, confirmations, timeout, level] => do
    let name ← name.withDefault default.name string?
    let interval ← interval.withDefault default.pollIntervalSecs uint64?
    let confirmations ← confirmations.withDefault default.confirmations uint64?
    let timeout ← timeout.withDefault default.confirmationTimeoutSecs uint64?
    let level ← level.withDefault default.logLevel string?
    some ⟨name, interval, confirmations, timeout, level⟩
  | _ => none

/-- Reads the section of the ledger. -/
def LedgerSettings.ofToml? (v : Toml) : Option LedgerSettings := do
  match ← v.fields? ["backend", "retry_window_secs", "config"] with
  | [backend, window, config] => do
    let backend ← backend.required string?
    let window ← window.withDefault defaultRetrySecs uint64?
    let config ← config.withDefault (.table []) Toml.kept?
    some ⟨backend, window, config⟩
  | _ => none

/-- Reads the section of the chain. -/
def ChainSettings.ofToml? (v : Toml) : Option ChainSettings := do
  match ← v.fields? ["rpc_url", "chain_id", "vault_address"] with
  | [url, id, vault] => do
    let url ← url.required string?
    let id ← id.required uint64?
    let vault ← vault.required string?
    some ⟨url, id, vault⟩
  | _ => none

/-- Reads the section of gas. -/
def GasSettings.ofToml? (v : Toml) : Option GasSettings := do
  match ← v.fields? ["adjustment_percent", "retry_window_secs"] with
  | [percent, window] => do
    let percent ← percent.withDefault default.adjustmentPercent uint64?
    let window ← window.withDefault default.retryWindowSecs uint64?
    some ⟨percent, window⟩
  | _ => none

/-- Reads the section of signers. -/
def SignerSettings.ofToml? (v : Toml) : Option SignerSettings := do
  match ← v.fields? ["vault", "minter", "treasury"] with
  | [vault, minter, treasury] => do
    let vault ← vault.required string?
    let minter ← minter.required string?
    let treasury ← treasury.required string?
    some ⟨vault, minter, treasury⟩
  | _ => none

/-- Reads the entry of a class of assets. -/
def AssetSettings.ofToml? (v : Toml) : Option AssetSettings := do
  match ← v.fields? ["contract", "metadata_base_uri"] with
  | [contract, uri] => do
    let contract ← contract.required string?
    let uri ← uri.required string?
    some ⟨contract, uri⟩
  | _ => none

/-- Reads the entry of a currency. -/
def CurrencySettings.ofToml? (v : Toml) : Option CurrencySettings := do
  match ← v.fields? ["contract", "call", "internal_scale"] with
  | [contract, call, scale] => do
    let contract ← contract.required string?
    let call ← Toml.Field.optional (Toml.name? CallKind.ofName?) call
    let scale ← Toml.Field.optional uint64? scale
    some ⟨contract, call, scale⟩
  | _ => none

namespace Settings

/-- Reads an entry for each class of a list of three, by the names of the classes. -/
def entries? {κ α : Type} [DecidableEq κ] (all : List κ) (name : κ → String)
    (read : Toml → Option α) (v : Toml) : Option (κ → Option α) := do
  let fields ← v.fields? (all.map name)
  let found ← fields.mapM (Toml.Field.nullable read)
  some fun c => ((all.zip found).lookup c).join

def ofToml? (v : Toml) : Option Settings := do
  let names := ["settler", "ledger", "chain", "gas", "signers", "assets", "currencies"]
  match ← v.fields? names with
  | [service, ledger, chain, gas, signers, assets, currencies] => do
    let service ← service.required ServiceSettings.ofToml?
    let ledger ← ledger.required LedgerSettings.ofToml?
    let chain ← chain.required ChainSettings.ofToml?
    let gas ← gas.withDefault .default GasSettings.ofToml?
    let signers ← signers.required SignerSettings.ofToml?
    let asset ← assets.withDefault (fun _ => none)
      (entries? AssetClass.all AssetClass.name AssetSettings.ofToml?)
    let currency ← currencies.withDefault (fun _ => none)
      (entries? CurrencyClass.all CurrencyClass.name CurrencySettings.ofToml?)
    some ⟨service, ledger, chain, gas, signers, asset, currency⟩
  | _ => none

/-- Reads the settings of a document without references. -/
def ofText? (text : String) : Option Settings := do ofToml? (← Toml.ofText? text)

def read (env : Environment) (document : String) : Except SettingsError Settings := do
  match ofText? (← substitute env document) with
  | some s => .ok s
  | none => .error (.malformed "not a settings document")

end Settings

end Payout
