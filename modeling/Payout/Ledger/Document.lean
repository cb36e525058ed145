import Payout.Decimal.Reader
import Payout.Instant.Reader
import Payout.Json.Record
import Payout.Ledger.Tables

/-!
# The ledger document

The written form of the tables: a JSON object with an array for each table, every row a record with
its fields in a fixed order. Amounts and instants are text. Each type has a writer and a reader.
-/

namespace Payout

/-- An amount as text. -/
def Decimal.toJson (a : Decimal) : Json := .string (String.ofList a.text)

/-- Reads an amount from text or a number. -/
def Decimal.ofJson? : Json → Option Decimal
  | .string s => ofText? s.toList
  | .integer n => ofParts? n 0
  | .float x => ofBinary64? x
  | _ => none

def Instant.toJson (i : Instant) : Json := .string (String.ofList i.text)

def Instant.ofJson? : Json → Option Instant
  | .string s => ofText? s.toList
  | _ => none

namespace TransactionHash

/-- A hash as an array of its bytes. -/
def toJson (h : TransactionHash) : Json := .array (h.bytes.map fun b => .integer b.toNat)

def ofJson? (v : Json) : Option TransactionHash := mk <$> Json.list? Json.uint8? v

end TransactionHash

namespace Receipt

/-- A receipt as a record. -/
def toJson (r : Receipt) : Json := .object
  [("hash", r.hash.toJson), ("block_number", Json.ofUInt64 r.block), ("success", .bool r.success),
    ("raw", r.raw.getD .null)]

def ofJson? (v : Json) : Option Receipt := do
  match ← Json.fields? ["hash", "block_number", "success", "raw"] v with
  | [hash, block, success, raw] => do
    let hash ← hash.required TransactionHash.ofJson?
    let block ← block.required Json.uint64?
    let success ← success.required Json.bool?
    let raw ← raw.nullable (Json.freeWithin? 1)
    some ⟨hash, block, success, raw⟩
  | _ => none

end Receipt

namespace Outcome

/-- The names of an outcome's fields. -/
def fieldNames : List String :=
  ["state", "error_message", "tx_hash", "nonce", "signer_address", "raw_response"]

def members (o : Outcome) : List (String × Json) :=
  [("state", .string o.state.name), ("error_message", Json.ofOption .string o.errorMessage),
    ("tx_hash", Json.ofOption .string o.txHash), ("nonce", Json.ofOption Json.ofUInt64 o.nonce),
    ("signer_address", Json.ofOption .string o.signer),
    ("raw_response", Json.ofOption .string o.rawResponse)]

/-- An outcome as a record. -/
def toJson (o : Outcome) : Json := .object o.members

/-- Reads the fields of an outcome, of which all but the state may be absent in the way of
`maybe`. -/
def ofFields? (maybe : {α : Type} → (Json → Option α) → Json.Field → Option (Option α)) :
    List Json.Field → Option Outcome
  | [state, errorMessage, txHash, nonce, signer, rawResponse] => do
    let state ← state.required (Json.name? WithdrawalState.ofName?)
    let errorMessage ← maybe Json.string? errorMessage
    let txHash ← maybe Json.string? txHash
    let nonce ← maybe Json.uint64? nonce
    let signer ← maybe Json.string? signer
    let rawResponse ← maybe Json.string? rawResponse
    some ⟨state, errorMessage, txHash, nonce, signer, rawResponse⟩
  | _ => none

/-- Reads an outcome by itself; its array form has to hold every field. -/
def ofJson? (v : Json) : Option Outcome := do
  ofFields? Json.Field.nullable (← Json.fields? fieldNames v)

end Outcome

namespace Kind

/-- The names of the fields that say what a row asks for. -/
def orderNames : Kind → List String
  | .asset => ["asset_class", "token_id"]
  | .currency => ["currency_class", "amount", "destination_address"]

/-- The members that say what a row asks for. -/
def orderMembers : (k : Kind) → k.Order → List (String × Json)
  | .asset, (o : AssetOrder) =>
    [("asset_class", .string o.assetClass.name), ("token_id", Json.ofUInt64 o.tokenId)]
  | .currency, (o : CurrencyOrder) =>
    [("currency_class", .string o.currencyClass.name), ("amount", o.amount.toJson),
      ("destination_address", .string o.destination)]

/-- Reads what a row asks for. -/
def order? : (k : Kind) → List Json.Field → Option k.Order
  | .asset, [assetClass, tokenId] => do
    let assetClass ← assetClass.required (Json.name? AssetClass.ofName?)
    let tokenId ← tokenId.required Json.uint64?
    some (AssetOrder.mk assetClass tokenId)
  | .currency, [currencyClass, amount, destination] => do
    let currencyClass ← currencyClass.required (Json.name? CurrencyClass.ofName?)
    let amount ← amount.required Decimal.ofJson?
    let destination ← destination.required Json.string?
    some (CurrencyOrder.mk currencyClass amount destination)
  | _, _ => none

end Kind

namespace Withdrawal

/-- A row as a record. -/
def toJson {k : Kind} (w : Withdrawal k.Order) : Json :=
  .object (("id", .string w.id) :: k.orderMembers w.order ++ w.outcome.members ++
    [("updated_at", Json.ofOption Instant.toJson w.updatedAt)])

/-- Reads a row. -/
def ofJson? (k : Kind) (v : Json) : Option (Withdrawal k.Order) := do
  let names := "id" :: k.orderNames ++ Outcome.fieldNames ++ ["updated_at"]
  match ← Json.fields? names v with
  | id :: rest => do
    let id ← id.required Json.string?
    let order ← k.order? (rest.take k.orderNames.length)
    let rest := rest.drop k.orderNames.length
    let outcome ← Outcome.ofFields? Json.Field.optional (rest.take Outcome.fieldNames.length)
    match rest.drop Outcome.fieldNames.length with
    | [updatedAt] => do
      let updatedAt ← updatedAt.optional Instant.ofJson?
      some ⟨id, order, outcome, updatedAt⟩
    | _ => none
  | [] => none

end Withdrawal

namespace Asset

/-- An asset as a record. -/
def toJson (a : Asset) : Json := .object
  [("asset_class", .string a.assetClass.name), ("token_id", Json.ofUInt64 a.tokenId),
    ("destination_wallet_address", .string a.destination),
    ("custody_location", Json.ofOption .string a.custody),
    ("user_id", Json.ofOption .string a.userId), ("state", .string a.state.name),
    ("placement", Json.ofOption .string a.placement)]

def ofJson? (v : Json) : Option Asset := do
  let names := ["asset_class", "token_id", "destination_wallet_address", "custody_location",
    "user_id", "state", "placement"]
  match ← Json.fields? names v with
  | [assetClass, tokenId, destination, custody, userId, state, placement] => do
    let assetClass ← assetClass.required (Json.name? AssetClass.ofName?)
    let tokenId ← tokenId.required Json.uint64?
    let destination ← destination.required Json.string?
    let custody ← custody.nullable Json.string?
    let userId ← userId.nullable Json.string?
    let state ← state.required (Json.name? AssetState.ofName?)
    let placement ← placement.nullable Json.string?
    some ⟨assetClass, tokenId, destination, custody, userId, state, placement⟩
  | _ => none

end Asset

namespace User

/-- A user as a record. -/
def toJson (u : User) : Json := .object
  [("id", .string u.id), ("wallet_address", Json.ofOption .string u.wallet)]

def ofJson? (v : Json) : Option User := do
  match ← Json.fields? ["id", "wallet_address"] v with
  | [id, wallet] => do
    let id ← id.required Json.string?
    let wallet ← wallet.nullable Json.string?
    some ⟨id, wallet⟩
  | _ => none

end User

namespace Ledger.Tables

/-- The tables as a record. -/
def toJson (t : Tables) : Json := .object
  [("withdrawals", .array (t.assetRows.map (Withdrawal.toJson (k := .asset)))),
    ("currency_withdrawals", .array (t.currencyRows.map (Withdrawal.toJson (k := .currency)))),
    ("assets", .array (t.assets.map Asset.toJson)), ("users", .array (t.users.map User.toJson))]

/-- Reads tables; each may be missing. -/
def ofJson? (v : Json) : Option Tables := do
  match ← Json.fields? ["withdrawals", "currency_withdrawals", "assets", "users"] v with
  | [assetRows, currencyRows, assets, users] => do
    let assetRows ← assetRows.withDefault [] (Json.list? (Withdrawal.ofJson? .asset))
    let currencyRows ← currencyRows.withDefault [] (Json.list? (Withdrawal.ofJson? .currency))
    let assets ← assets.withDefault [] (Json.list? Asset.ofJson?)
    let users ← users.withDefault [] (Json.list? User.ofJson?)
    some ⟨assetRows, currencyRows, assets, users⟩
  | _ => none

def document (t : Tables) : String := t.toJson.prettyText

def ofDocument? (text : String) : Option Tables := do ofJson? (← Json.ofText? text)

end Ledger.Tables

end Payout
