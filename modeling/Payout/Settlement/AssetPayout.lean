import Payout.Settlement.Submission

/-!
# Paying out assets

An asset goes to its destination only if that wallet is the linked user's or, for an unlinked asset,
nobody's. A token held by the vault is moved out of it; one that was never minted is minted for its
receiver; one that somebody else holds is left alone.
-/

namespace Payout.Settlement

/-- How assets of one class are paid out. -/
structure AssetPayout where
  assetClass : AssetClass
  /-- The address of the vault. -/
  vault : String
  /-- The address that signs moves out of the vault. -/
  vaultSigner : String
  /-- The address that signs mints. -/
  mintSigner : String
  /-- What a token's number is appended to for its metadata. -/
  baseUri : String

namespace AssetPayout

/-- Why an asset may not go to its destination, given its linked user's wallet or the user who
registered the destination. -/
def mismatch? (a : Asset) (wallet : Option String) (owner : Option User) : Option String :=
  match a.userId with
  | some id =>
    match wallet with
    | some wallet =>
      if sameAddress wallet a.destination then none
      else some s!"user {id} has wallet {wallet}, withdrawal targets {a.destination}"
    | none => some s!"user {id} has no registered wallet, withdrawal targets {a.destination}"
  | none => owner.map fun owner =>
    s!"asset is unlinked but {a.destination} belongs to user {owner.id}"

/-- Checks that the destination is the linked user's wallet or, without one, nobody's. -/
def checkOwnership (a : Asset) : Step (Except SettlementError Unit) := do
  let verdict (wallet : Option String) (owner : Option User) : Except SettlementError Unit :=
    match mismatch? a wallet owner with
    | some reason => .error (.ownershipMismatch reason)
    | none => .ok ()
  match a.userId with
  | some id =>
    match ← ledger (.user id) with
    | .error e => pure (.error (.ledger e))
    | .ok (user : Option User) => pure (verdict (user.bind User.wallet) none)
  | none =>
    match ← ledger (.userByWallet a.destination) with
    | .error e => pure (.error (.ledger e))
    | .ok (owner : Option User) => pure (verdict none owner)

/-- The call that hands an asset out, and the address that signs it. -/
def path (x : AssetPayout) (a : Asset) : Except SettlementError (String × ContractCall) :=
  match a.custody with
  | none =>
    .ok (x.mintSigner, .mintAsset x.assetClass a.destination a.tokenId s!"{x.baseUri}{a.tokenId}")
  | some location =>
    if sameAddress location x.vault then
      .ok (x.vaultSigner, .transferFromVault x.assetClass a.destination a.tokenId)
    else .error (.untrackedCustody s!"{a.assetClass.name} #{a.tokenId}" location)

/-- Hands an asset out. -/
def settle (x : AssetPayout) (p : Policy) (a : Asset) :
    Step (Except SettlementError Confirmed) := do
  match ← checkOwnership a with
  | .error e => pure (.error e)
  | .ok _ =>
    match x.path a with
    | .error e => pure (.error e)
    | .ok (signer, call) => submit p signer call

/-- Settles a row that was taken up and writes what became of it. Once a transaction is confirmed,
nothing is handed back, even if that cannot be written. -/
def withdraw (x : AssetPayout) (p : Policy) (row : Withdrawal AssetOrder) (a : Asset) :
    Step (Except SettlementError Confirmed) := do
  match ← x.settle p a with
  | .error e => do
    note (.withdrawalFailed .asset e)
    recordFailure p row.id x.assetClass row.order.tokenId e true
    pure (.error e)
  | .ok confirmed =>
    match ← ledger (.update .asset row.id confirmed.outcome) with
    | .error e => do
      note (.confirmedNotRecorded confirmed.submitted.hash e)
      pure (.error (.ledger e))
    | .ok _ => do
      note (.settled .asset confirmed.submitted.hash confirmed.submitted.nonce)
      pure (.ok confirmed)

end AssetPayout

end Payout.Settlement
