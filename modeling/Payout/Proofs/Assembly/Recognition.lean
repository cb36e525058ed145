import Payout.Proofs.Assembly.Acceptance
import Payout.Proofs.Assembly.Signing
import Payout.Proofs.Evm.Spelling
import Payout.Proofs.Settlement.Authority

/-!
# Recognising addresses

How far a settler recognises an address by what it stands for. Spellings of the same bytes are
recognised if both have the mark or both do not: such a spelling of the vault's address sends an
asset by way of the vault, and such a spelling of the wallet of a user keeps an asset that is not
linked from being sent to it (`recognises_of_accepted`).
-/

namespace Payout
open Program Settlement Settings Ledger Text

namespace Settlement

/-- An asset for whose row a call is made is one that its destination may have. -/
lemma owned_of_sent {s : Settler} {known : KnownDecimals} {b : Surroundings} {t : Tables}
    {w : Withdrawal AssetOrder} {x : AssetPayout} {a : Asset} (first : t.row? .asset w.id = some w)
    (free : w.state = .unprocessed) (set : s.assetPayout w.order.assetClass = some x)
    (recorded : t.asset? w.order.assetClass w.order.tokenId = some a)
    (called : sent (onBehalf .asset w.id (s.passOver b known t).trace) ≠ []) : Owned t a := by
  obtain ⟨_, -, swept⟩ := passOver_swept s b known t
  obtain ⟨i, waits⟩ := exists_waits first free
  obtain ⟨es, v, now, refusals, settled, -, all, refused⟩ := swept.settled_of_waits waits
  obtain ⟨pre, fs, post, t₁, a₁, rfl, before, after, course, served, keeps, recorded₁⟩ :=
    settled.handOut set recorded
  have same := keeps.asset? w.order.assetClass w.order.tokenId
  rw [recorded, recorded₁] at same
  have handed : sent (onBehalf .asset w.id (s.passOver b known t).trace) = sent fs := by
    rw [all, List.append_assoc]
    exact (before.around (after.append (apart_of_refusals refused))).1
  rw [handed] at called
  obtain ⟨owned, -, -⟩ | ⟨-, none, -⟩ :=
    course.authority served (List.find?_some recorded₁) (s.assetClass_eq set)
  · exact (owned_iff_of_keeps keeps (Option.some.inj same)).1 owned
  · exact absurd none called

/-- Where an asset is said to be settles whether it is moved out of the vault. -/
lemma path_of_custody {x : AssetPayout} {a : Asset} {location : String}
    (custody : a.custody = some location) :
    x.path a = if sameAddress location x.vault then
        .ok (x.vaultSigner, .transferFromVault x.assetClass a.destination a.tokenId)
      else .error (.untrackedCustody s!"{a.assetClass.name} #{a.tokenId}" location) := by
  rw [AssetPayout.path, custody]

end Settlement

namespace Assembly

/-- A settler built from settings that recognises addresses as far as they have the same mark. -/
structure Recognises (s : Settings) (x : Assembly) : Prop where
  /-- An asset is moved out of the vault if it is held by a spelling of the vault's address with the
  same mark, and left alone if the mark differs. -/
  vault : ∀ {c p f location} {a : Asset}, x.settler.assetPayout c = some p →
    a.custody = some location →
    (addressCheck f location).holds = true →
      Address.read location = Address.read s.chain.vaultAddress →
      p.path a = if Marked location ↔ Marked s.chain.vaultAddress then
          .ok (p.vaultSigner, .transferFromVault p.assetClass a.destination a.tokenId)
        else .error (.untrackedCustody s!"{a.assetClass.name} #{a.tokenId}" location)
  /-- In a pass over tables, no call is made for an asset without a user if a spelling of its
  destination with the same mark is the wallet of one. -/
  unlinked : ∀ {known b t p} {w : Withdrawal AssetOrder} {a : Asset}, t.row? .asset w.id = some w →
    w.state = .unprocessed → x.settler.assetPayout w.order.assetClass = some p →
    t.asset? w.order.assetClass w.order.tokenId = some a → a.userId = none →
    sent (onBehalf .asset w.id (x.settler.passOver b known t).trace) ≠ [] →
      ∀ user ∈ t.users, ∀ {f g wallet}, user.wallet = some wallet →
        (addressCheck f wallet).holds = true →
        (addressCheck g a.destination).holds = true →
          Address.read wallet = Address.read a.destination →
          ¬ (Marked wallet ↔ Marked a.destination)

/-- **Addresses are recognised by their bytes if they have the same mark.** Two texts that are
accepted as addresses are found to be the same if and only if they are read as the same bytes and
both have the mark `0x` or both do not. So a settler that is built from accepted settings recognises
the vault and the wallets of users in spellings with the same mark. -/
theorem recognises_of_accepted (f g a b : String) :
    ((addressCheck f a).holds = true → (addressCheck g b).holds = true →
        (sameAddress a b = true ↔ Address.read a = Address.read b ∧ (Marked a ↔ Marked b))) ∧
      ∀ {s : Settings} {given hs x store}, Accepted s → (build s given).Ends hs (.ok (x, store)) →
        Recognises s x := by
  refine ⟨sameAddress_iff, fun {s given hs x store} accepted built => ⟨?_, ?_⟩⟩
  · intro c p f location a set custody spelled bytes
    rw [(wired_of_build built).asset] at set
    obtain ⟨y, -, rfl⟩ := Option.map_eq_some_iff.1 set
    have vault : (assetPayout s x.connection c y).vault = s.chain.vaultAddress := rfl
    have same := sameAddress_iff spelled accepted.vaultCheck
    rw [path_of_custody custody, vault]
    exact if_congr (same.trans (and_iff_right bytes)) rfl rfl
  · intro known b t p w a first free set recorded unlinked called user mem f g wallet registered
      spelled spelled' bytes
    have owned := owned_of_sent first free set recorded called
    rw [Owned, unlinked] at owned
    intro marks
    have same := (sameAddress_iff spelled spelled').2 ⟨bytes, marks⟩
    exact absurd (owned user mem wallet registered) (by rw [same]; decide)

/-- The address `5FbD…` with the mark and without is one address, but is not recognised as one. -/
theorem not_recognised_without_mark :
    ¬ ∀ f g a b : String, (addressCheck f a).holds = true → (addressCheck g b).holds = true →
      (sameAddress a b = true ↔ Address.read a = Address.read b) := by
  intro all
  let marked := "0x5FbDB2315678afecb367f032d93F642f64180aa3"
  let bare := "5FbDB2315678afecb367f032d93F642f64180aa3"
  have markedCheck : (addressCheck "" marked).holds = true := by decide +kernel
  have bareCheck : (addressCheck "" bare).holds = true := by decide +kernel
  have read : Address.read marked = Address.read bare :=
    read_eq_of_digits markedCheck bareCheck (by decide +kernel)
  have apart : sameAddress marked bare = false := by decide +kernel
  rw [(all "" "" marked bare markedCheck bareCheck).2 read] at apart
  cases apart

/-- A document with a contract for parts. -/
def partDocument : List Char :=
  usdcDocument ++ "[assets.part]\nmetadata_base_uri = \"ipfs/\"\n".toList ++
    digitEntry "contract" 40 '5'

/-- A row for a part without a user, and a user whose wallet is spelled without the mark. -/
def strayPart (destination : String) : Tables :=
  ⟨[.new "w" ⟨.part, 7⟩], [], [⟨.part, 7, destination, none, none, .withdrawing, none⟩],
    [⟨"u", some "5FbDB2315678afecb367f032d93F642f64180aa3"⟩]⟩

/-- How many calls are made for the row in a pass. -/
def strayCalls (x : Assembly) (destination : String) : Nat :=
  (sent (onBehalf .asset "w"
    (x.settler.passOver atNoon (fun _ => none) (strayPart destination)).trace)).length

/-- How many calls a settler that is built from settings makes for the row if the wallet is spelled
in lower case, and how many if it is spelled with the mark. -/
def strayBuild (s : Settings) : Option (Nat × Nat) :=
  ((build s none).path willing).2.toOption.map fun (x, _) =>
    (strayCalls x "5fbdb2315678afecb367f032d93f642f64180aa3",
      strayCalls x "0x5FbDB2315678afecb367f032d93F642f64180aa3")

/-- One wallet spelled without the mark: the asset is withheld from a destination without it, and
sent to one with it. -/
theorem recognises_of_accepted_part :
    ∃ s hs x store, ofDocument .empty (String.ofList partDocument) = .ok s ∧
      (build s none).Ends hs (.ok (x, store)) ∧
      Recognises s x ∧ strayCalls x "5fbdb2315678afecb367f032d93f642f64180aa3" = 0 ∧
      strayCalls x "0x5FbDB2315678afecb367f032d93F642f64180aa3" = 1 ∧
      Address.read "5fbdb2315678afecb367f032d93f642f64180aa3" =
        Address.read "5FbDB2315678afecb367f032d93F642f64180aa3" := by
  have plain : references partDocument = [] := by decide +kernel
  have summary :
      (ofText? (String.ofList partDocument)).map (fun s => (s.complaint?, strayBuild s)) =
      some (none, some (0, 1)) := by
    rw [ofText?, Toml.ofText?, String.toList_ofList]
    decide +kernel
  obtain ⟨s, written, summary⟩ := Option.map_eq_some_iff.1 summary
  have read : ofDocument .empty (String.ofList partDocument) = .ok s :=
    ofDocument_of_references plain written (congrArg Prod.fst summary)
  obtain ⟨⟨x, store⟩, built, calls⟩ := Option.map_eq_some_iff.1 (congrArg Prod.snd summary)
  have ends := ends_path willing (build s none)
  cases result : ((build s none).path willing).2 with
  | error e =>
    rw [result] at built
    cases built
  | ok x' =>
    rw [result] at ends built
    cases built
    obtain ⟨same, settler⟩ :=
      recognises_of_accepted "" "" "5fbdb2315678afecb367f032d93f642f64180aa3"
      "5FbDB2315678afecb367f032d93F642f64180aa3"
    have bytes := ((same (by decide +kernel) (by decide +kernel)).1 (by decide +kernel)).1
    obtain ⟨lower, marked⟩ := Prod.mk.inj calls
    exact ⟨s, _, x, store, read, ends, settler (.document read) ends, lower, marked, bytes⟩

end Assembly

end Payout
