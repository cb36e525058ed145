import Payout.Proofs.Assembly.Signing

/-!
# Acceptance

What settings that were accepted mean for the settler that is built from them. Building it does not
fail for an address. In a pass of it, whatever ledger and chain answer, every row that is listed is
asked for. Of those that are granted, a row of a class that has a contract never fails for want of
one, a row of any other class always does, and no amount is scaled by zero
(`serviceable_of_accepted`).
-/

namespace Payout

/-- Whether an error comes from how the settler was set up. -/
def SettlementError.isSetup : SettlementError → Bool
  | config _ => true
  | notConfigured _ => true
  | _ => false

namespace Settlement
open Program

section Errors

variable {s : Settler} {p : Policy} {es : Trace} {e : SettlementError}

/-- A submission fails for what the chain does, never for how the settler was set up. -/
lemma SubmitCourse.isSetup {signer c} (h : SubmitCourse p signer c es (.error e)) :
    e.isSetup = false := by
  cases h <;> rfl

/-- Handing out an asset fails for its owner, its place or the chain, never for the set-up. -/
lemma HandOutCourse.isSetup {x a} (h : HandOutCourse x p a es (.error e)) : e.isSetup = false := by
  cases h with
  | disowned course => obtain ⟨_, rfl⟩ | ⟨_, rfl⟩ := course.eq_of_error <;> rfl
  | untracked _ path =>
    obtain ⟨_, _, rfl⟩ := path_eq_error path
    rfl
  | submitted _ _ submission => exact submission.isSetup

/-- An amount that is not scaled by zero fails for itself. -/
lemma isSetup_of_toChainUnits {amount : Decimal} {r : Option Rescale}
    (scaled : ∀ x, r = some x → x.scale ≠ 0)
    (h : amount.toChainUnits r = .error e) : e.isSetup = false := by
  obtain ⟨x, set, failed⟩ | ⟨_, rfl⟩ := toChainUnits_eq_error h
  · obtain ⟨zero, -⟩ | ⟨_, rfl⟩ := rescale_eq_error failed
    · exact absurd zero (scaled x set)
    · rfl
  · rfl

/-- Converting an amount fails for the amount or for want of its decimals, if the scale is not
zero. -/
lemma AmountCourse.isSetup {x : CurrencyPayout} {amount d d'} (scaled : x.scale ≠ some 0)
    (h : AmountCourse x amount d es (.error e) d') : e.isSetup = false := by
  generalize failed : (Except.error e : Except SettlementError Nat) = r at h
  have notZero {scale : UInt64} (set : x.scale = some scale) (d : UInt8) (r : Rescale)
      (is : some (⟨scale, d⟩ : Rescale) = some r) : r.scale ≠ 0 := by
    rintro zero
    cases is
    exact scaled (set.trans (congrArg some zero))
  cases h with
  | unscaled => exact isSetup_of_toChainUnits (r := none) nofun failed.symm
  | known set => exact isSetup_of_toChainUnits (notZero set _) failed.symm
  | unknown =>
    cases failed
    rfl
  | learnt set => exact isSetup_of_toChainUnits (notZero set _) failed.symm

/-- A payment whose scale is not zero never fails for the set-up. -/
lemma PaymentCourse.isSetup {x : CurrencyPayout} {o d d'} (scaled : x.scale ≠ some 0)
    (h : PaymentCourse x p o d es (.error e) d') : e.isSetup = false := by
  cases h with
  | unconverted amount => exact amount.isSetup scaled
  | submitted _ submission => exact submission.isSetup

end Errors

end Settlement

/-- Whether settings give the class of an order a contract. -/
def Settings.isConfigured (s : Settings) : (k : Kind) → k.Order → Bool
  | .asset, (o : AssetOrder) => (s.asset o.assetClass).isSome
  | .currency, (o : CurrencyOrder) => (s.currency o.currencyClass).isSome

/-- The class of an order, by its name in messages. -/
def Kind.className : (k : Kind) → k.Order → String
  | .asset, (o : AssetOrder) => o.assetClass.name
  | .currency, (o : CurrencyOrder) => o.currencyClass.symbol

namespace Assembly
open Program Settlement Settings
open CurrencyPayout (outcomeOf)

/-- A verdict on an order that the settings bear out. -/
structure BorneOut (s : Settings) (k : Kind) (o : k.Order)
    (v : Except SettlementError Confirmed) : Prop where
  configured : s.isConfigured k o = true → ∀ what, v ≠ .error (.notConfigured what)
  unconfigured : s.isConfigured k o = false → v = .error (.notConfigured (k.className o))
  /-- In particular, no scale is found to be zero. -/
  scaled : ∀ reason, v ≠ .error (.config reason)

section Verdicts

variable {s : Settings} {a : Assembly} {k : Kind} {o : k.Order} {es : Trace}
  {v : Except SettlementError Confirmed}

/-- A verdict on a configured class is borne out if no error in it comes from the set-up. -/
lemma borneOut_of_isSetup (configured : s.isConfigured k o = true)
    (fair : ∀ e, v = .error e → e.isSetup = false) :
    BorneOut s k o v where
  configured _ what failed := by cases fair _ failed
  unconfigured unset := by cases configured.symm.trans unset
  scaled reason failed := by cases fair _ failed

/-- For a class without a contract the verdict that says so is borne out. -/
lemma borneOut_of_unset (unset : s.isConfigured k o = false) :
    BorneOut s k o (.error (.notConfigured (k.className o))) where
  configured set := by cases set.symm.trans unset
  unconfigured _ := rfl
  scaled _ := nofun

/-- Every verdict on an order is borne out by settings that were accepted. -/
lemma Wired.borneOut (wired : Wired s a) (accepted : Accepted s)
    (verdict : Verdict a.settler k o es v) :
    BorneOut s k o v := by
  cases verdict with
  | @unset o unset =>
    rw [wired.asset, Option.map_eq_none_iff] at unset
    exact borneOut_of_unset (k := .asset) (by rw [isConfigured, unset]; rfl)
  | @unloaded o x e set =>
    rw [wired.asset] at set
    obtain ⟨y, configured, -⟩ := Option.map_eq_some_iff.1 set
    refine borneOut_of_isSetup (k := .asset) (by rw [isConfigured, configured]; rfl) ?_
    rintro _ ⟨⟩
    rfl
  | @handedOut o x r es _ set course =>
    rw [wired.asset] at set
    obtain ⟨y, configured, -⟩ := Option.map_eq_some_iff.1 set
    refine borneOut_of_isSetup (k := .asset) (by rw [isConfigured, configured]; rfl) ?_
    rintro _ rfl
    exact course.isSetup
  | @unsetCurrency o unset =>
    rw [wired.currency, Option.map_eq_none_iff] at unset
    exact borneOut_of_unset (k := .currency) (by rw [isConfigured, unset]; rfl)
  | @paid o x d es _ d' set course =>
    rw [wired.currency] at set
    obtain ⟨y, configured, rfl⟩ := Option.map_eq_some_iff.1 set
    refine borneOut_of_isSetup (k := .currency) (by rw [isConfigured, configured]; rfl) ?_
    rintro _ rfl
    exact course.isSetup (accepted.currency configured).2

end Verdicts

section Building

variable {s : Settings} {a : Assembly} {rs : List Registration}

/-- Each class of settings that were accepted can be registered. -/
lemma exists_register (accepted : Accepted s) {r} (mem : r ∈ registrations s) (a : Assembly) :
    ∃ a', register s a r = .ok a' := by
  cases r with
  | asset c x =>
    obtain ⟨contract, read⟩ := accepted.asset (asset_mem_registrations.1 mem)
    obtain ⟨vault, vaultRead⟩ := accepted.vault
    simp only [register, Connection.assetContract, read, vaultRead]
    exact ⟨_, rfl⟩
  | currency c x =>
    obtain ⟨contract, read⟩ := (accepted.currency (currency_mem_registrations.1 mem)).1
    simp only [register, read]
    exact ⟨_, rfl⟩

/-- Classes that can each be registered are registered one after another without an error. -/
lemma registerAll_ne_error {hs e} (each : ∀ r ∈ rs, ∀ a, ∃ a', register s a r = .ok a') :
    ¬ (registerAll s a rs).Ends hs (.error e) := by
  induction rs generalizing a hs with
  | nil => exact fun h => nomatch (ends_pure.1 h).2
  | cons r rs ih =>
    intro h
    obtain ⟨a', registered⟩ := each r List.mem_cons_self a
    rw [registerAll, registered] at h
    obtain ⟨_, _, _, -, -, h⟩ := ends_andThen.1 h
    exact ih (fun r mem => each r (List.mem_cons_of_mem _ mem)) h

/-- Keys that cannot be read are no addresses. -/
lemma ofKeys_ne_invalidAddress {chainId keys} (reason : String) :
    Connection.ofKeys chainId keys ≠ .error (.invalidAddress reason) := by
  have unread (text : String) : Connection.readAccount text ≠ .error (.invalidAddress reason) := by
    unfold Connection.readAccount
    split <;> exact nofun
  intro failed
  obtain failed | ⟨_, failed⟩ := of_bind_eq_error failed
  · exact unread _ failed
  obtain failed | ⟨_, failed⟩ := of_bind_eq_error failed
  · exact unread _ failed
  obtain failed | ⟨_, ⟨⟩⟩ := of_bind_eq_error failed
  exact unread _ failed

/-- Connecting fails for no address. -/
lemma ne_invalidAddress_of_connect {url chainId keys hs e}
    (h : (Connection.connect url chainId keys).Ends hs (.error e)) (reason : String) :
    e ≠ .invalidAddress reason := by
  rintro rfl
  unfold Connection.connect at h
  split at h
  case isTrue => cases (ends_pure.1 h).2
  case isFalse =>
    obtain ⟨_, served, _, -, -, h⟩ := ends_andThen.1 h
    cases served with
    | error e => cases (ends_pure.1 h).2
    | ok served =>
      dsimp only at h
      split at h
      case isTrue => cases (ends_pure.1 h).2
      case isFalse =>
        split at h
        case h_1 e failed =>
          cases (ends_pure.1 h).2
          exact ofKeys_ne_invalidAddress reason failed
        case h_2 =>
          obtain ⟨_, _, _, -, -, h⟩ := ends_andThen.1 h
          cases (ends_pure.1 h).2

/-- The chain has no part in opening the ledger. -/
lemma ne_chain_of_openLedger {given hs e} (h : (openLedger s given).Ends hs (.error e))
    (source : ChainError) :
    e ≠ .chain source := by
  rintro rfl
  unfold openLedger at h
  split at h
  case h_1 => cases (ends_pure.1 h).2
  case h_2 => cases (ends_pure.1 h).2
  case h_3 =>
    obtain ⟨_, opened, _, -, -, h⟩ := ends_andThen.1 h
    cases opened <;> cases (ends_pure.1 h).2

/-- Building a settler from settings that were accepted fails for no address. -/
lemma ne_invalidAddress_of_build (accepted : Accepted s) {given hs e}
    (h : (build s given).Ends hs (.error e))
    (reason : String) : e ≠ .chain (.invalidAddress reason) := by
  obtain ⟨_, opened, _, -, h', h⟩ := ends_andThen.1 h
  cases opened with
  | error e =>
    cases (ends_pure.1 h).2
    exact ne_chain_of_openLedger h' _
  | ok store =>
    obtain ⟨_, connected, _, -, h', h⟩ := ends_andThen.1 h
    cases connected with
    | ok a => cases (ends_pure.1 h).2
    | error e =>
      cases (ends_pure.1 h).2
      obtain ⟨_, linked, _, -, h, h'⟩ := ends_andThen.1 h'
      cases linked with
      | error e =>
        cases (ends_pure.1 h').2
        rintro ⟨⟩
        exact ne_invalidAddress_of_connect h reason rfl
      | ok x =>
        exact absurd h' (registerAll_ne_error fun r mem => exists_register accepted mem)

end Building

/-- Settings that do not trip the settler that is built from them. -/
structure Serviceable (s : Settings) : Prop where
  pace : s.service.pollIntervalSecs ≠ 0 ∧ s.service.confirmations ≠ 0 ∧
    s.service.confirmationTimeoutSecs ≠ 0 ∧ s.gas.adjustmentPercent ≠ 0
  /-- Building it fails for no address. -/
  addresses : ∀ {given hs e}, (build s given).Ends hs (.error e) →
    ∀ reason, e ≠ .chain (.invalidAddress reason)
  /-- Every row that is listed in a pass is asked for in it. -/
  asked : ∀ {given hs a store known trace result}, (build s given).Ends hs (.ok (a, store)) →
    (a.settler.poll known).Ends trace result →
      ∀ {k rows}, ⟨.ledger (.unprocessed k), .ok rows⟩ ∈ trace →
        ∀ row ∈ rows, ∃ answer, ⟨.ledger (.claim k row.id), answer⟩ ∈ trace
  /-- A row that is granted in a pass was listed, and what is written to it is the outcome of a
  verdict that the settings bear out. -/
  verdicts : ∀ {given hs a store known trace result}, (build s given).Ends hs (.ok (a, store)) →
    (a.settler.poll known).Ends trace result →
      ∀ {before after k id}, trace = before ++ ⟨.ledger (.claim k id), .ok true⟩ :: after →
        ∃ rows v es answer post, ∃ row ∈ rows,
          ⟨.ledger (.unprocessed k), .ok rows⟩ ∈ before ∧ row.id = id ∧
          after = es ++ ⟨.ledger (.update k id (outcomeOf v)), answer⟩ :: post ∧
          (∃ fs ns, es = fs ++ ns ∧ Verdict a.settler k row.order fs v ∧ Notes ns) ∧
            BorneOut s k row.order v

/-- **Settings that are accepted do not trip the settler.** Let settings be accepted, those of a
document or those of a file after the variables that override them. Then no time, count or
percentage of them is zero, building a settler from them fails for no address, and in every pass of
it, whatever ledger and chain answer, every row that is listed is asked for, a row that is granted
fails for want of a contract exactly if its class has none, and no amount is scaled by zero. -/
theorem serviceable_of_accepted {s : Settings} (accepted : Accepted s) : Serviceable s where
  pace := accepted.pace
  addresses := ne_invalidAddress_of_build accepted
  asked _ polled _ _ listed := (poll_course polled).parted.asked listed
  verdicts built polled := by
    rintro before after k id rfl
    have toured := (poll_course polled).parted.toured k
    obtain ⟨pre, own, own', post, rows, row, r, rfl, rfl, listed, mem, rfl, shape⟩ :=
      toured.exists_of_split rfl
    obtain ⟨rfl, fs, v, ns, answer, rest, rfl, verdict, notes⟩ := shape.exists_of_granted
    refine ⟨rows, v, fs ++ ns, answer, rest ++ post, row, mem, List.mem_append_left _ listed, rfl,
      by simp, ⟨fs, ns, rfl, verdict, notes⟩, (wired_of_build built).borneOut accepted verdict⟩

/-- An entry of a document whose value is one digit again and again. -/
def digitEntry (name : String) (width : Nat) (digit : Char) : List Char :=
  name.toList ++ " = \"".toList ++ List.replicate width digit ++ "\"\n".toList

/-- A document that has what is required, and one currency. -/
def usdcDocument : List Char :=
  "[settler]\n[ledger]\nbackend = \"memory\"\n[chain]\n".toList ++
    "rpc_url = \"http://node\"\nchain_id = 7\n".toList ++ digitEntry "vault_address" 40 '1' ++
    "[signers]\n".toList ++ digitEntry "vault" 64 '1' ++ digitEntry "minter" 64 '2' ++
      digitEntry "treasury" 64 '3' ++
    "[currencies.usdc]\n".toList ++ digitEntry "contract" 40 '4'

/-- What there is to complain of in settings, and whether the currency and parts are among them. -/
def usdcSummary (s : Settings) : Option String × Bool × Bool :=
  (s.complaint?, (s.currency .usdc).isSome, (s.asset .part).isSome)

/-- Whether no asset row is listed but for parts. -/
def listsParts (es : Settlement.Trace) : Bool :=
  es.all fun
    | ⟨.ledger (.unprocessed .asset), .ok rows⟩ =>
      rows.all fun (row : Withdrawal AssetOrder) => row.order.assetClass = .part
    | _ => true

/-- A row that is listed where only parts are is one for a part. -/
lemma class_of_listsParts {es : Settlement.Trace} {rows : List (Withdrawal AssetOrder)}
    {row : Withdrawal AssetOrder} (parts : listsParts es = true)
    (listed : ⟨.ledger (.unprocessed .asset), .ok rows⟩ ∈ es) (mem : row ∈ rows) :
    row.order.assetClass = .part := by
  have all := List.all_eq_true.1 parts _ listed
  exact of_decide_eq_true (List.all_eq_true.1 all row mem)

/-- Where there is no contract for parts, a part that is granted while only parts are listed is
refused for that, and its row says so. -/
lemma Serviceable.refused {s : Settings} (serviceable : Serviceable s)
    (noContract : s.asset .part = none) {given hs} {x : Assembly × Ledger.Store} {known}
    (built : (build s given).Ends hs (.ok x)) {es : Settlement.Trace} {result}
    (polled : (x.1.settler.poll known).Ends es result) (parts : listsParts es = true) {id : String}
    (granted : es.any (isGrant .asset id) = true) :
    ∃ before between answer after, es =
      before ++ ⟨.ledger (.claim .asset id), .ok true⟩ :: (between ++ ⟨.ledger (.update .asset id
        (SettlementError.notConfigured AssetClass.part.name).outcome), answer⟩ :: after) := by
  obtain ⟨e, mem, grant⟩ := List.any_eq_true.1 granted
  cases isGrant_iff.1 grant
  obtain ⟨before, after, split⟩ := List.append_of_mem mem
  obtain ⟨rows, v, between, answer, post, row, listed, list, rfl, rfl, -, borneOut⟩ :=
    serviceable.verdicts built polled split
  have part : (row.order : AssetOrder).assetClass = .part :=
    class_of_listsParts parts (split ▸ List.mem_append_left _ list) listed
  have unset : s.isConfigured .asset row.order = false := by
    change (s.asset (row.order : AssetOrder).assetClass).isSome = false
    rw [part, noContract]
    rfl
  have verdict : v = .error (.notConfigured (row.order : AssetOrder).assetClass.name) :=
    borneOut.unconfigured unset
  rw [part] at verdict
  subst verdict
  exact ⟨before, between, answer, post, split⟩

/-- A pass over the row for a part, at noon. -/
def partPass (x : Assembly × Ledger.Store) : Run (Except SettlementError Summary × KnownDecimals) :=
  x.1.settler.passOver atNoon (fun _ => none) x.2.tables

/-- What that pass shows of the settler that is built from settings: whether the row is granted,
whether no others are listed, and what is written to it. -/
def partRefusal (s : Settings) : Option (Bool × Bool × Option Outcome) :=
  ((build s (some partStore)).path willing).2.toOption.map fun x =>
    ((partPass x).trace.any (isGrant .asset "w"), listsParts (partPass x).trace,
      ((partPass x).tables.row? .asset "w").map (·.outcome))

/-- Parts are not among the settings, so the row for a part is granted and refused for want of a
contract. -/
theorem serviceable_of_accepted_usdc :
    ∃ s, ofDocument .empty (String.ofList usdcDocument) = .ok s ∧
      usdcSummary s = (none, true, false) ∧ Serviceable s ∧
      ∃ hs x, (build s (some partStore)).Ends hs (.ok x) ∧
        (x.1.settler.poll fun _ => none).Ends (partPass x).trace (partPass x).result ∧
        (∃ before es answer after, (partPass x).trace =
          before ++ ⟨.ledger (.claim .asset "w"), .ok true⟩ :: (es ++ ⟨.ledger (.update .asset "w"
            (SettlementError.notConfigured AssetClass.part.name).outcome), answer⟩ :: after)) ∧
        ((partPass x).tables.row? .asset "w").map (·.outcome) =
          some (SettlementError.notConfigured AssetClass.part.name).outcome := by
  have plain : references usdcDocument = [] := by decide +kernel
  have summary :
      (ofText? (String.ofList usdcDocument)).map (fun s => (usdcSummary s, partRefusal s)) =
      some ((none, true, false),
        some (true, true, some (SettlementError.notConfigured AssetClass.part.name).outcome)) := by
    rw [ofText?, Toml.ofText?, String.toList_ofList]
    decide +kernel
  obtain ⟨s, written, summary⟩ := Option.map_eq_some_iff.1 summary
  obtain ⟨complaint, refusal⟩ := Prod.mk.inj summary
  have read : ofDocument .empty (String.ofList usdcDocument) = .ok s :=
    ofDocument_of_references plain written (congrArg Prod.fst complaint)
  have serviceable : Serviceable s := serviceable_of_accepted (.document read)
  obtain ⟨x, built, shown⟩ := Option.map_eq_some_iff.1 refusal
  have ends := ends_path willing (build s (some partStore))
  cases result : ((build s (some partStore)).path willing).2 with
  | error e =>
    rw [result] at built
    cases built
  | ok x' =>
    rw [result] at ends built
    cases built
    have polled := (atNoon.run_spec x.2.tables (x.1.settler.poll fun _ => none)).1
    obtain ⟨granted, parts, refused⟩ : _ ∧ _ ∧ _ := by simpa only [Prod.mk.injEq] using shown
    have noContract : s.asset .part = none :=
      Option.not_isSome_iff_eq_none.1 (ne_true_of_eq_false (congrArg (·.2.2) complaint))
    have written := serviceable.refused noContract ends polled parts granted
    exact ⟨s, read, complaint, serviceable, _, x, ends, polled, written, refused⟩

end Assembly

end Payout
