import Payout.Proofs.Ledger.Refinement
import Payout.Proofs.Settlement.Authority
import Payout.Proofs.Settlement.Batches
import Payout.Proofs.Settlement.Custody
import Payout.Proofs.Settlement.Tenures

/-!
# Independence

Rows do not get in each other's way. Where the chain answers by the request alone, whatever was
asked before (`Surroundings.Steady`), an order comes to one verdict (`verdict`), which is read off
from the chain, the users, the assets up to where they are, and the number of decimals that the
currency has. None of these is changed by what a pass does for other rows: a number of decimals that
is kept is the one that the chain would report, and an asset that is put back keeps its destination,
its custody and its user. So a row ends as it would alone (`row_eq_alone`).
-/

namespace Payout.Settlement
open Program Ledger
open CurrencyPayout (outcomeOf)

/-- Whether a request is one to the chain. -/
def Request.isChain : Request → Bool
  | .estimate | .decimals _ | .call _ _ | .wait _ _ _ => true
  | _ => false

/-- Answers that depend on nothing but the request. -/
abbrev Answers := (r : Request) → r.Answer

/-- The chain answers by the request alone. Pauses and the time are left free. -/
def Surroundings.Steady (b : Surroundings) (chain : Answers) : Prop :=
  ∀ es r, r.isChain = true → b.answer es r = chain r

/-- Exchanges in which the chain has answered by the request alone. -/
def Steady (chain : Answers) (es : Trace) : Prop :=
  ∀ e ∈ es, e.request.isChain = true → e.answer = chain e.request

section Verdicts

variable (chain : Answers) (p : Policy)

/-- What a submission comes to. -/
def submission (signer : String) (c : ContractCall) : Except SettlementError Confirmed :=
  match (chain .estimate).map (Fee.adjust p.feePercent) with
  | .error e => .error (.chain e)
  | .ok price =>
    match chain (.call c price) with
    | .error e => .error (.chain e)
    | .ok pending =>
      match chain (.wait pending p.confirmations p.timeoutMs) with
      | .error e => .error (.unconfirmed ⟨pending.hash, pending.nonce, signer⟩ e)
      | .ok receipt =>
        if receipt.success then .ok ⟨⟨pending.hash, pending.nonce, signer⟩, receipt⟩
        else .error (.reverted ⟨pending.hash, pending.nonce, signer⟩)

/-- Whether the users allow an asset to go to its destination. -/
def ownership (t : Tables) (a : Asset) : Except SettlementError Unit :=
  match a.userId with
  | some id => ruling a ((t.user? id).bind User.wallet) none
  | none => ruling a none (t.userByWallet? a.destination)

/-- What handing out an asset comes to. -/
def handOut (t : Tables) (x : AssetPayout) (a : Asset) : Except SettlementError Confirmed :=
  match ownership t a with
  | .error e => .error e
  | .ok _ =>
    match x.path a with
    | .error e => .error e
    | .ok (signer, c) => submission chain p signer c

/-- The number of decimals that a currency has, given the one that is known. -/
def effective (c : CurrencyClass) (d : Option UInt8) : Except ChainError UInt8 :=
  d.elim (chain (.decimals c)) .ok

/-- The numbers of decimals that currencies have, given those that are known. -/
def decimalsBy (known : KnownDecimals) (c : CurrencyClass) : Except ChainError UInt8 :=
  effective chain c (known c)

/-- An amount in on-chain units, if the number of decimals can be had where one is needed. -/
def conversion (x : CurrencyPayout) (amount : Decimal) (decimals : Except ChainError UInt8) :
    Except SettlementError Nat :=
  match x.scale, decimals with
  | none, _ => amount.toChainUnits none
  | some _, .error e => .error (.chain e)
  | some scale, .ok d => amount.toChainUnits (some ⟨scale, d⟩)

/-- What paying an order out comes to. -/
def payment (x : CurrencyPayout) (o : CurrencyOrder) (decimals : Except ChainError UInt8) :
    Except SettlementError Confirmed :=
  match conversion x o.amount decimals with
  | .error e => .error e
  | .ok units => submission chain p x.signer (x.callFor o.destination units)

/-- What an order for an asset comes to. -/
def assetVerdict (s : Settler) (t : Tables) (o : AssetOrder) : Except SettlementError Confirmed :=
  match s.assetPayout o.assetClass, t.asset? o.assetClass o.tokenId with
  | none, _ => .error (.notConfigured o.assetClass.name)
  | some _, none => .error (.ledger (Tables.missingAsset o.assetClass o.tokenId))
  | some x, some a => handOut chain s.policy t x a

/-- What an order for currency comes to. -/
def currencyVerdict (s : Settler) (decimals : CurrencyClass → Except ChainError UInt8)
    (o : CurrencyOrder) :
    Except SettlementError Confirmed :=
  match s.currencyPayout o.currencyClass with
  | none => .error (.notConfigured o.currencyClass.symbol)
  | some x => payment chain s.policy x o (decimals o.currencyClass)

/-- What an order comes to. -/
def verdict (s : Settler) (decimals : CurrencyClass → Except ChainError UInt8) (t : Tables) :
    (k : Kind) → k.Order → Except SettlementError Confirmed
  | .asset => assetVerdict chain s t
  | .currency => currencyVerdict chain s decimals

end Verdicts

section Courses

variable {s : Settler} {chain : Answers} {p : Policy} {t t' : Tables} {es fs : Trace}

/-- The chain is steady in two traces if it is in each. -/
lemma steady_append : Steady chain (es ++ fs) ↔ Steady chain es ∧ Steady chain fs :=
  List.forall_mem_append

/-- The chain is steady in fewer exchanges. -/
lemma Steady.mono (steady : Steady chain fs) (sub : es ⊆ fs) : Steady chain es :=
  fun e he => steady e (sub he)

/-- A run in steady surroundings is steady. -/
lemma Surroundings.Steady.run {α : Type} {b : Surroundings} (steady : b.Steady chain)
    (t : Tables) (p : Step α) :
    Settlement.Steady chain (b.run t p).trace := by
  intro e he isChain
  obtain ⟨q, asked⟩ | ⟨fs, answered⟩ := b.run_elsewhere t p e he
  · rw [asked] at isChain
    cases isChain
  · rw [answered]
    exact steady fs _ isChain

/-- However often the price is asked for, it is one price. -/
lemma PriceCourse.eq_of_steady {r} (h : PriceCourse p es r) (steady : Steady chain es) :
    r = (chain .estimate).map (Fee.adjust p.feePercent) := by
  obtain ⟨estimate, attempts, rfl⟩ := h
  refine congrArg _ ?_
  induction attempts with
  | @last es r asked =>
    cases ends_ask.1 asked
    exact steady _ List.mem_cons_self rfl
  | @gaveUp es e asked =>
    cases ends_ask.1 asked
    exact steady _ List.mem_cons_self rfl
  | @again es e fs r _ _ _ ih =>
    apply ih
    exact steady.mono fun e he => List.mem_append_right _ (List.mem_cons_of_mem _ he)

/-- A submission to a steady chain ends in what the chain alone tells. -/
lemma SubmitCourse.eq_of_steady {signer c r} (h : SubmitCourse p signer c es r)
    (steady : Steady chain es) :
    r = submission chain p signer c := by
  unfold submission
  cases h with
  | unpriced priced => rw [← priced.eq_of_steady steady]
  | refused priced =>
    obtain ⟨first, rest⟩ := steady_append.1 steady
    have called := rest _ (.head _) rfl
    rw [← priced.eq_of_steady first]
    simp only [← called]
  | unconfirmed priced =>
    obtain ⟨first, rest⟩ := steady_append.1 steady
    have called := rest _ (.head _) rfl
    have waited := rest _ (.tail _ (.head _)) rfl
    rw [← priced.eq_of_steady first]
    simp only [← called, ← waited]
  | reverted priced failure =>
    obtain ⟨first, rest⟩ := steady_append.1 steady
    have called := rest _ (.head _) rfl
    have waited := rest _ (.tail _ (.head _)) rfl
    rw [← priced.eq_of_steady first]
    simp [← called, ← waited, failure]
  | confirmed priced success =>
    obtain ⟨first, rest⟩ := steady_append.1 steady
    have called := rest _ (.head _) rfl
    have waited := rest _ (.tail _ (.head _)) rfl
    rw [← priced.eq_of_steady first]
    simp [← called, ← waited, success]

/-- The check of ownership ends in what the users of the tables tell. -/
lemma OwnershipCourse.eq_of_served {a q r} (h : OwnershipCourse a q r) (served : Served t [q] t') :
    r = ownership t a := by
  unfold ownership
  cases h with
  | linkedUnknown =>
    obtain ⟨now, answered, -⟩ := served_ledger.1 served
    cases answered
  | linked link =>
    obtain ⟨now, answered, -⟩ := served_ledger.1 served
    cases answered
    rw [link]
  | unlinkedUnknown =>
    obtain ⟨now, answered, -⟩ := served_ledger.1 served
    cases answered
  | unlinked link =>
    obtain ⟨now, answered, -⟩ := served_ledger.1 served
    cases answered
    rw [link]

/-- Handing an asset out ends in what the chain and the users tell. -/
lemma HandOutCourse.eq_of_steady {x : AssetPayout} {a r} (h : HandOutCourse x p a es r)
    (served : Served t es t') (steady : Steady chain es) : r = handOut chain p t x a := by
  unfold handOut
  cases h with
  | disowned course => rw [← course.eq_of_served served]
  | untracked course path => rw [← course.eq_of_served served, path]
  | @submitted q signer c es r course path submission =>
    rw [← List.singleton_append] at served steady
    obtain ⟨t₁, asked, -⟩ := served_append.1 served
    rw [← course.eq_of_served asked, path]
    exact submission.eq_of_steady (steady_append.1 steady).2

/-- A number of decimals that is kept is the one that the currency had before. -/
lemma AmountCourse.eq_of_steady {x : CurrencyPayout} {amount d r d'}
    (h : AmountCourse x amount d es r d') (steady : Steady chain es) :
    r = conversion x amount (effective chain x.currencyClass d) ∧
      effective chain x.currencyClass d' = effective chain x.currencyClass d := by
  unfold conversion
  cases h with
  | unscaled scale =>
    rw [scale]
    exact ⟨rfl, rfl⟩
  | known scale =>
    rw [scale]
    exact ⟨rfl, rfl⟩
  | unknown scale =>
    have reported : Except.error _ = chain (.decimals _) := steady _ List.mem_cons_self rfl
    rw [scale]
    simp [effective, ← reported]
  | learnt scale =>
    have reported : Except.ok _ = chain (.decimals _) := steady _ List.mem_cons_self rfl
    rw [scale]
    simp [effective, ← reported]

/-- Paying an order out ends in what the chain tells, and the decimals of the currency stay what
they are. -/
lemma PaymentCourse.eq_of_steady {x : CurrencyPayout} {o d r d'} (h : PaymentCourse x p o d es r d')
    (steady : Steady chain es) :
    r = payment chain p x o (effective chain x.currencyClass d) ∧
      effective chain x.currencyClass d' = effective chain x.currencyClass d := by
  unfold payment
  cases h with
  | unconverted amount =>
    obtain ⟨converted, same⟩ := amount.eq_of_steady steady
    rw [← converted]
    exact ⟨rfl, same⟩
  | submitted amount submission =>
    obtain ⟨first, rest⟩ := steady_append.1 steady
    obtain ⟨converted, same⟩ := amount.eq_of_steady first
    rw [← converted]
    exact ⟨submission.eq_of_steady rest, same⟩

/-- Where an asset is does not matter for handing it out. -/
lemma handOut_of_released {x : AssetPayout} {a a' : Asset} (users : t'.users = t.users)
    (same : a'.released = a.released) : handOut chain p t' x a' = handOut chain p t x a := by
  obtain ⟨c, n, destination, custody, user, state, placement⟩ := a
  obtain ⟨c', n', destination', custody', user', state', placement'⟩ := a'
  simp only [Asset.released, Asset.mk.injEq] at same
  obtain ⟨rfl, rfl, rfl, rfl, rfl, -, -⟩ := same
  unfold handOut ownership Tables.user? Tables.userByWallet?
  rw [users]
  rfl

/-- What an order for an asset comes to does not depend on where the asset is. -/
lemma assetVerdict_of_keeps {o : AssetOrder} (keeps : t.Keeps t') :
    assetVerdict chain s t' o = assetVerdict chain s t o := by
  have same := keeps.asset? o.assetClass o.tokenId
  unfold assetVerdict
  cases s.assetPayout o.assetClass with
  | none => rfl
  | some x =>
    cases recorded : t.asset? o.assetClass o.tokenId with
    | none =>
      rw [recorded, Option.map_none, Option.map_eq_none_iff] at same
      rw [same]
    | some a =>
      rw [recorded] at same
      obtain ⟨a', recorded', released⟩ := Option.map_eq_some_iff.1 same
      rw [recorded']
      exact handOut_of_released keeps.users released

/-- A verdict on an order for an asset is the one that the tables and the chain lead to. -/
lemma Verdict.eq_of_steady {o : AssetOrder} {v} (h : Verdict s .asset o es v)
    (served : Served t es t') (steady : Steady chain es) : v = assetVerdict chain s t o := by
  unfold assetVerdict
  cases h with
  | unset unset => rw [unset]
  | unloaded set =>
    obtain ⟨now, answered, -⟩ := served_ledger.1 served
    cases recorded : t.asset? o.assetClass o.tokenId with
    | none =>
      simp only [Tables.reply, Tables.perform, recorded] at answered
      cases answered
      rw [set]
    | some a =>
      rw [Tables.reply_asset recorded] at answered
      cases answered
  | handedOut set course =>
    obtain ⟨now, answered, served⟩ := served_ledger.1 served
    cases recorded : t.asset? o.assetClass o.tokenId with
    | none =>
      simp only [Tables.reply, Tables.perform, recorded] at answered
      cases answered
    | some a =>
      rw [Tables.reply_asset recorded] at answered served
      cases answered
      rw [set]
      exact course.eq_of_steady served (steady.mono (List.subset_cons_self _ _))

/-- What came of an asset row is the verdict on its order by the tables it was settled over. -/
lemma Settled.eq_of_steady {w : Withdrawal AssetOrder} {v} (h : Settled s t .asset w es v)
    (steady : Steady chain es) : v = assetVerdict chain s t w.order := by
  cases h with
  | @written t₁ es v ns rest keeps served reached =>
    rw [← assetVerdict_of_keeps keeps]
    refine reached.eq_of_steady served (steady.mono fun e he => ?_)
    exact List.mem_cons_of_mem _ (List.mem_append_left _ (List.mem_append_left _ he))

end Courses

section Currencies

variable {s : Settler} {chain : Answers} {es : Trace} {known known' : KnownDecimals}
  {id : String} {o : Outcome} {a : Except LedgerError Unit}

/-- Settling a currency row writes the outcome of the verdict on its order to it and to no other,
and leaves the numbers of decimals what they are. -/
lemma CurrencyCourse.of_steady {row r} (h : CurrencyCourse s row known es r known')
    (steady : Steady chain es) :
    (⟨.ledger (.update .currency id o), a⟩ ∈ es →
      row.id = id ∧ o = outcomeOf (currencyVerdict chain s (decimalsBy chain known) row.order)) ∧
      decimalsBy chain known' = decimalsBy chain known := by
  unfold currencyVerdict
  cases h with
  | unconfigured unset notes =>
    refine ⟨fun mem => ?_, rfl⟩
    obtain ⟨⟨⟩⟩ | mem := List.mem_cons.1 mem
    obtain ⟨⟨⟩⟩ | mem := List.mem_cons.1 mem
    · rw [unset]
      exact ⟨rfl, rfl⟩
    · cases notes.looks.row?_eq _ mem
  | @paidOut x es r d' ns _ ns' set paid notes notes' =>
    rw [List.append_assoc] at steady ⊢
    obtain ⟨verdict, same⟩ := paid.eq_of_steady (steady_append.1 steady).1
    rw [s.currencyClass_eq set] at verdict same
    refine ⟨fun mem => ?_, ?_⟩
    · rw [← List.append_assoc] at mem
      have mem := (List.mem_append.1 mem).resolve_left fun mem =>
        nomatch (paid.looks.append notes.looks).row?_eq _ mem
      obtain ⟨⟨⟩⟩ | mem := List.mem_cons.1 mem
      · rw [set, verdict]
        exact ⟨rfl, rfl⟩
      · cases notes'.looks.row?_eq _ mem
    · funext c
      by_cases own : c = row.order.currencyClass
      · subst own
        simpa [decimalsBy] using same
      · simp [decimalsBy, own]

/-- Asset rows teach nothing about decimals. -/
lemma RowsCourse.known_eq {rows rs} (h : RowsCourse s .asset rows known es rs known') :
    known' = known := by
  induction h with
  | nil => rfl
  | cons row _ ih =>
    refine ih.trans ?_
    cases row <;> rfl

/-- A currency row has only its own verdict written to it, and the decimals of currencies stay what
they are. -/
lemma RowCourse.of_steady {row r} (h : RowCourse s .currency row known es r known')
    (steady : Steady chain es) :
    (⟨.ledger (.update .currency id o), a⟩ ∈ es →
      row.id = id ∧ o = outcomeOf (currencyVerdict chain s (decimalsBy chain known) row.order)) ∧
      decimalsBy chain known' = decimalsBy chain known := by
  cases h with
  | unclaimed => exact ⟨fun mem => by simp at mem, rfl⟩
  | refused => exact ⟨fun mem => by simp at mem, rfl⟩
  | currency course =>
    obtain ⟨written, same⟩ := course.of_steady (steady.mono (List.subset_cons_self _ _))
    refine ⟨fun mem => ?_, same⟩
    obtain ⟨⟨⟩⟩ | mem := List.mem_cons.1 mem
    exact written mem

/-- Whatever is written to a currency row is the verdict on the order of a row with its id. -/
lemma RowsCourse.of_steady {rows rs} (h : RowsCourse s .currency rows known es rs known')
    (steady : Steady chain es) (mem : ⟨.ledger (.update .currency id o), a⟩ ∈ es) :
    ∃ row ∈ rows, row.id = id ∧
      o = outcomeOf (currencyVerdict chain s (decimalsBy chain known) row.order) := by
  induction h with
  | nil => cases mem
  | @cons row rows known es r known' fs rs known'' course _ ih =>
    obtain ⟨first, rest⟩ := steady_append.1 steady
    obtain ⟨written, same⟩ := course.of_steady first
    obtain mem | mem := List.mem_append.1 mem
    · exact ⟨row, List.mem_cons_self, written mem⟩
    · obtain ⟨row', later, written'⟩ := ih rest mem
      rw [same] at written'
      exact ⟨row', List.mem_cons_of_mem _ later, written'⟩

/-- What a pass writes to a currency row is the outcome of the verdict on the order of a row of that
id. -/
lemma PollCourse.of_steady {r} {t t' : Tables} (h : PollCourse s known es r known')
    (served : Served t es t')
    (steady : Steady chain es) (mem : ⟨.ledger (.update .currency id o), a⟩ ∈ es) :
    ∃ row ∈ t.rows .currency, row.id = id ∧
      o = outcomeOf (currencyVerdict chain s (decimalsBy chain known) row.order) := by
  cases h with
  | stopped table =>
    obtain ⟨_, _, _, _, _, failed, _⟩ := table.sweep served (.refl t)
    cases failed
  | passed table table' =>
    obtain ⟨t₁, first, second⟩ := served_append.1 served
    obtain ⟨_, _, _, -, -, -, -, -, others⟩ := table.sweep first (.refl t)
    have same : t₁.rows .currency = t.rows .currency := others .currency nofun
    rw [← same]
    cases table with
    | listed notes assets =>
      cases table' with
      | unlisted =>
        obtain ⟨now, answered, -⟩ := served_ledger.1 second
        cases answered
      | listed notes' currencies =>
        obtain ⟨now, answered, -⟩ := served_ledger.1 second
        cases answered
        have others : Foreign .currency id _ := assets.worked.foreign nofun
        have mem := (List.mem_append.1 mem).resolve_left fun mem =>
          ((foreign_list notes).append others).row?_ne _ mem rfl
        have mem := (List.mem_append.1 mem).resolve_left fun mem =>
          (foreign_list notes').row?_ne _ mem rfl
        rw [assets.known_eq] at currencies
        obtain ⟨row, listed, written⟩ :=
          currencies.of_steady (steady_append.1 (steady_append.1 steady).2).2 mem
        exact ⟨row, List.mem_of_mem_filter listed, written⟩

end Currencies

section Passes

variable {s : Settler} {chain : Answers} {b : Surroundings} {known : KnownDecimals}
  {t t' : Tables} {k : Kind} {w : Withdrawal k.Order} {summary : Summary} {trace : Trace}

/-- A sweep keeps the ids of the rows. -/
lemma Sweep.ids {ids rows rows' es rs} (sweep : Sweep s t k ids rows es rs rows') :
    rows'.map (·.id) = rows.map (·.id) := by
  induction sweep with
  | nil => rfl
  | @passed _ w _ _ _ _ _ _ ih => exact congrArg (w.id :: ·) ih
  | @refused _ w _ _ _ _ _ _ _ ih => exact congrArg (w.id :: ·) ih
  | @settled _ w _ _ _ _ _ _ _ _ _ _ _ ih => exact congrArg (w.id :: ·) ih

/-- After a pass a row that was free has the outcome of the verdict on its order. -/
lemma row?_of_steady (steady : b.Steady chain) (distinct : t.Distinct k) (mem : w ∈ t.rows k)
    (free : w.state = .unprocessed) :
    ∃ now, (s.passOver b known t).tables.row? k w.id =
      some (w.updated now (outcomeOf (verdict chain s (decimalsBy chain known) t k w.order))) := by
  obtain ⟨summary, -, swept⟩ := passOver_swept s b known t
  obtain ⟨i, waits⟩ := exists_waits (distinct.row?_eq mem) free
  obtain ⟨own, v, now, rest, settled, written, held, -⟩ := swept.settled_of_waits waits
  obtain ⟨es, rs, sweep, -⟩ := swept.sweep k
  have distinct' : (s.passOver b known t).tables.Distinct k := by
    unfold Tables.Distinct
    rw [sweep.ids]
    exact distinct
  have found := distinct'.row?_eq (List.mem_of_getElem? written)
  have ownTrace : own ⊆ (s.passOver b known t).trace := by
    intro e he
    apply mem_of_mem_heldFrom
    rw [onBehalf] at held
    rw [held]
    exact List.mem_append_left _ he
  have steadyTrace : Steady chain (s.passOver b known t).trace := steady.run t (s.poll known)
  refine ⟨now, found.trans ?_⟩
  congr 2
  cases k with
  | asset => exact congrArg outcomeOf (settled.eq_of_steady (steadyTrace.mono ownTrace))
  | currency =>
    obtain ⟨ends, served⟩ := b.run_spec t (s.poll known)
    have update : ⟨.ledger (.update .currency w.id (outcomeOf v)), .ok ()⟩ ∈ own := by
      cases settled
      exact List.mem_cons_of_mem _ (List.mem_append_right _ List.mem_cons_self)
    obtain ⟨row, listed, named, outcome⟩ :=
      (poll_course ends).of_steady served steadyTrace (ownTrace update)
    -- With distinct ids the row that was listed is the row itself.
    have same := distinct.row?_eq listed
    rw [named, distinct.row?_eq mem] at same
    cases same
    exact outcome

/-- Of the tables an order for an asset needs only the users and the assets, and one for currency
nothing. -/
lemma verdict_congr {decimals} (users : t'.users = t.users) (assets : t'.assets = t.assets) :
    verdict chain s decimals t' k = verdict chain s decimals t k := by
  have keeps : t.Keeps t' := ⟨users, by rw [assets]⟩
  cases k with
  | asset => exact funext fun _ => assetVerdict_of_keeps keeps
  | currency => rfl

end Passes

/-- One row alone, with the users and assets of other tables. -/
def alone (t : Tables) (k : Kind) (w : Withdrawal k.Order) : Tables :=
  Tables.setRows ⟨[], [], t.assets, t.users⟩ k [w]

/-- The tables of one row alone have the users and assets of the others, and this row. -/
lemma alone_spec (t : Tables) (k : Kind) (w : Withdrawal k.Order) :
    (alone t k w).users = t.users ∧ (alone t k w).assets = t.assets ∧
      (alone t k w).rows k = [w] := by
  cases k <;> exact ⟨rfl, rfl, rfl⟩

/-- **Rows are settled independently.** On a chain that answers by the request alone a row that is
unprocessed ends, up to the time of its last change, as it would if it were the only row, and as in
any tables with the same users and assets: whatever other rows there are, in whatever order, and
whatever comes of them. What is known of the decimals of currencies does not matter either, as long
as it is what the chain reports. -/
theorem row_eq_alone {s : Settler} {chain : Answers} {b b' : Surroundings}
    {known known' : KnownDecimals} {t : Tables} {k : Kind} {w : Withdrawal k.Order}
    (steady : b.Steady chain) (steady' : b'.Steady chain)
    (same : decimalsBy chain known' = decimalsBy chain known) (distinct : t.Distinct k)
    (mem : w ∈ t.rows k) (free : w.state = .unprocessed) :
    let after (b : Surroundings) (known : KnownDecimals) (t : Tables) :=
      ((s.passOver b known t).tables.row? k w.id).map Withdrawal.untimed
    (∃ o, (o.state = .pending ∨ o.state = .error) ∧
      after b known t = some ⟨w.id, w.order, o, none⟩) ∧
      after b known t = after b' known' (alone t k w) ∧
      ∀ t', t'.users = t.users → t'.assets = t.assets → t'.Distinct k → w ∈ t'.rows k →
        after b' known' t' = after b known t := by
  intro after
  -- A row ends with the verdict on its order, which is made of nothing that differs.
  have after_eq {b known} {t : Tables} (steady : b.Steady chain) (distinct : t.Distinct k)
      (mem : w ∈ t.rows k) :
      after b known t =
        some ⟨w.id, w.order, outcomeOf (verdict chain s (decimalsBy chain known) t k w.order),
          none⟩ := by
    obtain ⟨now, row⟩ := @row?_of_steady s chain b known t k w steady distinct mem free
    exact congrArg (Option.map Withdrawal.untimed) row
  have anywhere (t' : Tables) (users : t'.users = t.users) (assets : t'.assets = t.assets)
      (distinct' : t'.Distinct k)
      (mem' : w ∈ t'.rows k) : after b' known' t' = after b known t := by
    rw [after_eq steady' distinct' mem', after_eq steady distinct mem, same,
      verdict_congr users assets]
  refine ⟨⟨_, ?_, after_eq steady distinct mem⟩, ?_, anywhere⟩
  · rw [state_outcomeOf]
    cases verdict chain s (decimalsBy chain known) t k w.order with
    | ok confirmed => exact .inl rfl
    | error e => exact .inr rfl
  · obtain ⟨users, assets, rows⟩ := alone_spec t k w
    refine (anywhere _ users assets ?_ ?_).symm
    · simp [Tables.Distinct, rows]
    · simp [rows]

/-- The part of two rows is put back behind the failure of the first, and the second ends as it
would alone. -/
theorem row_eq_alone_secondForPart :
    let reverts : Surroundings := ⟨fun _ => reverting, fun _ => noon⟩
    let pass (t : Tables) := partsOnly.passOver reverts (fun _ => none) t
    let t := rowsForOnePart ["v", "w"]
    let w : Withdrawal AssetOrder := .new "w" ⟨.part, 7⟩
    (.part, 7) ∈ returned (onBehalf .asset "v" (pass t).trace) ∧
      reverts.Steady reverting ∧ t.Distinct .asset ∧ w ∈ t.assetRows ∧ w.state = .unprocessed ∧
      ((pass t).tables.row? .asset "w").map Withdrawal.untimed =
        ((pass (alone t .asset w)).tables.row? .asset "w").map Withdrawal.untimed := by
  intro reverts pass t w
  have back : (.part, 7) ∈ returned (onBehalf .asset "v" (pass t).trace) := by decide +kernel
  have steady : reverts.Steady reverting := fun _ _ _ => rfl
  have distinct : t.Distinct .asset := (by decide : ["v", "w"].Nodup)
  have mem : w ∈ t.rows .asset := .tail _ (.head _)
  obtain ⟨-, same, -⟩ :=
    @row_eq_alone partsOnly reverting reverts reverts (fun _ => none)
      (fun _ => none) t .asset w steady steady rfl
      distinct mem rfl
  exact ⟨back, steady, distinct, mem, rfl, same⟩

end Payout.Settlement
