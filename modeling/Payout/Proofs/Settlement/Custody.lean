import Payout.Proofs.Settlement.Evidence

/-!
# Custody

What a pass over tables in memory does to the assets. The table of assets is changed by releases
alone (`Served.assets_eq`), each of which puts the first record of an asset back, and a release is
asked for on behalf of a row that was granted and has failed (`Swept.mem_returned`). An asset is put
back if a row for it came to nothing that may be on chain, and stays where it is if its rows are
confirmed or ran out of time; currency rows put nothing back (`passOver_compensates`).
-/

namespace Payout

/-- A record is of an asset if it has its class and its token. -/
lemma Asset.isFor_iff {c : AssetClass} {n : UInt64} {a : Asset} :
    a.isFor c n = true ↔ (a.assetClass, a.tokenId) = (c, n) := by
  simp [Asset.isFor]

namespace Settlement
open Program Ledger
open CurrencyPayout (outcomeOf)

/-- Assets with the first record of one of them put back. -/
def putBack (assets : List Asset) (x : AssetClass × UInt64) : List Asset :=
  modifyFirst (·.isFor x.1 x.2) Asset.released assets

/-- The place of the first record of an asset. -/
def place (assets : List Asset) (x : AssetClass × UInt64) : Nat := assets.findIdx (·.isFor x.1 x.2)

section Releases

variable {t t' : Tables} {es : Trace} {assets : List Asset} {xs : List (AssetClass × UInt64)}

/-- Putting an asset back moves no record. -/
lemma place_putBack (assets : List Asset) (x y : AssetClass × UInt64) :
    place (putBack assets x) y = place assets y :=
  findIdx_modifyFirst (q := fun a : Asset => a.isFor y.1 y.2) (f := Asset.released)
    (fun _ => rfl) assets

/-- Putting assets back moves no record. -/
lemma place_putBacks (assets : List Asset) (xs : List (AssetClass × UInt64))
    (y : AssetClass × UInt64) :
    place (xs.foldl putBack assets) y = place assets y := by
  induction xs generalizing assets with
  | nil => rfl
  | cons x xs ih => rw [List.foldl_cons, ih, place_putBack]

/-- Putting assets back adds no record and takes none away. -/
lemma length_putBacks (assets : List Asset) (xs : List (AssetClass × UInt64)) :
    (xs.foldl putBack assets).length = assets.length := by
  induction xs generalizing assets with
  | nil => rfl
  | cons x xs ih => rw [List.foldl_cons, ih, putBack, length_modifyFirst]

/-- What is put back, place by place. -/
lemma getElem?_putBacks (assets : List Asset) (xs : List (AssetClass × UInt64)) (i : Nat) :
    (xs.foldl putBack assets)[i]? =
      assets[i]?.map fun a => if ∃ x ∈ xs, place assets x = i then a.released else a := by
  induction xs generalizing assets with
  | nil => simp
  | cons x xs ih =>
    rw [List.foldl_cons, ih]
    simp only [place_putBack]
    unfold putBack
    rw [getElem?_modifyFirst, Option.map_map]
    congr 1
    funext a
    simp only [Function.comp_apply, List.exists_mem_cons_iff]
    change (if ∃ y ∈ xs, place assets y = i
      then (if place assets x = i then a.released else a).released
      else if place assets x = i then a.released else a) = _
    -- To put back twice is to put back once.
    by_cases first : place assets x = i
    · have some : place assets x = i ∨ ∃ y ∈ xs, place assets y = i := .inl first
      rw [if_pos first, if_pos some]
      exact ite_self _
    · rw [if_neg first]
      exact if_congr (or_iff_right first).symm rfl rfl

/-- A record at the place of an asset is one of it. -/
lemma eq_of_place {i : ℕ} {a : Asset} {x : AssetClass × UInt64} (at_ : assets[i]? = some a)
    (here : place assets x = i) : x = (a.assetClass, a.tokenId) := by
  obtain ⟨hi, rfl⟩ := List.getElem?_eq_some_iff.1 at_
  subst here
  exact (Asset.isFor_iff.1 (List.findIdx_getElem (w := hi))).symm

/-- A record at a place is put back if its asset is, and if it is the first of that asset. -/
lemma getElem?_putBacks_of {i : ℕ} {a : Asset} (at_ : assets[i]? = some a)
    (xs : List (AssetClass × UInt64)) :
    (xs.foldl putBack assets)[i]? =
      some (if (a.assetClass, a.tokenId) ∈ xs ∧ place assets (a.assetClass, a.tokenId) = i
        then a.released else a) := by
  rw [getElem?_putBacks, at_, Option.map_some]
  refine congrArg some (if_congr ⟨?_, fun ⟨mem, here⟩ => ⟨_, mem, here⟩⟩ rfl rfl)
  rintro ⟨x, mem, here⟩
  rw [← eq_of_place at_ here]
  exact ⟨mem, here⟩

/-- The first record of an asset is put back if the asset is. -/
lemma asset?_putBacks {c : AssetClass} {n : UInt64} {a : Asset}
    (same : t'.assets = xs.foldl putBack t.assets) (recorded : t.asset? c n = some a) :
    t'.asset? c n = some (if (c, n) ∈ xs then a.released else a) := by
  have found (u : Tables) : u.asset? c n = u.assets[place u.assets (c, n)]? :=
    List.find?_eq_getElem?_findIdx
  rw [found] at recorded
  rw [found, same, place_putBacks, getElem?_putBacks_of recorded, ← eq_of_place recorded rfl]
  simp

/-- Of all exchanges only releases touch assets, and none touches users. -/
lemma Served.assets_eq (served : Served t es t') :
    t'.users = t.users ∧ t'.assets = (returned es).foldl putBack t.assets := by
  induction es generalizing t with
  | nil =>
    cases served_nil.1 served
    exact ⟨rfl, rfl⟩
  | cons e es ih =>
    obtain ⟨req, a⟩ := e
    cases req with
    | ledger r =>
      obtain ⟨now, answered, rest⟩ := served_ledger.1 served
      obtain ⟨users, assets⟩ := ih rest
      rw [users, assets]
      by_cases release : ∃ c n, r = .release c n
      · obtain ⟨c, n, rfl⟩ := release
        rw [Tables.reply_release_eq]
        exact ⟨rfl, rfl⟩
      · have other : ∀ c n, r ≠ .release c n := fun c n same => release ⟨c, n, same⟩
        obtain ⟨users', assets'⟩ :=
          (Tables.turn_of_reply (Prod.mk.eta (p := t.reply now r)).symm).assets_eq other
        rw [users', assets']
        refine ⟨rfl, ?_⟩
        cases r with
        | release c n => exact absurd rfl (other c n)
        | _ => rfl
    | _ =>
      cases served with
      | elsewhere _ rest => exact ih rest

end Releases

section Rows

variable {s : Settler} {t : Tables} {k : Kind} {es : Trace} {v : Except SettlementError Confirmed}
  {x : AssetClass × UInt64}

/-- Looking a row up puts nothing back. -/
lemma Looks.returned (h : Looks es) : returned es = [] := by
  refine returned_eq_nil fun e he => ?_
  have looks := h e he
  cases req : e.request with
  | ledger q => cases q <;> rw [req] at looks <;> first | rfl | cases looks
  | _ => rfl

/-- A claim that is refused puts nothing back. -/
lemma returned_of_refusals (h : ∀ e ∈ es, IsRefusal k e) : returned es = [] := by
  refine returned_eq_nil fun e he => ?_
  obtain ⟨id, rfl⟩ := h e he
  rfl

/-- What is put back for a row is put back behind its outcome. -/
lemma returned_settled {ns rest : Trace} {id o a} (looks : Looks es) (notes : Notes ns) :
    returned (⟨.ledger (.claim k id), .ok true⟩ ::
      (es ++ ns ++ ⟨.ledger (.update k id o), a⟩ :: rest)) = returned rest := by
  change returned (es ++ ns ++ ([⟨.ledger (.update k id o), a⟩] ++ rest)) = _
  rw [returned_append, returned_append, returned_append, looks.returned, notes.returned]
  rfl

/-- What was put back for a row that was granted was put back at its end, by tables that keep those
at the start. -/
lemma Settled.restores {w : Withdrawal k.Order} (settled : Settled s t k w es v) :
    ∃ t' fs rest, t.Keeps t' ∧ Served t' fs t' ∧ Restores k w.order fs v rest ∧
      returned es = returned rest := by
  cases settled with
  | @written t' fs v ns rest keeps served verdict notes _ restores =>
    exact ⟨t', fs, rest, keeps, served, restores, returned_settled verdict.looks notes⟩

/-- For a row that was settled no asset but that of its order is put back, and that only where it is
allowed. -/
lemma Settled.eq_of_returned {w : Withdrawal AssetOrder} (settled : Settled s t .asset w es v)
    (mem : x ∈ returned es) :
    x = (w.order.assetClass, w.order.tokenId) ∧ (Fate.ofResult v).allowsRelease = true := by
  obtain ⟨t', fs, rest, -, -, restores, same⟩ := settled.restores
  rw [same] at mem
  obtain ⟨own, -, allowed⟩ := (restores x).1 mem
  exact ⟨own, allowed⟩

/-- An asset with a record was found, so that it is put back where that is allowed. -/
lemma Settled.mem_returned {w : Withdrawal AssetOrder} (settled : Settled s t .asset w es v) {a}
    (recorded : t.asset? w.order.assetClass w.order.tokenId = some a)
    (allowed : (Fate.ofResult v).allowsRelease = true) :
    (w.order.assetClass, w.order.tokenId) ∈ returned es := by
  obtain ⟨t', fs, rest, keeps, served, restores, same⟩ := settled.restores
  rw [same]
  refine (restores _).2 ⟨rfl, fun e unloaded => ?_, allowed⟩
  -- Had the look-up failed, the tables would have no record, but nothing drops one.
  have kept := keeps.asset? w.order.assetClass w.order.tokenId
  rw [recorded] at kept
  obtain ⟨a', recorded', -⟩ := Option.map_eq_some_iff.1 kept
  rw [unloaded] at served
  obtain ⟨now, answered, -⟩ := served_ledger.1 served
  rw [Tables.reply_asset recorded'] at answered
  cases answered

/-- A currency row puts nothing back. -/
lemma Settled.not_mem_returned {w : Withdrawal CurrencyOrder}
    (settled : Settled s t .currency w es v) :
    x ∉ returned es := by
  obtain ⟨t', fs, rest, -, -, restores, same⟩ := settled.restores
  rw [same]
  exact restores x

end Rows

/-- A row that was granted: the first of its id, whose claim was answered with true. -/
def Granted (t : Tables) (trace : Trace) (k : Kind) (i : ℕ) (w : Withdrawal k.Order) : Prop :=
  (t.rows k)[i]? = some w ∧ (t.rows k).findIdx (·.id = w.id) = i ∧
    ⟨.ledger (.claim k w.id), .ok true⟩ ∈ trace

section Sweeps

variable {s : Settler} {t t' : Tables} {k : Kind} {ids : List String}
  {rows rows' : List (Withdrawal k.Order)} {es trace : Trace} {rs : List RowResult}
  {summary : Summary} {h : Option (Kind × String)} {id : String} {i : ℕ} {x : AssetClass × UInt64}

/-- Whatever a sweep does but refuse is done for a row that waits. -/
lemma Sweep.exists_of_mem {e : Exchange interface}
    (sweep : Sweep s t k ids rows es rs rows') (mem : e ∈ es)
    (other : ¬ IsRefusal k e) : ∃ i w, Waits ids rows i w ∧ e ∈ heldFrom h k w.id es := by
  induction sweep generalizing h with
  | nil => cases mem
  | passed _ _ ih =>
    obtain ⟨i, w, waits, own⟩ := ih (h := h) mem
    exact ⟨i + 1, w, waits_succ.2 waits, own⟩
  | @refused ids w _ _ _ _ _ _ _ ih =>
    obtain refused | mem := List.mem_append.1 mem
    · exact absurd ⟨w.id, List.mem_singleton.1 refused⟩ other
    · obtain ⟨i, w, waits, own⟩ := ih mem
      refine ⟨i + 1, w, waits_succ.2 waits, ?_⟩
      rw [heldFrom_append]
      exact List.mem_append_right _ own
  | @settled ids w _ es _ _ _ _ _ free new settled _ ih =>
    obtain mem | mem := List.mem_append.1 mem
    · refine ⟨0, w, waits_zero.2 ⟨rfl, free, new⟩, ?_⟩
      rw [heldFrom_append, settled.tenure.heldFrom_self]
      exact List.mem_append_left _ mem
    · obtain ⟨i, w', waits, own⟩ := ih mem
      refine ⟨i + 1, w', waits_succ.2 waits, ?_⟩
      rw [heldFrom_append]
      exact List.mem_append_right _ own

/-- What a sweep puts back it puts back for a row that waited. -/
lemma Sweep.exists_of_returned (sweep : Sweep s t k ids rows es rs rows') (mem : x ∈ returned es) :
    ∃ i w, Waits ids rows i w ∧ x ∈ returned (heldFrom h k w.id es) := by
  obtain ⟨a, he⟩ := mem_returned_iff.1 mem
  obtain ⟨i, w, waits, held⟩ := sweep.exists_of_mem (h := h) he (by rintro ⟨id, ⟨⟩⟩)
  exact ⟨i, w, waits, mem_returned_iff.2 ⟨a, held⟩⟩

/-- Only a row that waits is granted. -/
lemma Sweep.exists_of_granted (sweep : Sweep s t k ids rows es rs rows')
    (mem : ⟨.ledger (.claim k id), .ok true⟩ ∈ es) : ∃ i w, Waits ids rows i w ∧ w.id = id := by
  obtain ⟨i, w, waits, held⟩ := sweep.exists_of_mem (h := none) mem (by rintro ⟨id, ⟨⟩⟩)
  obtain ⟨own, v, now, rest, settled, -, same, refusals⟩ := sweep.settled_of_waits (h := none) waits
  rw [same] at held
  obtain held | refused := List.mem_append.1 held
  · exact ⟨i, w, waits, (settled.tenure.eq_of_claim held).2.symm⟩
  · obtain ⟨id, ⟨⟩⟩ := refusals _ refused

/-- The rows that are granted to a pass are those that wait. -/
lemma Swept.granted_iff (swept : Swept s t trace summary t') {w : Withdrawal k.Order} :
    Granted t trace k i w ↔ Waits [] (t.rows k) i w := by
  constructor
  · rintro ⟨at_, first, granted⟩
    obtain ⟨es, rs, sweep, own⟩ := swept.sweep k
    have held : ⟨.ledger (.claim k w.id), .ok true⟩ ∈ onBehalf k w.id trace :=
      claim_mem_heldFrom granted
    rw [own] at held
    obtain ⟨j, w', waits, named⟩ := sweep.exists_of_granted (mem_of_mem_heldFrom held)
    -- Both are the first row of the id, so they are the same row.
    have place := waits.findIdx_eq
    rw [named, first] at place
    subst place
    cases at_.symm.trans waits.1
    exact waits
  · intro waits
    obtain ⟨own, v, now, rest, settled, -, held, -⟩ := swept.settled_of_waits waits
    have granted : ⟨.ledger (.claim k w.id), .ok true⟩ ∈ onBehalf k w.id trace := by
      rw [held]
      cases settled
      exact List.mem_cons_self
    exact ⟨waits.1, waits.findIdx_eq, mem_of_mem_heldFrom granted⟩

/-- The sweep of the currency table puts nothing back. -/
lemma Sweep.not_mem_returned {rows rows' : List (Withdrawal CurrencyOrder)}
    (sweep : Sweep s t .currency ids rows es rs rows') : x ∉ returned es := by
  intro mem
  obtain ⟨i, w, waits, held⟩ := sweep.exists_of_returned (h := none) mem
  obtain ⟨own, v, now, rest, settled, -, same, refusals⟩ := sweep.settled_of_waits (h := none) waits
  rw [same, returned_append, returned_of_refusals refusals, List.append_nil] at held
  exact settled.not_mem_returned held

/-- Nothing is put back on behalf of a currency row. -/
lemma Swept.returned_currency (swept : Swept s t trace summary t') (id : String) :
    returned (onBehalf .currency id trace) = [] := by
  obtain ⟨es, rs, sweep, own⟩ := swept.sweep .currency
  rw [own]
  refine List.eq_nil_iff_forall_not_mem.2 fun x mem => ?_
  obtain ⟨a, he⟩ := mem_returned_iff.1 mem
  exact sweep.not_mem_returned (mem_returned_iff.2 ⟨a, mem_of_mem_heldFrom he⟩)

/-- What a pass puts back it puts back for asset rows that it was granted. -/
lemma Swept.mem_returned (swept : Swept s t trace summary t') :
    x ∈ returned trace ↔ ∃ i w, Granted t trace .asset i w ∧
      x ∈ returned (onBehalf .asset w.id trace) := by
  constructor
  · intro mem
    have granted {i} {w : Withdrawal AssetOrder} :=
      swept.granted_iff (k := .asset) (i := i) (w := w)
    cases swept with
    | @intro ns es rs ns' es' rs' _ notes assets notes' currencies =>
      have listed {k} {ns : Trace} (notes : Notes ns)
          {a : Except LedgerError (List (Withdrawal k.Order))} :
          returned (⟨.ledger (.unprocessed k), a⟩ :: ns) = [] := notes.returned
      rw [returned_append, returned_append, listed notes, returned_append, listed notes'] at mem
      obtain mem | mem := List.mem_append.1 mem
      · obtain ⟨i, w, waits, held⟩ := assets.exists_of_returned mem
        refine ⟨i, w, granted.2 waits, ?_⟩
        unfold onBehalf
        rw [heldFrom_append, heldFrom_append, returned_append, returned_append]
        exact List.mem_append_left _ (List.mem_append_right _ held)
      · exact absurd mem currencies.not_mem_returned
  · rintro ⟨i, w, -, mem⟩
    obtain ⟨a, he⟩ := mem_returned_iff.1 mem
    exact mem_returned_iff.2 ⟨a, mem_of_mem_heldFrom he⟩

end Sweeps

section Evidence

variable {s : Settler} {k : Kind} {o : k.Order}
  {calls : List (ContractCall × Except ChainError Pending)}
  {waits : List (Pending × Except ChainError Receipt)} {v : Except SettlementError Confirmed}

/-- Calls are made only where they are set up. -/
lemma Shows.signed (shows : Shows s k o calls waits v) :
    ∀ x ∈ calls, (s.signer? k o x.1).isSome := by
  cases shows with
  | unsent _ signs => exact signs
  | unconfirmed signs | reverted signs | confirmed signs => simp [signs]

/-- A row for which no transaction was sent allows a release. -/
lemma Shows.allowsRelease_of_unsent (shows : Shows s k o calls waits v)
    (unsent : ∀ c p, (c, .ok p) ∉ calls) :
    (Fate.ofResult v).allowsRelease = true := by
  cases shows with
  | unsent _ _ _ submitted =>
    rw [Fate.ofResult_of_submitted submitted]
    rfl
  | unconfirmed | reverted | confirmed => exact absurd List.mem_cons_self (unsent _ _)

/-- A row whose transaction failed allows a release. -/
lemma Shows.allowsRelease_of_reverted (shows : Shows s k o calls waits v) {p receipt}
    (got : (p, .ok receipt) ∈ waits) (failure : receipt.success = false) :
    (Fate.ofResult v).allowsRelease = true := by
  cases shows with
  | unsent => cases got
  | unconfirmed => cases List.mem_singleton.1 got
  | reverted => rfl
  | confirmed _ success =>
    cases List.mem_singleton.1 got
    cases failure.symm.trans success

/-- What is confirmed, or ran out of time, is not put back. -/
lemma Shows.not_allowsRelease (shows : Shows s k o calls waits v)
    (away : (∃ p receipt, (p, .ok receipt) ∈ waits ∧ receipt.success = true) ∨
      ∃ p e, (p, .error e) ∈ waits ∧ e.isTimeout = true) :
    (Fate.ofResult v).allowsRelease = false := by
  cases shows with
  | unsent => obtain ⟨_, _, got, -⟩ | ⟨_, _, got, -⟩ := away <;> cases got
  | unconfirmed =>
    obtain ⟨_, _, got, -⟩ | ⟨_, _, got, timeout⟩ := away <;> cases List.mem_singleton.1 got
    simp [Fate.ofResult, Fate.allowsRelease, timeout]
  | reverted _ failure =>
    obtain ⟨_, _, got, success⟩ | ⟨_, _, got, -⟩ := away <;> cases List.mem_singleton.1 got
    cases failure.symm.trans success
  | confirmed => rfl

/-- A row of a class that is not configured allows a release. -/
lemma Shows.allowsRelease_of_unset {o : AssetOrder} (shows : Shows s .asset o calls waits v)
    (unset : s.assetPayout o.assetClass = none) : (Fate.ofResult v).allowsRelease = true := by
  refine shows.allowsRelease_of_unsent fun c p mem => ?_
  have signed := shows.signed _ mem
  cases c <;> simp [Settler.signer?, unset] at signed

end Evidence

/-- How a pass changes the assets. -/
structure Compensates (s : Settler) (t : Tables) (trace : Trace) (t' : Tables) : Prop where
  users : t'.users = t.users
  /-- Releases are all that changes assets, and none is asked for on behalf of a currency row. -/
  releases : t'.assets = (returned trace).foldl putBack t.assets
  currency : ∀ id, returned (onBehalf .currency id trace) = []
  length_eq : t'.assets.length = t.assets.length
  /-- A record stays what it is, or it is the first of its asset and is put back, and a row for it
  was granted and is not pending. -/
  frame : ∀ {i a}, t.assets[i]? = some a → t'.assets[i]? = some a ∨
    t'.assets[i]? = some { a with state := .inCustody, placement := none } ∧
      place t.assets (a.assetClass, a.tokenId) = i ∧
      ∃ j w w', Granted t trace .asset j w ∧ w.order = ⟨a.assetClass, a.tokenId⟩ ∧
        (t'.rows .asset)[j]? = some w' ∧ w'.state ≠ .pending
  /-- It is put back if a row for it that was granted is of a class that is not set up, or brought
  back no pending transaction, or one that failed. -/
  putBack : ∀ {c n a j w}, t.asset? c n = some a → Granted t trace .asset j w → w.order = ⟨c, n⟩ →
    (s.assetPayout c = none ∨ (∀ call p, (call, .ok p) ∉ sent (onBehalf .asset w.id trace)) ∨
      ∃ p receipt, (p, .ok receipt) ∈ awaited (onBehalf .asset w.id trace) ∧
        receipt.success = false) →
    t'.asset? c n = some { a with state := .inCustody, placement := none }
  /-- It stays what it is if all rows for it that were granted are confirmed or ran out of time. -/
  kept : ∀ {c n a}, t.asset? c n = some a →
    (∀ j w, Granted t trace .asset j w → w.order = ⟨c, n⟩ →
      (∃ p receipt, (p, .ok receipt) ∈ awaited (onBehalf .asset w.id trace) ∧
        receipt.success = true) ∨
        ∃ p e, (p, .error e) ∈ awaited (onBehalf .asset w.id trace) ∧ e.isTimeout = true) →
    t'.asset? c n = some a

section Passes

variable {s : Settler} {t t' : Tables} {trace : Trace} {summary : Summary}

/-- What a row that was granted comes to, and what is put back for it. -/
lemma Swept.verdict_of_granted (swept : Swept s t trace summary t') {i : ℕ}
    {w : Withdrawal AssetOrder} (granted : Granted t trace .asset i w) :
    ∃ v now, Shows s .asset w.order (sent (onBehalf .asset w.id trace))
      (awaited (onBehalf .asset w.id trace)) v ∧
      (t'.rows .asset)[i]? = some (w.updated now (outcomeOf v)) ∧
      (∀ x ∈ returned (onBehalf .asset w.id trace), w.order = ⟨x.1, x.2⟩ ∧
        (Fate.ofResult v).allowsRelease = true) ∧
      ∀ a, t.asset? w.order.assetClass w.order.tokenId = some a →
        (Fate.ofResult v).allowsRelease = true →
        (w.order.assetClass, w.order.tokenId) ∈ returned (onBehalf .asset w.id trace) := by
  obtain ⟨own, v, now, rest, settled, written, held, refusals⟩ :=
    swept.settled_of_waits (swept.granted_iff.1 granted)
  have same : returned (own ++ rest) = returned own := by
    rw [returned_append, returned_of_refusals refusals, List.append_nil]
  rw [held, same]
  refine ⟨v, now, settled.shows.append_offChain (apart_of_refusals refusals).offChain, written,
    fun x mem => ?_, fun a recorded allowed => settled.mem_returned recorded allowed⟩
  obtain ⟨rfl, allowed⟩ := settled.eq_of_returned mem
  exact ⟨rfl, allowed⟩

/-- A row that is put back for has failed. -/
lemma ne_pending_of_allowsRelease {w : Withdrawal AssetOrder} {now v}
    (allowed : (Fate.ofResult v).allowsRelease = true) :
    (w.updated now (outcomeOf v)).state ≠ .pending := by
  cases v with
  | ok confirmed => cases allowed
  | error e =>
    have failed : (outcomeOf (.error e)).state = .error := congrArg Outcome.state e.outcome_eq
    exact fun pending => nomatch failed.symm.trans pending

/-- A pass leaves a record as it is, or puts it back for a row that was granted and is not
pending. -/
lemma Swept.frame (swept : Swept s t trace summary t')
    (assets : t'.assets = (returned trace).foldl putBack t.assets)
    {i : ℕ} {a : Asset} (at_ : t.assets[i]? = some a) :
    t'.assets[i]? = some a ∨ t'.assets[i]? = some a.released ∧
      place t.assets (a.assetClass, a.tokenId) = i ∧
      ∃ j w w', Granted t trace .asset j w ∧ w.order = ⟨a.assetClass, a.tokenId⟩ ∧
        (t'.rows .asset)[j]? = some w' ∧ w'.state ≠ .pending := by
  rw [assets, getElem?_putBacks_of at_]
  by_cases put : (a.assetClass, a.tokenId) ∈ returned trace ∧
    place t.assets (a.assetClass, a.tokenId) = i
  · obtain ⟨j, w, granted, held⟩ := swept.mem_returned.1 put.1
    obtain ⟨v, now, -, written, only, -⟩ := swept.verdict_of_granted granted
    obtain ⟨asks, allowed⟩ := only _ held
    rw [if_pos put]
    exact .inr ⟨rfl, put.2, j, w, _, granted, asks, written, ne_pending_of_allowsRelease allowed⟩
  · rw [if_neg put]
    exact .inl rfl

/-- The asset of a granted row is put back if nothing of it can be on chain. -/
lemma Swept.mem_returned_of_granted (swept : Swept s t trace summary t') {c : AssetClass}
    {n : UInt64} {a : Asset}
    {j : ℕ} {w : Withdrawal AssetOrder} (recorded : t.asset? c n = some a)
    (granted : Granted t trace .asset j w)
    (asks : w.order = ⟨c, n⟩)
    (failed : s.assetPayout c = none ∨
      (∀ call p, (call, .ok p) ∉ sent (onBehalf .asset w.id trace)) ∨
      ∃ p receipt, (p, .ok receipt) ∈ awaited (onBehalf .asset w.id trace) ∧
        receipt.success = false) :
    (c, n) ∈ returned trace := by
  obtain ⟨v, now, shows, -, -, puts⟩ := swept.verdict_of_granted granted
  rw [asks] at shows puts
  have allowed : (Fate.ofResult v).allowsRelease = true := by
    obtain unset | unsent | ⟨p, receipt, got, failure⟩ := failed
    · exact shows.allowsRelease_of_unset unset
    · exact shows.allowsRelease_of_unsent unsent
    · exact shows.allowsRelease_of_reverted got failure
  exact swept.mem_returned.2 ⟨j, w, granted, puts a recorded allowed⟩

/-- An asset is not put back if each of its rows was confirmed or ran out of time. -/
lemma Swept.not_mem_returned (swept : Swept s t trace summary t') {c : AssetClass} {n : UInt64}
    (away : ∀ j w, Granted t trace .asset j w → w.order = ⟨c, n⟩ →
      (∃ p receipt, (p, .ok receipt) ∈ awaited (onBehalf .asset w.id trace) ∧
        receipt.success = true) ∨
        ∃ p e, (p, .error e) ∈ awaited (onBehalf .asset w.id trace) ∧ e.isTimeout = true) :
    (c, n) ∉ returned trace := by
  intro mem
  obtain ⟨j, w, granted, held⟩ := swept.mem_returned.1 mem
  obtain ⟨v, now, shows, -, only, -⟩ := swept.verdict_of_granted granted
  obtain ⟨asks, allowed⟩ := only _ held
  cases allowed.symm.trans (shows.not_allowsRelease (away j w granted asks))

/-- A pass changes the assets by its releases alone. -/
lemma Swept.compensates (swept : Swept s t trace summary t') (served : Served t trace t') :
    Compensates s t trace t' := by
  obtain ⟨users, assets⟩ := served.assets_eq
  refine ⟨users, assets, swept.returned_currency, ?_, swept.frame assets, ?_, ?_⟩
  · rw [assets, length_putBacks]
  · intro c n a j w recorded granted asks failed
    rw [asset?_putBacks assets recorded,
      if_pos (swept.mem_returned_of_granted recorded granted asks failed)]
    rfl
  · intro c n a recorded away
    rw [asset?_putBacks assets recorded, if_neg (swept.not_mem_returned away)]

end Passes

/-- **A pass puts back the assets of rows that failed.** Whatever the chain answers, a pass over
tables in memory changes no users, and of the assets only where the first record of an asset is:
that is put back for a row that was granted and has failed. It is put back for certain where a class
is not set up, nothing was sent, or a transaction has failed, and stays where it is if all its rows
are confirmed, ran out of time, or were not granted. Rows of currencies put nothing back. -/
theorem passOver_compensates (s : Settler) (known : KnownDecimals) (b : Surroundings) (t : Tables) :
    let pass := s.passOver b known t
    Compensates s t pass.trace pass.tables := by
  intro pass
  obtain ⟨summary, -, swept⟩ := passOver_swept s b known t
  exact swept.compensates (b.run_spec t _).2

/-- Surroundings in which every transaction fails. -/
def reverting : (r : Request) → r.Answer
  | .wait _ _ _ => .ok ⟨⟨[]⟩, 0, false, none⟩
  | r => obliging r

/-- A pass over one row for a part, whose transaction fails. -/
def revertedPass : Run (Except SettlementError Summary × KnownDecimals) :=
  partsOnly.passOver ⟨fun _ => reverting, fun _ => noon⟩ (fun _ => none) (rowsForOnePart ["w"])

/-- A pass over one row whose transaction fails puts the part back. -/
theorem passOver_compensates_reverted :
    Granted (rowsForOnePart ["w"]) revertedPass.trace .asset 0
      (.new "w" (⟨.part, 7⟩ : AssetOrder)) ∧
      (rowsForOnePart ["w"]).asset? .part 7 =
        some ⟨.part, 7, "0xa", none, none, .withdrawing, none⟩ ∧
      revertedPass.tables.asset? .part 7 =
        some ⟨.part, 7, "0xa", none, none, .inCustody, none⟩ := by
  have granted : Granted (rowsForOnePart ["w"]) revertedPass.trace .asset 0
      (.new "w" (⟨.part, 7⟩ : AssetOrder)) :=
    ⟨rfl, rfl, .tail _ (.tail _ (.head _))⟩
  have failed : awaited (onBehalf .asset "w" revertedPass.trace) =
      [(⟨⟨[]⟩, 0, 0⟩, .ok ⟨⟨[]⟩, 0, false, none⟩)] := rfl
  have compensates :
      Compensates partsOnly (rowsForOnePart ["w"]) revertedPass.trace revertedPass.tables :=
    passOver_compensates partsOnly (fun _ => none) ⟨fun _ => reverting, fun _ => noon⟩
      (rowsForOnePart ["w"])
  exact ⟨granted, rfl, compensates.putBack rfl granted rfl
    (.inr (.inr ⟨_, _, failed ▸ List.mem_cons_self, rfl⟩))⟩

end Settlement

end Payout
