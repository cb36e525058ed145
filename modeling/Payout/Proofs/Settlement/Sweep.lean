import Payout.Proofs.Settlement.Attribution
import Payout.Proofs.Settlement.Compensation
import Payout.Proofs.Settlement.InMemory

/-!
# Sweeps

What a pass over tables in memory makes of each row, one position after another. A row that is
unprocessed and the first of its id is granted, settled and given an outcome, behind which its asset
may be put back (`Settled`); every other row stays what it is, and the claim for one that an earlier
row of its id stands before is refused (`Sweep`). A pass is a list and a sweep for each table, and
always comes to its end (`passOver_swept`).
-/

namespace Payout.Settlement
open Program Ledger
open CurrencyPayout (outcomeOf)

/-- What an order comes to, by the exchanges before its outcome is written. Of the row only its
order counts. -/
inductive Verdict (s : Settler) :
    (k : Kind) → k.Order → Trace → Except SettlementError Confirmed → Prop where
  | unset {o : AssetOrder} :
    s.assetPayout o.assetClass = none →
    Verdict s .asset o [] (.error (.notConfigured o.assetClass.name))
  | unloaded {o : AssetOrder} {x e} :
    s.assetPayout o.assetClass = some x →
    Verdict s .asset o [⟨.ledger (.asset o.assetClass o.tokenId), .error e⟩] (.error (.ledger e))
  | handedOut {o : AssetOrder} {x a es r} :
    s.assetPayout o.assetClass = some x →
    HandOutCourse x s.policy a es r →
    Verdict s .asset o (⟨.ledger (.asset o.assetClass o.tokenId), .ok a⟩ :: es) r
  | unsetCurrency {o : CurrencyOrder} :
    s.currencyPayout o.currencyClass = none →
    Verdict s .currency o [] (.error (.notConfigured o.currencyClass.symbol))
  | paid {o : CurrencyOrder} {x d es r d'} :
    s.currencyPayout o.currencyClass = some x →
    PaymentCourse x s.policy o d es r d' →
    Verdict s .currency o es r

/-- Exchanges that may follow once an outcome is written: reports, and attempts to put an asset
back. -/
def Trailing (es : Trace) : Prop :=
  ∀ e ∈ es, (∃ m, e.request = .note m) ∨ e.request = .pause ∨
    ∃ c n, e.request = .ledger (.release c n)

/-- The assets that the ledger is asked to put back. -/
def returned (es : Trace) : List (AssetClass × UInt64) :=
  es.filterMap fun
    | ⟨.ledger (.release c n), _⟩ => some (c, n)
    | _ => none

/-- What is put back behind the outcome of an order: its asset, if it was found and what is known of
the transaction allows that, and nothing behind that of a currency. -/
def Restores : (k : Kind) → k.Order → Trace → Except SettlementError Confirmed → Trace → Prop
  | .asset, (o : AssetOrder), es, v, rest => ∀ x, x ∈ returned rest ↔
      x = (o.assetClass, o.tokenId) ∧
        (∀ e, es ≠ [⟨.ledger (.asset o.assetClass o.tokenId), .error e⟩]) ∧
        (Fate.ofResult v).allowsRelease = true
  | .currency, _, _, _, rest => ∀ x, x ∉ returned rest

/-- Processing a row, in short: it is not granted, or it comes to a verdict that is written to
it. -/
inductive RowShape (s : Settler) (k : Kind) (row : Withdrawal k.Order) :
    Trace → RowResult → Prop where
  | unclaimed {e ns} :
    Notes ns →
    RowShape s k row (⟨.ledger (.claim k row.id), .error e⟩ :: ns) .skipped
  | refused :
    RowShape s k row [⟨.ledger (.claim k row.id), .ok false⟩] .skipped
  | settled {es v ns a rest} :
    Verdict s k row.order es v →
    Notes ns →
    Trailing rest →
    Restores k row.order es v rest →
    RowShape s k row
      (⟨.ledger (.claim k row.id), .ok true⟩ ::
        (es ++ ns ++ ⟨.ledger (.update k row.id (outcomeOf v)), a⟩ :: rest))
      (paid v a)

section Shapes

variable {s : Settler} {p : Policy} {es fs : Trace}

/-- Reports may follow an outcome. -/
lemma Notes.trailing (h : Notes es) : Trailing es := fun e he => .inl (h e he)

/-- What may follow an outcome may do so one after another. -/
lemma Trailing.append (h : Trailing es) (h' : Trailing fs) : Trailing (es ++ fs) :=
  List.forall_mem_append.2 ⟨h, h'⟩

/-- Putting an asset back may follow an outcome. -/
lemma ReleaseCourse.trailing {c n r} (h : ReleaseCourse c n es r) : Trailing es := by
  intro e he
  obtain release | pause | note := h.forall e he
  · exact .inr (.inr ⟨c, n, release⟩)
  · exact .inr (.inl pause)
  · exact .inl note

/-- The assets put back in two traces follow one another. -/
@[simp] lemma returned_append : returned (es ++ fs) = returned es ++ returned fs :=
  List.filterMap_append

/-- An asset is put back where a release of it was asked for. -/
lemma mem_returned_iff {x : AssetClass × UInt64} :
    x ∈ returned es ↔ ∃ a, ⟨.ledger (.release x.1 x.2), a⟩ ∈ es := by
  constructor
  · intro mem
    obtain ⟨e, he, released⟩ := List.mem_filterMap.1 mem
    split at released
    case h_1 a =>
      cases released
      exact ⟨a, he⟩
    case h_2 => cases released
  · rintro ⟨a, he⟩
    exact List.mem_filterMap.2 ⟨_, he, rfl⟩

/-- Exchanges without a release put nothing back. -/
lemma returned_eq_nil (none : ∀ e ∈ es, e.request.isRelease = false) : returned es = [] := by
  refine List.eq_nil_iff_forall_not_mem.2 fun x mem => ?_
  obtain ⟨a, he⟩ := mem_returned_iff.1 mem
  cases none _ he

/-- Reports put nothing back. -/
lemma Notes.returned (h : Notes es) : returned es = [] := by
  refine returned_eq_nil fun e he => ?_
  obtain ⟨m, note⟩ := h e he
  rw [note]
  rfl

/-- A release run puts its own asset back, and no other. -/
lemma ReleaseCourse.mem_returned {c n r x} (h : ReleaseCourse c n es r) :
    x ∈ returned es ↔ x = (c, n) := by
  rw [mem_returned_iff]
  constructor
  · rintro ⟨a, he⟩
    obtain own | pause | ⟨m, note⟩ := h.forall _ he
    · cases own
      rfl
    · cases pause
    · cases note
  · rintro rfl
    obtain ⟨a, rest, rfl⟩ := h.head
    exact ⟨a, List.mem_cons_self⟩

/-- A failure is written, and behind it the asset is put back if that was asked for and the error
allows it. -/
lemma FailureCourse.written {id c n e compensate} (h : FailureCourse id c n e compensate es) :
    ∃ a rest, es = ⟨.ledger (.update .asset id e.outcome), a⟩ :: rest ∧ Trailing rest ∧
      ∀ x, x ∈ returned rest ↔ x = (c, n) ∧ (compensate && e.allowsCompensation) = true := by
  cases h with
  | kept no notes =>
    refine ⟨_, _, rfl, notes.trailing, fun x => ?_⟩
    simp [notes.returned, no]
  | released yes notes release =>
    refine ⟨_, _, rfl, (notes.trailing.append release.trailing).append (notes_singleton _).trailing,
      fun x => ?_⟩
    simp [notes.returned, release.mem_returned, (notes_singleton _).returned, yes]

/-- What follows a failure restores the asset if compensation is asked for just where the asset was
found. -/
lemma restores_of_failure {o : AssetOrder} {e : SettlementError} {compensate : Bool}
    (returns : ∀ x, x ∈ returned fs ↔ x = (o.assetClass, o.tokenId) ∧
      (compensate && e.allowsCompensation) = true)
    (found : compensate = true ↔ ∀ e, es ≠ [⟨.ledger (.asset o.assetClass o.tokenId), .error e⟩]) :
    Restores .asset o es (.error e) fs := by
  intro x
  rw [returns, Bool.and_eq_true, found, Fate.allowsRelease_ofResult]

/-- After a success nothing is put back. -/
lemma restores_of_confirmed {o : AssetOrder} {confirmed : Confirmed} (notes : Notes fs) :
    Restores .asset o es (.ok confirmed) fs := by
  intro x
  simp [notes.returned, Fate.ofResult, Fate.allowsRelease]

/-- Settling a granted asset row has the shape of a row's processing. -/
lemma AssetCourse.shape {row r} (h : AssetCourse s row es r) :
    RowShape s .asset row (⟨.ledger (.claim .asset row.id), .ok true⟩ :: es) r := by
  cases h with
  | @unconfigured m fs unset failure =>
    obtain ⟨a, rest, rfl, trailing, returns⟩ := failure.written
    exact .settled (v := .error _) (.unset unset) (notes_singleton m) trailing
      (restores_of_failure returns (by simp))
  | @unloaded x e m fs set failure =>
    obtain ⟨a, rest, rfl, trailing, returns⟩ := failure.written
    exact .settled (v := .error _) (.unloaded set) (notes_singleton m) trailing
      (restores_of_failure returns (by simp))
  | paidOut set course =>
    cases course with
    | @failed es e m fs handOut failure =>
      obtain ⟨a, rest, rfl, trailing, returns⟩ := failure.written
      rw [s.assetClass_eq set] at returns
      simpa [outcomeOf, paid, RowResult.ofResult] using
        RowShape.settled (a := a) (.handedOut set handOut) (notes_singleton m) trailing
          (restores_of_failure returns (by simp))
    | @unrecorded es confirmed e m handOut =>
      simpa [outcomeOf, paid, RowResult.ofResult] using
        RowShape.settled (a := .error e) (.handedOut set handOut) notes_nil
          (notes_singleton m).trailing
          (restores_of_confirmed (notes_singleton m))
    | @recorded es confirmed m handOut =>
      simpa [outcomeOf, paid, RowResult.ofResult] using
        RowShape.settled (a := .ok ()) (.handedOut set handOut) notes_nil
          (notes_singleton m).trailing
          (restores_of_confirmed (notes_singleton m))

/-- Settling a granted currency row has the shape of a row's processing. -/
lemma CurrencyCourse.shape {row known r known'} (h : CurrencyCourse s row known es r known') :
    RowShape s .currency row (⟨.ledger (.claim .currency row.id), .ok true⟩ :: es) r := by
  cases h with
  | @unconfigured m a notes unset trailing =>
    exact .settled (v := .error _) (.unsetCurrency unset) (notes_singleton m) trailing.trailing
      (by simp [Restores, trailing.returned])
  | paidOut set payment notes notes' =>
    exact .settled (.paid set payment) notes notes'.trailing (by simp [Restores, notes'.returned])

/-- Every course of a row has the shape of a row's processing. -/
lemma RowCourse.shape {k row known r known'} (h : RowCourse s k row known es r known') :
    RowShape s k row es r := by
  cases h with
  | @unclaimed _ _ _ e m => exact .unclaimed (notes_singleton m)
  | refused => exact .refused
  | asset course => exact course.shape
  | currency course => exact course.shape

end Shapes

/-- Whether a request neither lists nor writes. -/
def Request.looks : Request → Bool
  | .ledger (.asset _ _) | .ledger (.user _) | .ledger (.userByWallet _) => true
  | .ledger _ => false
  | _ => true

/-- Exchanges that neither list nor write. -/
def Looks (es : Trace) : Prop := ∀ e ∈ es, e.request.looks = true

section Looks

variable {s : Settler} {p : Policy} {es fs : Trace}

/-- Traces that only look do so one after the other. -/
lemma Looks.append (h : Looks es) (h' : Looks fs) : Looks (es ++ fs) :=
  List.forall_mem_append.2 ⟨h, h'⟩

/-- Looking changes no table. -/
lemma Looks.spares (h : Looks es) : Spares es := by
  rintro _ he q a rfl now t -
  have looks := h _ he
  refine reply_of_reads ?_
  cases q <;> first | rfl | cases looks

/-- Looking takes no row up and puts none down. -/
lemma Looks.keepsHand (h : Looks es) : KeepsHand es := by
  intro e he hand
  have looks := h e he
  cases req : e.request with
  | ledger q => cases q <;> rw [req] at looks <;> first | rfl | cases looks
  | _ => rfl

/-- Reports only look. -/
lemma Notes.looks (h : Notes es) : Looks es := by
  intro e he
  obtain ⟨m, note⟩ := h e he
  rw [note]
  rfl

/-- Asking for a gas price only looks. -/
lemma PriceCourse.looks {r} (h : PriceCourse p es r) : Looks es := by
  intro e he
  obtain estimate | pause := h.forall e he
  · rw [estimate]
    rfl
  · rw [pause]
    rfl

/-- A submission only looks, as far as the ledger goes. -/
lemma SubmitCourse.looks {signer c r} (h : SubmitCourse p signer c es r) : Looks es := by
  cases h with
  | unpriced priced => exact priced.looks
  | refused priced => exact priced.looks.append (by simp [Looks, Request.looks])
  | unconfirmed priced => exact priced.looks.append (by simp [Looks, Request.looks])
  | reverted priced => exact priced.looks.append (by simp [Looks, Request.looks])
  | confirmed priced => exact priced.looks.append (by simp [Looks, Request.looks])

/-- A question about users only looks. -/
lemma AsksUser.looks {q : Exchange interface} (h : AsksUser q) : q.request.looks = true := by
  obtain ⟨_, asked⟩ | ⟨_, asked⟩ := h <;> rw [asked] <;> rfl

/-- Handing an asset out only looks, as far as the ledger goes. -/
lemma HandOutCourse.looks {x : AssetPayout} {a r} (h : HandOutCourse x p a es r) : Looks es := by
  cases h with
  | disowned course => simpa [Looks] using course.asksUser.looks
  | untracked course => simpa [Looks] using course.asksUser.looks
  | submitted course _ submission =>
    exact List.forall_mem_cons.2 ⟨course.asksUser.looks, submission.looks⟩

/-- Turning an amount into units only looks. -/
lemma AmountCourse.looks {x : CurrencyPayout} {amount d r d'}
    (h : AmountCourse x amount d es r d') :
    Looks es := by
  cases h <;> simp [Looks, Request.looks]

/-- Paying an order out only looks, as far as the ledger goes. -/
lemma PaymentCourse.looks {x : CurrencyPayout} {o d r d'} (h : PaymentCourse x p o d es r d') :
    Looks es := by
  cases h with
  | unconverted amount => exact amount.looks
  | submitted amount submission => exact amount.looks.append submission.looks

/-- What leads to a verdict only looks, as far as the ledger goes. -/
lemma Verdict.looks {k o v} (h : Verdict s k o es v) : Looks es := by
  cases h with
  | unset => simp [Looks]
  | unloaded => simp [Looks, Request.looks]
  | handedOut _ course => exact List.forall_mem_cons.2 ⟨rfl, course.looks⟩
  | unsetCurrency => simp [Looks]
  | paid _ course => exact course.looks

end Looks

/-- A row that was granted: by the users and assets of `t` it comes to a verdict, which is written
to it. -/
inductive Settled (s : Settler) (t : Tables) (k : Kind) (w : Withdrawal k.Order) :
    Trace → Except SettlementError Confirmed → Prop where
  | written {t' es v ns rest} :
    t.Keeps t' →
    Served t' es t' →
    Verdict s k w.order es v →
    Notes ns →
    Trailing rest →
    Restores k w.order es v rest →
    Settled s t k w
      (⟨.ledger (.claim k w.id), .ok true⟩ ::
        (es ++ ns ++ ⟨.ledger (.update k w.id (outcomeOf v)), .ok ()⟩ :: rest)) v

/-- Nothing that follows the claim for a row takes up another. -/
lemma keepsHand_settled {es ns rest : Trace} {k id o a} (looks : Looks es) (notes : Notes ns)
    (trailing : Trailing rest) : KeepsHand (es ++ ns ++ ⟨.ledger (.update k id o), a⟩ :: rest) := by
  refine (looks.keepsHand.append notes.keepsHand).append ?_
  intro e he hand
  obtain rfl | he := List.mem_cons.1 he
  · rfl
  · obtain ⟨m, note⟩ | pause | ⟨c, n, release⟩ := trailing e he
    · rw [note]
      rfl
    · rw [pause]
      rfl
    · rw [release]
      rfl

/-- A row that was settled had one tenure. -/
lemma Settled.tenure {s t k} {w : Withdrawal k.Order} {es v} (h : Settled s t k w es v) :
    Tenure k w.id es := by
  cases h with
  | written _ _ verdict notes trailing =>
    exact .intro (keepsHand_settled verdict.looks notes trailing)

section Rows

variable {s : Settler} {k : Kind} {w : Withdrawal k.Order} {t₀ t t' : Tables}
  {es : Trace} {r : RowResult}

/-- What trails behind an outcome touches no row. -/
lemma Trailing.served (h : Trailing es) (served : Served t es t') :
    t.Keeps t' ∧ ∀ k, t'.rows k = t.rows k := by
  induction es generalizing t with
  | nil =>
    rw [served_nil.1 served]
    exact ⟨.refl t, fun _ => rfl⟩
  | cons e es ih =>
    obtain ⟨req, a⟩ := e
    have rest : Trailing es := fun e he => h e (List.mem_cons_of_mem _ he)
    obtain ⟨m, rfl⟩ | rfl | ⟨c, n, rfl⟩ := h _ List.mem_cons_self
    · cases served with
      | elsewhere _ served => exact ih rest served
    · cases served with
      | elsewhere _ served => exact ih rest served
    · obtain ⟨now, -, served⟩ := served_ledger.1 served
      obtain ⟨keeps, rows⟩ := Tables.reply_release now t c n
      obtain ⟨keeps', rows'⟩ := ih rest served
      exact ⟨keeps.trans keeps', fun k => (rows' k).trans (rows k)⟩

/-- A row is refused if the first of its id was taken up. -/
lemma RowShape.refused_of_taken {row} (h : RowShape s k w es r) (served : Served t es t')
    (first : t.row? k w.id = some row) (taken : row.state ≠ .unprocessed) :
    es = [⟨.ledger (.claim k w.id), .ok false⟩] ∧ r = .skipped ∧ t' = t := by
  cases h with
  | unclaimed =>
    obtain ⟨now, answer, -⟩ := served_ledger.1 served
    rw [Tables.reply_claim_of_taken first taken] at answer
    cases answer
  | refused =>
    obtain ⟨now, -, served⟩ := served_ledger.1 served
    rw [Tables.reply_claim_of_taken first taken] at served
    exact ⟨rfl, rfl, served_nil.1 served⟩
  | settled =>
    obtain ⟨now, answer, -⟩ := served_ledger.1 served
    rw [Tables.reply_claim_of_taken first taken] at answer
    cases answer

/-- A row that is free and the first of its id is settled. -/
lemma RowShape.settled_of_free (h : RowShape s k w es r) (served : Served t es t')
    (first : t.row? k w.id = some w) (free : w.state = .unprocessed) (keeps : t₀.Keeps t) :
    ∃ v now, Settled s t₀ k w es v ∧ r = .ofResult v ∧ t₀.Keeps t' ∧
      t'.rows k = modifyFirst (·.id = w.id) (·.updated now (outcomeOf v)) (t.rows k) ∧
      ∀ k', k' ≠ k → t'.rows k' = t.rows k' := by
  cases h with
  | unclaimed =>
    obtain ⟨now, answer, -⟩ := served_ledger.1 served
    rw [Tables.reply_claim_of_free first free] at answer
    cases answer
  | refused =>
    obtain ⟨now, answer, -⟩ := served_ledger.1 served
    rw [Tables.reply_claim_of_free first free] at answer
    cases answer
  | @settled es v ns a rest verdict notes trailing restores =>
    -- The row is taken up, looked after without a write, and in progress when its outcome is
    -- written.
    obtain ⟨claimed, -, served⟩ := served_ledger.1 served
    rw [Tables.reply_claim_of_free first free] at served
    obtain ⟨t₁, looked, served⟩ := served_append.1 served
    cases looked.eq_of_spares (verdict.looks.append notes.looks).spares
    obtain ⟨t₂, decided, reported⟩ := served_append.1 looked
    cases decided.eq_of_spares verdict.looks.spares
    have first' : (t.modifyRow k w.id (·.claimed claimed)).row? k w.id =
        some (w.claimed claimed) := by
      rw [Tables.row?_modifyRow_self (f := (·.claimed claimed)) (fun _ => rfl), first]
      rfl
    obtain ⟨now, answer, followed⟩ := served_ledger.1 served
    rw [Tables.reply_update first' rfl] at answer followed
    cases answer
    obtain ⟨keeps', rows⟩ := trailing.served followed
    have after : t₀.Keeps (t.modifyRow k w.id (·.claimed claimed)) :=
      keeps.trans Tables.keeps_modifyRow
    refine ⟨v, now, .written after decided verdict notes trailing restores, ?_,
      (after.trans Tables.keeps_modifyRow).trans keeps', ?_, fun k' other => ?_⟩
    · cases v <;> rfl
    · rw [rows]
      unfold Tables.modifyRow
      rw [Tables.rows_setRows_self, Tables.rows_setRows_self]
      have once := modifyFirst_modifyFirst (p := fun r => decide (r.id = w.id))
        (f := fun r => r.claimed claimed) (g := fun r => r.updated now (outcomeOf v))
        (fun _ => rfl) (t.rows k)
      exact once
    · rw [rows]
      unfold Tables.modifyRow
      rw [Tables.rows_setRows_of_ne other, Tables.rows_setRows_of_ne other]

end Rows

/-- What a pass makes of the rows of a table, one position after another, by the users and assets of
`t`. The ids are those of the rows before. -/
inductive Sweep (s : Settler) (t : Tables) (k : Kind) : List String → List (Withdrawal k.Order) →
    Trace → List RowResult → List (Withdrawal k.Order) → Prop where
  | nil {ids} :
    Sweep s t k ids [] [] [] []
  | passed {ids w rows es rs rows'} :
    w.state ≠ .unprocessed →
    Sweep s t k (ids ++ [w.id]) rows es rs rows' →
    Sweep s t k ids (w :: rows) es rs (w :: rows')
  | refused {ids w rows es rs rows'} :
    w.state = .unprocessed →
    w.id ∈ ids →
    Sweep s t k (ids ++ [w.id]) rows es rs rows' →
    Sweep s t k ids (w :: rows) ([⟨.ledger (.claim k w.id), .ok false⟩] ++ es) (.skipped :: rs)
      (w :: rows')
  | settled {ids w rows es v now fs rs rows'} :
    w.state = .unprocessed →
    w.id ∉ ids →
    Settled s t k w es v →
    Sweep s t k (ids ++ [w.id]) rows fs rs rows' →
    Sweep s t k ids (w :: rows) (es ++ fs) (.ofResult v :: rs)
      (w.updated now (outcomeOf v) :: rows')

/-- The first row of every id was taken up. -/
def FirstsTaken {κ : Type} (rows : List (Withdrawal κ)) : Prop :=
  ∀ id row, rows.find? (·.id = id) = some row → row.state ≠ .unprocessed

/-- A table without rows has nothing to take up. -/
lemma firstsTaken_nil {κ : Type} : FirstsTaken ([] : List (Withdrawal κ)) := by
  intro id row found
  cases found

/-- One more row keeps all firsts taken if it was taken up or is not the first of its id. -/
lemma FirstsTaken.snoc {κ : Type} {rows : List (Withdrawal κ)} {w : Withdrawal κ}
    (h : FirstsTaken rows)
    (new : w.state ≠ .unprocessed ∨ w.id ∈ rows.map (·.id)) : FirstsTaken (rows ++ [w]) := by
  intro id row found
  rw [List.find?_append] at found
  cases before : rows.find? (·.id = id) with
  | some row' =>
    rw [before] at found
    cases found
    exact h id row before
  | none =>
    rw [before] at found
    obtain ⟨same, rfl⟩ : w.id = id ∧ w = row := by simpa using found
    refine new.resolve_right fun mem => ?_
    obtain ⟨v, hv, named⟩ := List.mem_map.1 mem
    simpa [named, same] using List.find?_eq_none.1 before v hv

section Sweeps

variable {s : Settler} {k : Kind} {t₀ t t' : Tables} {known known' : KnownDecimals} {es : Trace}
  {rs : List RowResult}

/-- Processing the listed rows sweeps the table: behind the rows that are done, each row is met as
the table has it. -/
lemma RowsCourse.sweep {done rows : List (Withdrawal k.Order)}
    (h : RowsCourse s k (rows.filter (·.state = .unprocessed)) known es rs known')
    (served : Served t es t') (table : t.rows k = done ++ rows) (firsts : FirstsTaken done)
    (keeps : t₀.Keeps t) :
    ∃ rows', Sweep s t₀ k (done.map (·.id)) rows es rs rows' ∧ t'.rows k = done ++ rows' ∧
      t₀.Keeps t' ∧ ∀ k', k' ≠ k → t'.rows k' = t.rows k' := by
  induction rows generalizing done t known es rs with
  | nil =>
    cases h
    cases served_nil.1 served
    exact ⟨[], .nil, table, keeps, fun _ _ => rfl⟩
  | cons w rows ih =>
    have ids (w' : Withdrawal k.Order) (named : w'.id = w.id) :
        (done ++ [w']).map (·.id) = done.map (·.id) ++ [w.id] := by simp [named]
    have met : t.row? k w.id = (done.find? (·.id = w.id)).or (some w) := by
      unfold Tables.row?
      rw [table, List.find?_append, List.find?_cons_of_pos (by simp)]
    have go := table.trans (List.append_cons ..)
    by_cases free : w.state = .unprocessed
    · rw [List.filter_cons_of_pos (by simpa using free)] at h
      cases h with
      | @cons _ _ _ es₁ r known₁ es₂ rs _ row rest =>
        obtain ⟨t₁, served₁, served₂⟩ := served_append.1 served
        -- An earlier row of the same id was taken up by now, and the claim finds that one.
        by_cases before : w.id ∈ done.map (·.id)
        · obtain ⟨v, hv, named⟩ := List.mem_map.1 before
          obtain ⟨row', found⟩ : ∃ row', done.find? (·.id = w.id) = some row' := by
            refine Option.isSome_iff_exists.1 (List.find?_isSome.2 ⟨v, hv, by simpa using named⟩)
          rw [found] at met
          obtain ⟨rfl, rfl, rfl⟩ := row.shape.refused_of_taken served₁ met (firsts _ _ found)
          obtain ⟨rows', sweep, rows_eq, after⟩ :=
            ih rest served₂ go (firsts.snoc (.inr before)) keeps
          rw [ids w rfl] at sweep
          exact ⟨w :: rows', .refused free before sweep,
            rows_eq.trans (List.append_cons ..).symm, after⟩
        · have fresh : ∀ b ∈ done, decide (b.id = w.id) = false := by
            intro b hb
            simpa using fun same => before (List.mem_map.2 ⟨b, hb, same⟩)
          rw [List.find?_eq_none.2 (by simpa using fresh)] at met
          obtain ⟨v, now, settled, rfl, keeps₁, rows₁, others₁⟩ :=
            row.shape.settled_of_free served₁ met free keeps
          rw [table, modifyFirst_append fresh (by simp)] at rows₁
          have taken : (w.updated now (outcomeOf v)).state ≠ .unprocessed :=
            outcomeOf_ne_unprocessed v
          obtain ⟨rows', sweep, rows_eq, keeps', others⟩ :=
            ih rest served₂ (rows₁.trans (List.append_cons ..)) (firsts.snoc (.inl taken)) keeps₁
          rw [ids (w.updated now (outcomeOf v)) rfl] at sweep
          exact ⟨_ :: rows', .settled free before settled sweep,
            rows_eq.trans (List.append_cons ..).symm, keeps',
            fun k' other => (others k' other).trans (others₁ k' other)⟩
    · rw [List.filter_cons_of_neg (by simpa using free)] at h
      obtain ⟨rows', sweep, rows_eq, after⟩ := ih h served go (firsts.snoc (.inl free)) keeps
      rw [ids w rfl] at sweep
      exact ⟨w :: rows', .passed free sweep, rows_eq.trans (List.append_cons ..).symm, after⟩

/-- A pass over one table is a list of its unprocessed rows and a sweep, and leaves the other table
alone. -/
lemma TableCourse.sweep {summary : Summary} {r} (h : TableCourse s k summary known es r known')
    (served : Served t es t') (keeps : t₀.Keeps t) :
    ∃ ns fs rs, es = ⟨.ledger (.unprocessed k), .ok (t.unprocessed k)⟩ :: ns ++ fs ∧ Notes ns ∧
      r = .ok (rs.foldl Summary.record summary) ∧ Sweep s t₀ k [] (t.rows k) fs rs (t'.rows k) ∧
      t₀.Keeps t' ∧ ∀ k', k' ≠ k → t'.rows k' = t.rows k' := by
  cases h with
  | unlisted =>
    obtain ⟨now, answer, -⟩ := served_ledger.1 served
    cases answer
  | @listed rows ns fs rs _ notes course =>
    obtain ⟨now, answer, followed⟩ := served_ledger.1 served
    cases answer
    obtain ⟨t₁, reported, swept⟩ := served_append.1 followed
    cases reported.eq_of_spares notes.looks.spares
    obtain ⟨rows', sweep, same, keeps', others⟩ :=
      course.sweep swept (List.nil_append _).symm firstsTaken_nil keeps
    rw [List.nil_append] at same
    rw [same]
    exact ⟨ns, fs, rs, rfl, notes, rfl, sweep, keeps', others⟩

end Sweeps

/-- A pass over tables: a list and a sweep for each table, and a count of what came of the rows. -/
inductive Swept (s : Settler) (t : Tables) : Trace → Summary → Tables → Prop where
  | intro {ns es rs ns' es' rs' t'} :
    Notes ns →
    Sweep s t .asset [] (t.rows .asset) es rs (t'.rows .asset) →
    Notes ns' →
    Sweep s t .currency [] (t.rows .currency) es' rs' (t'.rows .currency) →
    Swept s t
      (⟨.ledger (.unprocessed .asset), .ok (t.unprocessed .asset)⟩ :: ns ++ es ++
        (⟨.ledger (.unprocessed .currency), .ok (t.unprocessed .currency)⟩ :: ns' ++ es'))
      ((rs ++ rs').foldl Summary.record .zero) t'

/-- A pass over tables in memory comes to its end, and sweeps them. -/
lemma passOver_swept (s : Settler) (b : Surroundings) (known : KnownDecimals) (t : Tables) :
    ∃ summary, (s.passOver b known t).result.1 = .ok summary ∧
      Swept s t (s.passOver b known t).trace summary (s.passOver b known t).tables := by
  obtain ⟨ends, served⟩ := b.run_spec t (s.poll known)
  change Program.Ends _ (s.passOver b known t).trace (s.passOver b known t).result at ends
  change Served t (s.passOver b known t).trace (s.passOver b known t).tables at served
  generalize (s.passOver b known t).trace = es, (s.passOver b known t).result = r,
    (s.passOver b known t).tables = t' at ends served ⊢
  have course := poll_course ends
  generalize r.1 = result, r.2 = known' at course ⊢
  cases course with
  | stopped table =>
    obtain ⟨_, _, _, _, _, failed, _⟩ := table.sweep served (.refl t)
    cases failed
  | passed table table' =>
    obtain ⟨t₁, first, second⟩ := served_append.1 served
    obtain ⟨ns, es, rs, rfl, notes, counted, sweep, keeps, others⟩ := table.sweep first (.refl t)
    obtain ⟨ns', es', rs', rfl, notes', rfl, sweep', -, others'⟩ := table'.sweep second keeps
    cases counted
    refine ⟨_, rfl, ?_⟩
    rw [← List.foldl_append]
    -- The sweep of the asset rows has left the currency rows as they were.
    have listed : t₁.unprocessed .currency = t.unprocessed .currency := by
      unfold Tables.unprocessed
      rw [others .currency nofun]
    rw [listed]
    rw [others .currency nofun] at sweep'
    rw [← others' .asset nofun] at sweep
    exact .intro notes sweep notes' sweep'

/-- A row that waits: it is unprocessed, and neither among the ids nor before it in the table is its
id. -/
def Waits {κ : Type} (ids : List String) (rows : List (Withdrawal κ)) (i : Nat)
    (w : Withdrawal κ) : Prop :=
  rows[i]? = some w ∧ w.state = .unprocessed ∧ w.id ∉ ids ++ (rows.take i).map (·.id)

/-- The first row waits if it is unprocessed and none of the ids is its own. -/
lemma waits_zero {κ : Type} {ids : List String} {rows : List (Withdrawal κ)} {w v : Withdrawal κ} :
    Waits ids (w :: rows) 0 v ↔ v = w ∧ w.state = .unprocessed ∧ w.id ∉ ids := by
  constructor
  · rintro ⟨⟨⟩, free, new⟩
    exact ⟨rfl, free, by simpa using new⟩
  · rintro ⟨rfl, free, new⟩
    exact ⟨rfl, free, by simpa using new⟩

/-- A later row waits if it does so behind the id of the first row as well. -/
lemma waits_succ {κ : Type} {ids : List String} {rows : List (Withdrawal κ)}
    {w v : Withdrawal κ} {i : Nat} :
    Waits ids (w :: rows) (i + 1) v ↔ Waits (ids ++ [w.id]) rows i v := by
  unfold Waits
  rw [List.getElem?_cons_succ, List.take_succ_cons, List.map_cons, List.append_cons]

/-- The first row of an id waits if it is unprocessed. -/
lemma exists_waits {t : Tables} {k : Kind} {id : String} {w : Withdrawal k.Order}
    (first : t.row? k id = some w)
    (free : w.state = .unprocessed) : ∃ i, Waits [] (t.rows k) i w := by
  obtain ⟨named, i, hi, at_, before⟩ := List.find?_eq_some_iff_getElem.1 first
  refine ⟨i, List.getElem?_eq_some_iff.2 ⟨hi, at_⟩, free, fun mem => ?_⟩
  rw [List.nil_append] at mem
  obtain ⟨v, hv, same⟩ := List.mem_map.1 mem
  obtain ⟨j, hj, rfl⟩ := List.mem_take_iff_getElem.1 hv
  have other := before j (by omega)
  simp only [decide_eq_true_eq] at named
  simp [same, named] at other

/-- A row that waits is the first of its id. -/
lemma Waits.findIdx_eq {κ : Type} {rows : List (Withdrawal κ)} {w : Withdrawal κ} {i : Nat}
    (waits : Waits [] rows i w) : rows.findIdx (·.id = w.id) = i := by
  obtain ⟨at_, -, new⟩ := waits
  obtain ⟨hi, same⟩ := List.getElem?_eq_some_iff.1 at_
  refine (List.findIdx_eq hi).2 ⟨by simp [same], fun j before => ?_⟩
  simp only [decide_eq_false_iff_not]
  intro named
  exact new (List.mem_map.2 ⟨rows[j], List.mem_take_iff_getElem.2 ⟨j, by omega, rfl⟩, named⟩)

/-- A claim that was refused. -/
def IsRefusal (k : Kind) (e : Exchange interface) : Prop :=
  ∃ id, e = ⟨.ledger (.claim k id), .ok false⟩

section Positions

variable {s : Settler} {t : Tables} {k : Kind} {ids : List String}
  {rows rows' : List (Withdrawal k.Order)} {es : Trace} {rs : List RowResult}
  {h : Option (Kind × String)} {id : String} {i : Nat} {w : Withdrawal k.Order}

/-- A claim that is refused is a tenure of its own. -/
lemma tenure_refusal : Tenure k id [⟨.ledger (.claim k id), .ok false⟩] :=
  .intro fun _ he => absurd he List.not_mem_nil

/-- A sweep of one table holds nothing for the rows of the other. -/
lemma Sweep.heldFrom_of_ne {k'} (sweep : Sweep s t k ids rows es rs rows') (other : k ≠ k') :
    heldFrom h k' id es = [] := by
  have notIts {id'} : ¬ (k = k' ∧ id' = id) := fun both => other both.1
  induction sweep generalizing h with
  | nil => rfl
  | passed _ _ ih => exact ih
  | refused _ _ _ ih =>
    rw [heldFrom_append, tenure_refusal.heldFrom_of_ne notIts, ih]
    rfl
  | settled _ _ settled _ ih =>
    rw [heldFrom_append, settled.tenure.heldFrom_of_ne notIts, ih]
    rfl

/-- Behind a row of its id a row is refused. -/
lemma Sweep.refusals (sweep : Sweep s t k ids rows es rs rows') (before : id ∈ ids) :
    ∀ e ∈ heldFrom h k id es, IsRefusal k e := by
  induction sweep generalizing h with
  | nil => exact fun _ he => absurd he List.not_mem_nil
  | passed _ _ ih => exact ih (List.mem_append_left _ before)
  | @refused ids w rows es rs rows' _ _ _ ih =>
    rw [heldFrom_append]
    refine List.forall_mem_append.2 ⟨?_, ih (List.mem_append_left _ before)⟩
    by_cases same : w.id = id
    · rw [← same, tenure_refusal.heldFrom_self]
      exact fun e he => ⟨w.id, List.mem_singleton.1 he⟩
    · rw [tenure_refusal.heldFrom_of_ne fun both => same both.2]
      exact fun _ he => absurd he List.not_mem_nil
  | @settled ids w _ _ _ _ _ _ _ _ new settled _ ih =>
    have other : ¬ (k = k ∧ w.id = id) := by
      rintro ⟨-, rfl⟩
      exact new before
    rw [heldFrom_append, settled.tenure.heldFrom_of_ne other]
    exact ih (List.mem_append_left _ before)

/-- A row that waits is settled, and what is done for rows of its id after that is to refuse
them. -/
lemma Sweep.settled_of_waits (sweep : Sweep s t k ids rows es rs rows')
    (waits : Waits ids rows i w) :
    ∃ own v now rest, Settled s t k w own v ∧ rows'[i]? = some (w.updated now (outcomeOf v)) ∧
      heldFrom h k w.id es = own ++ rest ∧ ∀ e ∈ rest, IsRefusal k e := by
  induction sweep generalizing h i with
  | nil => cases waits.1
  | passed taken _ ih =>
    cases i with
    | zero => exact absurd (waits_zero.1 waits).2.1 taken
    | succ i => exact ih (waits_succ.1 waits)
  | @refused ids w' rows es rs rows' _ before _ ih =>
    cases i with
    | zero => exact absurd before (waits_zero.1 waits).2.2
    | succ i =>
      have other : ¬ (k = k ∧ w'.id = w.id) := by
        rintro ⟨-, same⟩
        exact (waits_succ.1 waits).2.2 (by simp [same])
      rw [heldFrom_append, tenure_refusal.heldFrom_of_ne other]
      exact ih (waits_succ.1 waits)
  | @settled ids w' rows es v now fs rs rows' _ _ settled sweep ih =>
    cases i with
    | zero =>
      obtain ⟨rfl, -⟩ := waits_zero.1 waits
      rw [heldFrom_append, settled.tenure.heldFrom_self]
      exact ⟨es, v, now, _, settled, rfl, rfl, sweep.refusals (by simp)⟩
    | succ i =>
      have other : ¬ (k = k ∧ w'.id = w.id) := by
        rintro ⟨-, same⟩
        exact (waits_succ.1 waits).2.2 (by simp [same])
      rw [heldFrom_append, settled.tenure.heldFrom_of_ne other]
      exact ih (waits_succ.1 waits)

/-- A row that does not wait is kept by a sweep. -/
lemma Sweep.kept_of_not_waits (sweep : Sweep s t k ids rows es rs rows') (at_ : rows[i]? = some w)
    (notWaiting : ¬ Waits ids rows i w) : rows'[i]? = some w := by
  induction sweep generalizing i with
  | nil => exact at_
  | passed _ _ ih =>
    cases i with
    | zero => exact at_
    | succ i => exact ih at_ fun waits => notWaiting (waits_succ.2 waits)
  | refused _ _ _ ih =>
    cases i with
    | zero => exact at_
    | succ i => exact ih at_ fun waits => notWaiting (waits_succ.2 waits)
  | settled free new _ _ ih =>
    cases i with
    | zero =>
      cases at_
      exact absurd (waits_zero.2 ⟨rfl, free, new⟩) notWaiting
    | succ i => exact ih at_ fun waits => notWaiting (waits_succ.2 waits)

/-- What is done for a row in a pass is done for it in the sweep of its table. -/
lemma Swept.sweep {trace : Trace} {summary : Summary} {t' : Tables}
    (swept : Swept s t trace summary t') (k : Kind) :
    ∃ es rs, Sweep s t k [] (t.rows k) es rs (t'.rows k) ∧
      ∀ id, onBehalf k id trace = onBehalf k id es := by
  cases swept with
  | @intro ns es rs ns' es' rs' _ notes assets notes' currencies =>
    cases k with
    | asset =>
      refine ⟨es, rs, assets, fun id => ?_⟩
      have notTheirs {h} : heldFrom h .asset id es' = [] := currencies.heldFrom_of_ne nofun
      unfold onBehalf
      rw [heldFrom_append, heldFrom_append, heldFrom_append, heldFrom_list notes.keepsHand,
        heldFrom_list notes'.keepsHand, notTheirs, handAfter_list notes.keepsHand, List.nil_append,
        List.append_nil, List.append_nil]
    | currency =>
      refine ⟨es', rs', currencies, fun id => ?_⟩
      have notTheirs {h} : heldFrom h .currency id es = [] := assets.heldFrom_of_ne nofun
      unfold onBehalf
      rw [heldFrom_append, heldFrom_append, heldFrom_append, heldFrom_list notes.keepsHand,
        heldFrom_list notes'.keepsHand, notTheirs, handAfter_list notes'.keepsHand]
      rfl

/-- A pass settles every row that waits, and writes its outcome to it. -/
lemma Swept.settled_of_waits {trace : Trace} {summary : Summary} {t' : Tables}
    (swept : Swept s t trace summary t') (waits : Waits [] (t.rows k) i w) :
    ∃ own v now rest, Settled s t k w own v ∧ (t'.rows k)[i]? = some (w.updated now (outcomeOf v)) ∧
      onBehalf k w.id trace = own ++ rest ∧ ∀ e ∈ rest, IsRefusal k e := by
  obtain ⟨es, rs, sweep, own⟩ := swept.sweep k
  rw [own]
  exact sweep.settled_of_waits waits

/-- A pass keeps every row that does not wait. -/
lemma Swept.kept_of_not_waits {trace : Trace} {summary : Summary} {t' : Tables}
    (swept : Swept s t trace summary t') (at_ : (t.rows k)[i]? = some w)
    (notWaiting : ¬ Waits [] (t.rows k) i w) : (t'.rows k)[i]? = some w := by
  obtain ⟨es, rs, sweep, -⟩ := swept.sweep k
  exact sweep.kept_of_not_waits at_ notWaiting

end Positions

end Payout.Settlement
