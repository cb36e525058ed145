import Payout.Proofs.Settlement.Evidence

/-!
# Batches

A pass over tables in memory settles every row that waits and leaves every other row alone, counts
what came of the rows exactly, and makes its calls in the order of the tables (`Completes`). A pass
after it finds nothing that waits, and asks the chain nothing (`passOver_completes`).
-/

namespace Payout

/-- The state in which a row is left that came to a result. -/
def RowResult.state : RowResult → WithdrawalState
  | .submitted => .pending
  | .failed => .error
  | .skipped => .unprocessed

/-- The table of the rows for which a call is made. -/
def ContractCall.kind : ContractCall → Kind
  | .mintAsset .. => .asset
  | .transferFromVault .. => .asset
  | .mintCurrency .. => .currency
  | .transferCurrency .. => .currency

/-- How many rows came to a result. -/
def Summary.count (s : Summary) : RowResult → Nat
  | .submitted => s.submitted
  | .failed => s.failed
  | .skipped => s.skipped

/-- The state that a row is left in tells what came of it. -/
lemma RowResult.state_injective : Function.Injective RowResult.state := by
  intro r r' same
  cases r <;> cases r' <;> first | rfl | cases same

/-- A result is counted as often as it comes. -/
lemma Summary.count_foldl (s : Summary) (rs : List RowResult) (r : RowResult) :
    (rs.foldl Summary.record s).count r = s.count r + rs.count r := by
  induction rs generalizing s with
  | nil => rfl
  | cons r' rs ih =>
    have once : (s.record r').count r = s.count r + if r' == r then 1 else 0 := by
      cases r' <;> cases r <;> rfl
    rw [List.foldl_cons, ih, once, List.count_cons]
    omega

/-- Every result is counted once. -/
lemma Summary.total_foldl (s : Summary) (rs : List RowResult) :
    (rs.foldl Summary.record s).total = s.total + rs.length := by
  induction rs generalizing s with
  | nil => rfl
  | cons r rs ih =>
    have once : (s.record r).total = s.total + 1 := by
      cases r <;> simp only [Summary.record, Summary.total] <;> omega
    rw [List.foldl_cons, ih, once, List.length_cons]
    omega

namespace Settlement
open Program Ledger
open CurrencyPayout (outcomeOf)

/-- How many rows of a table were unprocessed before and are in a state after. -/
def becameIn {κ : Type} (x : WithdrawalState) (rows rows' : List (Withdrawal κ)) : Nat :=
  (rows.zip rows').countP fun p => p.1.state = .unprocessed ∧ p.2.state = x

/-- How many rows of both tables were unprocessed before and are in a state after. -/
def became (x : WithdrawalState) (t t' : Tables) : Nat :=
  becameIn x (t.rows .asset) (t'.rows .asset) + becameIn x (t.rows .currency) (t'.rows .currency)

/-- The ids of the rows that wait, in table order, behind rows of the ids given. -/
def waiting {κ : Type} : List String → List (Withdrawal κ) → List String
  | _, [] => []
  | ids, w :: rows =>
    if w.state = .unprocessed ∧ w.id ∉ ids then w.id :: waiting (ids ++ [w.id]) rows
    else waiting (ids ++ [w.id]) rows

/-- The rows that wait, those for assets before those for currency, each table in its order. -/
def queue (t : Tables) : List (Kind × String) :=
  (waiting [] (t.rows .asset)).map (.asset, ·) ++ (waiting [] (t.rows .currency)).map (.currency, ·)

section Sweeps

variable {s : Settler} {t : Tables} {k : Kind} {ids : List String}
  {rows rows' : List (Withdrawal k.Order)}
  {es : Trace} {rs : List RowResult} {h : Option (Kind × String)}

/-- The state of the outcome that is written is that of the result that is counted. -/
lemma state_outcomeOf (v : Except SettlementError Confirmed) :
    (outcomeOf v).state = (RowResult.ofResult v).state := by
  cases v with
  | ok confirmed => rfl
  | error e => exact congrArg Outcome.state e.outcome_eq

/-- A sweep keeps the number of rows. -/
lemma Sweep.length_eq (sweep : Sweep s t k ids rows es rs rows') : rows'.length = rows.length := by
  induction sweep with
  | nil => rfl
  | passed _ _ ih => exact congrArg (· + 1) ih
  | refused _ _ _ ih => exact congrArg (· + 1) ih
  | settled _ _ _ _ ih => exact congrArg (· + 1) ih

/-- A sweep has one result for each row that waited. -/
lemma Sweep.length_results (sweep : Sweep s t k ids rows es rs rows') :
    rs.length = (rows.filter (·.state = .unprocessed)).length := by
  induction sweep with
  | nil => rfl
  | passed taken _ ih => rw [List.filter_cons_of_neg (by simpa using taken), ih]
  | refused free _ _ ih =>
    rw [List.filter_cons_of_pos (by simpa using free), List.length_cons, List.length_cons, ih]
  | settled free _ _ _ ih =>
    rw [List.filter_cons_of_pos (by simpa using free), List.length_cons, List.length_cons, ih]

/-- The first row counts if it was unprocessed and came to the state, and the others as before. -/
lemma becameIn_cons {κ : Type} {x : WithdrawalState} {w w' : Withdrawal κ}
    {rows rows' : List (Withdrawal κ)} :
    becameIn x (w :: rows) (w' :: rows') =
      becameIn x rows rows' + if w.state = .unprocessed ∧ w'.state = x then 1 else 0 := by
  simp [becameIn, List.countP_cons]

/-- A result stands for a row that has become what the result says. -/
lemma Sweep.count_results (sweep : Sweep s t k ids rows es rs rows') (r : RowResult) :
    rs.count r = becameIn r.state rows rows' := by
  -- A row that has come to a result counts where the result does.
  have counted {r' : RowResult} {x y : WithdrawalState} (free : x = .unprocessed)
      (state : y = r'.state) :
      (if r' == r then 1 else 0) = if x = .unprocessed ∧ y = r.state then 1 else 0 := by
    simp [free, state, RowResult.state_injective.eq_iff]
  induction sweep with
  | nil => rfl
  | passed taken _ ih =>
    rw [becameIn_cons, if_neg fun both => taken both.1, ih]
    rfl
  | refused free _ _ ih => rw [becameIn_cons, List.count_cons, ih, counted free free]
  | @settled _ w _ _ v now _ _ _ free _ _ _ ih =>
    have state : (w.updated now (outcomeOf v)).state = (RowResult.ofResult v).state :=
      state_outcomeOf v
    rw [becameIn_cons, List.count_cons, ih, counted free state]

/-- After a sweep the first row of every id was taken up. -/
lemma Sweep.firstsTaken {done : List (Withdrawal k.Order)}
    (sweep : Sweep s t k ids rows es rs rows') (same : done.map (·.id) = ids)
    (firsts : FirstsTaken done) :
    FirstsTaken (done ++ rows') := by
  induction sweep generalizing done with
  | nil => simpa using firsts
  | @passed ids w rows es rs rows' taken _ ih =>
    rw [List.append_cons]
    exact ih (by simp [same]) (firsts.snoc (.inl taken))
  | @refused ids w rows es rs rows' _ before _ ih =>
    rw [List.append_cons]
    exact ih (by simp [same]) (firsts.snoc (.inr (same ▸ before)))
  | @settled ids w rows es v now fs rs rows' _ _ _ _ ih =>
    have taken : (w.updated now (outcomeOf v)).state ≠ .unprocessed := outcomeOf_ne_unprocessed v
    rw [List.append_cons]
    exact ih (by simp [same, Withdrawal.updated]) (firsts.snoc (.inl taken))

/-- Where the first row of every id was taken up, all that a sweep does is to be refused. -/
lemma Sweep.refusals_of_firstsTaken {done : List (Withdrawal k.Order)}
    (sweep : Sweep s t k ids rows es rs rows') (same : done.map (·.id) = ids)
    (firsts : FirstsTaken (done ++ rows)) : ∀ e ∈ es, IsRefusal k e := by
  induction sweep generalizing done with
  | nil => exact fun _ he => absurd he List.not_mem_nil
  | passed _ _ ih =>
    rw [List.append_cons] at firsts
    exact ih (by simp [same]) firsts
  | @refused ids w rows es rs rows' _ _ _ ih =>
    rw [List.append_cons] at firsts
    exact List.forall_mem_cons.2 ⟨⟨w.id, rfl⟩, ih (by simp [same]) firsts⟩
  | @settled ids w rows es v now fs rs rows' free new _ _ _ =>
    refine absurd free (firsts w.id w ?_)
    have fresh : done.find? (·.id = w.id) = none := by
      refine List.find?_eq_none.2 fun v hv named => new ?_
      rw [← same]
      exact List.mem_map.2 ⟨v, hv, by simpa using named⟩
    rw [List.find?_append, fresh]
    simp

/-- There are as many calls as requests to make one. -/
lemma length_sent (es : Trace) : (es.filter (·.request.isCall)).length = (sent es).length := by
  induction es with
  | nil => rfl
  | cons e es ih =>
    obtain ⟨r, a⟩ := e
    cases r <;> first | exact ih | exact congrArg (· + 1) ih

/-- At most one call is made for a row. -/
lemma Shows.length_le_one {o calls waits v} (shows : Shows s k o calls waits v) :
    calls.length ≤ 1 := by
  cases shows with
  | unsent few => exact few
  | unconfirmed => exact le_rfl
  | reverted => exact le_rfl
  | confirmed => exact le_rfl

/-- The calls of a sweep are for rows that wait, in table order. -/
lemma Sweep.callersFrom_sublist (sweep : Sweep s t k ids rows es rs rows') :
    (callersFrom h es).Sublist ((waiting ids rows).map fun id => some (k, id)) := by
  induction sweep generalizing h with
  | nil => exact .slnil
  | passed taken _ ih =>
    rw [waiting, if_neg fun both => taken both.1]
    exact ih
  | refused _ before _ ih =>
    rw [waiting, if_neg fun both => both.2 before, callersFrom_append, tenure_refusal.callersFrom]
    exact ih
  | @settled ids w rows es v now fs rs rows' free new settled _ ih =>
    rw [waiting, if_pos ⟨free, new⟩, callersFrom_append, settled.tenure.callersFrom, List.map_cons,
      ← List.singleton_append]
    refine List.Sublist.append ?_ ih
    have few : (es.filter (·.request.isCall)).length ≤ 1 :=
      (length_sent es).trans_le settled.shows.length_le_one
    rw [List.map_const']
    exact (List.replicate_sublist_replicate _).2 few

/-- A call that is signed for a row belongs to the table of the row. -/
lemma kind_of_signer? {o : k.Order} {c : ContractCall} (signs : (s.signer? k o c).isSome) :
    c.kind = k := by
  cases k <;> cases c <;> first | rfl | cases signs

/-- Every call that is made for a row belongs to its table. -/
lemma Shows.kind_eq {o calls waits v} (shows : Shows s k o calls waits v) :
    ∀ x ∈ calls, x.1.kind = k := by
  cases shows with
  | unsent _ signs => exact fun x mem => kind_of_signer? (signs x mem)
  | unconfirmed signs => simpa using kind_of_signer? (Option.isSome_iff_exists.2 ⟨_, signs⟩)
  | reverted signs => simpa using kind_of_signer? (Option.isSome_iff_exists.2 ⟨_, signs⟩)
  | confirmed signs => simpa using kind_of_signer? (Option.isSome_iff_exists.2 ⟨_, signs⟩)

/-- A call in a trace is among those that were made. -/
lemma mem_sent {c : ContractCall} {p a} (called : ⟨.call c p, a⟩ ∈ es) : (c, a) ∈ sent es :=
  List.mem_filterMap.2 ⟨_, called, rfl⟩

/-- Every call is made for a row of its table. -/
def Fitting (xs : List (Option (Kind × String) × Exchange interface)) : Prop :=
  ∀ x ∈ xs, ∀ c p, x.2.request = .call c p → ∃ id, x.1 = some (c.kind, id)

/-- Every call of a sweep is made for a row of its table. -/
lemma Sweep.fitting (sweep : Sweep s t k ids rows es rs rows') : Fitting (attributed h es) := by
  induction sweep generalizing h with
  | nil => exact fun _ mem => absurd mem List.not_mem_nil
  | passed _ _ ih => exact ih
  | refused _ _ _ ih =>
    rw [attributed_append, tenure_refusal.attributed]
    refine List.forall_mem_append.2 ⟨?_, ih⟩
    intro x mem c p called
    cases List.mem_singleton.1 mem
    cases called
  | @settled ids w rows es v now fs rs rows' _ _ settled _ ih =>
    rw [attributed_append, settled.tenure.attributed]
    refine List.forall_mem_append.2 ⟨?_, ih⟩
    intro x mem c p called
    obtain ⟨⟨r, a⟩, he, rfl⟩ := List.mem_map.1 mem
    cases called
    have kind : c.kind = k := settled.shows.kind_eq _ (mem_sent he)
    exact ⟨w.id, by rw [kind]⟩

/-- A list and the reports after it make no call. -/
lemma fitting_list {a : Except LedgerError (List (Withdrawal k.Order))} (notes : Notes es) :
    Fitting (attributed h (⟨.ledger (.unprocessed k), a⟩ :: es)) := by
  rw [attributed_list notes.keepsHand]
  intro x mem c p called
  obtain ⟨e, he, rfl⟩ := List.mem_map.1 mem
  obtain rfl | he := List.mem_cons.1 he
  · cases called
  · obtain ⟨m, note⟩ := notes e he
    cases note.symm.trans called

/-- So no row has a call among them. -/
lemma callersFrom_list {a : Except LedgerError (List (Withdrawal k.Order))} (notes : Notes es) :
    callersFrom h (⟨.ledger (.unprocessed k), a⟩ :: es) = [] := by
  unfold callersFrom
  rw [attributed_list notes.keepsHand]
  simp only [List.filter_map, List.map_map, List.map_eq_nil_iff, List.filter_eq_nil_iff]
  intro e he
  obtain rfl | he := List.mem_cons.1 he
  · simp [Request.isCall]
  · obtain ⟨m, note⟩ := notes e he
    simp [note, Request.isCall]

end Sweeps

/-- A pass that leaves nothing undone and has counted what it did. -/
structure Completes (t : Tables) (trace : Trace) (summary : Summary) (t' : Tables) : Prop where
  length_eq : ∀ k, (t'.rows k).length = (t.rows k).length
  settled : ∀ {k i w}, Waits [] (t.rows k) i w →
    ∃ now o, (t'.rows k)[i]? = some (w.updated now o) ∧ (o.state = .pending ∨ o.state = .error)
  kept : ∀ {k i w}, (t.rows k)[i]? = some w → ¬ Waits [] (t.rows k) i w → (t'.rows k)[i]? = some w
  submitted : summary.submitted = became .pending t t'
  failed : summary.failed = became .error t t'
  skipped : summary.skipped = became .unprocessed t t'
  total : summary.total = (t.unprocessed .asset).length + (t.unprocessed .currency).length
  fitting : Fitting (attributed none trace)
  /-- Calls are made for rows that wait, one for each at most, in the order of the tables. -/
  inOrder : (callers trace).Sublist ((queue t).map some)

section Passes

variable {s : Settler} {t t' : Tables} {trace : Trace} {summary : Summary}

/-- The summary of a pass counts the rows that came to each state. -/
lemma Swept.count (swept : Swept s t trace summary t') (r : RowResult) :
    summary.count r = became r.state t t' := by
  cases swept with
  | intro _ assets _ currencies =>
    rw [Summary.count_foldl, List.count_append, assets.count_results, currencies.count_results]
    cases r <;> exact Nat.zero_add _

/-- The rows with calls stand in the order of those that wait. -/
lemma Swept.callers_sublist (swept : Swept s t trace summary t') :
    (callers trace).Sublist ((queue t).map some) := by
  cases swept with
  | intro notes assets notes' currencies =>
    unfold callers queue
    rw [callersFrom_append, callersFrom_append, callersFrom_append, callersFrom_list notes,
      callersFrom_list notes', List.nil_append, List.nil_append, List.map_append, List.map_map,
      List.map_map]
    exact assets.callersFrom_sublist.append currencies.callersFrom_sublist

/-- Every call of a pass is made for a row of its table. -/
lemma Swept.fitting (swept : Swept s t trace summary t') : Fitting (attributed none trace) := by
  cases swept with
  | intro notes assets notes' currencies =>
    rw [attributed_append, attributed_append, attributed_append]
    exact List.forall_mem_append.2 ⟨List.forall_mem_append.2 ⟨fitting_list notes, assets.fitting⟩,
      List.forall_mem_append.2 ⟨fitting_list notes', currencies.fitting⟩⟩

/-- A pass over tables in memory leaves nothing undone. -/
lemma Swept.completes (swept : Swept s t trace summary t') : Completes t trace summary t' where
  length_eq k := by
    obtain ⟨es, rs, sweep, -⟩ := swept.sweep k
    exact sweep.length_eq
  settled waits := by
    obtain ⟨own, v, now, rest, -, written, -⟩ := swept.settled_of_waits waits
    refine ⟨now, outcomeOf v, written, ?_⟩
    rw [state_outcomeOf]
    cases v
    · exact .inr rfl
    · exact .inl rfl
  kept := swept.kept_of_not_waits
  submitted := swept.count .submitted
  failed := swept.count .failed
  skipped := swept.count .skipped
  total := by
    cases swept with
    | intro _ assets _ currencies =>
      rw [Summary.total_foldl, List.length_append, assets.length_results, currencies.length_results]
      exact Nat.zero_add _
  fitting := swept.fitting
  inOrder := swept.callers_sublist

/-- The first row of every id was taken up in both tables. -/
def AllTaken (t : Tables) : Prop := ∀ k, FirstsTaken (t.rows k)

/-- After a pass the first row of every id was taken up. -/
lemma Swept.allTaken (swept : Swept s t trace summary t') : AllTaken t' := by
  intro k
  obtain ⟨es, rs, sweep, -⟩ := swept.sweep k
  exact sweep.firstsTaken List.map_nil firstsTaken_nil

/-- An exchange of a pass that finds nothing to do: a list, a report, or a claim that was
refused. -/
inductive Futile : Exchange interface → Prop where
  | listed {k a} :
    Futile ⟨.ledger (.unprocessed k), a⟩
  | noted {m a} :
    Futile ⟨.note m, a⟩
  | refused {k id} :
    Futile ⟨.ledger (.claim k id), .ok false⟩

/-- Reports are futile. -/
lemma Notes.futile {es : Trace} (notes : Notes es) : ∀ e ∈ es, Futile e := by
  intro e he
  obtain ⟨r, a⟩ := e
  obtain ⟨m, rfl⟩ := notes _ he
  exact .noted

/-- Futile exchanges change no table. -/
lemma spares_of_futile {es : Trace} (futile : ∀ e ∈ es, Futile e) : Spares es := by
  intro e he q a asked now t answer
  subst asked
  cases futile _ he with
  | listed => exact reply_of_reads rfl
  | @refused k id =>
    unfold Tables.reply at answer ⊢
    cases performed : Tables.perform now (.claim k id) t with
    | error e => rfl
    | ok result =>
      obtain ⟨granted, t'⟩ := result
      rw [performed] at answer
      cases answer
      obtain ⟨_, _, ⟨_, granted, _⟩ | ⟨_, _, same⟩⟩ := Tables.claim_eq_ok performed
      · cases granted
      · exact same

/-- A pass over tables in which the first row of every id was taken up finds nothing to do. -/
lemma Swept.futile (swept : Swept s t trace summary t') (taken : AllTaken t) :
    ∀ e ∈ trace, Futile e := by
  have refusals {k} {es : Trace} (refused : ∀ e ∈ es, IsRefusal k e) : ∀ e ∈ es, Futile e := by
    intro e he
    obtain ⟨id, rfl⟩ := refused e he
    exact .refused
  cases swept with
  | intro notes assets notes' currencies =>
    have listed {k a} {ns : Trace} (notes : Notes ns) :
        ∀ e ∈ ⟨.ledger (.unprocessed k), a⟩ :: ns, Futile e :=
      List.forall_mem_cons.2 ⟨.listed, notes.futile⟩
    have first := refusals (assets.refusals_of_firstsTaken List.map_nil (taken .asset))
    have second := refusals (currencies.refusals_of_firstsTaken List.map_nil (taken .currency))
    exact List.forall_mem_append.2 ⟨List.forall_mem_append.2 ⟨listed notes, first⟩,
      List.forall_mem_append.2 ⟨listed notes', second⟩⟩

end Passes

/-- **A pass settles its batch.** Whatever the chain answers, a pass over tables in memory comes to
its end with a count; it leaves nothing undone that waits, touches nothing else, and has counted
what it did. A pass right after it asks the chain nothing and changes nothing at all. -/
theorem passOver_completes (s : Settler) (known : KnownDecimals)
    (b b' : Surroundings) (t : Tables) :
    let pass := s.passOver b known t
    let again := s.passOver b' pass.result.2 pass.tables
    (∃ summary, pass.result.1 = .ok summary ∧ Completes t pass.trace summary pass.tables) ∧
      again.tables = pass.tables ∧
        ∀ e ∈ again.trace, (∃ q, e.request = .ledger q) ∨ ∃ m, e.request = .note m := by
  intro pass again
  obtain ⟨summary, result, swept⟩ := passOver_swept s b known t
  obtain ⟨_, -, sweptAgain⟩ := passOver_swept s b' pass.result.2 pass.tables
  have futile := sweptAgain.futile swept.allTaken
  have served : Served pass.tables again.trace again.tables := (b'.run_spec pass.tables _).2
  refine ⟨⟨summary, result, swept.completes⟩,
    served.eq_of_spares (spares_of_futile futile), fun e he => ?_⟩
  cases futile e he with
  | listed => exact .inl ⟨_, rfl⟩
  | noted => exact .inr ⟨_, rfl⟩
  | refused => exact .inl ⟨_, rfl⟩

end Settlement

end Payout
