import Payout.Proofs.Settlement.Batches
import Payout.Proofs.Settlement.Custody
import Payout.Proofs.Settlement.Tenures

/-!
# Setbacks

A pass over tables in memory while operations of the ledger fail without effect, any of them, at any
moment and with any error (`Setbacks`). A list that fails ends the pass; nothing else does. Each row
that was listed is asked for once, a row that is not granted is left alone, and a row whose
transaction is through but whose outcome could not be written stays in progress and counts as failed
(`passUnder_weathers`).
-/

namespace Payout.Settlement
open Program Ledger
open CurrencyPayout (outcomeOf)

/-- Whether an operation of the ledger fails without effect, and with which error, by all that was
asked before. -/
abbrev Setbacks := Trace → Ledger.Request → Option LedgerError

/-- The same setbacks, but for the list of the currency rows. -/
def Setbacks.listing (f : Setbacks) : Setbacks := fun es r =>
  match r with
  | .unprocessed .currency => none
  | r => f es r

namespace Surroundings

/-- Answers a request as without setbacks, unless the ledger has one. -/
def replyUnder (b : Surroundings) (f : Setbacks) (r : Request) :
    StateM (Trace × Tables) r.Answer := fun (es, t) =>
  match r with
  | .ledger q =>
    match f es q with
    | some e => (.error e, es ++ [⟨.ledger q, .error e⟩], t)
    | none => b.reply (.ledger q) (es, t)
  | r => b.reply r (es, t)

/-- Runs a settlement program over tables in memory under setbacks. -/
def runUnder {α : Type} (b : Surroundings) (f : Setbacks) (t : Tables) (p : Step α) : Run α :=
  let (a, es, t') := p.run (b.replyUnder f) ([], t)
  ⟨es, a, t'⟩

end Surroundings

/-- One pass of a settler over tables in memory under setbacks. -/
def Settler.passUnder (s : Settler) (b : Surroundings) (f : Setbacks)
    (known : KnownDecimals) (t : Tables) :
    Run (Except SettlementError Summary × KnownDecimals) :=
  b.runUnder f t (s.poll known)

/-- The exchanges with the ledger are operations on tables, or failed without effect. -/
inductive Tried : Tables → Trace → Tables → Prop where
  | nil {t} :
    Tried t [] t
  | failed {t r e es t'} :
    Tried t es t' →
    Tried t (⟨.ledger r, .error e⟩ :: es) t'
  | performed {t now r v t' es t''} :
    Tables.perform now r t = .ok (v, t') →
    Tried t' es t'' →
    Tried t (⟨.ledger r, .ok v⟩ :: es) t''
  | elsewhere {t r a es t'} :
    (∀ q, r ≠ .ledger q) →
    Tried t es t' →
    Tried t (⟨r, a⟩ :: es) t'

section Tried

variable {t t' t'' : Tables} {es fs : Trace} {r : Ledger.Request} {k : Kind} {id : String}

/-- Without exchanges the tables stay as they are. -/
lemma tried_nil : Tried t [] t' ↔ t' = t := by
  constructor
  · intro h
    cases h
    rfl
  · rintro rfl
    exact .nil

/-- An operation that failed leaves the tables to the others. -/
lemma tried_error {e} : Tried t (⟨.ledger r, .error e⟩ :: es) t' ↔ Tried t es t' := by
  constructor
  · intro h
    cases h with
    | failed rest => exact rest
    | elsewhere other => exact absurd rfl (other r)
  · exact .failed

/-- An operation that succeeded was performed, and the others go on from there. -/
lemma tried_ok {v} : Tried t (⟨.ledger r, .ok v⟩ :: es) t'' ↔
    ∃ now t', Tables.perform now r t = .ok (v, t') ∧ Tried t' es t'' := by
  constructor
  · intro h
    cases h with
    | performed performed rest => exact ⟨_, _, performed, rest⟩
    | elsewhere other => exact absurd rfl (other r)
  · rintro ⟨now, t', performed, rest⟩
    exact .performed performed rest

/-- A reply of the tables is an operation on them or a failure without effect. -/
lemma tried_of_reply {now a} (reply : t.reply now r = (a, t')) (rest : Tried t' es t'') :
    Tried t (⟨.ledger r, a⟩ :: es) t'' := by
  obtain ⟨⟨e, rfl⟩, rfl⟩ | ⟨v, rfl, performed⟩ := reply_cases reply
  · exact .failed rest
  · exact .performed performed rest

/-- Exchanges one after another go through the tables between them. -/
lemma tried_append : Tried t (es ++ fs) t'' ↔ ∃ t', Tried t es t' ∧ Tried t' fs t'' := by
  constructor
  · intro h
    induction es generalizing t with
    | nil => exact ⟨t, .nil, h⟩
    | cons e es ih =>
      cases h with
      | failed rest =>
        obtain ⟨t', first, second⟩ := ih rest
        exact ⟨t', .failed first, second⟩
      | performed performed rest =>
        obtain ⟨t', first, second⟩ := ih rest
        exact ⟨t', .performed performed first, second⟩
      | elsewhere other rest =>
        obtain ⟨t', first, second⟩ := ih rest
        exact ⟨t', .elsewhere other first, second⟩
  · rintro ⟨t', first, second⟩
    induction first with
    | nil => exact second
    | failed _ ih => exact .failed (ih second)
    | performed performed _ ih => exact .performed performed (ih second)
    | elsewhere other _ ih => exact .elsewhere other (ih second)

/-- What every operation keeps that is performed stays what it is. -/
lemma Tried.keeps {α : Type} (φ : Tables → α) (h : Tried t es t')
    (keeps : ∀ e ∈ es, ∀ r v now t t', e = ⟨.ledger r, .ok v⟩ →
      Tables.Turn now t ⟨r, .ok v⟩ t' → φ t' = φ t) :
    φ t' = φ t := by
  induction h with
  | nil => rfl
  | failed _ ih => exact ih fun e he => keeps e (List.mem_cons_of_mem _ he)
  | performed performed _ ih =>
    have first := keeps _ List.mem_cons_self _ _ _ _ _ rfl (Tables.turn_of_perform performed)
    exact (ih fun e he => keeps e (List.mem_cons_of_mem _ he)).trans first
  | elsewhere _ _ ih => exact ih fun e he => keeps e (List.mem_cons_of_mem _ he)

/-- A row that no exchange names is found as it was. -/
lemma Tried.row?_eq (h : Tried t es t') (other : ∀ e ∈ es, e.request.row? ≠ some (k, id)) :
    t'.row? k id = t.row? k id := by
  refine Tried.keeps (fun t => t.row? k id) h fun e he r v now t t' same turn => ?_
  subst same
  have other := other _ he
  cases turn with
  | kept => rfl
  | @claimed k' id' =>
    refine Tables.row?_modifyRow_of_ne (fun _ => rfl) ?_
    rintro ⟨rfl, rfl⟩
    exact other rfl
  | @updated k' id' =>
    refine Tables.row?_modifyRow_of_ne (fun _ => rfl) ?_
    rintro ⟨rfl, rfl⟩
    exact other rfl
  | released => cases k <;> rfl

/-- Exchanges that name no row leave every row as it was. -/
lemma Tried.row?_eq_of_none (h : Tried t es t') (none : ∀ e ∈ es, e.request.row? = none) :
    t'.row? k id = t.row? k id := by
  apply h.row?_eq
  intro e he
  rw [none e he]
  exact nofun

/-- A table of which no exchange names a row stays as it is. -/
lemma Tried.rows_eq (h : Tried t es t') (other : ∀ id, ∀ e ∈ es, e.request.row? ≠ some (k, id)) :
    t'.rows k = t.rows k := by
  refine Tried.keeps (fun t => t.rows k) h fun e he r v now t t' same turn => ?_
  subst same
  cases turn with
  | kept => rfl
  | @claimed k' id' =>
    refine Tables.rows_setRows_of_ne ?_ _
    rintro rfl
    exact other _ _ he rfl
  | @updated k' id' =>
    refine Tables.rows_setRows_of_ne ?_ _
    rintro rfl
    exact other _ _ he rfl
  | released => cases k <;> rfl

/-- Where nothing is put back, users and assets stay as they are. -/
lemma Tried.assets_eq (h : Tried t es t') (none : returned es = []) :
    t'.users = t.users ∧ t'.assets = t.assets := by
  have same : (t'.users, t'.assets) = (t.users, t.assets) := by
    refine Tried.keeps (fun t => (t.users, t.assets)) h fun e he r v now t t' same turn => ?_
    subst same
    obtain ⟨users, assets⟩ := turn.assets_eq fun c n release => by
      cases release
      have mem : (c, n) ∈ returned es := mem_returned_iff.2 ⟨_, he⟩
      rw [none] at mem
      cases mem
    exact Prod.ext users assets
  exact Prod.mk.inj same

end Tried

namespace Surroundings

variable {b : Surroundings} {f : Setbacks} {s s' : Trace × Tables} {es : Trace}

/-- An operation with a setback fails, and the tables stay as they are. -/
lemma replyUnder_some {q e} (setback : f s.1 q = some e) :
    b.replyUnder f (.ledger q) s = (.error e, s.1 ++ [⟨.ledger q, .error e⟩], s.2) := by
  simp only [replyUnder, setback]

/-- An operation without one is answered as ever. -/
lemma replyUnder_none {q} (none : f s.1 q = none) :
    b.replyUnder f (.ledger q) s = b.reply (.ledger q) s := by
  simp only [replyUnder, none]

/-- What the ledger is not asked is answered as ever. -/
lemma replyUnder_elsewhere {r : Request} (other : ∀ q, r ≠ .ledger q) :
    b.replyUnder f r s = b.reply r s := by
  cases r with
  | ledger q => exact absurd rfl (other q)
  | _ => rfl

/-- Surroundings keep every answer under setbacks too. -/
lemma records_replyUnder (b : Surroundings) (f : Setbacks) : Records (b.replyUnder f) := by
  intro r s
  by_cases asked : ∃ q, r = .ledger q
  · obtain ⟨q, rfl⟩ := asked
    cases setback : f s.1 q with
    | some e => rw [replyUnder_some setback]
    | none =>
      rw [replyUnder_none setback]
      exact b.records_reply _ s
  · rw [replyUnder_elsewhere fun q same => asked ⟨q, same⟩]
    exact b.records_reply r s

/-- Under setbacks the operations of the ledger are tried on the tables. -/
lemma serves_replyUnder (serves : Serves (b.replyUnder f) s es s') : Tried s.2 es s'.2 := by
  induction serves with
  | nil => exact .nil
  | @cons s r a s' es s'' answered _ ih =>
    by_cases asked : ∃ q, r = .ledger q
    · obtain ⟨q, rfl⟩ := asked
      cases setback : f s.1 q with
      | some e =>
        rw [replyUnder_some setback] at answered
        cases answered
        exact .failed ih
      | none =>
        rw [replyUnder_none setback] at answered
        cases answered
        exact tried_of_reply (Prod.mk.eta (p := s.2.reply (b.now s.1) q)).symm ih
    · have other : ∀ q, r ≠ .ledger q := fun q same => asked ⟨q, same⟩
      rw [replyUnder_elsewhere other, reply_elsewhere other] at answered
      cases answered
      exact .elsewhere other ih

/-- As long as the currency rows are not listed, it does not matter whether that would fail. -/
lemma serves_listing (serves : Serves (b.replyUnder f) s es s')
    (before : ∀ e ∈ es, e.request ≠ .ledger (.unprocessed .currency)) :
    Serves (b.replyUnder f.listing) s es s' := by
  induction serves with
  | nil => exact .nil
  | @cons s r a s' es s'' answered _ ih =>
    refine .cons ?_ (ih fun e he => before e (List.mem_cons_of_mem _ he))
    have other := before _ List.mem_cons_self
    rw [← answered]
    cases r with
    | ledger q =>
      have same : f.listing s.1 q = f s.1 q := by
        unfold Setbacks.listing
        split
        case h_1 => exact absurd rfl other
        case h_2 => rfl
      simp only [replyUnder, same]
    | _ => rfl

/-- A run under setbacks is a path to an end, on which the operations of the ledger were tried. -/
lemma runUnder_spec {α : Type} (b : Surroundings) (f : Setbacks) (t : Tables) (p : Step α) :
    p.Ends (b.runUnder f t p).trace (b.runUnder f t p).result ∧
      Serves (b.replyUnder f) ([], t) (b.runUnder f t p).trace
        ((b.runUnder f t p).trace, (b.runUnder f t p).tables) :=
  (b.records_replyUnder f).run_spec t p

end Surroundings

/-- What has become of a row that was unprocessed, by the exchanges for it: nothing if it was not
granted; else it is in progress, or has an outcome that was written. -/
inductive Fared (k : Kind) (w : Withdrawal k.Order) : Trace → Withdrawal k.Order → Prop where
  | skipped {own} :
    ⟨.ledger (.claim k w.id), .ok true⟩ ∉ own →
    (∀ e ∈ own, e.request = .ledger (.claim k w.id) ∨ ∃ m, e.request = .note m) →
    Fared k w own w
  | unwritten {own now} :
    ⟨.ledger (.claim k w.id), .ok true⟩ ∈ own →
    isWritten own = false →
    (isThrough own = true → returned own = []) →
    Fared k w own (w.claimed now)
  | written {own now o} :
    ⟨.ledger (.claim k w.id), .ok true⟩ ∈ own →
    isWritten own = true →
    Fared k w own (w.updated now o)

section Rows

variable {s : Settler} {k : Kind} {w : Withdrawal k.Order} {t t' : Tables}
  {own es trace : Trace} {r : RowResult}

/-- Nothing is put back for a row whose transaction is through. -/
lemma Restores.returned_eq_nil {o : k.Order} {confirmed : Confirmed} {rest : Trace}
    (restores : Restores k o es (.ok confirmed) rest) : returned rest = [] := by
  refine List.eq_nil_iff_forall_not_mem.2 fun x mem => ?_
  cases k with
  | asset => cases ((restores x).1 mem).2.2
  | currency => exact restores x mem

/-- What becomes of a row that is free while it is in hand. -/
lemma RowShape.fared (h : RowShape s k w own r) (tried : Tried t own t')
    (first : t.row? k w.id = some w) :
    ∃ w', t'.row? k w.id = some w' ∧ Fared k w own w' := by
  cases h with
  | @unclaimed e ns notes =>
    have same : t'.row? k w.id = t.row? k w.id :=
      (tried_error.1 tried).row?_eq_of_none notes.looks.row?_eq
    refine ⟨w, same.trans first, .skipped (fun mem => ?_) ?_⟩
    · obtain ⟨⟨⟩⟩ | mem := List.mem_cons.1 mem
      obtain ⟨m, ⟨⟩⟩ := notes _ mem
    · exact List.forall_mem_cons.2 ⟨.inl rfl, fun e he => .inr (notes e he)⟩
  | refused =>
    obtain ⟨now, t₁, performed, rest⟩ := tried_ok.1 tried
    cases tried_nil.1 rest
    obtain ⟨_, -, ⟨-, granted, -⟩ | ⟨-, -, rfl⟩⟩ := Tables.claim_eq_ok performed
    · cases granted
    · exact ⟨w, first, .skipped (fun mem => by cases List.mem_singleton.1 mem) (by simp)⟩
  | @settled es v ns a rest verdict notes trailing restores =>
    have granted {fs : Trace} : ⟨.ledger (.claim k w.id), .ok true⟩ ∈
        (⟨.ledger (.claim k w.id), .ok true⟩ :: fs : Trace) := List.mem_cons_self
    -- The row is taken up, stays so while the chain is asked, and then its outcome may be written.
    obtain ⟨now, t₁, performed, tried⟩ := tried_ok.1 tried
    obtain ⟨_, -, ⟨-, -, rfl⟩ | ⟨-, refused, -⟩⟩ := Tables.claim_eq_ok performed
    · obtain ⟨t₂, looked, tried⟩ := tried_append.1 tried
      have taken : t₂.row? k w.id = some (w.claimed now) := by
        rw [looked.row?_eq_of_none (verdict.looks.append notes.looks).row?_eq,
          Tables.row?_modifyRow_self (f := (·.claimed now)) (fun _ => rfl), first]
        rfl
      cases a with
      | error e =>
        have same : t'.row? k w.id = t₂.row? k w.id :=
          (tried_error.1 tried).row?_eq_of_none trailing.row?_eq
        refine ⟨_, same.trans taken,
          .unwritten granted (isWritten_settled verdict.looks notes trailing) fun through => ?_⟩
        rw [isThrough_settled verdict notes trailing] at through
        rw [returned_settled verdict.looks notes]
        cases v with
        | ok confirmed => exact restores.returned_eq_nil
        | error e => cases through
      | ok u =>
        obtain ⟨now', t₃, performed, tried⟩ := tried_ok.1 tried
        obtain ⟨_, -, -, rfl⟩ := Tables.update_eq_ok (Tables.update_of_perform performed)
        refine ⟨w.updated now' (outcomeOf v), (tried.row?_eq_of_none trailing.row?_eq).trans ?_,
          .written granted (isWritten_settled verdict.looks notes trailing)⟩
        rw [Tables.row?_modifyRow_self (f := (·.updated now' (outcomeOf v))) (fun _ => rfl), taken]
        rfl
    · cases refused

/-- Where all that is for a row is done in one part, that part is done on its behalf. -/
lemma onBehalf_of_foreign {id : String} {pre post : Trace} (before : Foreign k id pre)
    (tenure : Tenure k id own)
    (after : Foreign k id post) : onBehalf k id (pre ++ own ++ post) = own := by
  rw [onBehalf, heldFrom_append, heldFrom_append, before.heldFrom_eq, after.heldFrom_eq,
    tenure.heldFrom_self, List.nil_append, List.append_nil]

/-- Where ids are distinct, those of the unprocessed rows are. -/
lemma distinct_unprocessed (distinct : t.Distinct k) : ((t.unprocessed k).map (·.id)).Nodup :=
  distinct.sublist (List.filter_sublist.map _)

/-- Where ids are distinct, an unprocessed row is the one that its id names. -/
lemma row?_of_unprocessed (distinct : t.Distinct k) (mem : w ∈ t.unprocessed k) :
    t.row? k w.id = some w :=
  distinct.row?_eq (List.mem_of_mem_filter mem)

/-- A list that does not fail brings back the rows that are unprocessed. -/
lemma Tried.listed {rows : List (Withdrawal k.Order)}
    (tried : Tried t (⟨.ledger (.unprocessed k), .ok rows⟩ :: es) t') :
    rows = t.unprocessed k ∧ Tried t es t' := by
  obtain ⟨now, t₁, performed, rest⟩ := tried_ok.1 tried
  cases performed
  exact ⟨rfl, rest⟩

/-- A list brings the rows that were unprocessed at first if nothing before it was for one. -/
lemma Tried.listed_of_foreign {rows : List (Withdrawal k.Order)} {pre : Trace}
    (tried : Tried t (pre ++ (⟨.ledger (.unprocessed k), .ok rows⟩ :: es)) t')
    (before : ∀ id, Foreign k id pre) :
    rows = t.unprocessed k := by
  obtain ⟨t₁, first, rest⟩ := tried_append.1 tried
  have same : t₁.rows k = t.rows k := first.rows_eq fun id => (before id).row?_ne
  rw [rest.listed.1]
  unfold Tables.unprocessed
  rw [same]

/-- What becomes of a row that was unprocessed. -/
lemma Toured.fared (toured : Toured s k trace) (tried : Tried t trace t') (distinct : t.Distinct k)
    (mem : w ∈ t.unprocessed k) :
    ∃ w', t'.row? k w.id = some w' ∧ Fared k w (onBehalf k w.id trace) w' := by
  have first := row?_of_unprocessed distinct mem
  cases toured with
  | unlisted foreign =>
    rw [onBehalf, (foreign w.id).heldFrom_eq, tried.row?_eq (foreign w.id).row?_ne]
    exact ⟨w, first, .skipped List.not_mem_nil fun _ he => absurd he List.not_mem_nil⟩
  | @listed pre rows ns es rs post before notes worked after =>
    have listed : rows = t.unprocessed k := by
      rw [List.append_assoc, List.append_assoc] at tried
      exact tried.listed_of_foreign before
    subst listed
    obtain ⟨pre', own, post', r, rfl, before', shape, after'⟩ :=
      worked.split (distinct_unprocessed distinct) mem
    have earlier :
        Foreign k w.id (pre ++ (⟨.ledger (.unprocessed k), .ok (t.unprocessed k)⟩ :: ns) ++ pre') :=
      ((before w.id).append (foreign_list notes)).append before'
    have later : Foreign k w.id (post' ++ post) := after'.append (after w.id)
    rw [← List.append_assoc, ← List.append_assoc, List.append_assoc _ post'] at tried ⊢
    obtain ⟨t₂, tried, last⟩ := tried_append.1 tried
    obtain ⟨t₁, front, tried⟩ := tried_append.1 tried
    obtain ⟨w', became, fared⟩ := shape.fared tried ((front.row?_eq earlier.row?_ne).trans first)
    rw [onBehalf_of_foreign earlier shape.tenure later]
    exact ⟨w', (last.row?_eq later.row?_ne).trans became, fared⟩

/-- The rows that a pass asks for, in order. -/
def claims (es : Trace) : List (Kind × String) :=
  es.filterMap fun
    | ⟨.ledger (.claim k id), _⟩ => some (k, id)
    | _ => none

/-- The rows asked for in two traces follow one another. -/
@[simp] lemma claims_append {fs : Trace} : claims (es ++ fs) = claims es ++ claims fs :=
  List.filterMap_append

/-- Exchanges that name no row ask for none. -/
lemma claims_eq_nil (none : ∀ e ∈ es, e.request.row? = none) : claims es = [] := by
  refine List.filterMap_eq_nil_iff.2 fun e he => ?_
  split
  case h_1 => cases none _ he
  case h_2 => rfl

/-- Processing a row asks for it once. -/
lemma RowShape.claims_eq (h : RowShape s k w es r) : claims es = [(k, w.id)] := by
  have claimed {a} {fs : Trace} : claims (⟨.ledger (.claim k w.id), a⟩ :: fs) =
      (k, w.id) :: claims fs := rfl
  cases h with
  | unclaimed notes => rw [claimed, claims_eq_nil notes.looks.row?_eq]
  | refused => rfl
  | @settled es v ns a rest verdict notes trailing =>
    have written : claims (⟨.ledger (.update k w.id (outcomeOf v)), a⟩ :: rest) = claims rest := rfl
    rw [claimed, claims_append, written, claims_eq_nil (verdict.looks.append notes.looks).row?_eq,
      claims_eq_nil trailing.row?_eq]
    rfl

/-- Every row that is in hand is asked for once. -/
lemma Worked.claims_eq {rows rs} (h : Worked s k rows es rs) :
    claims es = rows.map fun w => (k, w.id) := by
  induction h with
  | nil => rfl
  | cons shape _ ih => rw [claims_append, shape.claims_eq, ih, List.singleton_append, List.map_cons]

/-- A list and the reports after it ask for no row. -/
lemma claims_list {a : Except LedgerError (List (Withdrawal k.Order))} (notes : Notes es) :
    claims (⟨.ledger (.unprocessed k), a⟩ :: es) = [] :=
  claims_eq_nil (List.forall_mem_cons.2 ⟨rfl, notes.looks.row?_eq⟩)

/-- Nothing is put back for currency rows. -/
lemma Worked.returned_eq_nil {rows rs} (h : Worked s .currency rows es rs) : returned es = [] := by
  induction h with
  | nil => rfl
  | cons shape _ ih =>
    rw [returned_append, ih, List.append_nil]
    cases shape with
    | unclaimed notes => exact notes.returned
    | refused => rfl
    | settled verdict notes _ restores =>
      rw [returned_settled verdict.looks notes]
      exact List.eq_nil_iff_forall_not_mem.2 restores

/-- Where nothing else is for a table, the results of its rows are those that the trace shows. -/
lemma Worked.results_onBehalf {rows rs} {pre post : Trace} (h : Worked s k rows es rs)
    (distinct : (rows.map (·.id)).Nodup) (before : ∀ id, Foreign k id pre)
    (after : ∀ id, Foreign k id post) :
    rs = rows.map fun w => resultIn k w.id (onBehalf k w.id (pre ++ es ++ post)) := by
  refine (h.results_eq distinct (handAfter none pre)).trans (List.map_congr_left fun w _ => ?_)
  rw [onBehalf, heldFrom_append, heldFrom_append, (before w.id).heldFrom_eq,
    (after w.id).heldFrom_eq, List.nil_append, List.append_nil]

end Rows

/-- What came of the rows of a table that were unprocessed, in table order. -/
def results (t : Tables) (k : Kind) (trace : Trace) : List RowResult :=
  (t.unprocessed k).map fun w => resultIn k w.id (onBehalf k w.id trace)

/-- The ids of the rows of a table that are unprocessed, in table order. -/
def free (t : Tables) (k : Kind) : List (Kind × String) := (t.unprocessed k).map fun w => (k, w.id)

/-- What a pass under setbacks does all the same, beside one under the same setbacks in which the
currency rows can be listed. -/
structure Weathers (t : Tables)
    (pass pass' : Run (Except SettlementError Summary × KnownDecimals)) : Prop where
  /-- It fails exactly if a list does, and with the error of that list. -/
  error_iff : ∀ x, pass.result.1 = .error x ↔
    ∃ k e, ⟨.ledger (.unprocessed k), .error e⟩ ∈ pass.trace ∧ x = .ledger e
  /-- If the asset rows cannot be listed, nothing else is asked for. -/
  unlisted : ∀ {e}, ⟨.ledger (.unprocessed .asset), .error e⟩ ∈ pass.trace →
    pass.trace = [⟨.ledger (.unprocessed .asset), .error e⟩] ∧ pass.tables = t
  /-- If it does not fail, every row that was unprocessed is asked for once, in order, and
  counted. -/
  complete : ∀ {summary}, pass.result.1 = .ok summary →
    claims pass.trace = free t .asset ++ free t .currency ∧
      summary.total = (t.unprocessed .asset).length + (t.unprocessed .currency).length ∧
      ∀ r, summary.count r = (results t .asset pass.trace).count r +
        (results t .currency pass.trace).count r
  /-- A row that was not granted counts as skipped and is left alone. -/
  skipped : ∀ {k w}, w ∈ t.unprocessed k →
    ⟨.ledger (.claim k w.id), .ok true⟩ ∉ onBehalf k w.id pass.trace →
      resultIn k w.id (onBehalf k w.id pass.trace) = .skipped ∧ pass.tables.row? k w.id = some w ∧
        ∀ e ∈ onBehalf k w.id pass.trace, e.request = .ledger (.claim k w.id) ∨
          ∃ m, e.request = .note m
  /-- A row whose transaction is through but whose outcome was not written stays in progress, counts
  as failed, and its asset is not put back. -/
  unwritten : ∀ {k w}, w ∈ t.unprocessed k → isThrough (onBehalf k w.id pass.trace) = true →
    isWritten (onBehalf k w.id pass.trace) = false →
      resultIn k w.id (onBehalf k w.id pass.trace) = .failed ∧
        returned (onBehalf k w.id pass.trace) = [] ∧
        ∃ now, pass.tables.row? k w.id = some (w.claimed now)
  /-- If the currency rows cannot be listed, the asset rows were dealt with as in a pass that goes
  on from there, and no currency row was touched. -/
  halfway : ∀ {e}, ⟨.ledger (.unprocessed .currency), .error e⟩ ∈ pass.trace →
    ∃ es rest, pass.trace = es ++ [⟨.ledger (.unprocessed .currency), .error e⟩] ∧
      pass'.trace = es ++ ⟨.ledger (.unprocessed .currency), .ok (t.unprocessed .currency)⟩ ::
        rest ∧
      (∃ summary, pass'.result.1 = .ok summary) ∧ claims es = free t .asset ∧
      (∀ id, ∀ e ∈ es, e.request.row? ≠ some (.currency, id)) ∧
      pass.tables = { pass'.tables with currencyRows := t.currencyRows }

section Passes

variable {s : Settler} {b : Surroundings} {f : Setbacks} {known known' : KnownDecimals}
  {t t' : Tables} {es fs trace : Trace} {result : Except SettlementError Summary}

/-- No list fails where a table is listed and dealt with. -/
lemma Worked.not_mem_unlisted {k k' : Kind} {rows rs} {ns : Trace} {e}
    (worked : Worked s k rows es rs) (notes : Notes ns) :
    ⟨.ledger (.unprocessed k'), .error e⟩ ∉
      (⟨.ledger (.unprocessed k), .ok rows⟩ :: ns ++ es : Trace) := by
  intro mem
  obtain ⟨⟨⟩⟩ | mem := List.mem_cons.1 ((List.mem_append.1 mem).resolve_right worked.not_mem_list)
  exact notes.not_mem_list mem

/-- A pass fails exactly if a list does, and with the error of that list. -/
lemma Parted.error_iff (h : Parted s trace result) {x} :
    result = .error x ↔ ∃ k e, ⟨.ledger (.unprocessed k), .error e⟩ ∈ trace ∧ x = .ledger e := by
  cases h with
  | @unlisted e =>
    constructor
    · rintro ⟨⟩
      exact ⟨.asset, e, List.mem_singleton_self _, rfl⟩
    · rintro ⟨k, e', mem, rfl⟩
      cases List.mem_singleton.1 mem
      rfl
  | @halfway rows ns es rs e notes worked =>
    constructor
    · rintro ⟨⟩
      exact ⟨.currency, e, List.mem_append_right _ (List.mem_singleton_self _), rfl⟩
    · rintro ⟨k, e', mem, rfl⟩
      cases List.mem_singleton.1
        ((List.mem_append.1 mem).resolve_left (worked.not_mem_unlisted notes))
      rfl
  | whole notes worked notes' worked' =>
    refine ⟨nofun, ?_⟩
    rintro ⟨k, e', mem, -⟩
    exact absurd mem (List.not_mem_append (worked.not_mem_unlisted notes)
      (worked'.not_mem_unlisted notes'))

/-- If the asset rows cannot be listed, nothing else is asked for. -/
lemma Parted.unlisted_eq (h : Parted s trace result) {e}
    (mem : ⟨.ledger (.unprocessed .asset), .error e⟩ ∈ trace) :
    trace = [⟨.ledger (.unprocessed .asset), .error e⟩] := by
  cases h with
  | unlisted =>
    cases List.mem_singleton.1 mem
    rfl
  | halfway notes worked =>
    cases List.mem_singleton.1
      ((List.mem_append.1 mem).resolve_left (worked.not_mem_unlisted notes))
  | whole notes worked notes' worked' =>
    exact absurd mem (List.not_mem_append (worked.not_mem_unlisted notes)
      (worked'.not_mem_unlisted notes'))

/-- A pass that does not fail asks for every row that was unprocessed, and counts what came of
each. -/
lemma Parted.complete {summary : Summary} (h : Parted s trace (.ok summary))
    (tried : Tried t trace t') (distinct : ∀ k, t.Distinct k) :
    claims trace = free t .asset ++ free t .currency ∧
      summary = (results t .asset trace ++ results t .currency trace).foldl
        Summary.record .zero := by
  cases h with
  | @whole rows ns es rs rows' ns' es' rs' notes worked notes' worked' =>
    have before (id : String) :
        Foreign .currency id (⟨.ledger (.unprocessed .asset), .ok rows⟩ :: ns ++ es) :=
      (foreign_list notes).append (worked.foreign nofun)
    have after (id : String) :
        Foreign .asset id (⟨.ledger (.unprocessed .currency), .ok rows'⟩ :: ns' ++ es') :=
      (foreign_list notes').append (worked'.foreign nofun)
    obtain rfl : rows' = t.unprocessed .currency := tried.listed_of_foreign before
    obtain rfl : rows = t.unprocessed .asset := by
      rw [List.append_assoc] at tried
      exact tried.listed.1
    have listing (id : String) :
        Foreign .asset id (⟨.ledger (.unprocessed .asset), .ok (t.unprocessed .asset)⟩ :: ns) :=
      foreign_list notes
    have listing' (id : String) :
        Foreign .currency id (⟨.ledger (.unprocessed .currency), .ok (t.unprocessed .currency)⟩ ::
          ns') :=
      foreign_list notes'
    have assets := worked.results_onBehalf (distinct_unprocessed (distinct .asset)) listing after
    have currencies := worked'.results_onBehalf (distinct_unprocessed (distinct .currency))
      (fun id => (before id).append (listing' id)) fun id => foreign_nil
    rw [List.append_nil, List.append_assoc] at currencies
    refine ⟨?_, ?_⟩
    · rw [claims_append, claims_append, claims_append, claims_list notes, claims_list notes',
        worked.claims_eq, worked'.claims_eq]
      rfl
    · unfold results
      rw [← assets, ← currencies]

/-- Dealing with currency rows changes no other table. -/
lemma Worked.tables_eq {rows rs} {ns : Trace} (worked : Worked s .currency rows es rs)
    (notes : Notes ns)
    (tried : Tried t (⟨.ledger (.unprocessed .currency), .ok rows⟩ :: ns ++ es) t') :
    t = { t' with currencyRows := t.currencyRows } := by
  have foreign (id : String) :
      Foreign .asset id (⟨.ledger (.unprocessed .currency), .ok rows⟩ :: ns ++ es) :=
    (foreign_list notes).append (worked.foreign nofun)
  have none : returned (⟨.ledger (.unprocessed .currency), .ok rows⟩ :: ns ++ es) = [] := by
    rw [returned_append, worked.returned_eq_nil, List.append_nil]
    exact notes.returned
  obtain ⟨users, assets⟩ := tried.assets_eq none
  have assetRows : t'.rows .asset = t.rows .asset := tried.rows_eq fun id => (foreign id).row?_ne
  cases t
  cases t'
  cases users
  cases assets
  cases assetRows
  rfl

/-- Under setbacks that spare their list, the currency rows are listed and dealt with. -/
lemma pollTable_listing (s : Settler) (b : Surroundings) (f : Setbacks) (summary : Summary)
    (known : KnownDecimals) (x : Trace × Tables) :
    let run := (s.pollTable .currency summary known).run (b.replyUnder f.listing) x
    ∃ rest, run.2.1 = x.1 ++ ⟨.ledger (.unprocessed .currency), .ok (x.2.unprocessed .currency)⟩ ::
      rest ∧
      (∃ summary', run.1.1 = .ok summary') ∧
        x.2 = { run.2.2 with currencyRows := x.2.currencyRows } := by
  intro run
  obtain ⟨es, ends, serves⟩ :=
    exists_serves (b.replyUnder f.listing) (s.pollTable .currency summary known) x
  change Program.Ends _ es run.1 at ends
  change Serves _ x es run.2 at serves
  have kept := (b.records_replyUnder f.listing).trace_eq serves
  have tried := Surroundings.serves_replyUnder serves
  have course := pollTable_course ends
  generalize run.1.1 = result, run.1.2 = known' at course ⊢
  cases course with
  | unlisted =>
    cases serves with
    | cons answered =>
      rw [Surroundings.replyUnder_none (q := .unprocessed .currency) rfl] at answered
      cases answered
  | listed notes course =>
    have unchanged := course.worked.tables_eq notes tried
    obtain ⟨rfl, -⟩ := tried.listed
    exact ⟨_, kept, ⟨_, rfl⟩, unchanged⟩

/-- A pass in which the currency rows could not be listed has dealt with the asset rows before. -/
lemma halfway_course {x : Trace × Tables} {r : Except SettlementError Summary × KnownDecimals} {e}
    (ends : (s.poll known).Ends trace r) (serves : Serves (b.replyUnder f) ([], t) trace x)
    (mem : ⟨.ledger (.unprocessed .currency), .error e⟩ ∈ trace) :
    ∃ es summary known', trace = es ++ [⟨.ledger (.unprocessed .currency), .error e⟩] ∧
      Program.Reaches (s.poll known) es (s.pollTable .currency summary known') ∧
      Serves (b.replyUnder f) ([], t) es (es, x.2) ∧ claims es = free t .asset ∧
      (∀ id, Foreign .currency id es) ∧ ∀ e ∈ es, e.request ≠ .ledger (.unprocessed .currency) := by
  obtain ⟨es, first, known', rest, rfl, h, h'⟩ := ends_stateT_bind.1 ends
  obtain ⟨⟨fs, t₁⟩, serves, last⟩ := serves_append.1 serves
  obtain rfl : fs = es := (b.records_replyUnder f).trace_eq serves
  have tried : Tried t fs t₁ := Surroundings.serves_replyUnder serves
  have course := pollTable_course h
  cases first with
  | error e' =>
    obtain ⟨rfl, rfl⟩ := ends_stateT_pure.1 h'
    cases course
    cases List.mem_singleton.1 ((List.mem_append.1 mem).resolve_right List.not_mem_nil)
  | ok summary =>
    have course' := pollTable_course h'
    have reaches : Program.Reaches (s.poll known) fs (s.pollTable .currency summary known') :=
      h.bind _
    cases course with
    | @listed rows ns es rs _ notes course =>
      have foreign (id : String) :
          Foreign .currency id (⟨.ledger (.unprocessed .asset), .ok rows⟩ :: ns ++ es) :=
        (foreign_list notes).append (course.worked.foreign nofun)
      have claimed : claims (⟨.ledger (.unprocessed .asset), .ok rows⟩ :: ns ++ es) =
          free t .asset := by
        rw [claims_append, claims_list notes, course.worked.claims_eq, tried.listed.1]
        rfl
      have unlisted : ∀ e ∈ ⟨.ledger (.unprocessed .asset), .ok rows⟩ :: ns ++ es,
          e.request ≠ .ledger (.unprocessed .currency) := by
        rintro ⟨_, a⟩ he rfl
        obtain ⟨⟨⟩⟩ | he :=
          List.mem_cons.1 ((List.mem_append.1 he).resolve_right course.worked.not_mem_list)
        exact notes.not_mem_list he
      -- The currency rows are not listed before the asset rows are done with.
      have mem := (List.mem_append.1 mem).resolve_left (course.worked.not_mem_unlisted notes)
      generalize r.1 = result, r.2 = known'' at course'
      cases course' with
      | listed notes' course' => exact absurd mem (course'.worked.not_mem_unlisted notes')
      | unlisted =>
        cases List.mem_singleton.1 mem
        cases tried_nil.1 (tried_error.1 (Surroundings.serves_replyUnder last))
        exact ⟨_, _, known', rfl, reaches, serves, claimed, foreign, unlisted⟩

/-- A pass in which the currency rows cannot be listed parts there from one that goes on. -/
lemma halfway_of_serves {x : Trace × Tables} {r : Except SettlementError Summary × KnownDecimals}
    {e} (ends : (s.poll known).Ends trace r) (serves : Serves (b.replyUnder f) ([], t) trace x)
    (mem : ⟨.ledger (.unprocessed .currency), .error e⟩ ∈ trace) :
    let pass' := s.passUnder b f.listing known t
    ∃ es rest, trace = es ++ [⟨.ledger (.unprocessed .currency), .error e⟩] ∧
      pass'.trace = es ++ ⟨.ledger (.unprocessed .currency), .ok (t.unprocessed .currency)⟩ ::
        rest ∧
      (∃ summary, pass'.result.1 = .ok summary) ∧ claims es = free t .asset ∧
      (∀ id, ∀ e ∈ es, e.request.row? ≠ some (.currency, id)) ∧
      x.2 = { pass'.tables with currencyRows := t.currencyRows } := by
  obtain ⟨es, summary, known', split, reaches, serves, claimed, foreign, unlisted⟩ :=
    halfway_course ends serves mem
  have untouched : x.2.rows .currency = t.rows .currency :=
    (Surroundings.serves_replyUnder serves).rows_eq fun id => (foreign id).row?_ne
  -- Up to the list both passes are answered alike, and the other goes on from the same tables.
  have onward := (Surroundings.serves_listing serves unlisted).run_eq reaches
  obtain ⟨rest, went, counted, unchanged⟩ := pollTable_listing s b f summary known' (es, x.2)
  rw [← onward] at went counted unchanged
  have same : x.2.unprocessed .currency = t.unprocessed .currency :=
    congrArg (List.filter _) untouched
  change x.2.currencyRows = t.currencyRows at untouched
  rw [same] at went
  rw [untouched] at unchanged
  exact ⟨es, rest, split, went, counted, claimed, fun id => (foreign id).row?_ne, unchanged⟩

/-- There is one result for each row that was unprocessed. -/
lemma length_results (t : Tables) (k : Kind) (trace : Trace) :
    (results t k trace).length = (t.unprocessed k).length := List.length_map ..

end Passes

/-- **Failures of the ledger do not stop a pass.** Let any operations of a ledger in memory fail
without effect. Then a pass fails exactly if a list does. A list that does not fail brings back rows
each of which is asked for once; a row that is not granted is left alone, and a row whose
transaction is through stays in progress, and failed, if its outcome cannot be written. If only the
currency rows cannot be listed, the asset rows are dealt with as in a pass that goes on. -/
theorem passUnder_weathers (s : Settler) (b : Surroundings) (f : Setbacks)
    (known : KnownDecimals) (t : Tables) (distinct : ∀ k, t.Distinct k) :
    Weathers t (s.passUnder b f known t) (s.passUnder b f.listing known t) := by
  obtain ⟨ends, serves⟩ := b.runUnder_spec f t (s.poll known)
  change Program.Ends _ (s.passUnder b f known t).trace (s.passUnder b f known t).result at ends
  change Serves _ ([], t) (s.passUnder b f known t).trace
    ((s.passUnder b f known t).trace, (s.passUnder b f known t).tables) at serves
  have tried := Surroundings.serves_replyUnder serves
  have parted := (poll_course ends).parted
  constructor
  case error_iff => exact fun _ => parted.error_iff
  case unlisted =>
    intro e mem
    have alone := parted.unlisted_eq mem
    rw [alone] at tried
    exact ⟨alone, tried_nil.1 (tried_error.1 tried)⟩
  case complete =>
    intro summary result
    rw [result] at parted
    obtain ⟨claimed, rfl⟩ := parted.complete tried distinct
    refine ⟨claimed, ?_, fun r => ?_⟩
    · rw [Summary.total_foldl, List.length_append, length_results, length_results]
      exact Nat.zero_add _
    · rw [Summary.count_foldl, List.count_append]
      cases r <;> exact Nat.zero_add _
  case skipped =>
    intro k w mem refused
    obtain ⟨w', became, fared⟩ := (parted.toured k).fared tried (distinct k) mem
    cases fared with
    | skipped _ only =>
      have none : (onBehalf k w.id (s.passUnder b f known t).trace).any (isGrant k w.id) = false :=
        List.any_eq_false.2 fun e he granted => refused (isGrant_iff.1 granted ▸ he)
      exact ⟨by rw [resultIn, none]; rfl, became, only⟩
    | unwritten granted => exact absurd granted refused
    | written granted => exact absurd granted refused
  case unwritten =>
    intro k w mem through unwritten
    obtain ⟨w', became, fared⟩ := (parted.toured k).fared tried (distinct k) mem
    cases fared with
    | skipped _ only =>
      -- A row that was not granted was waited for by nobody.
      have apart : Apart (onBehalf k w.id (s.passUnder b f known t).trace) := fun e he =>
        (only e he).imp (fun claim => ⟨_, claim⟩) .inl
      rw [isThrough, apart.offChain.2] at through
      cases through
    | @unwritten now granted _ kept =>
      have failed :
          resultIn k w.id (onBehalf k w.id (s.passUnder b f known t).trace) = .failed := by
        have some := List.any_eq_true.2 ⟨_, granted, isGrant_iff.2 rfl⟩
        rw [resultIn, if_pos some, through, unwritten]
        rfl
      exact ⟨failed, kept through, now, became⟩
    | written _ written => cases written.symm.trans unwritten
  case halfway => exact fun mem => halfway_of_serves ends serves mem

/-- The transaction for a part is through, but the ledger does not take its outcome. -/
theorem passUnder_weathers_unwrittenPart :
    let refusing : Setbacks := fun _ r =>
      match r with
      | .update _ _ _ => some (.backend "unreachable")
      | _ => none
    let t := rowsForOnePart ["w"]
    let w : Withdrawal AssetOrder := .new "w" ⟨.part, 7⟩
    let pass := partsOnly.passUnder atNoon refusing (fun _ => none) t
    let own := onBehalf .asset w.id pass.trace
    (∀ k, t.Distinct k) ∧ w ∈ t.unprocessed .asset ∧ isThrough own = true ∧ isWritten own = false ∧
      resultIn .asset w.id own = .failed ∧ returned own = [] ∧
      ∃ now, pass.tables.row? .asset w.id = some (w.claimed now) := by
  intro refusing t w pass own
  have distinct (k : Kind) : t.Distinct k := by
    cases k
    · exact (by decide : ["w"].Nodup)
    · exact List.nodup_nil
  have mem : w ∈ t.unprocessed .asset := List.mem_filter.2 ⟨.head _, rfl⟩
  have through : isThrough own = true := by decide +kernel
  have unwritten : isWritten own = false := by decide +kernel
  have weathers := passUnder_weathers partsOnly atNoon refusing (fun _ => none) t distinct
  exact ⟨distinct, mem, through, unwritten, weathers.unwritten (k := .asset) mem through unwritten⟩

end Payout.Settlement
