import Payout.Proofs.Ledger.Persistence

/-!
# Ledgers with a document as ledgers in memory

A ledger that was opened on a document is asked one request after another, while any step on the
disk may fail. An operation whose steps were all served answers as a ledger in memory does with the
tables at hand, and one of whose steps failed is refused by the backend and leaves the tables and
the document alone (`Operation.Refines`). So the tables are at every moment those of a ledger in
memory that was asked for the operations that were not refused, up to the times of the changes
(`operations_refine`).
-/

namespace Payout

/-- A row up to the time of its last change. -/
def Withdrawal.untimed {κ : Type} (w : Withdrawal κ) : Withdrawal κ := { w with updatedAt := none }

namespace Ledger
open Disk

section modifyFirst

variable {α : Type} {p : α → Bool} {f f' g : α → α}

/-- A change is seen through a function that forgets what the change may set in two ways. -/
lemma map_modifyFirst_map (same : ∀ a, p (g a) = p a) (forgets : ∀ a, g (f' (g a)) = g (f a))
    (again : ∀ a, g (g a) = g a) (l : List α) :
    (modifyFirst p f' (l.map g)).map g = (modifyFirst p f l).map g := by
  induction l with
  | nil => rfl
  | cons a l ih =>
    simp only [List.map_cons, modifyFirst, same]
    split
    · simp [forgets, again]
    · simp [ih, again]

end modifyFirst

namespace Tables

/-- Tables up to the times of the last changes of rows. -/
def untimed (t : Tables) : Tables :=
  { t with
    assetRows := t.assetRows.map (·.untimed), currencyRows := t.currencyRows.map (·.untimed) }

variable {t : Tables} {k : Kind} {id : String} {now now' : Instant}

/-- Forgetting the times twice forgets no more. -/
@[simp] lemma untimed_untimed (t : Tables) : t.untimed.untimed = t.untimed := by
  simp [untimed, Withdrawal.untimed]

/-- The rows of tables without times are the rows without their times. -/
lemma rows_untimed (t : Tables) (k : Kind) : t.untimed.rows k = (t.rows k).map (·.untimed) := by
  cases k <;> rfl

/-- The times may be forgotten before a table is replaced or after. -/
lemma untimed_setRows (t : Tables) (k : Kind) (rows : List (Withdrawal k.Order)) :
    (t.setRows k rows).untimed = t.untimed.setRows k (rows.map (·.untimed)) := by
  cases k <;> rfl

/-- The row that an id names is the same one without its time. -/
lemma row?_untimed (t : Tables) (k : Kind) (id : String) :
    t.untimed.row? k id = (t.row? k id).map (·.untimed) := by
  rw [row?, rows_untimed, List.find?_map]
  rfl

/-- Two changes of a row that differ in times at most lead to tables that do. -/
lemma untimed_modifyRow {f f' : Withdrawal k.Order → Withdrawal k.Order}
    (forgets : ∀ w, (f' w.untimed).untimed = (f w).untimed) :
    (t.untimed.modifyRow k id f').untimed = (t.modifyRow k id f).untimed := by
  unfold modifyRow
  rw [untimed_setRows, untimed_setRows, untimed_untimed, rows_untimed]
  congr 1
  exact map_modifyFirst_map (g := Withdrawal.untimed) (fun _ => rfl) forgets (fun _ => rfl) _

/-- What a request does to the tables, up to times, does not depend on times. -/
lemma perform_untimed (now now' : Instant) (t : Tables) (r : Request) :
    (perform now' r t.untimed).map (·.2.untimed) = (perform now r t).map (·.2.untimed) := by
  -- No operation looks at the times of rows.
  cases r with
  | claim k id =>
    simp only [perform, claim, row?_untimed]
    cases t.row? k id with
    | none => rfl
    | some row =>
      by_cases free : row.state = .unprocessed
      · have free' : row.untimed.state = .unprocessed := free
        simp only [Option.map_some, if_pos free, if_pos free', Except.map]
        exact congrArg _ (untimed_modifyRow fun _ => rfl)
      · have taken : row.untimed.state ≠ .unprocessed := free
        simp only [Option.map_some, if_neg free, if_neg taken, Except.map, untimed_untimed]
  | update k id o =>
    simp only [perform, update, row?_untimed]
    cases t.row? k id with
    | none => rfl
    | some row =>
      by_cases open_ : row.state = .inProgress
      · have open' : row.untimed.state = .inProgress := open_
        simp only [Option.map_some, if_pos open_, if_pos open', Except.map]
        exact congrArg _ (untimed_modifyRow fun _ => rfl)
      · have closed : row.untimed.state ≠ .inProgress := open_
        simp only [Option.map_some, if_neg open_, if_neg closed, Except.map]
        rfl
  | release c n =>
    have same : t.untimed.asset? c n = t.asset? c n := rfl
    simp only [perform, release, same]
    cases t.asset? c n with
    | none => rfl
    | some a => simp [Except.map, untimed, Withdrawal.untimed]
  | asset c n =>
    have same : t.untimed.asset? c n = t.asset? c n := rfl
    simp only [perform, same]
    cases t.asset? c n with
    | none => rfl
    | some a => simp only [Except.map, untimed_untimed]
  | _ => simp only [perform, Except.map, untimed_untimed]

/-- What a request does to the tables, up to times, depends on the tables up to times only. -/
lemma untimed_reply {t t' t₁ t₂ : Tables} {r a a'} (same : t'.untimed = t.untimed)
    (reply : t.reply now r = (a, t₁))
    (reply' : t'.reply now' r = (a', t₂)) : t₂.untimed = t₁.untimed := by
  have performed : (perform now' r t').map (·.2.untimed) = (perform now r t).map (·.2.untimed) := by
    rw [← perform_untimed now' now' t', same, perform_untimed now now' t]
  have after (t : Tables) (now : Instant) : (t.reply now r).2.untimed =
      ((perform now r t).map (·.2.untimed)).toOption.getD t.untimed := by
    unfold Tables.reply
    cases perform now r t <;> rfl
  have came := after t now
  have came' := after t' now'
  rw [reply] at came
  rw [reply'] at came'
  rw [came', came, performed, same]

end Tables

/-- A request that was answered at a time, and the steps on the disk that this took. -/
structure Operation where
  now : Instant
  request : Request
  answer : Except LedgerError request.Value
  steps : List (Exchange Disk.interface)

/-- Operations of a ledger in turn, each to its end, while any step on the disk may fail. -/
inductive Operated (d : Disk) (s : Store) : List Operation → Disk → Store → Prop where
  | nil :
    Operated d s [] d s
  | snoc {os d₁ s₁ now r a es d₂ s₂} :
    Operated d s os d₁ s₁ →
    Ended (s₁.answer now r) d₁ es d₂ (a, s₂) →
    Operated d s (os ++ [⟨now, r, a, es⟩]) d₂ s₂

/-- What one operation does to a ledger with a document. -/
structure Operation.Refines (path : String) (d : Disk) (s : Store) (o : Operation)
    (d' : Disk) (s' : Store) :
    Prop where
  /-- If no step failed, a ledger in memory answers the same with these tables, and comes to the
  same tables. -/
  served : AllServed o.steps →
    Store.answer o.now ⟨.memory, s.tables⟩ o.request = pure (o.answer, ⟨.memory, s'.tables⟩)
  /-- If a step failed, the backend has failed, and tables and document are as they were. -/
  failed : ¬ AllServed o.steps →
    (∃ reason, o.answer = .error (.backend reason)) ∧ s' = s ∧ d'.read path = d.read path
  /-- What may have changed the tables is read when the ledger is opened again. -/
  reopened : o.request.writes = true → o.answer.isOk = true →
    (Store.opened (.file path)).run Disk.answer d' = (.ok s', d')

/-- The operations that were not refused. -/
def accepted (os : List Operation) : List (Exchange interface) :=
  (os.filter (·.answer.isOk)).map fun o => ⟨o.request, o.answer⟩

section Operations

variable {path : String} {d d₁ d' : Disk} {s s₁ s' : Store} {os : List Operation}
  {now : Instant} {r : Request}

/-- One operation of a ledger that agrees with its document, and it agrees again. -/
lemma refines_of_ended (other : temporaryPath path ≠ path) {a es} (agrees : s.Agrees path d)
    (h : Ended (s.answer now r) d es d' (a, s')) :
    Operation.Refines path d s ⟨now, r, a, es⟩ d' s' ∧ s'.Agrees path d' := by
  have after := ((runs_answer other agrees h.runs).2 a s' rfl).1
  obtain ⟨_, t⟩ := s
  obtain ⟨file, held⟩ := agrees
  cases file
  obtain ⟨file', answering⟩ := ended_answer h
  obtain ⟨_, t'⟩ := s'
  cases file'
  refine ⟨⟨fun all => ?_, fun some => ?_, fun writes isOk => ?_⟩, after⟩
  · rw [Store.answer_memory_eq, answering.reply all]
  · cases answering with
    | denied | read => exact absurd (List.forall_mem_nil _) some
    | written _ _ all => exact absurd all some
    | failed writes performed _ persisted =>
      -- Without a document there are no rows, and nothing is written.
      obtain rfl | ⟨content, read, decoded⟩ := held
      · exact absurd performed (writes_of_empty writes)
      · obtain ⟨same, -⟩ | ⟨-, served⟩ := runs_persist other read persisted.runs
        · exact ⟨⟨_, rfl⟩, rfl, same.trans read.symm⟩
        · cases served _ rfl
  · cases answering with
    | denied | failed => cases isOk
    | read reads => cases reads.symm.trans writes
    | written _ _ _ replaced => exact run_opened ⟨_, replaced, Tables.ofDocument?_bytes _⟩

/-- An operation is accepted and is an answer of a ledger in memory, or it is refused and changes no
tables. -/
lemma Operation.Refines.cases {o : Operation} (h : o.Refines path d s d' s') :
    (o.answer.isOk = true ∧ s.tables.reply o.now o.request = (o.answer, s'.tables)) ∨
      (o.answer.isOk = false ∧ s'.tables = s.tables) := by
  by_cases all : AllServed o.steps
  -- Of what a ledger in memory answers, errors change nothing either.
  · have memory := h.served all
    rw [Store.answer_memory_eq] at memory
    have same := Program.done.inj memory
    simp only [Prod.mk.injEq, Store.mk.injEq, true_and] at same
    have reply : s.tables.reply o.now o.request = (o.answer, s'.tables) := Prod.ext same.1 same.2
    obtain ⟨⟨e, refused⟩, kept⟩ | ⟨v, answered, -⟩ := reply_cases reply
    · rw [refused]
      exact .inr ⟨rfl, kept⟩
    · rw [answered] at reply ⊢
      exact .inl ⟨rfl, reply⟩
  · obtain ⟨⟨reason, refused⟩, same, -⟩ := h.failed all
    rw [refused, same]
    exact .inr ⟨rfl, rfl⟩

/-- An operation counts among those accepted if it was not refused. -/
lemma accepted_snoc {o : Operation} :
    accepted (os ++ [o]) =
      accepted os ++ if o.answer.isOk then [⟨o.request, o.answer⟩] else [] := by
  unfold accepted
  cases isOk : o.answer.isOk <;> simp [isOk]

/-- Whatever operations a ledger performs, it agrees with its document after each. -/
lemma Operated.agrees (other : temporaryPath path ≠ path) (opened : s.Agrees path d)
    (run : Operated d s os d' s') : s'.Agrees path d' := by
  induction run with
  | nil => exact opened
  | snoc _ ended ih => exact (refines_of_ended other ih ended).2

/-- What was accepted is what a ledger in memory answers when it is asked for nothing else. -/
lemma Operated.alone (other : temporaryPath path ≠ path) (opened : s.Agrees path d)
    (run : Operated d s os d' s') : Alone s.tables (accepted os) s'.tables := by
  induction run with
  | nil => exact .nil
  | snoc before ended ih =>
    rw [accepted_snoc]
    have refines := (refines_of_ended other (before.agrees other opened) ended).1
    obtain ⟨isOk, reply⟩ | ⟨refused, same⟩ := refines.cases
    · rw [if_pos isOk]
      exact ih.snoc reply
    · rw [refused, same, if_neg Bool.false_ne_true, List.append_nil]
      exact ih

end Operations

/-- Ledgers in memory that are asked for the same come to the same, up to times. -/
lemma Alone.untimed {t t₁ t₂ : Tables} {es fs : List (Exchange interface)} (first : Alone t es t₁)
    (second : Alone t fs t₂) (same : fs.map (·.request) = es.map (·.request)) :
    t₂.untimed = t₁.untimed := by
  induction first generalizing fs t₂ with
  | nil =>
    cases second with
    | nil => rfl
    | snoc => simp at same
  | snoc before reply ih =>
    cases second with
    | nil => simp at same
    | snoc before' reply' =>
      simp only [List.map_append, List.map_cons, List.map_nil] at same
      obtain ⟨init, last⟩ := List.append_inj' same rfl
      cases List.singleton_inj.1 last
      exact Tables.untimed_reply (ih before' init) reply reply'

/-- **A ledger with a document is a ledger in memory that does not lose what it accepts.** A ledger
was opened on a document and has answered any requests, while any step on the disk might fail. The
next operation whose steps are all served answers as a ledger in memory does with the tables at
hand. If one fails, the backend has failed, and the tables and the document are as before. Tables
that were written are read when the ledger is opened again. And the tables are those of any ledger
in memory that was asked for what was accepted, up to the times of the changes. -/
theorem operations_refine {path : String} (other : temporaryPath path ≠ path)
    {d d₀ d₁ : Disk} {s s₁ : Store}
    {os : List Operation} (opened : (Store.opened (.file path)).run Disk.answer d = (.ok s, d₀))
    (run : Operated d₀ s os d₁ s₁) :
    (∀ now r a es d₂ s₂, Ended (s₁.answer now r) d₁ es d₂ (a, s₂) →
      Operation.Refines path d₁ s₁ ⟨now, r, a, es⟩ d₂ s₂) ∧
    Alone s.tables (accepted os) s₁.tables ∧
    ∀ es t, Alone s.tables es t → es.map (·.request) = (accepted os).map (·.request) →
      t.untimed = s₁.tables.untimed := by
  obtain ⟨rfl, agrees⟩ := runs_opened (runs_of_run opened)
  have alone := run.alone other (agrees s rfl)
  refine ⟨fun now r a es d₂ s₂ next => ?_, alone, fun es t memory same => alone.untimed memory same⟩
  exact (refines_of_ended other (run.agrees other (agrees s rfl)) next).1

/-- A disk with the document of one row. -/
def oneRowDisk : Disk :=
  ⟨[(["home", "l"], .file (Bytes.ofText oneRow.document)), (Disk.home, .directory)]⟩

/-- The row is asked for, and the disk refuses the first step of writing that down. -/
def refusedClaim : Operation :=
  ⟨midnight, .claim .asset "w", .error (.backend "no space"),
    [⟨.makeDirectories "", .error (.other "no space")⟩]⟩

/-- The claim is refused on the disk of one row, and leaves it as it is. -/
lemma operated_refusedClaim :
    Operated oneRowDisk ⟨.file "l", oneRow⟩ [refusedClaim] oneRowDisk ⟨.file "l", oneRow⟩ :=
  .snoc (.nil : Operated _ _ [] _ _) (.refused .nothing .done)

/-- After a claim that was refused by the disk, the row is granted and the ledger is opened again
with the row taken up. -/
theorem operations_refine_oneRow :
    temporaryPath "l" ≠ "l" ∧
      (Store.opened (.file "l")).run Disk.answer oneRowDisk =
        (.ok ⟨.file "l", oneRow⟩, oneRowDisk) ∧
      Operated oneRowDisk ⟨.file "l", oneRow⟩ [refusedClaim] oneRowDisk ⟨.file "l", oneRow⟩ ∧
      ∃ es d s,
        Ended (Store.answer midnight ⟨.file "l", oneRow⟩ (.claim .asset "w")) oneRowDisk es d
          (.ok true, s) ∧
        (Store.opened (.file "l")).run Disk.answer d = (.ok s, d) := by
  have other : temporaryPath "l" ≠ "l" := by decide
  have opened : (Store.opened (.file "l")).run Disk.answer oneRowDisk =
      (.ok ⟨.file "l", oneRow⟩, oneRowDisk) :=
    run_opened ⟨_, rfl, Tables.ofDocument?_bytes _⟩
  have granted :
      ((Store.answer midnight ⟨.file "l", oneRow⟩ (.claim .asset "w")).run Disk.answer
        oneRowDisk).1.1 = .ok true := rfl
  obtain ⟨es, next⟩ := (runs_of_run (Prod.ext (Prod.ext granted rfl) rfl)).ended
  have refines := (operations_refine other opened operated_refusedClaim).1 _ _ _ _ _ _ next
  exact ⟨other, opened, operated_refusedClaim, es, _, _, next, refines.reopened rfl rfl⟩

end Ledger

end Payout
