import Payout.Proofs.Ledger.Persistence

/-!
# Handles on one document

Several ledgers that were opened on one document and are asked in any order, each request answered
to its end before the next. A handle keeps the tables it has read, answers as a ledger in memory
does that nobody else uses (`Alone`), and writes what it holds over the document
(`runs_of_handles`). Through one handle a row is granted once. Through two it is granted twice, and
the outcome that one has written is gone from the document once the other has written
(`granted_through_both`).
-/

namespace Payout.Ledger
open Disk Program

/-- An exchange that has rewritten the document: a request that may write, and was not refused. -/
def wrote (e : Exchange interface) : Bool := e.request.writes && e.answer.isOk

/-- An answer that is not a failure of the backend. -/
def Sane {α : Type} (a : Except LedgerError α) : Prop := ∀ reason, a ≠ .error (.backend reason)

/-- A request that was served is no failure of the backend. -/
lemma sane_ok {α : Type} (v : α) : Sane (.ok v) := by
  rintro reason ⟨⟩

/-- What a ledger with a document answers is what its tables say. It rewrites the document by its
own tables, whatever the document held, and leaves it alone when it has not written. -/
lemma answer_file {path : String} {d d' : Disk} {now : Instant} {r : Request} {a} {s s' : Store}
    (file : s.backend = .file path)
    (h : Runs (s.answer now r) d d' (some (a, s'))) (sane : Sane a) :
    s.tables.reply now r = (a, s'.tables) ∧ s'.backend = .file path ∧
      (wrote ⟨r, a⟩ = true → Recorded path d' s'.tables) ∧
      (wrote ⟨r, a⟩ = false → d' = d ∧ s'.tables = s.tables) := by
  obtain ⟨_, t⟩ := s
  cases file
  obtain ⟨es, ended⟩ := h.ended
  obtain ⟨file', answering⟩ := ended_answer ended
  refine ⟨answering.reply (answering.allServed sane), file', ?_⟩
  cases answering with
  | denied =>
    exact ⟨fun written => by simp [wrote, Except.isOk, Except.toBool] at written,
      fun _ => ⟨rfl, rfl⟩⟩
  | read reads => exact ⟨fun written => by simp [wrote, reads] at written, fun _ => ⟨rfl, rfl⟩⟩
  | failed => exact absurd rfl (sane _)
  | written writes _ _ replaced =>
    refine ⟨fun _ => ⟨_, replaced, Tables.ofDocument?_bytes _⟩, fun unwritten => ?_⟩
    simp [wrote, writes, Except.isOk, Except.toBool] at unwritten

/-- Handles on one document, each with the tables it keeps. -/
structure Handles (ι : Type) where
  disk : Disk
  store : ι → Store

/-- A request through a handle, with its answer. -/
structure Use (ι : Type) where
  handle : ι
  exchange : Exchange interface

namespace Handles

variable {ι : Type}

/-- All handles were opened on the document at a path, and the document holds tables. -/
structure Opened (path : String) (t : Tables) (S : Handles ι) : Prop where
  recorded : Recorded path S.disk t
  opened : ∀ i, (Store.opened (.file path)).run Disk.answer S.disk = (.ok (S.store i), S.disk)

/-- The handle that has rewritten the document last. -/
def lastWriter (us : List (Use ι)) : Option ι :=
  us.foldl (fun i u => if wrote u.exchange then some u.handle else i) none

/-- A use that rewrites the document makes its handle the last writer. -/
lemma lastWriter_snoc {us : List (Use ι)} {i : ι} {e} :
    lastWriter (us ++ [⟨i, e⟩]) = if wrote e then some i else lastWriter us := by
  simp [lastWriter]

/-- A handle that was opened on the document keeps its tables. -/
lemma Opened.store_eq {path t} {S : Handles ι} (opened : S.Opened path t) (i : ι) :
    S.store i = ⟨.file path, t⟩ := by
  exact Except.ok.inj (congrArg Prod.fst
    ((opened.opened i).symm.trans (run_opened opened.recorded)))

variable [DecidableEq ι]

/-- A request through a handle, answered to its end. -/
def ask (S : Handles ι) (i : ι) (now : Instant) (r : Request) :
    Except LedgerError r.Value × Handles ι :=
  let ((a, s), d) := ((S.store i).answer now r).run Disk.answer S.disk
  (a, ⟨d, Function.update S.store i s⟩)

/-- Any uses of the handles in any order, on a disk that does not fail. -/
inductive Runs (S : Handles ι) : List (Use ι) → Handles ι → Prop where
  | refl :
    Runs S [] S
  | step {us S'} {i now r} :
    Runs S us S' →
    Sane (S'.ask i now r).1 →
    Runs S (us ++ [⟨i, ⟨r, (S'.ask i now r).1⟩⟩]) (S'.ask i now r).2

/-- What was asked through one handle. -/
def own (i : ι) (us : List (Use ι)) : List (Exchange interface) :=
  us.filterMap fun u => if u.handle = i then some u.exchange else none

variable {path : String} {t : Tables} {S S' : Handles ι} {us : List (Use ι)} {i j : ι}

/-- A use of a handle is the last of its own. -/
lemma own_snoc_self {e} : own i (us ++ [⟨i, e⟩]) = own i us ++ [e] := by simp [own]

/-- A use of another handle is none of its own. -/
lemma own_snoc_of_ne {e} (other : j ≠ i) : own i (us ++ [⟨j, e⟩]) = own i us := by simp [own, other]

/-- What holds of handles on a document at every moment. -/
structure Invariant (path : String) (t : Tables) (us : List (Use ι)) (S : Handles ι) : Prop where
  file : ∀ i, (S.store i).backend = .file path
  alone : ∀ i, Alone t (own i us) (S.store i).tables
  recorded : Recorded path S.disk ((lastWriter us).elim t fun i => (S.store i).tables)

/-- The invariant holds of handles that were just opened. -/
lemma Opened.invariant (opened : S.Opened path t) : Invariant path t [] S := by
  refine ⟨fun i => by rw [opened.store_eq i], fun i => ?_, opened.recorded⟩
  rw [opened.store_eq i]
  exact .nil

/-- A use of one handle is a run of its store, and leaves the other handles alone. -/
lemma ask_eq {now r a} (asked : S.ask i now r = (a, S')) :
    Disk.Runs ((S.store i).answer now r) S.disk S'.disk (some (a, S'.store i)) ∧
      ∀ {j}, j ≠ i → S'.store j = S.store j := by
  cases asked
  dsimp only
  rw [Function.update_self]
  exact ⟨runs_run ((S.store i).answer now r) S.disk, fun other => Function.update_of_ne other ..⟩

/-- One request through any handle preserves the invariant, unless the backend fails. -/
lemma Invariant.ask (inv : Invariant path t us S) {now r a} (asked : S.ask i now r = (a, S'))
    (sane : Sane a) : Invariant path t (us ++ [⟨i, ⟨r, a⟩⟩]) S' := by
  obtain ⟨run, others⟩ := ask_eq asked
  obtain ⟨reply, file, written, unwritten⟩ := answer_file (inv.file i) run sane
  refine ⟨fun j => ?_, fun j => ?_, ?_⟩
  · by_cases same : j = i
    · subst same
      exact file
    · rw [others same]
      exact inv.file j
  · by_cases same : j = i
    · subst same
      rw [own_snoc_self]
      exact .snoc (inv.alone j) reply
    · rw [others same, own_snoc_of_ne (Ne.symm same)]
      exact inv.alone j
  · rw [lastWriter_snoc]
    cases rewritten : wrote ⟨r, a⟩ with
    | true => exact written rewritten
    | false =>
      obtain ⟨disk, same⟩ := unwritten rewritten
      -- The handle may have written last; it still holds what it wrote.
      have kept (j : ι) : (S'.store j).tables = (S.store j).tables := by
        by_cases self : j = i
        · subst self
          exact same
        · rw [others self]
      rw [if_neg Bool.false_ne_true, disk]
      simpa only [kept] using inv.recorded

/-- A run goes on with one more use whose answer is known. -/
lemma Runs.used {now r a} (run : S.Runs us S') (answered : (S'.ask i now r).1 = a) (sane : Sane a) :
    S.Runs (us ++ [⟨i, ⟨r, a⟩⟩]) (S'.ask i now r).2 := by
  subst answered
  exact run.step sane

/-- The invariant holds after every run. -/
lemma Runs.invariant (opened : S.Opened path t) (run : S.Runs us S') :
    Invariant path t us S' := by
  induction run with
  | refl => exact opened.invariant
  | step _ sane ih => exact ih.ask rfl sane

end Handles

/-- **Claims are exclusive through one handle.** Any number of handles are opened on one document
and used in any order on a disk that does not fail. What is asked through one handle is answered as
if it were asked of a ledger that nobody else uses: so no row is granted twice through it, if no
outcome that is written puts a row back. The document holds the tables of the handle that has
rewritten it last, and nothing that was written through the others since that one was opened. -/
theorem runs_of_handles {ι : Type} [DecidableEq ι] {path : String} {t : Tables} {S S' : Handles ι}
    {us : List (Use ι)} (opened : S.Opened path t) (run : S.Runs us S') :
    (∀ i, Alone t (Handles.own i us) (S'.store i).tables) ∧
      (∀ i k id, (∀ e ∈ Handles.own i us, e.request.Settles) →
        (Handles.own i us).countP (isGranted k id) ≤ 1) ∧
      Recorded path S'.disk ((Handles.lastWriter us).elim t fun i => (S'.store i).tables) := by
  have inv := run.invariant opened
  exact ⟨inv.alone, fun i k id settles => ((inv.alone i).granted_once settles).1, inv.recorded⟩

/-- Two handles, opened on a document of these tables. -/
def twoHandles : Handles Bool :=
  ⟨⟨[(["home", "l"], .file (Bytes.ofText oneRow.document)), (Disk.home, .directory)]⟩,
    fun _ => ⟨.file "l", oneRow⟩⟩

/-- The outcome of a payout. -/
def paidOut : Outcome := .settled "0x01" 0 "0xs" none

/-- The row is taken up through one handle. -/
def claimedOnce : Handles Bool := (twoHandles.ask false midnight (.claim .asset "w")).2

/-- Its outcome is written through that handle. -/
def settledOnce : Handles Bool := (claimedOnce.ask false midnight (.update .asset "w" paidOut)).2

/-- The row is taken up through the other handle. -/
def claimedTwice : Handles Bool := (settledOnce.ask true midnight (.claim .asset "w")).2

/-- What was asked of the two handles, and answered. -/
def doubleClaim : List (Use Bool) :=
  [⟨false, ⟨.claim .asset "w", .ok true⟩⟩, ⟨false, ⟨.update .asset "w" paidOut, .ok ()⟩⟩,
    ⟨true, ⟨.claim .asset "w", .ok true⟩⟩]

/-- Both handles are opened on the document of the one row. -/
lemma opened_twoHandles : twoHandles.Opened "l" oneRow where
  recorded := ⟨_, rfl, Tables.ofDocument?_bytes _⟩
  opened _ := run_opened ⟨_, rfl, Tables.ofDocument?_bytes _⟩

/-- The first handle takes the row up and writes its outcome. -/
lemma runs_settledOnce : twoHandles.Runs (doubleClaim.take 2) settledOnce := by
  have claimed : twoHandles.Runs (doubleClaim.take 1) claimedOnce := .used .refl rfl (sane_ok true)
  exact claimed.used rfl (sane_ok ())

/-- After that the second handle takes the same row up. -/
lemma runs_doubleClaim : twoHandles.Runs doubleClaim claimedTwice :=
  runs_settledOnce.used rfl (sane_ok true)

/-- The run of both handles, with one grant through the first of them. -/
theorem runs_of_handles_doubleClaim :
    twoHandles.Opened "l" oneRow ∧ twoHandles.Runs doubleClaim claimedTwice ∧
      (Handles.own false doubleClaim).countP (isGranted .asset "w") ≤ 1 := by
  refine ⟨opened_twoHandles, runs_doubleClaim, ?_⟩
  refine (runs_of_handles opened_twoHandles runs_doubleClaim).2.1 false .asset "w" fun e he => ?_
  obtain rfl | he := List.mem_cons.1 he
  · trivial
  · cases List.mem_singleton.1 he
    exact nofun

/-- The row is granted through each of the two handles, and the outcome that the first has written
is not in the document any more when the second has its claim. -/
theorem granted_through_both :
    twoHandles.Opened "l" oneRow ∧ twoHandles.Runs (doubleClaim.take 2) settledOnce ∧
      twoHandles.Runs doubleClaim claimedTwice ∧
      doubleClaim.countP (fun u => isGranted .asset "w" u.exchange) = 2 ∧
      (∃ t row, Recorded "l" settledOnce.disk t ∧ t.row? .asset "w" = some row ∧
        row.outcome = paidOut) ∧
      ∃ t row, Recorded "l" claimedTwice.disk t ∧ t.row? .asset "w" = some row ∧
        row.outcome.txHash = none := by
  have before := (runs_settledOnce.invariant opened_twoHandles).recorded
  have after := (runs_doubleClaim.invariant opened_twoHandles).recorded
  exact ⟨opened_twoHandles, runs_settledOnce, runs_doubleClaim, by decide, ⟨_, _, before, rfl, rfl⟩,
    ⟨_, _, after, rfl, rfl⟩⟩

end Payout.Ledger
