import Payout.Proofs.Disk.Faults
import Payout.Proofs.Ledger.Answers
import Payout.Proofs.Ledger.Document

/-!
# Ledgers on a disk that fails

The document at the path of a ledger always holds whole tables: those before a request or those
after it (`runs_answer`). Whatever step fails or is the last before the program is cut off, a
request that was answered is in the document, and one that was refused is not. Tables that were
written are read again (`opened_of_persisted`).
-/

namespace Payout.Ledger
open Disk

/-- The document at a path holds tables. -/
def Recorded (path : String) (d : Disk) (t : Tables) : Prop :=
  ∃ content, d.read path = .ok content ∧ content.text?.bind Tables.ofDocument? = some t

/-- A document holds at most one collection of tables. -/
lemma Recorded.unique {path d t t'} (h : Recorded path d t) (h' : Recorded path d t') : t = t' := by
  obtain ⟨content, read, decoded⟩ := h
  obtain ⟨content', read', decoded'⟩ := h'
  cases read.symm.trans read'
  exact Option.some.inj (decoded.symm.trans decoded')

section Steps

variable {path : String} {d d' : Disk} {written : Bytes}

/-- A refusal of the disk in the words of the backend. -/
abbrev refusal (e : DiskError) : LedgerError := .backend e.message

/-- A step on the disk asks it once and puts its refusal into the words of the backend. -/
lemma onDisk_eq (r : Disk.Request) :
    onDisk r = Disk.ask r >>= fun a => pure (a.mapError refusal) := by
  unfold onDisk
  congr 1
  funext a
  cases a <;> rfl

/-- A step on the disk is performed as a whole and answered so, or fails and leaves what such a step
may leave. -/
lemma runs_onDisk {r d d' o} (h : Runs (onDisk r) d d' o) :
    (d' = (d.perform r).2 ∧ ∀ a, o = some a → a = (d.perform r).1.mapError refusal) ∨
      (Leaves r d d' ∧ ∀ a, o = some a → ∃ e, a = .error e) := by
  rw [onDisk_eq] at h
  obtain ⟨rfl, asked⟩ | ⟨d₁, a, asked, rest⟩ := runs_bind h
  · obtain ⟨served, -⟩ | ⟨left, -⟩ := runs_ask asked
    · exact .inl ⟨served, nofun⟩
    · exact .inr ⟨left, nofun⟩
  · obtain ⟨rfl, value⟩ := runs_pure rest
    obtain ⟨served, answered⟩ | ⟨left, refused⟩ := runs_ask asked
    · rw [answered a rfl] at value
      exact .inl ⟨served, value⟩
    · obtain ⟨e, rfl⟩ := refused a rfl
      exact .inr ⟨left, fun b given => ⟨_, value b given⟩⟩

/-- A step that changes a disk as a whole is made, or it is refused and the disk stays as it is. -/
lemma settle_cases (d : Disk) (result : Except DiskError Disk) :
    (∃ d', result = .ok d' ∧ perform.settle d result = (.ok (), d')) ∨
      ∃ e, perform.settle d result = (.error e, d) := by
  cases result with
  | ok d' => exact .inl ⟨d', rfl, rfl⟩
  | error e => exact .inr ⟨e, rfl⟩

/-- Nothing is done but to make directories, even when it fails halfway. -/
lemma grown_of_runs {above o} (h : Runs (onDisk (.makeDirectories above)) d d' o) : Grown d d' := by
  obtain ⟨rfl, -⟩ | ⟨left, -⟩ := runs_onDisk h
  · exact grown_makeDirectories
  · cases left with
    | nothing => exact .refl
    | directories made => exact made

/-- A write beside a path changes nothing that is read there, however the write ends. -/
lemma content?_of_runs_write {beside o} (side : Path.Beside path beside)
    (h : Runs (onDisk (.write beside written)) d d' o) :
    d'.content? path = d.content? path ∧ (o = some (.ok ()) → d'.read beside = .ok written) := by
  obtain ⟨rfl, value⟩ | ⟨left, value⟩ := runs_onDisk h
  · rw [perform] at value ⊢
    obtain ⟨d₁, wrote, after⟩ | ⟨e, after⟩ := settle_cases d (d.write beside written)
    · rw [after]
      exact ⟨content?_write side wrote, fun _ => read_write_self wrote⟩
    · rw [after] at value ⊢
      exact ⟨rfl, fun served => nomatch value _ served⟩
  · have unserved : o ≠ some (.ok ()) := by
      intro served
      obtain ⟨e, refused⟩ := value _ served
      cases refused
    cases left with
    | nothing => exact ⟨rfl, fun served => absurd served unserved⟩
    -- Part of the text may be there, but beside the path.
    | written wrote => exact ⟨content?_write side wrote, fun served => absurd served unserved⟩

/-- The outcomes of replacing what is read at a path: it is replaced as a whole or not at all, and
it is replaced if who replaces it is told so and only then. -/
def Renewed (path : String) (new : Bytes) (d d' : Disk)
    (o : Option (Except LedgerError Unit)) : Prop :=
  (d'.content? path = d.content? path ∧ ∀ a, o = some a → ∃ e, a = .error e) ∨
    (d'.content? path = some new ∧ ∀ a, o = some a → a = .ok ())

/-- What is renewed after steps that left the content of the path alone is renewed from the
start. -/
lemma Renewed.of_content? {d₁ o} (same : d₁.content? path = d.content? path)
    (renewed : Renewed path written d₁ d' o) :
    Renewed path written d d' o := by
  unfold Renewed at *
  rwa [← same]

/-- A program that ends in an error at once has replaced nothing. -/
lemma renewed_of_error {e o} (h : Runs (pure (.error e)) d d' o) : Renewed path written d d' o := by
  obtain ⟨rfl, value⟩ := runs_pure h
  exact .inl ⟨rfl, fun a given => ⟨e, value a given⟩⟩

/-- A rename is made or not made. -/
lemma renewed_of_runs_rename {beside o} (own : d.read beside = .ok written)
    (h : Runs (onDisk (.rename beside path)) d d' o) : Renewed path written d d' o := by
  obtain ⟨rfl, value⟩ | ⟨left, value⟩ := runs_onDisk h
  · rw [perform] at value ⊢
    obtain ⟨d₁, renamed, after⟩ | ⟨e, after⟩ := settle_cases d (d.rename beside path)
    · rw [after] at value ⊢
      exact .inr ⟨content?_eq_some.2 (read_rename own renamed), value⟩
    · rw [after] at value ⊢
      exact .inl ⟨rfl, fun a given => ⟨_, value a given⟩⟩
  · cases left with
    | nothing => exact .inl ⟨rfl, value⟩

end Steps

section Documents

variable {path : String} {d d' : Disk} {t t' : Tables}

/-- The place where a document is made ready is beside it. -/
lemma beside_temporaryPath (other : temporaryPath path ≠ path)
    (file : (Path.parts path).directory = false) :
    Path.Beside path (temporaryPath path) :=
  Path.beside_withExtension (by simp) (by simp) file other

/-- The last two steps of replacing a document, after the directories were made. -/
def putDocument (path : String) (t : Tables) :
    Program Disk.interface (Except LedgerError Unit) := do
  match ← onDisk (.write (temporaryPath path) (Bytes.ofText t.document)) with
  | .error e => pure (.error e)
  | .ok _ => onDisk (.rename (temporaryPath path) path)

/-- Writing a document beside the path and moving it there replaces the content as a whole or not at
all. -/
lemma renewed_of_runs_putDocument (side : Path.Beside path (temporaryPath path)) {o}
    (h : Runs (putDocument path t) d d' o) : Renewed path (Bytes.ofText t.document) d d' o := by
  obtain ⟨rfl, cut⟩ | ⟨d₁, wrote, written, h⟩ := runs_bind h
  · exact .inl ⟨(content?_of_runs_write side cut).1, nofun⟩
  obtain ⟨same, own⟩ := content?_of_runs_write side written
  refine .of_content? same ?_
  cases wrote with
  | error e => exact renewed_of_error h
  | ok => exact renewed_of_runs_rename (own rfl) h

/-- What is read at a path is replaced by a document as a whole or not at all, if making directories
does not change it. -/
lemma renewed_of_runs_persist (side : Path.Beside path (temporaryPath path))
    (steady : ∀ d', Grown d d' → d'.content? path = d.content? path) {o}
    (h : Runs (persist path t) d d' o) :
    Renewed path (Bytes.ofText t.document) d d' o := by
  unfold persist at h
  dsimp only at h
  split at h
  case h_1 =>
    obtain ⟨rfl, cut⟩ | ⟨d₁, directories, none, h⟩ := runs_bind h
    · obtain ⟨rfl, -⟩ := runs_pure cut
      exact .inl ⟨rfl, nofun⟩
    · obtain ⟨rfl, value⟩ := runs_pure none
      cases value _ rfl
      exact renewed_of_runs_putDocument side h
  case h_2 parent _ =>
    obtain ⟨rfl, cut⟩ | ⟨d₁, directories, made, h⟩ := runs_bind h
    · exact .inl ⟨steady _ (grown_of_runs cut), nofun⟩
    · refine .of_content? (steady _ (grown_of_runs made)) ?_
      cases directories with
      | error e => exact renewed_of_error h
      | ok => exact renewed_of_runs_putDocument side h

/-- The outcomes of replacing a document: it is replaced as a whole or not at all, and it is
replaced if its writer is told so and only then. -/
def Replaced (path : String) (content : Bytes) (t : Tables) (d : Disk)
    (o : Option (Except LedgerError Unit)) : Prop :=
  (d.read path = .ok content ∧ ∀ a, o = some a → ∃ e, a = .error e) ∨
    (Recorded path d t ∧ ∀ a, o = some a → a = .ok ())

/-- A document is replaced as a whole or not at all. -/
lemma runs_persist (other : temporaryPath path ≠ path) {content o}
    (read : d.read path = .ok content)
    (h : Runs (persist path t) d d' o) : Replaced path content t d' o := by
  obtain ⟨-, -, -, file⟩ := read_eq_ok.1 read
  have there := content?_eq_some.2 read
  have steady : ∀ d', Grown d d' → d'.content? path = d.content? path :=
    fun d' grown => (content?_eq_some.2 (read_mono (fun _ _ => grown.entry) read)).trans there.symm
  obtain ⟨same, value⟩ | ⟨renewed, value⟩ :=
    renewed_of_runs_persist (beside_temporaryPath other file) steady h
  · exact .inl ⟨content?_eq_some.1 (same.trans there), value⟩
  · exact .inr ⟨⟨_, content?_eq_some.1 renewed, t.ofDocument?_bytes⟩, value⟩

end Documents

section Endings

variable {path : String} {content : Bytes} {t : Tables} {d d' : Disk}
  {es : List (Exchange Disk.interface)}

/-- A step on the disk that came to its end is one exchange, and what was answered without error was
performed. -/
lemma ended_onDisk {r a} (h : Ended (onDisk r) d es d' a) :
    ∃ answer, es = [⟨r, answer⟩] ∧ a = answer.mapError refusal ∧
      ∀ v, answer = .ok v → d.perform r = (.ok v, d') := by
  rw [onDisk_eq] at h
  obtain ⟨es₁, d₁, answer, es₂, rfl, asked, rest⟩ := ended_bind h
  obtain ⟨rfl, rfl, rfl⟩ := ended_pure rest
  obtain ⟨rfl, served⟩ := ended_ask asked
  exact ⟨answer, rfl, rfl, served⟩

/-- A step that is answered without error had a result, and left the disk in it. -/
lemma eq_ok_of_settle {result : Except DiskError Disk} {answer}
    (h : perform.settle d result = (.ok answer, d')) : result = .ok d' := by
  cases result with
  | ok d₁ =>
    cases h
    rfl
  | error e => cases h

/-- Writing that is answered without error has written the content. -/
lemma write_of_perform {answer} (h : d.perform (.write path content) = (.ok answer, d')) :
    d.write path content = .ok d' := by
  unfold perform at h
  exact eq_ok_of_settle h

/-- Moving that is answered without error has moved the file. -/
lemma rename_of_perform {source answer} (h : d.perform (.rename source path) = (.ok answer, d')) :
    d.rename source path = .ok d' := by
  unfold perform at h
  exact eq_ok_of_settle h

/-- An exchange that was refused was not served. -/
lemma not_allServed_singleton {r e} : ¬ AllServed [⟨r, .error e⟩] := by
  intro all
  cases all _ List.mem_cons_self

/-- An exchange that was answered without error was served. -/
lemma allServed_singleton {r v} : AllServed [⟨r, .ok v⟩] := by
  intro e he
  cases List.mem_singleton.1 he
  rfl

/-- The end of a try to replace a document: some step was not served, and the backend says so, or
every step was, and what is read at the path is the new document. The path for the time being may be
the path itself. -/
def Replacing (path : String) (t : Tables) (es : List (Exchange Disk.interface)) (d : Disk)
    (a : Except LedgerError Unit) : Prop :=
  (¬ AllServed es ∧ ∃ reason, a = .error (.backend reason)) ∨
    (AllServed es ∧ a = .ok () ∧ d.read path = .ok (Bytes.ofText t.document))

/-- Writing a document and moving it to its path ends as a try to replace it. -/
lemma ended_putDocument {a} (h : Ended (putDocument path t) d es d' a) :
    Replacing path t es d' a := by
  obtain ⟨_, d₁, _, es₂, rfl, wrote, h⟩ := ended_bind h
  obtain ⟨answer, rfl, rfl, served⟩ := ended_onDisk wrote
  cases answer with
  | error e =>
    obtain ⟨rfl, rfl, rfl⟩ := ended_pure h
    exact .inl ⟨not_allServed_singleton, _, rfl⟩
  | ok =>
    have written := read_write_self (write_of_perform (served _ rfl))
    obtain ⟨answer, rfl, rfl, served⟩ := ended_onDisk h
    cases answer with
    | error e => exact .inl ⟨fun all => not_allServed_singleton (allServed_append.1 all).2, _, rfl⟩
    | ok =>
      refine .inr ⟨allServed_append.2 ⟨allServed_singleton, allServed_singleton⟩, rfl, ?_⟩
      exact read_rename written (rename_of_perform (served _ rfl))

/-- Persisting tables, directories included, ends as a try to replace the document. -/
lemma ended_persist {a} (h : Ended (persist path t) d es d' a) : Replacing path t es d' a := by
  unfold persist at h
  dsimp only at h
  split at h
  case h_1 =>
    obtain ⟨_, d₁, _, es₂, rfl, none, h⟩ := ended_bind h
    obtain ⟨rfl, rfl, rfl⟩ := ended_pure none
    exact ended_putDocument h
  case h_2 parent _ =>
    obtain ⟨_, d₁, _, es₂, rfl, made, h⟩ := ended_bind h
    obtain ⟨answer, rfl, rfl, -⟩ := ended_onDisk made
    cases answer with
    | error e =>
      obtain ⟨rfl, rfl, rfl⟩ := ended_pure h
      exact .inl ⟨not_allServed_singleton, _, rfl⟩
    | ok =>
      obtain ⟨some, failed⟩ | ⟨all, value⟩ := ended_putDocument h
      · exact .inl ⟨fun all => some (allServed_append.1 all).2, failed⟩
      · exact .inr ⟨allServed_append.2 ⟨allServed_singleton, all⟩, value⟩

end Endings

section Openings

variable {path : String} {d d' : Disk} {t : Tables}

/-- Reading changes nothing, and what it brings back is what the path holds. -/
lemma runs_read {o} (h : Runs (Disk.ask (.read path)) d d' o) :
    d' = d ∧ ∀ content, o = some (.ok content) → d.read path = .ok content := by
  obtain ⟨rfl, value⟩ | ⟨left, value⟩ := runs_ask h
  · exact ⟨rfl, fun content given => (value _ given).symm⟩
  · cases left with
    | nothing =>
      refine ⟨rfl, fun content given => ?_⟩
      obtain ⟨e, refused⟩ := value _ given
      cases refused

/-- Loading brings back the tables of the document, or none where no document is found. -/
lemma runs_load {o} (h : Runs (load path) d d' o) :
    d' = d ∧ ∀ t, o = some (.ok t) → t = .empty ∨ Recorded path d t := by
  unfold load at h
  obtain ⟨rfl, cut⟩ | ⟨d₁, a, asked, rest⟩ := runs_bind h
  · exact ⟨(runs_read cut).1, nofun⟩
  obtain ⟨rfl, found⟩ := runs_read asked
  split at rest
  case h_1 =>
    obtain ⟨rfl, value⟩ := runs_pure rest
    exact ⟨rfl, fun t given => .inl (Except.ok.inj (value _ given))⟩
  case h_2 =>
    obtain ⟨rfl, value⟩ := runs_pure rest
    exact ⟨rfl, fun t given => nomatch value _ given⟩
  case h_3 content =>
    split at rest
    case h_1 t decoded =>
      obtain ⟨rfl, value⟩ := runs_pure rest
      refine ⟨rfl, fun t' given => .inr ⟨content, found content rfl, ?_⟩⟩
      rw [decoded, Except.ok.inj (value _ given)]
    case h_2 =>
      obtain ⟨rfl, value⟩ := runs_pure rest
      exact ⟨rfl, fun t given => nomatch value _ given⟩

/-- A ledger that was opened agrees with its document, or has no rows. -/
def Store.Agrees (path : String) (d : Disk) (s : Store) : Prop :=
  s.backend = .file path ∧ (s.tables = .empty ∨ Recorded path d s.tables)

/-- Opening a ledger changes nothing on the disk, and what is opened agrees with the document. -/
lemma runs_opened {o} (h : Runs (Store.opened (.file path)) d d' o) :
    d' = d ∧ ∀ s, o = some (.ok s) → s.Agrees path d := by
  obtain ⟨rfl, cut⟩ | ⟨d₁, a, loaded, rest⟩ := runs_bind h
  · exact ⟨(runs_load cut).1, nofun⟩
  obtain ⟨rfl, found⟩ := runs_load loaded
  obtain ⟨rfl, value⟩ := runs_pure rest
  refine ⟨rfl, fun s given => ?_⟩
  have opened := value _ given
  cases a with
  | error e => cases opened
  | ok t =>
    cases opened
    exact ⟨rfl, found t rfl⟩

/-- A ledger can be opened where there is a document. -/
lemma runs_opened_of_recorded (recorded : Recorded path d t) :
    Runs (Store.opened (.file path)) d d (some (.ok ⟨.file path, t⟩)) := by
  obtain ⟨content, read, decoded⟩ := recorded
  have served : d.perform (.read path) = (.ok content, d) := by
    rw [perform, read]
  refine .served ?_
  rw [served]
  simp only [Program.bind]
  rw [decoded]
  exact .done

/-- On a disk that serves every step the ledger is opened with the tables of its document. -/
lemma run_opened {path t} {d : Disk} (recorded : Recorded path d t) :
    (Store.opened (.file path)).run Disk.answer d = (.ok ⟨.file path, t⟩, d) := by
  obtain ⟨content, read, decoded⟩ := recorded
  have served : d.perform (.read path) = (.ok content, d) := by rw [Disk.perform, read]
  have asked {next : Except DiskError Bytes → Program Disk.interface (Except LedgerError Store)} :
      (Program.ask (I := Disk.interface) (.read path) next).run Disk.answer d =
        (next (.ok content)).run Disk.answer d := by
    change (next (d.perform (.read path)).1).run Disk.answer (d.perform (.read path)).2 = _
    rw [served]
  refine asked.trans ?_
  simp only [Program.bind]
  rw [decoded]
  rfl

/-- **Documents bring back their tables.** The document of any tables is decoded to these tables. A
path to which they were written holds that document, and a ledger that is opened there has the
tables. So a ledger that is written over the document it was opened on is opened again as it was. -/
theorem opened_of_persisted (t : Tables) :
    (Bytes.ofText t.document).text?.bind Tables.ofDocument? = some t ∧
    (∀ path d d', (persist path t).run Disk.answer d = (.ok (), d') →
      d'.read path = .ok (Bytes.ofText t.document) ∧
        (Store.opened (.file path)).run Disk.answer d' = (.ok ⟨.file path, t⟩, d')) ∧
    ∀ path s d₁ d₂ d₃, (Store.opened (.file path)).run Disk.answer d₁ = (.ok s, d₂) →
      (persist path s.tables).run Disk.answer d₂ = (.ok (), d₃) →
      (Store.opened (.file path)).run Disk.answer d₃ = (.ok s, d₃) := by
  have again (t : Tables) (path d d')
      (written : (persist path t).run Disk.answer d = (.ok (), d')) :
      d'.read path = .ok (Bytes.ofText t.document) ∧
        (Store.opened (.file path)).run Disk.answer d' = (.ok ⟨.file path, t⟩, d') := by
    obtain ⟨es, ended⟩ := (runs_of_run written).ended
    obtain ⟨-, reason, refused⟩ | ⟨-, -, read⟩ := ended_persist ended
    · cases refused
    · exact ⟨read, run_opened ⟨_, read, t.ofDocument?_bytes⟩⟩
  refine ⟨t.ofDocument?_bytes, again t, fun path s d₁ d₂ d₃ opened written => ?_⟩
  obtain ⟨-, agrees⟩ := runs_opened (runs_of_run opened)
  obtain ⟨file, -⟩ := agrees s rfl
  obtain ⟨backend, tables⟩ := s
  cases file
  exact (again tables path d₂ d₃ written).2

/-- Tables with a user whose id has to be escaped. -/
def oneUser : Tables := ⟨[], [], [], [⟨"a\"b\\c\n", none⟩]⟩

/-- Tables whose text has to be escaped are persisted on an empty disk and opened again. -/
theorem opened_of_persisted_oneUser :
    ∃ d, (persist "l" oneUser).run Disk.answer .empty = (.ok (), d) ∧
      (Store.opened (.file "l")).run Disk.answer d = (.ok ⟨.file "l", oneUser⟩, d) := by
  have written : ((persist "l" oneUser).run Disk.answer .empty).1 = .ok () := rfl
  exact ⟨_, Prod.ext written rfl,
    ((opened_of_persisted oneUser).2.1 _ _ _ (Prod.ext written rfl)).2⟩

end Openings

section Answers

variable {path : String} {d d' : Disk} {t t' : Tables} {now : Instant} {r : Request}

/-- Without rows there is nothing to write. -/
lemma writes_of_empty {v} (writes : r.writes = true) :
    Tables.perform now r .empty ≠ .ok (v, t') := by
  cases r with
  | claim k id => cases k <;> exact nofun
  | update k id o => cases k <;> exact nofun
  | release c n => exact nofun
  | _ => cases writes

/-- What only reads leaves the tables as they are. -/
lemma eq_of_not_writes {v} (reads : r.writes = false)
    (performed : Tables.perform now r t = .ok (v, t')) :
    t' = t := by
  cases r with
  | asset c n =>
    simp only [Tables.perform] at performed
    split at performed
    · cases performed
      rfl
    · cases performed
  | claim | update | release => cases reads
  | _ =>
    cases performed
    rfl

/-- All that a ledger with a document does when it answers a request to the end: the answer is that
of its tables, and what it writes it writes as a whole or not at all. -/
inductive Answering (path : String) (now : Instant) (t : Tables) (d : Disk) (r : Request) :
    List (Exchange Disk.interface) → Disk → Except LedgerError r.Value → Tables → Prop where
  | denied {e} :
    Tables.perform now r t = .error e →
    Answering path now t d r [] d (.error e) t
  | read {v} :
    r.writes = false →
    Tables.perform now r t = .ok (v, t) →
    Answering path now t d r [] d (.ok v) t
  | failed {v t' es d' reason} :
    r.writes = true →
    Tables.perform now r t = .ok (v, t') →
    ¬ AllServed es →
    Ended (persist path t') d es d' (.error (.backend reason)) →
    Answering path now t d r es d' (.error (.backend reason)) t
  | written {v t' es d'} :
    r.writes = true →
    Tables.perform now r t = .ok (v, t') →
    AllServed es →
    d'.read path = .ok (Bytes.ofText t'.document) →
    Answering path now t d r es d' (.ok v) t'

/-- A request that came to its end was answered in one of the ways that `Answering` lists. -/
lemma ended_answer {es a s} (h : Ended (Store.answer now ⟨.file path, t⟩ r) d es d' (a, s)) :
    s.backend = .file path ∧ Answering path now t d r es d' a s.tables := by
  unfold Store.answer at h
  cases performed : Tables.perform now r t with
  | error e =>
    rw [performed] at h
    have denied : Ended (pure (.error e, ⟨.file path, t⟩)) d es d' (a, s) := by
      cases r.writes <;> exact h
    obtain ⟨rfl, rfl, same⟩ := ended_pure denied
    cases same
    exact ⟨rfl, .denied performed⟩
  | ok result =>
    obtain ⟨v, t'⟩ := result
    rw [performed] at h
    cases writes : r.writes with
    | false =>
      rw [writes] at h
      cases eq_of_not_writes writes performed
      obtain ⟨rfl, rfl, same⟩ := ended_pure h
      cases same
      exact ⟨rfl, .read writes performed⟩
    | true =>
      rw [writes] at h
      obtain ⟨es₁, d₁, _, es₂, rfl, persisted, rest⟩ := ended_bind h
      obtain ⟨some, reason, rfl⟩ | ⟨all, rfl, replaced⟩ := ended_persist persisted
      all_goals
        obtain ⟨rfl, rfl, same⟩ := ended_pure rest
        cases same
        rw [List.append_nil]
      · exact ⟨rfl, .failed writes performed some persisted⟩
      · exact ⟨rfl, .written writes performed all replaced⟩

/-- If every step was served, the answer and the tables are those of a ledger in memory. -/
lemma Answering.reply {es a} (h : Answering path now t d r es d' a t') (all : AllServed es) :
    t.reply now r = (a, t') := by
  cases h with
  | denied performed | read _ performed | written _ performed => simp only [Tables.reply, performed]
  | failed _ _ some => exact absurd all some

/-- An answer that is no failure of the backend had every step served. -/
lemma Answering.allServed {es a} (h : Answering path now t d r es d' a t')
    (sound : ∀ reason, a ≠ .error (.backend reason)) : AllServed es := by
  cases h with
  | denied | read => exact List.forall_mem_nil _
  | failed => exact absurd rfl (sound _)
  | written _ _ all => exact all

/-- After a request the document holds what it held before, or what came of it. -/
def Follows (path : String) (now : Instant) (r : Request) (d d' : Disk) : Prop :=
  ∀ t, Recorded path d t → ∃ t', Recorded path d' t' ∧
    (t' = t ∨ ∃ v, Tables.perform now r t = .ok (v, t'))

/-- A ledger after a request agrees with its document, and has done what it says. -/
def Answered (path : String) (now : Instant) (r : Request) (t : Tables) (d : Disk)
    (a : Except LedgerError r.Value) (s : Store) : Prop :=
  s.Agrees path d ∧
    ((∃ v, Tables.perform now r t = .ok (v, s.tables) ∧ a = .ok v) ∨
      ∃ e, a = .error e ∧ s.tables = t)

/-- A disk that stays as it is holds what it held before. -/
lemma Follows.refl : Follows path now r d d := fun t recorded => ⟨t, recorded, .inl rfl⟩

/-- A document that is known before and after follows if its tables came of the request. -/
lemma Follows.of_recorded (before : Recorded path d t) (after : Recorded path d' t')
    (came : t' = t ∨ ∃ v, Tables.perform now r t = .ok (v, t')) : Follows path now r d d' := by
  intro t₁ recorded
  cases recorded.unique before
  exact ⟨t', after, came⟩

/-- Where nothing is written the disk is as before. -/
lemma runs_pure_answer {a s o} (h : Runs (pure (a, s)) d d' o)
    (answered : Answered path now r t d a s) :
    Follows path now r d d' ∧ ∀ a s, o = some (a, s) → Answered path now r t d' a s := by
  obtain ⟨rfl, value⟩ := runs_pure h
  refine ⟨.refl, fun a s given => ?_⟩
  cases value _ given
  exact answered

/-- An answer that is first written down. -/
lemma runs_persist_answer (other : temporaryPath path ≠ path) (before : Recorded path d t) {v o}
    (performed : Tables.perform now r t = .ok (v, t'))
    (h : Runs (do
      match ← persist path t' with
      | .error e => pure (.error e, ⟨.file path, t⟩)
      | .ok _ => pure (.ok v, ⟨.file path, t'⟩)) d d' o) :
    Follows path now r d d' ∧ ∀ a s, o = some (a, s) → Answered path now r t d' a s := by
  obtain ⟨content, read, decoded⟩ := before
  have before : Recorded path d t := ⟨content, read, decoded⟩
  have kept {d'} (read : d'.read path = .ok content) : Recorded path d' t :=
    ⟨content, read, decoded⟩
  obtain ⟨rfl, cut⟩ | ⟨d₁, written, persisted, rest⟩ := runs_bind h
  · obtain ⟨same, -⟩ | ⟨replaced, -⟩ := runs_persist other read cut
    · exact ⟨.of_recorded before (kept same) (.inl rfl), nofun⟩
    · exact ⟨.of_recorded before replaced (.inr ⟨v, performed⟩), nofun⟩
  · obtain ⟨same, value⟩ | ⟨replaced, value⟩ := runs_persist other read persisted
    · obtain ⟨e, rfl⟩ := value written rfl
      obtain ⟨rfl, ending⟩ := runs_pure rest
      refine ⟨.of_recorded before (kept same) (.inl rfl), fun a s given => ?_⟩
      cases ending _ given
      exact ⟨⟨rfl, .inr (kept same)⟩, .inr ⟨e, rfl, rfl⟩⟩
    · cases value written rfl
      obtain ⟨rfl, ending⟩ := runs_pure rest
      refine ⟨.of_recorded before replaced (.inr ⟨v, performed⟩), fun a s given => ?_⟩
      cases ending _ given
      exact ⟨⟨rfl, .inr replaced⟩, .inl ⟨v, performed, rfl⟩⟩

/-- **Whole tables at every moment.** However the answer to a request goes wrong or is cut off, the
document holds the tables from before or those that the request leads to. A ledger that has answered
agrees with its document again, and has done what it says. -/
theorem runs_answer (other : temporaryPath path ≠ path) {s : Store} {o} (agrees : s.Agrees path d)
    (h : Runs (s.answer now r) d d' o) :
    Follows path now r d d' ∧ ∀ a s', o = some (a, s') → Answered path now r s.tables d' a s' := by
  obtain ⟨backend, tables⟩ := s
  obtain ⟨file, held⟩ := agrees
  dsimp only at file held
  subst file
  unfold Store.answer at h
  cases performed : Tables.perform now r tables with
  | error e =>
    rw [performed] at h
    have refused : Runs (pure (.error e, ⟨.file path, tables⟩)) d d' o := by
      cases r.writes <;> exact h
    exact runs_pure_answer refused ⟨⟨rfl, held⟩, .inr ⟨e, rfl, rfl⟩⟩
  | ok result =>
    obtain ⟨v, t'⟩ := result
    rw [performed] at h
    cases writes : r.writes with
    | false =>
      rw [writes] at h
      cases eq_of_not_writes writes performed
      exact runs_pure_answer h ⟨⟨rfl, held⟩, .inl ⟨v, performed, rfl⟩⟩
    | true =>
      rw [writes] at h
      obtain empty | recorded := held
      · rw [empty] at performed
        exact absurd performed (writes_of_empty writes)
      · exact runs_persist_answer other recorded performed h

end Answers

end Payout.Ledger
