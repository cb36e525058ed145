import Payout.Proofs.Disk.Grounded
import Payout.Proofs.Ledger.Persistence

/-!
# Replacing a document as a whole

Whatever fails and wherever the program is cut off, what is read at the path of a ledger is what was
read there before or the whole new document, if the document is made ready under another name
(`persist_atomic`). The name that it is made ready under has the extension `tmp`; a ledger that has
this extension itself is written in place, and a program that is cut off leaves any part of the new
document, and nothing of the old one. And where nothing is read because a directory is missing that
the path goes through and out of again, the directory is made first, and something may be read
before anything was written (`not_atomic`).
-/

namespace Payout.Ledger
open Disk

/-- At any moment what is read at a path is what was read there before, or the whole new
document. -/
def Atomic (path : String) (d : Disk) : Prop :=
  ∀ t d' o, Runs (persist path t) d d' o →
    d'.content? path = d.content? path ∨ d'.content? path = some (Bytes.ofText t.document)

section Documents

variable {path : String} {d d' : Disk} {t : Tables}

/-- A path that names a directory holds no content. -/
lemma content?_of_directory (directory : (Path.parts path).directory = true) :
    d.content? path = none := by
  refine Option.eq_none_iff_forall_ne_some.2 fun content read => ?_
  obtain ⟨-, -, -, file⟩ := read_eq_ok.1 (content?_eq_some.1 read)
  rw [directory] at file
  cases file

/-- A path that can only be a directory stays without a document, and its writer is told so. -/
lemma renewed_of_directory (directory : (Path.parts path).directory = true) {o}
    (h : Runs (persist path t) d d' o) :
    Renewed path (Bytes.ofText t.document) d d' o := by
  refine .inl ⟨(content?_of_directory directory).trans (content?_of_directory directory).symm, ?_⟩
  rintro a rfl
  obtain ⟨es, ended⟩ := h.ended
  obtain ⟨-, reason, refused⟩ | ⟨-, -, read⟩ := ended_persist ended
  · exact ⟨_, refused⟩
  · cases (content?_of_directory directory).symm.trans (content?_eq_some.2 read)

/-- Where no directory has to be made the document is written at once. -/
lemma runs_persist_of_putDocument {o} (made : ∀ parent, Path.parent? path = some parent →
    d.perform (.makeDirectories parent) = (.ok (), d)) (put : Runs (putDocument path t) d d' o) :
    Runs (persist path t) d d' o := by
  unfold persist
  cases above : Path.parent? path with
  | none => exact put
  | some parent =>
    have served := made parent above
    refine .served ?_
    rw [served]
    exact put

/-- A document that is made ready under its own name is written in place, and any part of it may be
left. -/
lemma exists_runs_in_place (grounded : d.Grounded) (same : temporaryPath path = path) {content}
    (read : d.read path = .ok content) (t : Tables) (part : Bytes) :
    ∃ d', Runs (persist path t) d d' none ∧ d'.content? path = some part := by
  obtain ⟨d', wrote⟩ : ∃ d', d.write path part = .ok d' := exists_write read
  refine ⟨d', runs_persist_of_putDocument ?made ?put, content?_eq_some.2 (read_write_self wrote)⟩
  case made =>
    intro parent above
    rw [perform, makeDirectories_parent grounded read above]
  case put =>
    unfold putDocument
    rw [same]
    exact .broken (.written wrote)

/-- **Documents are replaced as a whole.** If a document is made ready under another name, what is
read at the path is at any moment what was read before or the new document, and the writer is told
which; a path that goes up again has to lead somewhere already. If it is made ready under its own
name, the program may be cut off with any part of the new document in place of the old one. -/
theorem persist_atomic {d : Disk} (grounded : d.Grounded) (path : String) :
    (temporaryPath path ≠ path → d.Led path → ∀ t d' o, Runs (persist path t) d d' o →
      Renewed path (Bytes.ofText t.document) d d' o) ∧
      (temporaryPath path = path → ∀ content, d.read path = .ok content → ∀ t part,
        part <+: Bytes.ofText t.document →
          ∃ d', Runs (persist path t) d d' none ∧ d'.content? path = some part) := by
  refine ⟨fun other led t d' o run => ?_, fun same content read t part _ =>
    exists_runs_in_place grounded same read t part⟩
  cases directory : (Path.parts path).directory with
  | true => exact renewed_of_directory directory run
  | false =>
    have side := beside_temporaryPath other directory
    exact renewed_of_runs_persist side (fun d' grown => content?_grown grounded led grown) run

/-- Two ledgers side by side, of which one has the name that the other is made ready under. -/
def sideBySide : Disk :=
  (Disk.empty.put ["home", "l.json"] (.file (Bytes.ofText oneUser.document))).put ["home", "l.tmp"]
    (.file (Bytes.ofText oneUser.document))

/-- The disk of both ledgers has a directory above each of its entries. -/
lemma grounded_sideBySide : sideBySide.Grounded := grounded_of_entries (by decide)

/-- On this disk the first ledger is replaced as a whole, and the second can be left empty by a run
that is cut off. -/
theorem persist_atomic_sideBySide :
    sideBySide.Grounded ∧ sideBySide.content? "l.json" = some (Bytes.ofText oneUser.document) ∧
      temporaryPath "l.json" ≠ "l.json" ∧ sideBySide.Led "l.json" ∧ Atomic "l.json" sideBySide ∧
      temporaryPath "l.tmp" = "l.tmp" ∧
      ∃ d', Runs (persist "l.tmp" .empty) sideBySide d' none ∧ d'.content? "l.tmp" = some [] := by
  have other : temporaryPath "l.json" ≠ "l.json" := by decide
  have led : sideBySide.Led "l.json" := fun up => absurd up (by decide)
  have whole := (persist_atomic grounded_sideBySide "l.json").1 other led
  have part := (persist_atomic grounded_sideBySide "l.tmp").2 rfl _ rfl .empty [] List.nil_prefix
  exact ⟨grounded_sideBySide, rfl, other, led,
    fun t d' o run => (whole t d' o run).imp And.left And.left, rfl, part⟩

/-- The document of tables is never empty. -/
lemma document_ne_nil (t : Tables) : Bytes.ofText t.document ≠ [] := by
  intro empty
  have decoded := t.ofDocument?_bytes
  rw [empty] at decoded
  have nothing : (Bytes.text? []).bind Tables.ofDocument? = none := by cbv
  cases nothing.symm.trans decoded

/-- A ledger with the extension of temporary files loses its document, and a path that goes through
a directory that is missing comes to lead to another one. -/
theorem not_atomic : ¬ Atomic "l.tmp" sideBySide ∧ ¬ Atomic "x/../l.json" sideBySide := by
  have old : sideBySide.content? "l.tmp" = some (Bytes.ofText oneUser.document) := rfl
  have absent : sideBySide.content? "x/../l.json" = none := rfl
  constructor
  · intro atomic
    obtain ⟨d', run, left⟩ :=
      exists_runs_in_place grounded_sideBySide rfl (content?_eq_some.1 old) .empty []
    obtain kept | replaced := atomic _ _ _ run
    · rw [left, old] at kept
      exact document_ne_nil _ (Option.some.inj kept).symm
    · rw [left] at replaced
      exact document_ne_nil _ (Option.some.inj replaced).symm
  · intro atomic
    -- The program is cut off when the directory was made.
    have run : Runs (persist "x/../l.json" .empty) sideBySide
        (sideBySide.perform (.makeDirectories "x/..")).2 none :=
      .served .cut
    have found : content? (sideBySide.perform (.makeDirectories "x/..")).2 "x/../l.json" =
        some (Bytes.ofText oneUser.document) := rfl
    obtain kept | replaced := atomic _ _ _ run
    · rw [found, absent] at kept
      cases kept
    · rw [found] at replaced
      have same : oneUser = .empty := by
        have first := oneUser.ofDocument?_bytes
        rw [Option.some.inj replaced, Tables.ofDocument?_bytes] at first
        exact (Option.some.inj first).symm
      cases same

end Documents

end Payout.Ledger
