import Payout.Proofs.Disk.Tree
import Payout.Proofs.Program.Paths

/-!
# Runs on a disk that fails

A program may find any step on the disk refused, and may be cut off before, inside and after any
step (`Runs`). What a step can leave that was not served is said by `Leaves`: directories and files
that are new or half written, but never half a rename. Of a run that came to its end the steps and
their answers are known (`Ended`).
-/

namespace Payout.Disk

/-- What is left of a disk by a step that was refused or cut off. -/
inductive Leaves : Request → Disk → Disk → Prop where
  | nothing {r d} :
    Leaves r d d
  | directories {path d d'} :
    (∀ place, d'.entry? place = d.entry? place ∨
      d.entry? place = none ∧ d'.entry? place = some .directory) →
    Leaves (.makeDirectories path) d d'
  | written {path content part d d'} :
    d.write path part = .ok d' →
    Leaves (.write path content) d d'

variable {α β : Type}

/-- A run of a program from one disk to another, with the value that it ends in unless it is cut
off. -/
inductive Runs : Program interface α → Disk → Disk → Option α → Prop where
  | done {a d} :
    Runs (.done a) d d (some a)
  | served {r d next d' o} :
    Runs (next (d.perform r).1) (d.perform r).2 d' o →
    Runs (.ask r next) d d' o
  | refused {r d₁ e next d d' o} :
    Leaves r d d₁ →
    Runs (next (.error e)) d₁ d' o →
    Runs (.ask r next) d d' o
  | cut {p d} :
    Runs p d d none
  | broken {r next d d'} :
    Leaves r d d' →
    Runs (.ask r next) d d' none

/-- A disk that serves every step. -/
lemma runs_run (p : Program interface α) (d : Disk) :
    Runs p d (p.run answer d).2 (some (p.run answer d).1) := by
  induction p generalizing d with
  | done a => exact .done
  | ask r next ih => exact .served (ih (d.perform r).1 (d.perform r).2)

/-- What a program does on a disk without faults is one of its runs. -/
lemma runs_of_run {p : Program interface α} {d d' a} (h : p.run answer d = (a, d')) :
    Runs p d d' (some a) := by
  have run := runs_run p d
  rwa [h] at run

/-- A run of two programs in turn is a run of the first that is cut off, or a run of each. -/
lemma runs_bind {p : Program interface α} {f : α → Program interface β} {d d' o}
    (h : Runs (p >>= f) d d' o) :
    (o = none ∧ Runs p d d' none) ∨ ∃ d₁ a, Runs p d d₁ (some a) ∧ Runs (f a) d₁ d' o := by
  induction p generalizing d with
  | done a => exact .inr ⟨d, a, .done, h⟩
  | ask r next ih =>
    cases h with
    | served rest =>
      obtain ⟨rfl, cut⟩ | ⟨d₁, a, first, second⟩ := ih _ rest
      · exact .inl ⟨rfl, .served cut⟩
      · exact .inr ⟨d₁, a, .served first, second⟩
    | refused left rest =>
      obtain ⟨rfl, cut⟩ | ⟨d₁, a, first, second⟩ := ih _ rest
      · exact .inl ⟨rfl, .refused left cut⟩
      · exact .inr ⟨d₁, a, .refused left first, second⟩
    | cut => exact .inl ⟨rfl, .cut⟩
    | broken left => exact .inl ⟨rfl, .broken left⟩

/-- A program without steps leaves the disk alone and ends in its value. -/
lemma runs_pure {a : α} {d d' o} (h : Runs (pure a) d d' o) : d' = d ∧ ∀ b, o = some b → b = a := by
  cases h with
  | done =>
    refine ⟨rfl, ?_⟩
    rintro _ ⟨⟩
    rfl
  | cut => exact ⟨rfl, nofun⟩

/-- One step is served, or it is refused or cut off. -/
lemma runs_ask {r d d' o} (h : Runs (ask r) d d' o) :
    (d' = (d.perform r).2 ∧ ∀ a, o = some a → a = (d.perform r).1) ∨
      (Leaves r d d' ∧ ∀ a, o = some a → ∃ e, a = .error e) := by
  cases h with
  | served rest => exact .inl (runs_pure rest)
  | refused left rest =>
    obtain ⟨rfl, value⟩ := runs_pure rest
    exact .inr ⟨left, fun a given => ⟨_, value a given⟩⟩
  | cut => exact .inr ⟨.nothing, nofun⟩
  | broken left => exact .inr ⟨left, nofun⟩

/-- A run that came to its end, with the steps that were asked for and their answers. -/
inductive Ended : Program interface α → Disk → List (Exchange interface) → Disk → α → Prop where
  | done {a d} :
    Ended (.done a) d [] d a
  | served {r d next es d' a} :
    Ended (next (d.perform r).1) (d.perform r).2 es d' a →
    Ended (.ask r next) d (⟨r, (d.perform r).1⟩ :: es) d' a
  | refused {r d₁ e next d es d' a} :
    Leaves r d d₁ →
    Ended (next (.error e)) d₁ es d' a →
    Ended (.ask r next) d (⟨r, .error e⟩ :: es) d' a

/-- Every step was served. -/
def AllServed (es : List (Exchange interface)) : Prop := ∀ e ∈ es, e.answer.isOk = true

section Ended

variable {p : Program interface α} {d d' : Disk} {es fs : List (Exchange interface)} {a : α}

/-- A run with its steps written down is a run. -/
lemma Ended.runs (h : Ended p d es d' a) : Runs p d d' (some a) := by
  induction h with
  | done => exact .done
  | served _ ih => exact .served ih
  | refused left _ ih => exact .refused left ih

/-- Of a run that came to its end the steps can be written down. -/
lemma Runs.ended (h : Runs p d d' (some a)) : ∃ es, Ended p d es d' a := by
  generalize value : some a = o at h
  induction h with
  | done =>
    cases value
    exact ⟨[], .done⟩
  | served _ ih =>
    obtain ⟨es, ended⟩ := ih value
    exact ⟨_, .served ended⟩
  | refused left _ ih =>
    obtain ⟨es, ended⟩ := ih value
    exact ⟨_, .refused left ended⟩
  | cut => cases value
  | broken => cases value

/-- A program without steps ends at once, with the disk as it was. -/
lemma ended_pure {b : α} (h : Ended (pure b) d es d' a) : es = [] ∧ d' = d ∧ a = b := by
  cases h
  exact ⟨rfl, rfl, rfl⟩

/-- A run through two programs in turn ends the first and then the second. -/
lemma ended_bind {f : α → Program interface β} {b : β} (h : Ended (p >>= f) d es d' b) :
    ∃ es₁ d₁ a es₂, es = es₁ ++ es₂ ∧ Ended p d es₁ d₁ a ∧ Ended (f a) d₁ es₂ d' b := by
  induction p generalizing d es with
  | done a => exact ⟨[], d, a, es, rfl, .done, h⟩
  | ask r next ih =>
    cases h with
    | served rest =>
      obtain ⟨es₁, d₁, a, es₂, rfl, first, second⟩ := ih _ rest
      exact ⟨_, d₁, a, es₂, rfl, .served first, second⟩
    | refused left rest =>
      obtain ⟨es₁, d₁, a, es₂, rfl, first, second⟩ := ih _ rest
      exact ⟨_, d₁, a, es₂, rfl, .refused left first, second⟩

/-- One step, whatever its answer. If it was served the disk is that after the step. -/
lemma ended_ask {r a} (h : Ended (ask r) d es d' a) :
    es = [⟨r, a⟩] ∧ ∀ v, a = .ok v → d.perform r = (.ok v, d') := by
  cases h with
  | served rest =>
    obtain ⟨rfl, rfl, rfl⟩ := ended_pure rest
    exact ⟨rfl, fun v served => by rw [← served]⟩
  | refused left rest =>
    obtain ⟨rfl, rfl, rfl⟩ := ended_pure rest
    exact ⟨rfl, nofun⟩

/-- Every step of two parts was served just if every step of each part was. -/
lemma allServed_append : AllServed (es ++ fs) ↔ AllServed es ∧ AllServed fs :=
  List.forall_mem_append

end Ended

end Payout.Disk
