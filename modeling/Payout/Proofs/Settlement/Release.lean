import Payout.Proofs.Program.Worlds
import Payout.Proofs.Settlement.InMemory
import Payout.Proofs.Settlement.Insistence

/-!
# Releases

Putting an asset back is tried again only while the backend of the ledger fails, and it does no harm
to try again. An attempt that failed may have been performed all the same (`Mishap`), so after a
failure nobody knows whether the asset is back. But to put it back twice is to put it back once, and
the tables in the end are those of one release if any attempt took effect, and untouched if none did
(`release_applied_once`).
-/

namespace Payout
open Ledger

/-- The tables with the first record of an asset put back, if there is one. -/
def Ledger.Tables.released (t : Tables) (c : AssetClass) (n : UInt64) : Tables :=
  { t with assets := modifyFirst (·.isFor c n) Asset.released t.assets }

/-- To put an asset back twice is to put it back once. -/
lemma Ledger.Tables.released_released (t : Tables) (c : AssetClass) (n : UInt64) :
    (t.released c n).released c n = t.released c n :=
  congrArg (fun assets => { t with assets })
    (modifyFirst_modifyFirst (f := Asset.released) (fun _ => rfl) t.assets)

namespace Settlement
open Program

/-- A failure of the ledger's backend, which came before or after the operation was performed. -/
structure Mishap where
  performed : Bool
  reason : String

/-- Whether an operation of the ledger fails, and how, by all that was asked before. -/
abbrev Mishaps := Trace → Option Mishap

/-- The answer of a ledger in memory at a time, and the tables after it, unless its backend has a
mishap. -/
def Mishaps.reply (f : Mishaps) (now : Instant) (es : Trace) (t : Tables) (q : Ledger.Request) :
    Except LedgerError q.Value × Tables :=
  match f es with
  | some m => (.error (.backend m.reason), if m.performed then (t.reply now q).2 else t)
  | none => t.reply now q

namespace Surroundings

/-- Answers a request as without mishaps, unless the ledger's backend has one. -/
def replyAmid (b : Surroundings) (f : Mishaps) (r : Request) :
    StateM (Trace × Tables) r.Answer := fun (es, t) =>
  match r with
  | .ledger q =>
    let (a, t') := f.reply (b.now es) es t q
    (a, es ++ [⟨.ledger q, a⟩], t')
  | r => b.reply r (es, t)

/-- Runs a settlement program over tables in memory amid mishaps. -/
def runAmid {α : Type} (b : Surroundings) (f : Mishaps) (t : Tables) (p : Step α) : Run α :=
  let (a, es, t') := p.run (b.replyAmid f) ([], t)
  ⟨es, a, t'⟩

end Surroundings

/-- Whether an exchange is a release that was performed: one that succeeded, or failed after
that. -/
def Mishaps.Performs (f : Mishaps) (before : Trace) (e : Exchange interface) : Prop :=
  ∃ c n a, e = ⟨.ledger (.release c n), a⟩ ∧
    match f before with
    | some m => m.performed = true
    | none => a = .ok ()

/-- Some release among exchanges was performed. -/
def Mishaps.TakesEffect (f : Mishaps) (before es : Trace) : Prop :=
  ∃ pre e post, es = pre ++ e :: post ∧ f.Performs (before ++ pre) e

section Mishaps

variable {b : Surroundings} {f : Mishaps} {s s' : Trace × Tables} {es before : Trace}
  {c : AssetClass} {n : UInt64}

/-- A release among exchanges was performed by the first or by one of the others. -/
lemma Mishaps.takesEffect_cons {e : Exchange interface} :
    f.TakesEffect before (e :: es) ↔ f.Performs before e ∨ f.TakesEffect (before ++ [e]) es := by
  constructor
  · rintro ⟨pre, e', post, split, performs⟩
    cases pre with
    | nil =>
      cases split
      rw [List.append_nil] at performs
      exact .inl performs
    | cons first pre =>
      obtain ⟨rfl, rest⟩ := List.cons.inj split
      rw [List.append_cons] at performs
      exact .inr ⟨pre, e', post, rest, performs⟩
  · rintro (performs | ⟨pre, e', post, rfl, performs⟩)
    · exact ⟨[], e, es, rfl, by rwa [List.append_nil]⟩
    · exact ⟨e :: pre, e', post, rfl, by rwa [List.append_cons]⟩

/-- One attempt: the asset is back if it was performed, and nothing has changed if not. -/
lemma Mishaps.reply_release {t t' : Tables} {now a}
    (answered : f.reply now before t (.release c n) = (a, t')) :
    f.Performs before ⟨.ledger (.release c n), a⟩ ∧ t' = t.released c n ∨
      ¬ f.Performs before ⟨.ledger (.release c n), a⟩ ∧ t' = t := by
  have back := t.reply_release_eq now c n
  unfold Mishaps.reply at answered
  cases mishap : f before with
  | some m =>
    rw [mishap] at answered
    cases answered
    cases performed : m.performed with
    | true => exact .inl ⟨⟨c, n, _, rfl, by rwa [mishap]⟩, back⟩
    | false =>
      refine .inr ⟨?_, rfl⟩
      rintro ⟨_, _, _, ⟨⟩, performs⟩
      rw [mishap] at performs
      cases performed.symm.trans performs
  | none =>
    rw [mishap] at answered
    dsimp only at answered
    obtain ⟨⟨e, rfl⟩, rfl⟩ | ⟨v, rfl, -⟩ := reply_cases answered
    · refine .inr ⟨?_, rfl⟩
      rintro ⟨_, _, _, ⟨⟩, performs⟩
      rw [mishap] at performs
      cases performs
    · rw [answered] at back
      exact .inl ⟨⟨c, n, _, rfl, by rw [mishap]⟩, back⟩

/-- Surroundings keep every answer amid mishaps too. -/
lemma Surroundings.records_replyAmid (b : Surroundings) (f : Mishaps) :
    Records (b.replyAmid f) := by
  intro r s
  cases r <;> rfl

/-- A request of a release run is kept, and it releases the asset if it performs and does nothing to
the tables if not. -/
lemma Surroundings.replyAmid_cases {r : Request} {a} (answered : b.replyAmid f r s = (a, s'))
    (asks : r = .ledger (.release c n) ∨ r = .pause ∨ ∃ m, r = .note m) :
    s'.1 = s.1 ++ [⟨r, a⟩] ∧
      (f.Performs s.1 ⟨r, a⟩ ∧ s'.2 = s.2.released c n ∨ ¬ f.Performs s.1 ⟨r, a⟩ ∧ s'.2 = s.2) := by
  obtain rfl | rfl | ⟨m, rfl⟩ := asks
  · cases answered
    exact ⟨rfl, Mishaps.reply_release rfl⟩
  · cases answered
    refine ⟨rfl, .inr ⟨?_, rfl⟩⟩
    rintro ⟨_, _, _, ⟨⟩, _⟩
  · cases answered
    refine ⟨rfl, .inr ⟨?_, rfl⟩⟩
    rintro ⟨_, _, _, ⟨⟩, _⟩

/-- The tables after exchanges that are nothing but attempts to put one asset back. -/
lemma tables_of_serves (serves : Serves (b.replyAmid f) s es s')
    (asks : ∀ e ∈ es, e.request = .ledger (.release c n) ∨ e.request = .pause ∨
      ∃ m, e.request = .note m) :
    (f.TakesEffect s.1 es → s'.2 = s.2.released c n) ∧ (¬ f.TakesEffect s.1 es → s'.2 = s.2) := by
  induction serves with
  | nil =>
    refine ⟨?_, fun _ => rfl⟩
    rintro ⟨pre, e, post, split, -⟩
    cases List.append_ne_nil_of_right_ne_nil pre (List.cons_ne_nil e post) split.symm
  | @cons s r a s' es s'' answered _ ih =>
    obtain ⟨first, others⟩ := List.forall_mem_cons.1 asks
    obtain ⟨recorded, step⟩ := Surroundings.replyAmid_cases answered first
    obtain ⟨effect, noEffect⟩ := ih others
    rw [recorded] at effect noEffect
    rw [Mishaps.takesEffect_cons]
    obtain ⟨performs, back⟩ | ⟨not, same⟩ := step
    · refine ⟨fun _ => ?_, fun none => absurd (.inl performs) none⟩
      -- Whatever the others did, the asset has been put back already.
      by_cases again : f.TakesEffect (s.1 ++ [⟨r, a⟩]) es
      · rw [effect again, back, Tables.released_released]
      · rw [noEffect again, back]
    · rw [same] at effect noEffect
      simpa only [not, false_or] using ⟨effect, noEffect⟩

end Mishaps

/-- **A release is tried again safely.** Whatever the ledger answers, attempts to put an asset back
come one after another, and each but the last failed in the backend. Where the backend may have a
mishap at any of them, before it was performed or after, the tables in the end are those of one
release if any was performed, and untouched if none was. -/
theorem release_applied_once (p : Policy) (c : AssetClass) (n : UInt64) :
    (∀ (w : World interface) (before : Trace),
      let path := (release p c n).pathIn w before
      Insists isTransient (furtherAttempts p.releaseWindowMs) (releaseAsks c n) path.1 path.2) ∧
    ∀ (b : Surroundings) (f : Mishaps) (t : Tables),
      let run := b.runAmid f t (release p c n)
      Insists isTransient (furtherAttempts p.releaseWindowMs)
        (releaseAsks c n) run.trace run.result ∧
        (f.TakesEffect [] run.trace → ∀ now, run.tables = (t.reply now (.release c n)).2) ∧
        (¬ f.TakesEffect [] run.trace → run.tables = t) := by
  refine ⟨fun w before => retry_insists releaseOnce_eq (ends_pathIn w before _), fun b f t => ?_⟩
  obtain ⟨ends, serves⟩ := (b.records_replyAmid f).run_spec t (release p c n)
  obtain ⟨effect, noEffect⟩ := tables_of_serves serves (release_course ends).forall
  refine ⟨retry_insists releaseOnce_eq ends, fun some now => ?_, noEffect⟩
  rw [Tables.reply_release_eq]
  exact effect some

end Settlement

end Payout
