import Payout.Proofs.Ledger.Answers
import Payout.Proofs.Ledger.Persistence
import Payout.Proofs.Settlement.Conduct

/-!
# Settlement over tables in memory

A settler alone with a ledger in memory. What is around it besides the ledger is free: every other
answer, and the time, may depend on all that was asked before (`Surroundings`). A run asks, ends and
leaves tables (`Surroundings.run`); its exchanges with the ledger lead from the first tables to the
last (`Served`).
-/

namespace Payout.Settlement
open Program Ledger

/-- Everything around a settler but its ledger. -/
structure Surroundings where
  answer : Trace → (r : Request) → r.Answer
  now : Trace → Instant

/-- How a program ended: all it asked, its result, and the tables then. -/
structure Run (α : Type) where
  trace : Trace
  result : α
  tables : Tables

namespace Surroundings

/-- Answers a request by the tables or by the surroundings, and keeps the exchange. -/
def reply (b : Surroundings) (r : Request) : StateM (Trace × Tables) r.Answer := fun (es, t) =>
  match r with
  | .ledger q =>
    let (a, t') := t.reply (b.now es) q
    (a, es ++ [⟨.ledger q, a⟩], t')
  | r =>
    let a := b.answer es r
    (a, es ++ [⟨r, a⟩], t)

/-- Runs a settlement program over tables in memory. -/
def run {α : Type} (b : Surroundings) (t : Tables) (p : Step α) : Run α :=
  let (a, es, t') := p.run b.reply ([], t)
  ⟨es, a, t'⟩

end Surroundings

/-- One pass of a settler over tables in memory. -/
def Settler.passOver (s : Settler) (b : Surroundings) (known : KnownDecimals) (t : Tables) :
    Run (Except SettlementError Summary × KnownDecimals) :=
  b.run t (s.poll known)

/-- The exchanges with the ledger are those with a ledger in memory, whose tables they lead from one
state to another. -/
inductive Served : Tables → Trace → Tables → Prop where
  | nil {t} :
    Served t [] t
  | ledger {t now r a t' es t''} :
    Store.answer now ⟨.memory, t⟩ r = pure (a, ⟨.memory, t'⟩) →
    Served t' es t'' →
    Served t (⟨.ledger r, a⟩ :: es) t''
  | elsewhere {t r a es t'} :
    (∀ q, r ≠ .ledger q) →
    Served t es t' →
    Served t (⟨r, a⟩ :: es) t'

section Served

variable {t t' t'' : Tables} {es fs : Trace}

/-- One exchange with the ledger, in terms of the tables. -/
lemma served_ledger {r a} : Served t (⟨.ledger r, a⟩ :: es) t'' ↔
    ∃ now, (t.reply now r).1 = a ∧ Served (t.reply now r).2 es t'' := by
  constructor
  · intro h
    cases h with
    | @ledger _ now _ _ t' _ _ answer rest =>
      rw [Store.answer_memory_eq] at answer
      have same : ((t.reply now r).1, (⟨.memory, (t.reply now r).2⟩ : Store)) =
          (a, ⟨.memory, t'⟩) :=
        Program.done.inj answer
      simp only [Prod.mk.injEq, Store.mk.injEq, true_and] at same
      obtain ⟨rfl, rfl⟩ := same
      exact ⟨now, rfl, rest⟩
    | elsewhere other => exact absurd rfl (other r)
  · rintro ⟨now, rfl, rest⟩
    exact .ledger (Store.answer_memory_eq now t r) rest

/-- Without exchanges the tables stay as they are. -/
lemma served_nil : Served t [] t' ↔ t' = t := by
  constructor
  · intro h
    cases h
    rfl
  · rintro rfl
    exact .nil

/-- Exchanges one after another are served through the tables between them. -/
lemma served_append : Served t (es ++ fs) t'' ↔ ∃ t', Served t es t' ∧ Served t' fs t'' := by
  constructor
  · intro h
    induction es generalizing t with
    | nil => exact ⟨t, .nil, h⟩
    | cons e es ih =>
      cases h with
      | ledger answer rest =>
        obtain ⟨t', first, second⟩ := ih rest
        exact ⟨t', .ledger answer first, second⟩
      | elsewhere other rest =>
        obtain ⟨t', first, second⟩ := ih rest
        exact ⟨t', .elsewhere other first, second⟩
  · rintro ⟨t', first, second⟩
    induction first with
    | nil => exact second
    | ledger answer _ ih => exact .ledger answer (ih second)
    | elsewhere other _ ih => exact .elsewhere other (ih second)

/-- Exchanges that leave any tables as they are. -/
def Spares (es : Trace) : Prop :=
  ∀ e ∈ es, ∀ q a, e = ⟨.ledger q, a⟩ → ∀ now t, (Tables.reply now t q).1 = a →
    (t.reply now q).2 = t

/-- A request that only reads leaves the tables as they are. -/
lemma reply_of_reads {now r} (reads : r.writes = false) : (t.reply now r).2 = t := by
  unfold Tables.reply
  cases performed : Tables.perform now r t with
  | error e => rfl
  | ok result => exact eq_of_not_writes reads performed

/-- Tables that are spared stay as they are. -/
lemma Served.eq_of_spares (h : Served t es t') (spares : Spares es) : t' = t := by
  induction es generalizing t with
  | nil => exact served_nil.1 h
  | cons e es ih =>
    have others : Spares es := fun e he => spares e (List.mem_cons_of_mem _ he)
    cases h with
    | ledger answer rest =>
      obtain ⟨now, answered, served⟩ := served_ledger.1 (.ledger answer rest)
      rw [spares _ List.mem_cons_self _ _ rfl now t answered] at served
      exact ih served others
    | elsewhere _ rest => exact ih rest others

end Served

section Replies

variable {reply : (r : Request) → StateM (Trace × Tables) r.Answer}
  {s s' : Trace × Tables} {es : Trace}

/-- Every answer is kept with its request. -/
def Records (reply : (r : Request) → StateM (Trace × Tables) r.Answer) : Prop :=
  ∀ r s, (reply r s).2.1 = s.1 ++ [⟨r, (reply r s).1⟩]

/-- Surroundings that keep every answer have kept all exchanges at the end. -/
lemma Records.trace_eq (records : Records reply) (serves : Serves reply s es s') :
    s'.1 = s.1 ++ es := by
  induction serves with
  | nil => exact (List.append_nil _).symm
  | @cons s r a s' es s'' answered _ ih =>
    have kept := records r s
    rw [answered] at kept
    rw [ih, kept]
    exact (List.append_cons ..).symm

/-- A program that is run goes along a path, of which the exchanges were kept. -/
lemma Records.run_spec {α : Type} (records : Records reply) (t : Tables) (p : Step α) :
    p.Ends (p.run reply ([], t)).2.1 (p.run reply ([], t)).1 ∧
      Serves reply ([], t) (p.run reply ([], t)).2.1 (p.run reply ([], t)).2 := by
  obtain ⟨es, ends, serves⟩ := exists_serves reply p ([], t)
  have kept : (p.run reply ([], t)).2.1 = es := records.trace_eq serves
  rw [kept]
  exact ⟨ends, serves⟩

end Replies

namespace Surroundings

variable {b : Surroundings} {s s' : Trace × Tables} {r : Request} {es : Trace}

/-- Only the ledger is answered by the tables. -/
lemma reply_elsewhere (other : ∀ q, r ≠ .ledger q) :
    b.reply r s = (b.answer s.1 r, s.1 ++ [⟨r, b.answer s.1 r⟩], s.2) := by
  cases r with
  | ledger q => exact absurd rfl (other q)
  | _ => rfl

/-- Surroundings with tables in memory keep every answer. -/
lemma records_reply (b : Surroundings) : Records b.reply := by
  intro r s
  cases r <;> rfl

/-- The tables serve the ledger's part of the exchanges, and the surroundings the rest. -/
lemma serves_reply (serves : Serves b.reply s es s') :
    Served s.2 es s'.2 ∧ ∀ e ∈ es, (∃ q, e.request = .ledger q) ∨
      ∃ fs, e.answer = b.answer fs e.request := by
  induction serves with
  | nil => exact ⟨.nil, fun _ he => absurd he List.not_mem_nil⟩
  | @cons s r a s' es s'' answered _ ih =>
    obtain ⟨served, elsewhere⟩ := ih
    by_cases asked : ∃ q, r = .ledger q
    · obtain ⟨q, rfl⟩ := asked
      cases answered
      exact ⟨served_ledger.2 ⟨_, rfl, served⟩, List.forall_mem_cons.2 ⟨.inl ⟨q, rfl⟩, elsewhere⟩⟩
    · have other : ∀ q, r ≠ .ledger q := fun q same => asked ⟨q, same⟩
      rw [reply_elsewhere other] at answered
      cases answered
      exact ⟨.elsewhere other served, List.forall_mem_cons.2 ⟨.inr ⟨s.1, rfl⟩, elsewhere⟩⟩

variable {α : Type} (b : Surroundings) (t : Tables) (p : Step α)

/-- A run is a path to an end, on which the tables in memory served the ledger's part. -/
lemma run_spec :
    p.Ends (b.run t p).trace (b.run t p).result ∧
      Served t (b.run t p).trace (b.run t p).tables := by
  obtain ⟨ends, serves⟩ := b.records_reply.run_spec t p
  exact ⟨ends, (serves_reply serves).1⟩

/-- What a run asks elsewhere the surroundings answer. -/
lemma run_elsewhere :
    ∀ e ∈ (b.run t p).trace, (∃ q, e.request = .ledger q) ∨
      ∃ fs, e.answer = b.answer fs e.request :=
  (serves_reply (b.records_reply.run_spec t p).2).2

end Surroundings

end Payout.Settlement
