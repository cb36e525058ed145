import Payout.Proofs.Ledger.Answers
import Payout.Proofs.Ledger.Rows
import Payout.Proofs.Settlement.Journal

/-!
# Workers that share a ledger

Any number of settlers make passes over one ledger in memory, each step of each at any moment. A
step on the ledger is atomic or fails without effect, the chain answers anything, and rows may be
added at any moment. However the steps fall, no row is paid out twice and a call is made only by the
worker that was granted the row (`calls_of_shared_ledger`).
-/

namespace Payout.Settlement
open Ledger Journal

/-- Workers beside each other: the ledger that they share, and what each has yet to do. -/
structure System (ι : Type) where
  ledger : Store
  todo : ι → Step (Unit × KnownDecimals)

variable {ι : Type} [DecidableEq ι]

namespace System

/-- Workers about to make passes over tables in memory. -/
def start (settler : ι → Settler) (passes : ι → Nat) (t : Tables) : System ι :=
  ⟨⟨.memory, t⟩, fun i => (settler i).polls (passes i) fun _ => none⟩

/-- A worker goes on with something else. -/
def goOn (S : System ι) (i : ι) (p : Step (Unit × KnownDecimals)) : System ι :=
  { S with todo := Function.update S.todo i p }

/-- One step, and the deed it consists of. -/
inductive Moves : System ι → Journal ι Tables → System ι → Prop where
  | answered {S i r next now a ledger} :
    S.todo i = .ask (.ledger r) next →
    S.ledger.answer now r = pure (a, ledger) →
    Moves S [⟨i, ⟨.ledger r, a⟩, S.ledger.tables, ledger.tables⟩]
      { S.goOn i (next a) with ledger := ledger }
  | failed {S i r next e} :
    S.todo i = .ask (.ledger r) next →
    Moves S [⟨i, ⟨.ledger r, .error e⟩, S.ledger.tables, S.ledger.tables⟩]
      (S.goOn i (next (.error e)))
  | elsewhere {S i r next a} :
    S.todo i = .ask r next →
    (∀ q, r ≠ .ledger q) →
    Moves S [⟨i, ⟨r, a⟩, S.ledger.tables, S.ledger.tables⟩] (S.goOn i (next a))
  | inserted {S k row} :
    Moves S [] { S with ledger := { S.ledger with tables := S.ledger.tables.insert k row } }

/-- Any number of steps, with all deeds in order. -/
inductive Runs (S : System ι) : Journal ι Tables → System ι → Prop where
  | refl :
    Runs S [] S
  | step {js S' ds S''} :
    Runs S js S' →
    Moves S' ds S'' →
    Runs S (js ++ ds) S''

end System

/-- An answer of the ledger is what the tables found say, and leads to tables from which the present
ones came. -/
def Deed.Faithful (t : Tables) (d : Deed ι Tables) : Prop :=
  match d.exchange with
  | ⟨.ledger r, .ok v⟩ => (∃ now, Tables.perform now r d.found = .ok (v, d.left)) ∧ d.left.Later t
  | _ => True

/-- What holds of workers at every moment. -/
structure System.Invariant (settler : ι → Settler) (passes : ι → Nat) (js : Journal ι Tables)
    (S : System ι) : Prop where
  memory : S.ledger.backend = .memory
  path : ∀ i, ((settler i).polls (passes i) fun _ => none).Reaches (own i js) (S.todo i)
  faithful : ∀ d ∈ js, d.Faithful S.ledger.tables
  once : ∀ k id, grants k id js ≤ 1
  taken : ∀ k id, 0 < grants k id js → S.ledger.tables.Taken k id

omit [DecidableEq ι] in
/-- A faithful deed stays so when the tables change further. -/
lemma Deed.Faithful.later {t t' : Tables} {d : Deed ι Tables} (h : d.Faithful t)
    (later : t.Later t') :
    d.Faithful t' := by
  unfold Faithful at *
  split at h
  · exact ⟨h.1, h.2.trans later⟩
  · trivial

omit [DecidableEq ι] in
/-- The answer of a faithful deed could be given. -/
lemma Deed.Faithful.sound {t : Tables} {d : Deed ι Tables} (h : d.Faithful t) :
    Sound d.exchange := by
  obtain ⟨i, ⟨r, a⟩, found, left⟩ := d
  cases r with
  | ledger r =>
    cases a with
    | ok v =>
      obtain ⟨⟨now, performed⟩, _⟩ := h
      exact sound_of_perform performed
    | error e => cases r <;> trivial
  | _ => trivial

omit [DecidableEq ι] in
/-- A granted row is taken up, and keeps its order in all later tables. -/
lemma Deed.Faithful.granted {t : Tables} {g : Deed ι Tables} {k id} (h : g.Faithful t)
    (grant : g.exchange = ⟨.ledger (.claim k id), .ok true⟩) :
    ∃ row now, g.found.row? k id = some row ∧ row.state = .unprocessed ∧
      g.left.row? k id = some (row.claimed now) ∧
      ∃ row' ∈ t.rows k, row'.id = id ∧ row'.order = row.order := by
  obtain ⟨i, e, found, left⟩ := g
  cases grant
  obtain ⟨⟨now, performed⟩, later⟩ := h
  obtain ⟨row, before, free, after⟩ := Tables.perform_claim_true performed
  obtain ⟨row', mem, same, order⟩ := later.exists_mem (Tables.mem_rows_of_row? after)
  have named : row.id = id := Tables.row?_eq_some_id before
  exact ⟨row, now, before, free, after, row', mem, same.trans named, order⟩

omit [DecidableEq ι] in
/-- A listed row keeps its id and its order in all later tables. -/
lemma Deed.Faithful.listed {t : Tables} {l : Deed ι Tables} {k rows} {row : Withdrawal k.Order}
    (h : l.Faithful t) (list : l.exchange = ⟨.ledger (.unprocessed k), .ok rows⟩)
    (mem : row ∈ rows) :
    ∃ row' ∈ t.rows k, row'.id = row.id ∧ row'.order = row.order := by
  obtain ⟨i, e, found, left⟩ := l
  cases list
  obtain ⟨⟨now, performed⟩, later⟩ := h
  simp only [Tables.perform, Except.ok.injEq, Prod.mk.injEq] at performed
  obtain ⟨rfl, rfl⟩ := performed
  exact later.exists_mem (List.mem_of_mem_filter mem)

namespace System.Invariant

variable {settler : ι → Settler} {passes : ι → Nat} {js : Journal ι Tables} {S : System ι}

/-- All answers that were given could be given. -/
lemma sound (h : Invariant settler passes js S) : ∀ d ∈ js, Sound d.exchange :=
  fun d hd => (h.faithful d hd).sound

/-- Every request so far was in order. -/
lemma ordered (h : Invariant settler passes js S) : js.Ordered settler fun _ => .initial :=
  ordered_of_passes h.sound fun i => ⟨_, h.path i⟩

/-- The next request is in order too. -/
lemma allows (h : Invariant settler passes js S) {i r next} (todo : S.todo i = .ask r next) :
    (seen js i).Allows (settler i) r := by
  have path := h.path i
  rw [todo] at path
  exact allows_of_passes h.sound path

/-- One more deed keeps the invariant if the ledger told the truth and granted nothing twice. -/
lemma snoc (h : Invariant settler passes js S) {d : Deed ι Tables} {next} (ledger : Store)
    (todo : S.todo d.agent = .ask d.exchange.request next)
    (memory : ledger.backend = .memory) (later : S.ledger.tables.Later ledger.tables)
    (faithful : d.Faithful ledger.tables)
    (granted : ∀ k id, isGrant k id d.exchange = true →
      ¬ S.ledger.tables.Taken k id ∧ ledger.tables.Taken k id) :
    Invariant settler passes (js ++ [d])
      { S.goOn d.agent (next d.exchange.answer) with ledger := ledger } where
  memory := memory
  path := by
    intro i
    rw [own_append]
    -- Only the worker whose deed it is has moved.
    by_cases hi : i = d.agent
    · subst hi
      have path := h.path d.agent
      rw [todo] at path
      simp only [System.goOn, Function.update_self, own_self]
      exact path.snoc _
    · simp only [System.goOn, Function.update_of_ne hi, own_of_ne hi, List.append_nil]
      exact h.path i
  faithful := by
    intro d' hd'
    rcases List.mem_append.1 hd' with hd' | hd'
    · exact (h.faithful d' hd').later later
    · cases List.mem_singleton.1 hd'
      exact faithful
  once := by
    intro k id
    refine grants_snoc_le (h.once k id) fun grant => ?_
    by_contra some
    exact (granted k id grant).1 (h.taken k id (Nat.pos_of_ne_zero some))
  taken := by
    intro k id some
    obtain grant | before := grants_snoc_pos some
    · exact (granted k id grant).2
    · exact later.taken (h.taken k id before)

/-- A deed that leaves the ledger alone and grants nothing preserves the invariant. -/
lemma unchanged (h : Invariant settler passes js S) {d : Deed ι Tables} {next}
    (todo : S.todo d.agent = .ask d.exchange.request next) (faithful : d.Faithful S.ledger.tables)
    (granted : ∀ k id, ¬ isGrant k id d.exchange = true) :
    Invariant settler passes (js ++ [d]) (S.goOn d.agent (next d.exchange.answer)) :=
  h.snoc S.ledger todo h.memory (.refl _) faithful
    fun k id grant => absurd grant (granted k id)

end System.Invariant

namespace System

variable {settler : ι → Settler} {passes : ι → Nat} {js ds : Journal ι Tables} {S S' : System ι}

/-- The invariant holds before the first step. -/
lemma invariant_start {t : Tables} : Invariant settler passes [] (start settler passes t) where
  memory := rfl
  path _ := .here
  faithful _ hd := absurd hd List.not_mem_nil
  once _ _ := Nat.zero_le 1
  taken _ _ some := absurd some (Nat.lt_irrefl 0)

/-- Every step keeps the invariant. -/
lemma Moves.invariant (move : Moves S ds S') (h : Invariant settler passes js S) :
    Invariant settler passes (js ++ ds) S' := by
  cases move with
  | answered todo answer =>
    rename_i i r next now a ledger
    obtain ⟨v, t, performed, rfl, rfl⟩ | ⟨e, rfl, rfl⟩ := Store.answer_memory h.memory answer
    · have later := Tables.later_perform (settles_of_allows (h.allows todo)) performed
      refine h.snoc (d := ⟨i, ⟨.ledger r, .ok v⟩, _, _⟩)
        { S.ledger with tables := t } todo h.memory later
        ⟨⟨now, performed⟩, .refl _⟩ ?_
      intro k id grant
      -- A claim is granted where the row is free, so it was not taken up before.
      have claim := isGrant_iff.1 grant
      cases claim
      obtain ⟨row, before, free, after⟩ := Tables.perform_claim_true performed
      refine ⟨?_, row.claimed now, after, nofun⟩
      rintro ⟨row', before', taken⟩
      cases before.symm.trans before'
      exact taken free
    · exact h.unchanged (d := ⟨i, ⟨.ledger r, .error e⟩, _, _⟩) todo trivial
        fun k id grant => nomatch isGrant_iff.1 grant
  | failed todo =>
    rename_i i r next e
    exact h.unchanged (d := ⟨i, ⟨.ledger r, .error e⟩, _, _⟩) todo trivial
      fun k id grant => nomatch isGrant_iff.1 grant
  | elsewhere todo other =>
    rename_i i r next a
    refine h.unchanged (d := ⟨i, ⟨r, a⟩, _, _⟩) todo ?_ ?_
    · cases r with
      | ledger q => exact absurd rfl (other q)
      | _ => trivial
    · intro k id grant
      cases isGrant_iff.1 grant
      exact other _ rfl
  | inserted =>
    rename_i k row
    rw [List.append_nil]
    have later : S.ledger.tables.Later (S.ledger.tables.insert k row) := Tables.later_insert row
    exact ⟨h.memory, h.path, fun d hd => (h.faithful d hd).later later, h.once,
      fun k id some => later.taken (h.taken k id some)⟩

/-- The invariant holds after every run. -/
lemma Runs.invariant {t : Tables} (run : (start settler passes t).Runs js S) :
    Invariant settler passes js S := by
  induction run with
  | refl => exact invariant_start
  | step _ move ih => exact move.invariant ih

end System

/-- **No row is paid out twice.** However the steps of the workers fall, a row is granted once at
most and at most one call is made on its behalf. A call is made by a worker to whom the row was
granted, and where ids are distinct it pays out what the row asks for that was taken up then. -/
theorem calls_of_shared_ledger (settler : ι → Settler) (passes : ι → Nat) (t : Tables)
    {js : Journal ι Tables} {S : System ι} (run : (System.start settler passes t).Runs js S) :
    (∀ k id, grants k id js ≤ 1 ∧ calls k id js ≤ 1) ∧
      ∀ pre d post c price a, js = pre ++ d :: post → d.exchange = ⟨.call c price, a⟩ →
        ∃ k id, (seen pre d.agent).hand = some (k, id) ∧
          ∃ g ∈ pre, g.agent = d.agent ∧ g.exchange = ⟨.ledger (.claim k id), .ok true⟩ ∧
            ∃ row now, g.found.row? k id = some row ∧ row.state = .unprocessed ∧
              g.left.row? k id = some (row.claimed now) ∧
              (S.ledger.tables.Distinct k →
                (settler d.agent).Pays (seen pre d.agent).reported k row.order c) := by
  have inv := run.invariant
  refine ⟨fun k id => ⟨inv.once k id, (calls_le_grants inv.ordered).trans (inv.once k id)⟩, ?_⟩
  rintro pre d post c price a rfl call
  have allowed := allows_of_ordered inv.ordered
  rw [call] at allowed
  obtain ⟨phase, k, o, ⟨row, listed, hand, rfl⟩, pays⟩ := allowed
  -- Both the list that named the row and the claim that granted it are earlier deeds of the worker.
  obtain ⟨l, hl, _, rows, list, mem⟩ := exists_listing listed
  obtain ⟨g, hg, agent, grant⟩ := exists_grant (ordered_append.1 inv.ordered).1 hand
    (by rw [phase]; exact nofun)
  have claim := isGrant_iff.1 grant
  obtain ⟨granted, now, before, free, after, row₁, mem₁, id₁, order₁⟩ :=
    (inv.faithful g (List.mem_append_left _ hg)).granted claim
  obtain ⟨row₂, mem₂, id₂, order₂⟩ := (inv.faithful l (List.mem_append_left _ hl)).listed list mem
  refine ⟨k, row.id, hand, g, hg, agent, claim, granted, now, before, free, after, ?_⟩
  intro distinct
  -- The row that was listed and the row that was granted have come to be the one row of that id.
  have first := distinct.row?_eq mem₁
  have second := distinct.row?_eq mem₂
  rw [id₁] at first
  rw [id₂] at second
  cases first.symm.trans second
  rw [← order₁, order₂]
  exact pays

namespace System

/-- The next step of a worker, in surroundings that answer all that the ledger is not asked. -/
def turn (surroundings : (r : Request) → r.Answer) (now : Instant) (S : System ι) (i : ι) :
    Journal ι Tables × System ι :=
  match S.todo i with
  | .done _ => ([], S)
  | .ask (.ledger r) next =>
    match Tables.perform now r S.ledger.tables with
    | .ok (v, t) =>
      ([⟨i, ⟨.ledger r, .ok v⟩, S.ledger.tables, t⟩],
        { S.goOn i (next (.ok v)) with ledger := { S.ledger with tables := t } })
    | .error e =>
      ([⟨i, ⟨.ledger r, .error e⟩, S.ledger.tables, S.ledger.tables⟩], S.goOn i (next (.error e)))
  | .ask r next =>
    ([⟨i, ⟨r, surroundings r⟩, S.ledger.tables, S.ledger.tables⟩], S.goOn i (next (surroundings r)))

/-- The next steps of workers in turn. -/
def turns (surroundings : (r : Request) → r.Answer) (now : Instant) (S : System ι) :
    List ι → Journal ι Tables × System ι
  | [] => ([], S)
  | i :: rest =>
    let (d, S) := S.turn surroundings now i
    let (ds, S) := S.turns surroundings now rest
    (d ++ ds, S)

variable {S S' : System ι} {js : Journal ι Tables} {surroundings : (r : Request) → r.Answer}
  {now : Instant}

/-- A run goes on with the next step of a worker. -/
lemma Runs.turn {i} (memory : S'.ledger.backend = .memory) (run : S.Runs js S') :
    S.Runs (js ++ (S'.turn surroundings now i).1) (S'.turn surroundings now i).2 ∧
      (S'.turn surroundings now i).2.ledger.backend = .memory := by
  unfold System.turn
  split
  case h_1 =>
    rw [List.append_nil]
    exact ⟨run, memory⟩
  case h_2 r next todo =>
    cases performed : Tables.perform now r S'.ledger.tables with
    | ok result =>
      obtain ⟨v, t⟩ := result
      exact ⟨run.step (.answered todo (Store.answer_of_perform memory performed)), memory⟩
    | error e => exact ⟨run.step (.failed todo), memory⟩
  case h_3 r next other todo =>
    refine ⟨run.step (.elsewhere todo ?_), memory⟩
    rintro q rfl
    exact other q next rfl .rfl

/-- A run goes on with the next steps of workers in turn. -/
lemma Runs.turns {is} (memory : S'.ledger.backend = .memory) (run : S.Runs js S') :
    S.Runs (js ++ (S'.turns surroundings now is).1) (S'.turns surroundings now is).2 := by
  induction is generalizing js S' with
  | nil =>
    rw [System.turns, List.append_nil]
    exact run
  | cons i is ih =>
    obtain ⟨run', memory'⟩ := Runs.turn memory run
    rw [System.turns, ← List.append_assoc]
    exact ih memory' run'

/-- The steps of workers in turn are a run. -/
lemma runs_turns {is} (memory : S.ledger.backend = .memory) :
    S.Runs (S.turns surroundings now is).1 (S.turns surroundings now is).2 := by
  have run : S.Runs ([] ++ (S.turns surroundings now is).1) (S.turns surroundings now is).2 :=
    Runs.turns memory .refl
  rw [List.nil_append] at run
  exact run

end System

/-- A settler that pays parts out. -/
def partsOnly : Settler :=
  (Settler.idle ⟨100, 0, 1, 1000, 0⟩).withAsset ⟨.part, "0xv", "0xs", "0xm", "ipfs/"⟩

/-- Tables with rows of some ids that all ask for one part, which was never minted. -/
def rowsForOnePart (ids : List String) : Tables :=
  ⟨ids.map fun id => .new id ⟨.part, 7⟩, [],
    [⟨.part, 7, "0xa", none, none, .withdrawing, none⟩], []⟩

/-- Surroundings in which every call succeeds. -/
def obliging : (r : Request) → r.Answer
  | .estimate => .ok 1
  | .call _ _ => .ok ⟨⟨[]⟩, 0, 0⟩
  | .wait _ _ _ => .ok ⟨⟨[]⟩, 0, true, none⟩
  | r => deaf r

/-- Some time of a day. -/
def noon : Instant := { midnight with hour := 12, hour_lt := by decide }

/-- Two workers step beside each other up to the call for the one row that both have listed. -/
def race : Journal Bool Tables × System Bool :=
  (System.start (fun _ => partsOnly) (fun _ => 1) (rowsForOnePart ["w"])).turns obliging noon
    [true, false, true, false, false, true, false, false, false, false]

/-- Two workers that have listed the same row make one call for it. -/
theorem calls_of_race :
    (System.start (fun _ => partsOnly) (fun _ => 1) (rowsForOnePart ["w"])).Runs race.1 race.2 ∧
      calls .asset "w" race.1 = 1 ∧
      ∀ k id, grants k id race.1 ≤ 1 ∧ calls k id race.1 ≤ 1 := by
  have run : (System.start (fun _ => partsOnly) (fun _ => 1) (rowsForOnePart ["w"])).Runs
      race.1 race.2 := System.runs_turns rfl
  exact ⟨run, by decide, (calls_of_shared_ledger _ _ _ run).1⟩

end Payout.Settlement
