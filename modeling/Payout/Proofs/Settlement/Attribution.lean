import Payout.Proofs.Settlement.Conduct

/-!
# Attribution

Whom an exchange is made for. A claim takes a row up and a list puts it down, and everything that is
asked in between is asked for that row (`attributed`). The exchanges of a row (`onBehalf`) and the
rows for which calls are made (`callers`) are read off from that, tenure by tenure.
-/

namespace Payout.Settlement
open Program

/-- The row that is in hand after a request: a claim takes a row up, and a list puts it down. -/
def Request.hand (h : Option (Kind × String)) : Request → Option (Kind × String)
  | .ledger (.claim k id) => some (k, id)
  | .ledger (.unprocessed _) => none
  | _ => h

/-- Every exchange with the row that it is made for, after one that was in hand before. -/
def attributed (h : Option (Kind × String)) :
    Trace → List (Option (Kind × String) × Exchange interface)
  | [] => []
  | e :: es => (e.request.hand h, e) :: attributed (e.request.hand h) es

/-- The exchanges that are made for a row, after one that was in hand before. -/
def heldFrom (h : Option (Kind × String)) (k : Kind) (id : String) (es : Trace) : Trace :=
  ((attributed h es).filter (·.1 = some (k, id))).map Prod.snd

/-- The exchanges that are made for a row. -/
def onBehalf (k : Kind) (id : String) (es : Trace) : Trace := heldFrom none k id es

/-- The rows for which calls are made, in the order of the calls, after one that was in hand
before. -/
def callersFrom (h : Option (Kind × String)) (es : Trace) : List (Option (Kind × String)) :=
  ((attributed h es).filter (·.2.request.isCall)).map Prod.fst

/-- The rows for which calls are made, in the order of the calls. -/
def callers (es : Trace) : List (Option (Kind × String)) := callersFrom none es

/-- The row in hand after exchanges. -/
def handAfter (h : Option (Kind × String)) (es : Trace) : Option (Kind × String) :=
  es.foldl (fun h e => e.request.hand h) h

/-- Exchanges that take no row up and put none down. -/
def KeepsHand (es : Trace) : Prop := ∀ e ∈ es, ∀ h, e.request.hand h = h

/-- A tenure of a row: the claim for it, and what follows before another row is taken up. -/
inductive Tenure (k : Kind) (id : String) : Trace → Prop where
  | intro {a es} :
    KeepsHand es →
    Tenure k id (⟨.ledger (.claim k id), a⟩ :: es)

section Attribution

variable {h : Option (Kind × String)} {k k' : Kind} {id id' : String} {es fs : Trace}

/-- Later exchanges are made for the row that is in hand after the earlier ones. -/
lemma attributed_append :
    attributed h (es ++ fs) = attributed h es ++ attributed (handAfter h es) fs := by
  induction es generalizing h with
  | nil => rfl
  | cons e es ih => simp [attributed, handAfter, ih]

/-- The exchanges of a row are those among the earlier ones and those among the later ones. -/
lemma heldFrom_append :
    heldFrom h k id (es ++ fs) = heldFrom h k id es ++ heldFrom (handAfter h es) k id fs := by
  simp [heldFrom, attributed_append]

/-- The rows with calls are those among the earlier exchanges and those among the later ones. -/
lemma callersFrom_append :
    callersFrom h (es ++ fs) = callersFrom h es ++ callersFrom (handAfter h es) fs := by
  simp [callersFrom, attributed_append]

/-- Exchanges that move no row keep the hand one after another. -/
lemma KeepsHand.append (first : KeepsHand es) (second : KeepsHand fs) : KeepsHand (es ++ fs) :=
  List.forall_mem_append.2 ⟨first, second⟩

/-- Reports take no row up and put none down. -/
lemma Notes.keepsHand (notes : Notes es) : KeepsHand es := by
  intro e he h
  obtain ⟨m, note⟩ := notes e he
  rw [note]
  rfl

/-- Where no row is taken up, everything is for the one in hand. -/
lemma KeepsHand.attributed (keeps : KeepsHand es) : attributed h es = es.map (h, ·) := by
  induction es with
  | nil => rfl
  | cons e es ih =>
    have same := keeps e List.mem_cons_self h
    have rest := ih fun e he => keeps e (List.mem_cons_of_mem _ he)
    rw [Settlement.attributed, same, rest, List.map_cons]

/-- Where no row is moved, the hand is the same at the end. -/
lemma KeepsHand.handAfter (keeps : KeepsHand es) : handAfter h es = h := by
  induction es with
  | nil => rfl
  | cons e es ih =>
    unfold Settlement.handAfter
    rw [List.foldl_cons, keeps e List.mem_cons_self h]
    exact ih fun e he => keeps e (List.mem_cons_of_mem _ he)

/-- All exchanges of a tenure are made for its row. -/
lemma Tenure.attributed (tenure : Tenure k id es) : attributed h es = es.map (some (k, id), ·) := by
  cases tenure with
  | intro keeps =>
    rw [Settlement.attributed, List.map_cons]
    exact congrArg _ keeps.attributed

/-- A row holds all exchanges of its own tenure. -/
lemma Tenure.heldFrom_self (tenure : Tenure k id es) : heldFrom h k id es = es := by
  simp [heldFrom, tenure.attributed, List.filter_map, Function.comp_def]

/-- A row holds none of the exchanges of another's tenure. -/
lemma Tenure.heldFrom_of_ne (tenure : Tenure k' id' es) (other : ¬ (k' = k ∧ id' = id)) :
    heldFrom h k id es = [] := by
  simp [heldFrom, tenure.attributed, List.filter_map, Function.comp_def, other]

/-- All calls of a tenure are made for its row. -/
lemma Tenure.callersFrom (tenure : Tenure k id es) :
    callersFrom h es = (es.filter (·.request.isCall)).map fun _ => some (k, id) := by
  simp [Settlement.callersFrom, tenure.attributed, List.filter_map, Function.comp_def]

/-- A list and the reports after it are made for no row. -/
lemma attributed_list {a : Except LedgerError (List (Withdrawal k.Order))} (keeps : KeepsHand es) :
    attributed h (⟨.ledger (.unprocessed k), a⟩ :: es) =
      (⟨.ledger (.unprocessed k), a⟩ :: es).map (none, ·) := by
  rw [attributed, List.map_cons]
  exact congrArg _ keeps.attributed

/-- After a list no row is in hand. -/
lemma handAfter_list {a : Except LedgerError (List (Withdrawal k.Order))} (keeps : KeepsHand es) :
    handAfter h (⟨.ledger (.unprocessed k), a⟩ :: es) = none :=
  keeps.handAfter

/-- No row holds a list or the reports after it. -/
lemma heldFrom_list {a : Except LedgerError (List (Withdrawal k'.Order))} (keeps : KeepsHand es) :
    heldFrom h k id (⟨.ledger (.unprocessed k'), a⟩ :: es) = [] := by
  simp [heldFrom, attributed_list keeps, List.filter_map, Function.comp_def]

/-- Without their rows the exchanges are the trace again. -/
lemma map_snd_attributed (h : Option (Kind × String)) (es : Trace) :
    (attributed h es).map Prod.snd = es := by
  induction es generalizing h with
  | nil => rfl
  | cons e es ih => simp [attributed, ih]

/-- What is done for a row is done. -/
lemma mem_of_mem_heldFrom {e} (mem : e ∈ heldFrom h k id es) : e ∈ es := by
  obtain ⟨x, hx, rfl⟩ := List.mem_map.1 mem
  rw [← map_snd_attributed h es]
  exact List.mem_map_of_mem (List.mem_filter.1 hx).1

/-- A claim is made for the row that it takes up. -/
lemma claim_mem_heldFrom {a : Except LedgerError Bool} (mem : ⟨.ledger (.claim k id), a⟩ ∈ es) :
    ⟨.ledger (.claim k id), a⟩ ∈ heldFrom h k id es := by
  induction es generalizing h with
  | nil => cases mem
  | cons e es ih =>
    obtain rfl | mem := List.mem_cons.1 mem
    · simp [heldFrom, attributed, Request.hand]
    · have later := ih (h := e.request.hand h) mem
      unfold heldFrom at later ⊢
      rw [attributed, List.filter_cons]
      split
      · exact List.mem_cons_of_mem _ later
      · exact later

/-- A tenure takes no row up but its own. -/
lemma Tenure.eq_of_claim {a : Except LedgerError Bool} (tenure : Tenure k id es)
    (mem : ⟨.ledger (.claim k' id'), a⟩ ∈ es) : k' = k ∧ id' = id := by
  cases tenure with
  | intro keeps =>
    obtain own | mem := List.mem_cons.1 mem
    · cases own
      exact ⟨rfl, rfl⟩
    · cases keeps _ mem none

end Attribution

end Payout.Settlement
