import Payout.Proofs.Settlement.Evidence

/-!
# Tenures

The parts of a pass. Whatever the ledger and the chain answer, a pass lists a table and then has the
rows listed in hand one after another (`Worked`), and does so for one table after the other
(`Parted`). Everything that is for a row lies in its own part: the rest of the trace takes no such
row up, writes to none and is attributed to none (`Foreign`). What came of a row can be read off
from that part (`resultIn`).
-/

namespace Payout.Settlement
open Program Ledger
open CurrencyPayout (outcomeOf)

/-- The row that a request takes up or writes to. -/
def Request.row? : Request → Option (Kind × String)
  | .ledger (.claim k id) => some (k, id)
  | .ledger (.update k id _) => some (k, id)
  | _ => none

/-- Rows in hand one after another, with what came of each. -/
inductive Worked (s : Settler) (k : Kind) :
    List (Withdrawal k.Order) → Trace → List RowResult → Prop where
  | nil :
    Worked s k [] [] []
  | cons {row rows es r fs rs} :
    RowShape s k row es r →
    Worked s k rows fs rs →
    Worked s k (row :: rows) (es ++ fs) (r :: rs)

/-- The parts of a pass: a list and the rows listed, for the assets and then for the currencies,
unless a list fails. -/
inductive Parted (s : Settler) : Trace → Except SettlementError Summary → Prop where
  | unlisted {e} :
    Parted s [⟨.ledger (.unprocessed .asset), .error e⟩] (.error (.ledger e))
  | halfway {rows ns es rs e} :
    Notes ns →
    Worked s .asset rows es rs →
    Parted s
      (⟨.ledger (.unprocessed .asset), .ok rows⟩ :: ns ++ es ++
        [⟨.ledger (.unprocessed .currency), .error e⟩])
      (.error (.ledger e))
  | whole {rows ns es rs rows' ns' es' rs'} :
    Notes ns →
    Worked s .asset rows es rs →
    Notes ns' →
    Worked s .currency rows' es' rs' →
    Parted s
      (⟨.ledger (.unprocessed .asset), .ok rows⟩ :: ns ++ es ++
        (⟨.ledger (.unprocessed .currency), .ok rows'⟩ :: ns' ++ es'))
      (.ok ((rs ++ rs').foldl Summary.record .zero))

/-- Exchanges with nothing for a row. -/
structure Foreign (k : Kind) (id : String) (es : Trace) : Prop where
  heldFrom_eq : ∀ h, heldFrom h k id es = []
  row?_ne : ∀ e ∈ es, e.request.row? ≠ some (k, id)

/-- What a pass does for a table: nothing, or it lists rows and has them in hand one after
another. -/
inductive Toured (s : Settler) (k : Kind) : Trace → Prop where
  | unlisted {trace} :
    (∀ id, Foreign k id trace) →
    Toured s k trace
  | listed {pre rows ns es rs post} :
    (∀ id, Foreign k id pre) →
    Notes ns →
    Worked s k rows es rs →
    (∀ id, Foreign k id post) →
    Toured s k (pre ++ (⟨.ledger (.unprocessed k), .ok rows⟩ :: ns) ++ es ++ post)

/-- Whether a transaction was waited for that is through. -/
def isThrough (es : Trace) : Bool :=
  (awaited es).any fun
    | (_, .ok receipt) => receipt.success
    | _ => false

/-- Whether an outcome was written. -/
def isWritten (es : Trace) : Bool :=
  es.any fun
    | ⟨.ledger (.update _ _ _), .ok _⟩ => true
    | _ => false

/-- What came of a row, by the exchanges for it. -/
def resultIn (k : Kind) (id : String) (own : Trace) : RowResult :=
  if own.any (isGrant k id) then
    if isThrough own && isWritten own then .submitted else .failed
  else .skipped

section Splits

variable {α : Type} {xs ys before after : List α} {a : α}

/-- What does not occur in a first part occurs behind it. -/
lemma exists_of_not_mem_left (split : before ++ a :: after = xs ++ ys) (other : a ∉ xs) :
    ∃ pre, before = xs ++ pre ∧ pre ++ a :: after = ys := by
  obtain ⟨more, same, last⟩ | ⟨more, same, last⟩ := List.append_eq_append_iff.1 split
  · cases more with
    | nil => exact ⟨[], by simpa using same.symm, last⟩
    | cons _ _ =>
      obtain ⟨rfl, -⟩ := List.cons.inj last
      exact absurd (same ▸ List.mem_append_right before List.mem_cons_self) other
  · exact ⟨more, same, last.symm⟩

/-- What does not occur in a last part occurs before it. -/
lemma exists_of_not_mem_right (split : before ++ a :: after = xs ++ ys) (other : a ∉ ys) :
    ∃ post, after = post ++ ys ∧ before ++ a :: post = xs := by
  obtain ⟨more, same, last⟩ | ⟨more, same, last⟩ := List.append_eq_append_iff.1 split
  · cases more with
    | nil =>
      rw [List.nil_append] at last
      exact absurd (last ▸ List.mem_cons_self) other
    | cons _ post =>
      obtain ⟨rfl, rfl⟩ := List.cons.inj last
      exact ⟨post, rfl, same.symm⟩
  · exact absurd (last ▸ List.mem_append_right more List.mem_cons_self) other

end Splits

section Rows

variable {s : Settler} {k k' : Kind} {row : Withdrawal k.Order} {id : String}
  {es fs : Trace} {r : RowResult}

/-- Looking names no row. -/
lemma Looks.row?_eq (h : Looks es) : ∀ e ∈ es, e.request.row? = none := by
  intro e he
  have looks := h e he
  cases asked : e.request with
  | ledger q => cases q <;> rw [asked] at looks <;> first | rfl | cases looks
  | _ => rfl

/-- What follows an outcome names no row. -/
lemma Trailing.row?_eq (h : Trailing es) : ∀ e ∈ es, e.request.row? = none := by
  intro e he
  obtain ⟨m, note⟩ | pause | ⟨c, n, release⟩ := h e he
  · rw [note]
    rfl
  · rw [pause]
    rfl
  · rw [release]
    rfl

/-- All that is asked while a row is in hand concerns no other row. -/
lemma RowShape.row?_eq (h : RowShape s k row es r) :
    ∀ e ∈ es, e.request.row? = none ∨ e.request.row? = some (k, row.id) := by
  intro e he
  cases h with
  | unclaimed notes =>
    obtain rfl | he := List.mem_cons.1 he
    · exact .inr rfl
    · exact .inl (notes.looks.row?_eq e he)
  | refused =>
    cases List.mem_singleton.1 he
    exact .inr rfl
  | settled verdict notes trailing =>
    obtain rfl | he := List.mem_cons.1 he
    · exact .inr rfl
    obtain he | he := List.mem_append.1 he
    · exact .inl ((verdict.looks.append notes.looks).row?_eq e he)
    obtain rfl | he := List.mem_cons.1 he
    · exact .inr rfl
    · exact .inl (trailing.row?_eq e he)

/-- Processing a row is one tenure of it. -/
lemma RowShape.tenure (h : RowShape s k row es r) : Tenure k row.id es := by
  cases h with
  | unclaimed notes => exact .intro notes.keepsHand
  | refused => exact tenure_refusal
  | settled verdict notes trailing => exact .intro (keepsHand_settled verdict.looks notes trailing)

/-- What a transaction came to is shown by the waits. -/
lemma Shows.any_eq {o : k.Order} {calls waits v} (h : Shows s k o calls waits v) :
    (waits.any fun
      | (_, .ok receipt) => receipt.success
      | _ => false) = v.isOk := by
  cases h with
  | unsent => rfl
  | unconfirmed => rfl
  | reverted _ failure => simp [failure, Except.isOk, Except.toBool]
  | confirmed _ success => simp [success, Except.isOk, Except.toBool]

/-- Exchanges that name no row write no outcome. -/
lemma isWritten_eq_false (none : ∀ e ∈ es, e.request.row? = none) : isWritten es = false := by
  refine List.any_eq_false.2 fun e he written => ?_
  split at written
  case h_1 => cases none _ he
  case h_2 => cases written

section Settled

variable {o : k.Order} {ns rest : Trace} {v : Except SettlementError Confirmed}
  {a : Except LedgerError Unit}

/-- Of a row that was granted the transaction is through if the verdict says so. -/
lemma isThrough_settled {out : Outcome} (verdict : Verdict s k o es v) (notes : Notes ns)
    (trailing : Trailing rest) :
    isThrough (⟨.ledger (.claim k id), .ok true⟩ ::
      (es ++ ns ++ ⟨.ledger (.update k id out), a⟩ :: rest)) = v.isOk := by
  have claimed : Apart [⟨.ledger (.claim k id), .ok true⟩] := apart_ledger apart_nil
  have written : Apart (⟨.ledger (.update k id out), a⟩ :: rest) := apart_ledger trailing.apart
  unfold isThrough
  rw [← List.singleton_append, awaited_append, awaited_append, awaited_append, claimed.offChain.2,
    notes.apart.offChain.2, written.offChain.2, List.append_nil, List.append_nil, List.nil_append]
  exact verdict.shows.any_eq

/-- The outcome of a settled row is written if the ledger has taken it. -/
lemma isWritten_settled {out : Outcome} (looks : Looks es) (notes : Notes ns)
    (trailing : Trailing rest) :
    isWritten (⟨.ledger (.claim k id), .ok true⟩ ::
      (es ++ ns ++ ⟨.ledger (.update k id out), a⟩ :: rest)) = a.isOk := by
  have before := isWritten_eq_false (looks.append notes.looks).row?_eq
  have after := isWritten_eq_false trailing.row?_eq
  unfold isWritten at before after ⊢
  rw [List.any_cons, List.any_append, List.any_cons, before, after]
  cases a <;> rfl

end Settled

/-- What comes of a row is what its exchanges show. -/
lemma RowShape.result_eq (h : RowShape s k row es r) : r = resultIn k row.id es := by
  cases h with
  | @unclaimed e ns notes =>
    have none :
        (⟨.ledger (.claim k row.id), .error e⟩ :: ns : Trace).any (isGrant k row.id) = false := by
      refine List.any_eq_false.2 fun e he granted => ?_
      cases isGrant_iff.1 granted
      obtain ⟨⟨⟩⟩ | he := List.mem_cons.1 he
      obtain ⟨m, ⟨⟩⟩ := notes _ he
    rw [resultIn, none]
    rfl
  | refused => simp [resultIn, isGrant]
  | @settled es v ns a rest verdict notes trailing =>
    have granted : isGrant k row.id ⟨.ledger (.claim k row.id), .ok true⟩ = true :=
      isGrant_iff.2 rfl
    rw [resultIn, List.any_cons, granted, Bool.true_or, if_pos rfl,
      isThrough_settled verdict notes trailing, isWritten_settled verdict.looks notes trailing]
    cases v <;> cases a <;> rfl

/-- A tenure starts with its claim and has no other. -/
lemma Tenure.eq_nil_of_claim {own own' : Trace} {a : Except LedgerError Bool}
    (h : Tenure k id (own ++ ⟨.ledger (.claim k id), a⟩ :: own')) : own = [] := by
  generalize whole : own ++ ⟨.ledger (.claim k id), a⟩ :: own' = es at h
  cases h with
  | intro keeps =>
    cases own with
    | nil => rfl
    | cons e own =>
      obtain ⟨-, rfl⟩ := List.cons.inj whole
      cases keeps _ (List.mem_append_right own List.mem_cons_self) none

/-- A row that is granted comes to a verdict, which is written to it. -/
lemma RowShape.exists_of_granted {own own' : Trace}
    (h : RowShape s k row (own ++ ⟨.ledger (.claim k row.id), .ok true⟩ :: own') r) :
    own = [] ∧ ∃ fs v ns a rest, own' =
      fs ++ ns ++ ⟨.ledger (.update k row.id (outcomeOf v)), a⟩ :: rest ∧
      Verdict s k row.order fs v ∧ Notes ns := by
  obtain rfl := h.tenure.eq_nil_of_claim
  refine ⟨rfl, ?_⟩
  rw [List.nil_append] at h
  cases h with
  | settled verdict notes => exact ⟨_, _, _, _, _, rfl, verdict, notes⟩

/-- Exchanges with nothing for a row have nothing for it one after another. -/
lemma Foreign.append (h : Foreign k id es) (h' : Foreign k id fs) : Foreign k id (es ++ fs) where
  heldFrom_eq hand := by rw [heldFrom_append, h.heldFrom_eq, h'.heldFrom_eq, List.append_nil]
  row?_ne := List.forall_mem_append.2 ⟨h.row?_ne, h'.row?_ne⟩

/-- An empty trace has nothing for any row. -/
lemma foreign_nil : Foreign k id [] := ⟨fun _ => rfl, fun _ he => absurd he List.not_mem_nil⟩

/-- A list and the reports after it have nothing for any row. -/
lemma foreign_list {a : Except LedgerError (List (Withdrawal k'.Order))} (notes : Notes es) :
    Foreign k id (⟨.ledger (.unprocessed k'), a⟩ :: es) where
  heldFrom_eq _ := heldFrom_list notes.keepsHand
  row?_ne := by
    refine List.forall_mem_cons.2 ⟨nofun, fun e he => ?_⟩
    rw [notes.looks.row?_eq e he]
    exact nofun

/-- Processing a row has nothing for any other. -/
lemma RowShape.foreign (h : RowShape s k row es r) (other : ¬ (k = k' ∧ row.id = id)) :
    Foreign k' id es where
  heldFrom_eq _ := h.tenure.heldFrom_of_ne other
  row?_ne e he same := by
    obtain none | own := h.row?_eq e he
    · cases none.symm.trans same
    · cases own.symm.trans same
      exact other ⟨rfl, rfl⟩

end Rows

section Parts

variable {s : Settler} {k k' : Kind} {rows : List (Withdrawal k.Order)} {row : Withdrawal k.Order}
  {id : String} {es trace : Trace} {rs : List RowResult} {known known' : KnownDecimals}

/-- Rows that are processed in turn are in hand one after another. -/
lemma RowsCourse.worked (h : RowsCourse s k rows known es rs known') : Worked s k rows es rs := by
  induction h with
  | nil => exact .nil
  | cons row _ ih => exact .cons row.shape ih

/-- Every course of a pass falls into its parts. -/
lemma PollCourse.parted {r} (h : PollCourse s known trace r known') : Parted s trace r := by
  cases h with
  | stopped table =>
    cases table with
    | unlisted => exact .unlisted
  | passed table table' =>
    cases table with
    | listed notes course =>
      cases table' with
      | unlisted => exact .halfway notes course.worked
      | listed notes' course' =>
        rw [← List.foldl_append]
        exact .whole notes course.worked notes' course'.worked

/-- Rows that are in hand have nothing to do with a row of another id or table. -/
lemma Worked.foreign (h : Worked s k rows es rs) (other : ¬ (k = k' ∧ id ∈ rows.map (·.id))) :
    Foreign k' id es := by
  induction h with
  | nil => exact foreign_nil
  | @cons row rows es r fs rs shape _ ih =>
    have notThis : ¬ (k = k' ∧ row.id = id) := fun ⟨kind, named⟩ => other ⟨kind, by simp [named]⟩
    have notRest : ¬ (k = k' ∧ id ∈ rows.map (·.id)) :=
      fun ⟨kind, mem⟩ => other ⟨kind, List.mem_cons_of_mem _ mem⟩
    exact (shape.foreign notThis).append (ih notRest)

/-- With distinct ids all that is for a row is done in one part. -/
lemma Worked.split (h : Worked s k rows es rs) (distinct : (rows.map (·.id)).Nodup)
    (mem : row ∈ rows) :
    ∃ pre own post r, es = pre ++ own ++ post ∧ Foreign k row.id pre ∧ RowShape s k row own r ∧
      Foreign k row.id post := by
  induction h with
  | nil => cases mem
  | @cons w rows es r fs rs shape worked ih =>
    obtain ⟨new, distinct⟩ := List.nodup_cons.1 distinct
    obtain rfl | mem := List.mem_cons.1 mem
    · exact ⟨[], es, fs, r, rfl, foreign_nil, shape, worked.foreign fun both => new both.2⟩
    · obtain ⟨pre, own, post, r', rfl, before, shape', after⟩ := ih distinct mem
      have other : w.id ≠ row.id := fun same => new (List.mem_map.2 ⟨row, mem, same.symm⟩)
      exact ⟨es ++ pre, own, post, r', by simp,
        (shape.foreign fun both => other both.2).append before, shape', after⟩

/-- What came of each row is what the exchanges for it show. -/
lemma Worked.results_eq (h : Worked s k rows es rs) (distinct : (rows.map (·.id)).Nodup)
    (hand : Option (Kind × String)) :
    rs = rows.map fun w => resultIn k w.id (heldFrom hand k w.id es) := by
  induction h generalizing hand with
  | nil => rfl
  | @cons w rows es r fs rs shape worked ih =>
    obtain ⟨new, distinct⟩ := List.nodup_cons.1 distinct
    have after : heldFrom (handAfter hand es) k w.id fs = [] :=
      (worked.foreign fun both => new both.2).heldFrom_eq _
    rw [List.map_cons, heldFrom_append, shape.tenure.heldFrom_self, after, List.append_nil,
      ← shape.result_eq, ih distinct (handAfter hand es)]
    refine congrArg _ (List.map_congr_left fun v hv => ?_)
    have other : w.id ≠ v.id := fun same => new (List.mem_map.2 ⟨v, hv, same.symm⟩)
    rw [heldFrom_append, shape.tenure.heldFrom_of_ne fun both => other both.2, List.nil_append]

/-- Whatever is asked is asked while a row that was listed is in hand. -/
lemma Worked.exists_of_split {before after : Trace} {e}
    (h : Worked s k rows (before ++ e :: after) rs) :
    ∃ pre own own' post row r, before = pre ++ own ∧ after = own' ++ post ∧ row ∈ rows ∧
      RowShape s k row (own ++ e :: own') r := by
  generalize split : before ++ e :: after = es at h
  induction h generalizing before with
  | nil => simp at split
  | @cons w rows es r fs rs shape _ ih =>
    have later (pre : Trace) (rest : pre ++ e :: after = fs) (first : before = es ++ pre) :
        ∃ pre own own' post row r, before = pre ++ own ∧ after = own' ++ post ∧ row ∈ w :: rows ∧
          RowShape s k row (own ++ e :: own') r := by
      obtain ⟨pre', own, own', post, row, r', rfl, rfl, mem, shape'⟩ := ih rest
      exact ⟨es ++ pre', own, own', post, row, r', by simp [first], rfl,
        List.mem_cons_of_mem _ mem, shape'⟩
    obtain ⟨more, rest, last⟩ | ⟨more, first, rest⟩ := List.append_eq_append_iff.1 split
    · -- The exchange lies in the first part, or right behind it.
      cases more with
      | nil => exact later [] last (by simpa using rest.symm)
      | cons e' own' =>
        obtain ⟨rfl, rfl⟩ := List.cons.inj last
        exact ⟨[], before, own', fs, w, r, rfl, rfl, List.mem_cons_self, rest ▸ shape⟩
    · exact later more rest.symm first

/-- No list is made while a row is in hand. -/
lemma Tenure.not_mem_list {a : Except LedgerError (List (Withdrawal k'.Order))}
    (h : Tenure k id es) :
    ⟨.ledger (.unprocessed k'), a⟩ ∉ es := by
  intro mem
  cases h with
  | intro keeps =>
    obtain ⟨⟨⟩⟩ | mem := List.mem_cons.1 mem
    cases keeps _ mem (some (k, id))

/-- No list is made while rows are in hand one after another. -/
lemma Worked.not_mem_list (h : Worked s k rows es rs)
    {a : Except LedgerError (List (Withdrawal k'.Order))} :
    ⟨.ledger (.unprocessed k'), a⟩ ∉ es := by
  intro mem
  obtain ⟨before, after, rfl⟩ := List.append_of_mem mem
  obtain ⟨_, own, own', _, _, _, -, -, -, shape⟩ := h.exists_of_split
  exact shape.tenure.not_mem_list (List.mem_append_right own List.mem_cons_self)

/-- No list is among reports. -/
lemma Notes.not_mem_list (h : Notes es) {a : Except LedgerError (List (Withdrawal k.Order))} :
    ⟨.ledger (.unprocessed k), a⟩ ∉ es := by
  intro mem
  obtain ⟨m, ⟨⟩⟩ := h _ mem

/-- A row that is in hand was asked for. -/
lemma RowShape.asked {r : RowResult} (h : RowShape s k row es r) :
    ∃ a, ⟨.ledger (.claim k row.id), a⟩ ∈ es := by
  cases h <;> exact ⟨_, List.mem_cons_self⟩

/-- Each of the rows in hand was asked for. -/
lemma Worked.asked (h : Worked s k rows es rs) (mem : row ∈ rows) :
    ∃ a, ⟨.ledger (.claim k row.id), a⟩ ∈ es := by
  induction h with
  | nil => cases mem
  | cons shape _ ih =>
    obtain rfl | mem := List.mem_cons.1 mem
    · obtain ⟨a, asked⟩ := shape.asked
      exact ⟨a, List.mem_append_left _ asked⟩
    · obtain ⟨a, asked⟩ := ih mem
      exact ⟨a, List.mem_append_right _ asked⟩

/-- Where the rows listed are in hand next, all that was listed is asked for. -/
lemma Worked.asked_of_listed {rows' : List (Withdrawal k'.Order)} {row : Withdrawal k'.Order}
    {part ns : Trace} (h : Worked s k rows es rs) (notes : Notes ns)
    (split : part = ⟨.ledger (.unprocessed k), .ok rows⟩ :: ns ++ es)
    (listed : ⟨.ledger (.unprocessed k'), .ok rows'⟩ ∈ part) (mem : row ∈ rows') :
    ∃ a, ⟨.ledger (.claim k' row.id), a⟩ ∈ part := by
  subst split
  obtain listed | listed := List.mem_append.1 listed
  · obtain ⟨⟨⟩⟩ | listed := List.mem_cons.1 listed
    · exact (h.asked mem).imp fun _ => List.mem_append_right _
    · exact absurd listed notes.not_mem_list
  · exact absurd listed h.not_mem_list

/-- Every row that is listed in a pass is asked for in it. -/
lemma Parted.asked {result} {rows : List (Withdrawal k.Order)} (h : Parted s trace result)
    (listed : ⟨.ledger (.unprocessed k), .ok rows⟩ ∈ trace) :
    ∀ row ∈ rows, ∃ a, ⟨.ledger (.claim k row.id), a⟩ ∈ trace := by
  intro row mem
  cases h with
  | unlisted => cases List.mem_singleton.1 listed
  | halfway notes worked =>
    obtain listed | listed := List.mem_append.1 listed
    · exact (worked.asked_of_listed notes rfl listed mem).imp fun _ => List.mem_append_left _
    · cases List.mem_singleton.1 listed
  | whole notes worked notes' worked' =>
    obtain listed | listed := List.mem_append.1 listed
    · exact (worked.asked_of_listed notes rfl listed mem).imp fun _ => List.mem_append_left _
    · exact (worked'.asked_of_listed notes' rfl listed mem).imp fun _ => List.mem_append_right _

/-- What a pass does for one table. -/
lemma Parted.toured {result} (h : Parted s trace result) (k : Kind) : Toured s k trace := by
  cases h with
  | unlisted => exact .unlisted fun id => foreign_list notes_nil
  | @halfway rows ns es rs e notes worked =>
    cases k with
    | asset => exact .listed (fun _ => foreign_nil) notes worked fun id => foreign_list notes_nil
    | currency =>
      refine .unlisted fun id => ?_
      have others : Foreign .currency id es := worked.foreign nofun
      exact ((foreign_list notes).append others).append (foreign_list notes_nil)
  | @whole rows ns es rs rows' ns' es' rs' notes worked notes' worked' =>
    cases k with
    | asset =>
      refine .listed (fun _ => foreign_nil) notes worked fun id => ?_
      have others : Foreign .asset id es' := worked'.foreign nofun
      exact (foreign_list notes').append others
    | currency =>
      have before (id : String) :
          Foreign .currency id (⟨.ledger (.unprocessed .asset), .ok rows⟩ :: ns ++ es) :=
        (foreign_list notes).append (worked.foreign nofun)
      have toured := Toured.listed before notes' worked' fun id => foreign_nil
      rw [List.append_nil, List.append_assoc] at toured
      exact toured

/-- What takes up or writes to a row is done while a row that was listed is in hand. -/
lemma Toured.exists_of_split {before after : Trace} {e id} (h : Toured s k (before ++ e :: after))
    (asked : e.request.row? = some (k, id)) :
    ∃ pre own own' post rows row r, before = pre ++ own ∧ after = own' ++ post ∧
      ⟨.ledger (.unprocessed k), .ok rows⟩ ∈ pre ∧ row ∈ rows ∧ row.id = id ∧
      RowShape s k row (own ++ e :: own') r := by
  have notForeign {es : Trace} (foreign : Foreign k id es) : e ∉ es :=
    fun he => foreign.row?_ne e he asked
  generalize split : before ++ e :: after = trace at h
  cases h with
  | unlisted foreign =>
    rw [← split] at foreign
    exact absurd (List.mem_append_right before List.mem_cons_self) (notForeign (foreign id))
  | @listed first rows ns es rs last before' notes worked after' =>
    obtain ⟨post, rfl, split'⟩ := exists_of_not_mem_right split (notForeign (after' id))
    have notFirst := notForeign ((before' id).append (foreign_list (a := .ok rows) notes))
    obtain ⟨pre, rfl, rfl⟩ := exists_of_not_mem_left split' notFirst
    obtain ⟨pre', own, own', post', row, r, rfl, rfl, mem, shape⟩ := worked.exists_of_split
    obtain none | same := shape.row?_eq e (List.mem_append_right own List.mem_cons_self)
    · cases none.symm.trans asked
    · cases same.symm.trans asked
      exact ⟨first ++ (⟨.ledger (.unprocessed k), .ok rows⟩ :: ns) ++ pre', own, own',
        post' ++ last, rows, row, r, by simp, by simp, by simp, mem, rfl, shape⟩

end Parts

end Payout.Settlement
