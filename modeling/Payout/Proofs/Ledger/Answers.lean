import Payout.Ledger.Store
import Payout.Proofs.Ledger.Rows
import Payout.Proofs.Program.Paths

/-!
# Answers of a store

What a store answers to a request and which tables it holds then. In memory a request is performed
or refused at once (`Tables.reply`). A first row of an id is taken up if it is free and refused if
not, and an outcome is written to it if it is in progress. Users, and assets up to where they are,
stay what they are (`Tables.Keeps`). Asked one request after another, a ledger in memory grants a
row once (`Alone.granted_le_one`).
-/

namespace Payout.Ledger

/-- The answer to a request, and the tables after it; a refusal leaves them as they are. -/
def Tables.reply (now : Instant) (t : Tables) (r : Request) : Except LedgerError r.Value × Tables :=
  match perform now r t with
  | .ok (v, t') => (.ok v, t')
  | .error e => (.error e, t)

namespace Tables

variable {t t' t'' : Tables} {k : Kind} {id : String} {now : Instant}

/-- Tables with the users of others, and with their assets up to where these are. -/
structure Keeps (t t' : Tables) : Prop where
  users : t'.users = t.users
  assets : t'.assets.map Asset.released = t.assets.map Asset.released

/-- Tables keep what they hold. -/
lemma Keeps.refl (t : Tables) : t.Keeps t := ⟨rfl, rfl⟩

/-- What is kept twice over is kept from the first tables to the last. -/
lemma Keeps.trans (h : t.Keeps t') (h' : t'.Keeps t'') : t.Keeps t'' :=
  ⟨h'.users.trans h.users, h'.assets.trans h.assets⟩

/-- The record of an asset is that of before, up to where the asset is. -/
lemma Keeps.asset? (h : t.Keeps t') (c : AssetClass) (n : UInt64) :
    (t'.asset? c n).map Asset.released = (t.asset? c n).map Asset.released := by
  have found (u : Tables) :
      (u.asset? c n).map Asset.released = (u.assets.map Asset.released).find? (·.isFor c n) := by
    rw [List.find?_map]
    rfl
  rw [found, found, h.assets]

/-- Changing a row of withdrawals leaves users and assets alone. -/
lemma keeps_modifyRow {f : Withdrawal k.Order → Withdrawal k.Order} :
    t.Keeps (t.modifyRow k id f) := by
  cases k <;> exact ⟨rfl, rfl⟩

/-- An asset that is recorded is answered as it is, and reading it changes nothing. -/
lemma reply_asset {a} {c : AssetClass} {n : UInt64} (recorded : t.asset? c n = some a) :
    t.reply now (.asset c n) = (.ok a, t) := by
  simp only [reply, perform, recorded]

/-- A claim of a row that was taken up before is denied, and changes nothing. -/
lemma reply_claim_of_taken {row} (first : t.row? k id = some row)
    (taken : row.state ≠ .unprocessed) :
    t.reply now (.claim k id) = (.ok false, t) := by
  simp only [reply, perform, claim, first, if_neg taken]

/-- A claim of a free row is granted, and the row is in progress then. -/
lemma reply_claim_of_free {row} (first : t.row? k id = some row) (free : row.state = .unprocessed) :
    t.reply now (.claim k id) = (.ok true, t.modifyRow k id (·.claimed now)) := by
  simp only [reply, perform, claim, first, if_pos free]
  rfl

/-- An outcome is written to a row that is in progress. -/
lemma reply_update {row o} (first : t.row? k id = some row) (open_ : row.state = .inProgress) :
    t.reply now (.update k id o) = (.ok (), t.modifyRow k id (·.updated now o)) := by
  simp only [reply, perform, update, first, if_pos open_]
  rfl

/-- A row that is not in progress refuses an outcome by naming both states, and keeps what it
has. -/
lemma reply_update_of_closed {row o} (first : t.row? k id = some row)
    (closed : row.state ≠ .inProgress) :
    t.reply now (.update k id o) = (.error (.invalidTransition id row.state o.state), t) := by
  simp only [reply, perform, update, first, if_neg closed]
  rfl

/-- Where there is no record, nothing is put back. -/
lemma reply_release_eq (now : Instant) (t : Tables) (c : AssetClass) (n : UInt64) :
    (t.reply now (.release c n)).2 =
      { t with assets := modifyFirst (·.isFor c n) Asset.released t.assets } := by
  cases recorded : t.asset? c n with
  | none =>
    rw [modifyFirst_of_find?_none recorded]
    simp only [reply, perform, release, recorded]
    rfl
  | some a =>
    simp only [reply, perform, release, recorded]
    rfl

/-- Putting an asset back touches nothing but where the asset is. -/
lemma reply_release (now : Instant) (t : Tables) (c : AssetClass) (n : UInt64) :
    t.Keeps (t.reply now (.release c n)).2 ∧
      ∀ k, (t.reply now (.release c n)).2.rows k = t.rows k := by
  rw [reply_release_eq]
  exact ⟨⟨rfl, map_modifyFirst (f := Asset.released) (fun _ => rfl) _⟩, fun k => by cases k <;> rfl⟩

/-- A request that is answered does to the tables one of the things that an exchange may do. -/
lemma turn_of_reply {r a} (reply : t.reply now r = (a, t')) : Turn now t ⟨r, a⟩ t' := by
  unfold Tables.reply at reply
  cases performed : perform now r t with
  | error e =>
    rw [performed] at reply
    cases reply
    exact .kept
  | ok result =>
    rw [performed] at reply
    cases reply
    exact turn_of_perform performed

end Tables

namespace Store

/-- A ledger in memory answers as its tables do. -/
lemma answer_memory_eq (now : Instant) (t : Tables) (r : Request) :
    answer now ⟨.memory, t⟩ r = pure ((t.reply now r).1, ⟨.memory, (t.reply now r).2⟩) := by
  unfold answer Tables.reply
  cases performed : Tables.perform now r t with
  | error e => cases r.writes <;> rfl
  | ok result => cases r.writes <;> rfl

/-- In memory a request is performed, or refused without effect. -/
lemma answer_memory {s s' : Store} {now r a} (memory : s.backend = .memory)
    (h : s.answer now r = pure (a, s')) :
    (∃ v t, Tables.perform now r s.tables = .ok (v, t) ∧ a = .ok v ∧ s' = { s with tables := t }) ∨
      ∃ e, a = .error e ∧ s' = s := by
  obtain ⟨backend, tables⟩ := s
  cases memory
  unfold answer at h
  cases performed : Tables.perform now r tables with
  | error e =>
    rw [performed] at h
    cases h
    exact .inr ⟨e, rfl, rfl⟩
  | ok result =>
    obtain ⟨v, t⟩ := result
    rw [performed] at h
    cases writes : r.writes <;> rw [writes] at h <;> cases h <;> exact .inl ⟨v, t, rfl, rfl, rfl⟩

/-- A request that can be performed is answered by a store in memory with what it comes to. -/
lemma answer_of_perform {s : Store} {now r v t} (memory : s.backend = .memory)
    (performed : Tables.perform now r s.tables = .ok (v, t)) :
    s.answer now r = pure (.ok v, { s with tables := t }) := by
  obtain ⟨backend, tables⟩ := s
  cases memory
  unfold answer
  rw [performed]
  cases r.writes <;> rfl

end Store

/-- What a ledger in memory that starts with tables is asked and answers, and the tables it comes
to. -/
inductive Alone (t : Tables) : List (Exchange interface) → Tables → Prop where
  | nil :
    Alone t [] t
  | snoc {es t' now r a t''} :
    Alone t es t' →
    t'.reply now r = (a, t'') →
    Alone t (es ++ [⟨r, a⟩]) t''

/-- A claim that was granted. -/
def isGranted (k : Kind) (id : String) (e : Exchange interface) : Bool :=
  match e with
  | ⟨.claim k' id', .ok true⟩ => k' = k ∧ id' = id
  | _ => false

section Alone

variable {t t' t'' : Tables} {es fs : List (Exchange interface)} {k : Kind} {id : String}

/-- The exchange that grants a row is the claim of it that was answered with true. -/
lemma isGranted_iff {e : Exchange interface} :
    isGranted k id e = true ↔ e = ⟨.claim k id, .ok true⟩ := by
  constructor
  · intro h
    unfold isGranted at h
    split at h
    case h_1 =>
      simp only [decide_eq_true_eq] at h
      obtain ⟨rfl, rfl⟩ := h
      rfl
    case h_2 => cases h
  · rintro rfl
    simp [isGranted]

/-- What one answer does: it leaves the tables as they are, or it performs the request. -/
lemma reply_cases {now r a} (reply : t.reply now r = (a, t')) :
    ((∃ e, a = .error e) ∧ t' = t) ∨ ∃ v, a = .ok v ∧ Tables.perform now r t = .ok (v, t') := by
  unfold Tables.reply at reply
  cases performed : Tables.perform now r t with
  | error e =>
    rw [performed] at reply
    cases reply
    exact .inl ⟨⟨e, rfl⟩, rfl⟩
  | ok result =>
    rw [performed] at reply
    cases reply
    exact .inr ⟨_, rfl, rfl⟩

/-- A ledger that nobody else uses grants a row once, and has it taken up from then on, if no
outcome that it has written sets a row free. -/
lemma Alone.granted_le_one (alone : Alone t es t')
    (settles : ∀ e ∈ es, e.answer.isOk = true → e.request.Settles) :
    es.countP (isGranted k id) ≤ 1 ∧ (0 < es.countP (isGranted k id) → t'.Taken k id) := by
  induction alone with
  | nil => exact ⟨Nat.zero_le 1, fun some => absurd some (Nat.lt_irrefl 0)⟩
  | @snoc es t' now r a t'' _ reply ih =>
    obtain ⟨once, taken⟩ := ih fun e he => settles e (List.mem_append_left _ he)
    have settled : a.isOk = true → r.Settles :=
      settles ⟨r, a⟩ (List.mem_append_right _ List.mem_cons_self)
    rw [List.countP_append, List.countP_singleton]
    obtain ⟨⟨e, rfl⟩, rfl⟩ | ⟨v, rfl, performed⟩ := reply_cases reply
    · have notGranted : isGranted k id ⟨r, .error e⟩ = false := by
        rw [← Bool.not_eq_true, isGranted_iff]
        rintro ⟨⟩
      rw [notGranted]
      exact ⟨once, taken⟩
    · have later := Tables.later_perform (settled rfl) performed
      by_cases granted : isGranted k id ⟨r, .ok v⟩ = true
      · -- The row was free, so it had not been granted before.
        cases isGranted_iff.1 granted
        obtain ⟨row, before, free, after⟩ := Tables.perform_claim_true performed
        have never : es.countP (isGranted k id) = 0 := by
          by_contra some
          obtain ⟨row', before', taken'⟩ := taken (Nat.pos_of_ne_zero some)
          cases before.symm.trans before'
          exact taken' free
        rw [never]
        exact ⟨by simp [isGranted], fun _ => ⟨_, after, nofun⟩⟩
      · rw [if_neg granted]
        exact ⟨once, fun some => later.taken (taken some)⟩

/-- If no outcome sets rows free, a row is granted at most once, and one that was granted is
taken. -/
lemma Alone.granted_once (alone : Alone t es t') (settles : ∀ e ∈ es, e.request.Settles) :
    es.countP (isGranted k id) ≤ 1 ∧ (0 < es.countP (isGranted k id) → t'.Taken k id) :=
  alone.granted_le_one fun e he _ => settles e he

/-- The exchanges of a ledger come to tables from which the later ones go on. -/
lemma alone_append : Alone t (es ++ fs) t'' ↔ ∃ t', Alone t es t' ∧ Alone t' fs t'' := by
  constructor
  · intro h
    generalize all : es ++ fs = gs at h
    induction h generalizing fs with
    | nil =>
      obtain ⟨rfl, rfl⟩ := List.append_eq_nil_iff.1 all
      exact ⟨t, .nil, .nil⟩
    | snoc before reply ih =>
      obtain rfl | ⟨fs, e, rfl⟩ := fs.eq_nil_or_concat
      · rw [List.append_nil] at all
        subst all
        exact ⟨_, .snoc before reply, .nil⟩
      · rw [List.concat_eq_append, ← List.append_assoc] at all
        obtain ⟨rfl, last⟩ := List.append_inj' all rfl
        cases last
        obtain ⟨t', first, second⟩ := ih rfl
        exact ⟨t', first, fs.concat_eq_append ▸ .snoc second reply⟩
  · rintro ⟨t', first, second⟩
    induction second with
    | nil => simpa using first
    | snoc _ reply ih =>
      rw [← List.append_assoc]
      exact .snoc ih reply

/-- The last exchange of a ledger is a reply of the tables that those before it came to. -/
lemma alone_snoc {e} (h : Alone t (es ++ [e]) t'') :
    ∃ t' now, Alone t es t' ∧ t'.reply now e.request = (e.answer, t'') := by
  generalize all : es ++ [e] = gs at h
  cases h with
  | nil => cases List.append_ne_nil_of_right_ne_nil es (List.cons_ne_nil e []) all
  | snoc before reply =>
    obtain ⟨rfl, last⟩ := List.append_inj' all rfl
    cases last
    exact ⟨_, _, before, reply⟩

end Alone

/-- Tables with one row that is free. -/
def oneRow : Tables := ⟨[.new "w" ⟨.part, 7⟩], [], [], []⟩

/-- Some midnight. -/
def midnight : Instant :=
  ⟨⟨2000, 1, 1, by decide, by decide, by decide⟩, 0, 0, 0, 0, by decide, by decide,
    by decide, by decide⟩

end Payout.Ledger
