import Mathlib.Data.List.Basic
import Payout.Ledger.Tables
import Payout.Proofs.Program.Paths

/-!
# Rows under requests

How the tables change. An exchange takes up a row, writes an outcome to one, puts an asset back, or
leaves the tables as they are (`Turn`). A row keeps its place, its id and its order whatever is
asked (`keys`), and a row that was taken up is never free again, as long as no outcome puts it back
(`Request.Settles`). Both facts together are the order `Later` on tables, which every request and
every added row climbs. A claim that brings back true finds its row unprocessed and leaves it in
progress.
-/

namespace Payout.Ledger

section modifyFirst

variable {α β : Type} {p q : α → Bool} {f : α → α}

/-- What a function keeps of every element, `modifyFirst` keeps of the list. -/
lemma map_modifyFirst {g : α → β} (h : ∀ a, g (f a) = g a) (l : List α) :
    (modifyFirst p f l).map g = l.map g := by
  induction l with
  | nil => rfl
  | cons a l ih =>
    simp only [modifyFirst]
    split
    · simp [h]
    · simp [ih]

/-- Changing the first match keeps the length. -/
lemma length_modifyFirst (l : List α) : (modifyFirst p f l).length = l.length := by
  induction l with
  | nil => rfl
  | cons a l ih => by_cases ha : p a <;> simp [modifyFirst, ha, ih]

/-- The first element is found again, modified. -/
lemma find?_modifyFirst_self (h : ∀ a, p (f a) = p a) (l : List α) :
    (modifyFirst p f l).find? p = (l.find? p).map f := by
  induction l with
  | nil => rfl
  | cons a l ih =>
    by_cases ha : p a
    · simp [modifyFirst, ha, h]
    · simp [modifyFirst, ha, ih]

/-- A search for other elements is not affected. -/
lemma find?_modifyFirst_of_disjoint (h : ∀ a, q (f a) = q a) (hpq : ∀ a, p a → ¬ q a)
    (l : List α) : (modifyFirst p f l).find? q = l.find? q := by
  induction l with
  | nil => rfl
  | cons a l ih =>
    by_cases ha : p a
    · simp [modifyFirst, ha, h, hpq a ha]
    · by_cases hq : q a <;> simp [modifyFirst, ha, hq, ih]

/-- Only the first element is modified. -/
lemma modifyFirst_append {a : α} {l l' : List α} (before : ∀ b ∈ l, p b = false) (ha : p a = true) :
    modifyFirst p f (l ++ a :: l') = l ++ f a :: l' := by
  induction l with
  | nil => simp [modifyFirst, ha]
  | cons b l ih =>
    simp [modifyFirst, before b List.mem_cons_self,
      ih fun b hb => before b (List.mem_cons_of_mem _ hb)]

/-- The first element stands after others that are not looked for. -/
lemma exists_modifyFirst {a : α} {l : List α} (first : l.find? p = some a) :
    ∃ front back, l = front ++ a :: back ∧ (∀ b ∈ front, p b = false) ∧
      ∀ f, modifyFirst p f l = front ++ f a :: back := by
  obtain ⟨ha, front, back, rfl, others⟩ := List.find?_eq_some_iff_append.1 first
  simp only [Bool.not_eq_eq_eq_not, Bool.not_true] at others
  exact ⟨front, back, rfl, others, fun f => modifyFirst_append others ha⟩

/-- To modify the first element twice is to modify it once. -/
lemma modifyFirst_modifyFirst {g : α → α} (h : ∀ a, p (f a) = p a) (l : List α) :
    modifyFirst p g (modifyFirst p f l) = modifyFirst p (g ∘ f) l := by
  induction l with
  | nil => rfl
  | cons a l ih =>
    by_cases ha : p a
    · simp [modifyFirst, ha, h]
    · simp [modifyFirst, ha, ih]

/-- The element that is modified is the one at the first place. -/
lemma getElem?_modifyFirst (l : List α) (i : Nat) :
    (modifyFirst p f l)[i]? = l[i]?.map fun a => if l.findIdx p = i then f a else a := by
  induction l generalizing i with
  | nil => rfl
  | cons a l ih =>
    by_cases ha : p a
    · cases i with
      | zero => simp [modifyFirst, ha, List.findIdx_cons]
      | succ i => simp [modifyFirst, ha, List.findIdx_cons]
    · cases i with
      | zero => simp [modifyFirst, ha, List.findIdx_cons]
      | succ i => simp [modifyFirst, ha, List.findIdx_cons, ih]

/-- The place of a first element stays where it is. -/
lemma findIdx_modifyFirst (h : ∀ a, q (f a) = q a) (l : List α) :
    (modifyFirst p f l).findIdx q = l.findIdx q := by
  have places (l : List α) : l.findIdx q = (l.map q).findIdx id := by
    rw [List.findIdx_map]
    rfl
  rw [places, map_modifyFirst h, ← places]

/-- Where nothing matches, nothing is changed. -/
lemma modifyFirst_of_find?_none {l : List α} (none : l.find? p = none) : modifyFirst p f l = l := by
  induction l with
  | nil => rfl
  | cons a l ih =>
    rw [List.find?_cons] at none
    split at none
    case h_1 => cases none
    case h_2 no => simp [modifyFirst, no, ih none]

end modifyFirst

namespace Tables

variable {t t' t'' : Tables} {k k' : Kind} {id id' : String} {now : Instant}

/-- A table that is replaced holds the new rows. -/
@[simp] lemma rows_setRows_self (t : Tables) (k : Kind) (rows : List (Withdrawal k.Order)) :
    (t.setRows k rows).rows k = rows := by
  cases k <;> rfl

/-- A table that is not replaced holds its own rows. -/
lemma rows_setRows_of_ne (h : k' ≠ k) (rows : List (Withdrawal k.Order)) :
    (t.setRows k rows).rows k' = t.rows k' := by
  cases k with
  | asset =>
    cases k' with
    | asset => exact absurd rfl h
    | currency => rfl
  | currency =>
    cases k' with
    | asset => rfl
    | currency => exact absurd rfl h

/-- The id and the order of every row, in table order. -/
def keys (t : Tables) (k : Kind) : List (String × k.Order) :=
  (t.rows k).map fun w => (w.id, w.order)

/-- The first row of an id has been taken up. -/
def Taken (t : Tables) (k : Kind) (id : String) : Prop :=
  ∃ row, t.row? k id = some row ∧ row.state ≠ .unprocessed

/-- The ids of a table are distinct. -/
def Distinct (t : Tables) (k : Kind) : Prop := ((t.rows k).map (·.id)).Nodup

/-- The row that is found under an id has that id. -/
lemma row?_eq_some_id {row} (h : t.row? k id = some row) : row.id = id := by
  have := List.find?_some h
  simpa using this

/-- The row that is found under an id is one of the table. -/
lemma mem_rows_of_row? {row} (h : t.row? k id = some row) : row ∈ t.rows k :=
  List.mem_of_find?_eq_some h

/-- With distinct ids a row is the first of its id. -/
lemma Distinct.row?_eq {row} (d : t.Distinct k) (h : row ∈ t.rows k) :
    t.row? k row.id = some row := by
  unfold Distinct at d
  unfold row?
  revert d h
  generalize t.rows k = rows
  induction rows with
  | nil => intro _ h; cases h
  | cons w rows ih =>
    intro d h
    simp only [List.map_cons, List.nodup_cons, List.mem_map, not_exists, not_and] at d
    cases h with
    | head => simp
    | tail _ h =>
      have ne : w.id ≠ row.id := fun e => d.1 row h e.symm
      simp only [List.find?_cons, ne, decide_false]
      exact ih d.2 h

section modifyRow

variable {f : Withdrawal k.Order → Withdrawal k.Order}

/-- The tables with the first row of an id modified. -/
def modifyRow (t : Tables) (k : Kind) (id : String)
    (f : Withdrawal k.Order → Withdrawal k.Order) : Tables :=
  t.setRows k (modifyFirst (·.id = id) f (t.rows k))

/-- The row under an id that was changed is found changed. -/
lemma row?_modifyRow_self (hf : ∀ w, (f w).id = w.id) :
    (t.modifyRow k id f).row? k id = (t.row? k id).map f := by
  unfold row? modifyRow
  rw [rows_setRows_self]
  exact find?_modifyFirst_self (fun w => by rw [hf]) _

/-- Under any other id, or in the other table, the row is found as it was. -/
lemma row?_modifyRow_of_ne (hf : ∀ w, (f w).id = w.id) (h : ¬ (k' = k ∧ id' = id)) :
    (t.modifyRow k id f).row? k' id' = t.row? k' id' := by
  unfold row? modifyRow
  by_cases hk : k' = k
  · subst hk
    rw [rows_setRows_self]
    refine find?_modifyFirst_of_disjoint (fun w => by rw [hf]) ?_ _
    intro w hw hw'
    simp only [decide_eq_true_eq] at hw hw'
    exact h ⟨rfl, hw'.symm.trans hw⟩
  · rw [rows_setRows_of_ne hk]

/-- A change that keeps ids and orders keeps the keys of the tables. -/
lemma keys_modifyRow (hf : ∀ w, (f w).id = w.id ∧ (f w).order = w.order) :
    (t.modifyRow k id f).keys k' = t.keys k' := by
  unfold keys modifyRow
  by_cases hk : k' = k
  · subst hk
    rw [rows_setRows_self]
    exact map_modifyFirst (fun w => by rw [(hf w).1, (hf w).2]) _
  · rw [rows_setRows_of_ne hk]

/-- A row may be modified as long as it is not set free. -/
lemma Taken.modifyRow (hf : ∀ w, (f w).id = w.id) (free : ∀ w, (f w).state ≠ .unprocessed)
    (h : t.Taken k' id') : (t.modifyRow k id f).Taken k' id' := by
  obtain ⟨row, hrow, hs⟩ := h
  by_cases hk : k' = k ∧ id' = id
  · obtain ⟨rfl, rfl⟩ := hk
    exact ⟨f row, by rw [row?_modifyRow_self hf, hrow]; rfl, free row⟩
  · exact ⟨row, by rw [row?_modifyRow_of_ne hf hk, hrow], hs⟩

end modifyRow

/-- Taking a row up, in full. -/
lemma claim_eq_ok {b} (h : t.claim now k id = .ok (b, t')) :
    ∃ row, t.row? k id = some row ∧
      ((row.state = .unprocessed ∧ b = true ∧ t' = t.modifyRow k id (·.claimed now)) ∨
        (row.state ≠ .unprocessed ∧ b = false ∧ t' = t)) := by
  unfold claim at h
  cases hrow : t.row? k id with
  | none => simp [hrow] at h
  | some row =>
    refine ⟨row, rfl, ?_⟩
    by_cases hs : row.state = .unprocessed
    · simp only [hrow, hs, if_true, Except.ok.injEq, Prod.mk.injEq] at h
      exact .inl ⟨hs, h.1.symm, h.2.symm⟩
    · simp only [hrow, hs, if_false, Except.ok.injEq, Prod.mk.injEq] at h
      exact .inr ⟨hs, h.1.symm, h.2.symm⟩

/-- Writing an outcome, in full. -/
lemma update_eq_ok {o} (h : t.update now k id o = .ok t') :
    ∃ row, t.row? k id = some row ∧ row.state = .inProgress ∧
      t' = t.modifyRow k id (·.updated now o) := by
  unfold update at h
  cases hrow : t.row? k id with
  | none => simp [hrow] at h
  | some row =>
    by_cases hs : row.state = .inProgress
    · simp only [hrow, hs, if_true, Except.ok.injEq] at h
      exact ⟨row, rfl, hs, h.symm⟩
    · simp [hrow, hs] at h

/-- Putting an asset back, in full. -/
lemma release_eq_ok {c n} (h : t.release c n = .ok t') :
    ∃ a, t.asset? c n = some a ∧
      t' = { t with assets := modifyFirst (·.isFor c n) Asset.released t.assets } := by
  unfold release at h
  cases ha : t.asset? c n with
  | none => simp [ha] at h
  | some a =>
    simp only [ha, Except.ok.injEq] at h
    exact ⟨a, rfl, h.symm⟩

/-- Tables that hold the rows of others at the same places, with more rows after them, none that was
taken up free again. -/
structure Later (t t' : Tables) : Prop where
  keys : ∀ k, t.keys k <+: t'.keys k
  taken : ∀ {k id}, t.Taken k id → t'.Taken k id

/-- Tables are later than themselves. -/
lemma Later.refl (t : Tables) : t.Later t := ⟨fun _ => List.prefix_rfl, fun h => h⟩

/-- What is later than later tables is later than the first. -/
lemma Later.trans (h : t.Later t') (h' : t'.Later t'') : t.Later t'' :=
  ⟨fun k => (h.keys k).trans (h'.keys k), fun ht => h'.taken (h.taken ht)⟩

/-- Changing a row leads to later tables if it keeps the id and the order and leaves the row
taken. -/
lemma Later.modifyRow {f : Withdrawal k.Order → Withdrawal k.Order}
    (hf : ∀ w, (f w).id = w.id ∧ (f w).order = w.order) (free : ∀ w, (f w).state ≠ .unprocessed) :
    t.Later (t.modifyRow k id f) where
  keys _ := keys_modifyRow hf ▸ List.prefix_rfl
  taken h := h.modifyRow (fun w => (hf w).1) free

/-- A row of earlier tables is still there, with its id and order. -/
lemma Later.exists_mem {row} (h : t.Later t') (hrow : row ∈ t.rows k) :
    ∃ row' ∈ t'.rows k, row'.id = row.id ∧ row'.order = row.order := by
  have hmem : (row.id, row.order) ∈ t'.keys k :=
    (h.keys k).subset (List.mem_map_of_mem hrow)
  obtain ⟨row', hrow', e⟩ := List.mem_map.1 hmem
  exact ⟨row', hrow', congrArg Prod.fst e, congrArg Prod.snd e⟩

/-- A row added at the end changes nothing for the others. -/
lemma later_insert (row : Withdrawal k.Order) : t.Later (t.insert k row) where
  keys k' := by
    unfold Tables.keys insert
    by_cases hk : k' = k
    · subst hk
      rw [rows_setRows_self, List.map_append]
      exact List.prefix_append _ _
    · have same : (t.setRows k (t.rows k ++ [row])).rows k' = t.rows k' := rows_setRows_of_ne hk _
      exact same.symm ▸ List.prefix_rfl
  taken := by
    rintro k' id ⟨row', hrow', hs⟩
    refine ⟨row', ?_, hs⟩
    unfold row? insert at *
    by_cases hk : k' = k
    · subst hk
      rw [rows_setRows_self, List.find?_append, hrow']
      rfl
    · rw [rows_setRows_of_ne hk, hrow']

end Tables

/-- A request that sets no row free: only an outcome could. -/
def Request.Settles : Request → Prop
  | .update _ _ o => o.state ≠ .unprocessed
  | _ => True

namespace Tables

variable {t t' : Tables} {now : Instant}

/-- All that an exchange may make of the tables. -/
inductive Turn (now : Instant) (t : Tables) : Exchange interface → Tables → Prop where
  | kept {e} :
    Turn now t e t
  | claimed {k id row} :
    t.row? k id = some row → row.state = .unprocessed →
    Turn now t ⟨.claim k id, .ok true⟩ (t.modifyRow k id (·.claimed now))
  | updated {k id o row} :
    t.row? k id = some row → row.state = .inProgress →
    Turn now t ⟨.update k id o, .ok ()⟩ (t.modifyRow k id (·.updated now o))
  | released {c n a} :
    t.asset? c n = some a →
    Turn now t ⟨.release c n, .ok ()⟩
      { t with assets := modifyFirst (·.isFor c n) Asset.released t.assets }

/-- A change of tables that was answered was made. -/
lemma eq_ok_of_map {x : Except LedgerError Tables} {v : Unit} (h : x.map ((), ·) = .ok (v, t')) :
    x = .ok t' := by
  cases x with
  | error e => cases h
  | ok t =>
    cases h
    rfl

/-- An outcome that was answered as written was written. -/
lemma update_of_perform {k id o v} (h : perform now (.update k id o) t = .ok (v, t')) :
    t.update now k id o = .ok t' :=
  eq_ok_of_map h

/-- A release that was answered as done was done. -/
lemma release_of_perform {c n v} (h : perform now (.release c n) t = .ok (v, t')) :
    t.release c n = .ok t' :=
  eq_ok_of_map h

/-- A request that was performed made one of the turns that an exchange may make. -/
lemma turn_of_perform {r : Request} {v} (performed : perform now r t = .ok (v, t')) :
    Turn now t ⟨r, .ok v⟩ t' := by
  cases r with
  | unprocessed k =>
    cases performed
    exact .kept
  | asset c n =>
    simp only [perform] at performed
    split at performed <;> cases performed
    exact .kept
  | user id =>
    cases performed
    exact .kept
  | userByWallet wallet =>
    cases performed
    exact .kept
  | claim k id =>
    obtain ⟨row, first, ⟨free, rfl, rfl⟩ | ⟨-, -, rfl⟩⟩ := claim_eq_ok performed
    · exact .claimed first free
    · exact .kept
  | update k id o =>
    obtain ⟨row, first, open_, rfl⟩ := update_eq_ok (update_of_perform performed)
    exact .updated first open_
  | release c n =>
    obtain ⟨a, recorded, rfl⟩ := release_eq_ok (release_of_perform performed)
    exact .released recorded

/-- Only to put an asset back changes assets. -/
lemma Turn.assets_eq {e} (turn : Turn now t e t') (other : ∀ c n, e.request ≠ .release c n) :
    t'.users = t.users ∧ t'.assets = t.assets := by
  cases turn with
  | kept => exact ⟨rfl, rfl⟩
  | @claimed k => cases k <;> exact ⟨rfl, rfl⟩
  | @updated k => cases k <;> exact ⟨rfl, rfl⟩
  | released => exact absurd rfl (other _ _)

/-- Requests only lead to later tables. -/
lemma later_perform {r : Request} {v} (settles : r.Settles)
    (performed : perform now r t = .ok (v, t')) :
    t.Later t' := by
  cases turn_of_perform performed with
  | kept => exact .refl t
  | claimed => exact .modifyRow (fun _ => ⟨rfl, rfl⟩) (fun _ => nofun)
  | updated => exact .modifyRow (fun _ => ⟨rfl, rfl⟩) (fun _ => settles)
  | released =>
    exact ⟨fun k => by cases k <;> exact List.prefix_rfl, fun {k id} h => by cases k <;> exact h⟩

/-- A claim that brings back true found its row unprocessed and took it up. -/
lemma perform_claim_true {k id} (h : perform now (.claim k id) t = .ok (true, t')) :
    ∃ row, t.row? k id = some row ∧ row.state = .unprocessed ∧
      t'.row? k id = some (row.claimed now) := by
  obtain ⟨row, hrow, ⟨hs, _, rfl⟩ | ⟨_, hb, _⟩⟩ := claim_eq_ok h
  · refine ⟨row, hrow, hs, ?_⟩
    rw [row?_modifyRow_self (f := (·.claimed now)) (fun _ => rfl), hrow]
    rfl
  · cases hb

/-- An asset that is brought back is the one that was asked for. -/
lemma perform_asset {c n a} (h : perform now (.asset c n) t = .ok (a, t')) :
    t.asset? c n = some a ∧ a.isFor c n := by
  simp only [perform] at h
  cases ha : t.asset? c n with
  | none => simp [ha] at h
  | some a' =>
    simp only [ha, Except.ok.injEq, Prod.mk.injEq] at h
    obtain ⟨rfl, _⟩ := h
    exact ⟨rfl, List.find?_some ha⟩

end Tables

end Payout.Ledger
