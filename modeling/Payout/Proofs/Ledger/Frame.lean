import Payout.Proofs.Ledger.Answers

/-!
# Frames

What requests leave as it is. Each of them changes at most one record, the first that it names, and
of that only what a claim, an outcome or a release is there to change (`Touches`); one that is
refused, or a claim that is denied, changes nothing. So whatever is asked, the tables keep their
records in their order, with everything by which these are known and to whom they belong (`Frame`),
and a table of withdrawals that is not addressed stays as it is.
-/

namespace Payout

/-- All of an asset that settlement leaves alone. -/
def Asset.particulars (a : Asset) : AssetClass × UInt64 × String × Option String × Option String :=
  (a.assetClass, a.tokenId, a.destination, a.custody, a.userId)

namespace Ledger

/-- The table of withdrawals that a request addresses. -/
def Request.table? : Request → Option Kind
  | .claim k _ => some k
  | .update k _ _ => some k
  | _ => none

namespace Tables

/-- The tables after requests, each at its time. -/
def after (t : Tables) (ops : List (Instant × Request)) : Tables :=
  ops.foldl (fun t op => (t.reply op.1 op.2).2) t

/-- Tables with the same records in the same order, but for what became of withdrawals and where
assets are. -/
structure Frame (t t' : Tables) : Prop where
  keys : ∀ k, t'.keys k = t.keys k
  assets : t'.assets.map Asset.particulars = t.assets.map Asset.particulars
  users : t'.users = t.users

/-- All that an exchange does to tables, in full. -/
inductive Touches (now : Instant) (t : Tables) : Exchange interface → Tables → Prop where
  | refused {r e} :
    Touches now t ⟨r, .error e⟩ t
  | denied {k id} :
    Touches now t ⟨.claim k id, .ok false⟩ t
  | read {r v} :
    r.writes = false →
    Touches now t ⟨r, .ok v⟩ t
  | claimed {k front w back} :
    t.rows k = front ++ w :: back →
    (∀ v ∈ front, v.id ≠ w.id) →
    w.state = .unprocessed →
    Touches now t ⟨.claim k w.id, .ok true⟩
      (t.setRows k
        (front ++
          { w with
            outcome := { w.outcome with state := .inProgress }, updatedAt := some now } :: back))
  | updated {k front w back o} :
    t.rows k = front ++ w :: back →
    (∀ v ∈ front, v.id ≠ w.id) →
    w.state = .inProgress →
    Touches now t ⟨.update k w.id o, .ok ()⟩
      (t.setRows k (front ++ { w with outcome := o, updatedAt := some now } :: back))
  | released {front a back} :
    t.assets = front ++ a :: back →
    (∀ b ∈ front, ¬ (b.assetClass = a.assetClass ∧ b.tokenId = a.tokenId)) →
    Touches now t ⟨.release a.assetClass a.tokenId, .ok ()⟩
      { t with assets := front ++ { a with state := .inCustody, placement := none } :: back }

section Steps

variable {t t' t'' : Tables} {now : Instant} {k : Kind} {id : String} {e : Exchange interface}

/-- A change of the row that an id names leaves all rows before and after it in place. -/
lemma exists_modifyRow {row} (first : t.row? k id = some row) :
    ∃ front back, t.rows k = front ++ row :: back ∧ (∀ w ∈ front, w.id ≠ id) ∧
      ∀ f, t.modifyRow k id f = t.setRows k (front ++ f row :: back) := by
  obtain ⟨front, back, split, others, modified⟩ := exists_modifyFirst first
  refine ⟨front, back, split, fun w hw => by simpa using others w hw, fun f => ?_⟩
  rw [modifyRow, modified]

/-- Every reply does to the tables one of the things that `Touches` lists. -/
lemma touches_of_reply {r a} (reply : t.reply now r = (a, t')) : Touches now t ⟨r, a⟩ t' := by
  obtain ⟨⟨e, rfl⟩, rfl⟩ | ⟨v, rfl, performed⟩ := reply_cases reply
  · exact .refused
  · cases r with
    | unprocessed k =>
      cases performed
      exact .read rfl
    | asset c n =>
      simp only [perform] at performed
      split at performed <;> cases performed
      exact .read rfl
    | user id =>
      cases performed
      exact .read rfl
    | userByWallet wallet =>
      cases performed
      exact .read rfl
    | claim k id =>
      obtain ⟨row, first, ⟨free, rfl, rfl⟩ | ⟨-, rfl, rfl⟩⟩ := claim_eq_ok performed
      · obtain ⟨front, back, split, others, modified⟩ := exists_modifyRow first
        rw [modified]
        cases row?_eq_some_id first
        exact .claimed split others free
      · exact .denied
    | update k id o =>
      obtain ⟨row, first, open_, rfl⟩ := update_eq_ok (update_of_perform performed)
      obtain ⟨front, back, split, others, modified⟩ := exists_modifyRow first
      rw [modified]
      cases row?_eq_some_id first
      exact .updated split others open_
    | release c n =>
      obtain ⟨a, recorded, rfl⟩ := release_eq_ok (release_of_perform performed)
      obtain ⟨front, back, split, others, modified⟩ := exists_modifyFirst recorded
      obtain ⟨rfl, rfl⟩ : a.assetClass = c ∧ a.tokenId = n := by
        simpa [Asset.isFor] using List.find?_some recorded
      rw [modified]
      refine .released split fun b hb => ?_
      simpa [Asset.isFor] using others b hb

/-- Tables keep their own records. -/
lemma Frame.refl (t : Tables) : t.Frame t := ⟨fun _ => rfl, rfl, rfl⟩

/-- Records that are kept twice over are kept from the first tables to the last. -/
lemma Frame.trans (h : t.Frame t') (h' : t'.Frame t'') : t.Frame t'' :=
  ⟨fun k => (h'.keys k).trans (h.keys k), h'.assets.trans h.assets, h'.users.trans h.users⟩

/-- A table may be replaced by one with the same ids and orders. -/
lemma frame_setRows {rows : List (Withdrawal k.Order)}
    (same : rows.map (fun w => (w.id, w.order)) = t.keys k) :
    t.Frame (t.setRows k rows) where
  keys k' := by
    by_cases hk : k' = k
    · subst hk
      unfold keys
      rw [rows_setRows_self]
      exact same
    · unfold keys
      rw [rows_setRows_of_ne hk]
  assets := by cases k <;> rfl
  users := by cases k <;> rfl

/-- Whatever an exchange does, the records stay in their order with their keys and owners. -/
lemma Touches.frame (touches : Touches now t e t') : t.Frame t' := by
  cases touches with
  | refused => exact .refl t
  | denied => exact .refl t
  | read => exact .refl t
  | claimed split => exact frame_setRows (by simp [keys, split])
  | updated split => exact frame_setRows (by simp [keys, split])
  | released split => exact ⟨fun k => by cases k <;> rfl, by simp [split, Asset.particulars], rfl⟩

/-- A table of withdrawals that an exchange does not address stays as it is. -/
lemma Touches.rows_eq (touches : Touches now t e t') (other : e.request.table? ≠ some k) :
    t'.rows k = t.rows k := by
  cases touches with
  | refused => rfl
  | denied => rfl
  | read => rfl
  | claimed => exact rows_setRows_of_ne (fun same => other (congrArg some same.symm)) _
  | updated => exact rows_setRows_of_ne (fun same => other (congrArg some same.symm)) _
  | released => cases k <;> rfl

end Steps

section Runs

variable {t : Tables} {ops : List (Instant × Request)} {k : Kind}

/-- Requests are answered from the first one on. -/
lemma after_cons (op : Instant × Request) :
    t.after (op :: ops) = (t.reply op.1 op.2).2.after ops := rfl

/-- However many requests are answered, the records stay in their order with their keys and
owners. -/
lemma frame_after (t : Tables) (ops : List (Instant × Request)) : t.Frame (t.after ops) := by
  induction ops generalizing t with
  | nil => exact .refl t
  | cons op ops ih => exact (touches_of_reply rfl).frame.trans (ih _)

/-- A table that is not addressed stays as it is. -/
lemma rows_after (other : ∀ op ∈ ops, op.2.table? ≠ some k) : (t.after ops).rows k = t.rows k := by
  induction ops generalizing t with
  | nil => rfl
  | cons op ops ih =>
    obtain ⟨first, others⟩ := List.forall_mem_cons.1 other
    rw [after_cons, ih others]
    exact (touches_of_reply rfl).rows_eq first

end Runs

/-- **Requests change only what they name.** Tables are asked anything in any order, with equal ids
and equal assets among their records or not. They keep their records in their order, with the ids
and orders of all withdrawals, the particulars of all assets, and all users; a table of withdrawals
to which nothing is addressed stays as it is. At any time a request that is refused and a claim that
is denied leave all as it was, any other touches one record, the first that it names, and the rows
that are listed as unprocessed are those, in their order. -/
theorem frame_of_requests (t : Tables) (ops : List (Instant × Request)) :
    t.Frame (t.after ops) ∧
      (∀ k, (∀ op ∈ ops, op.2.table? ≠ some k) → (t.after ops).rows k = t.rows k) ∧
      ∀ now,
        (∀ r,
          let (a, t') := (t.after ops).reply now r
          Touches now (t.after ops) ⟨r, a⟩ t' ∧ ∀ k, r.table? ≠ some k →
            t'.rows k = (t.after ops).rows k) ∧
        ∀ k, ((t.after ops).reply now (.unprocessed k)).1 =
          .ok (((t.after ops).rows k).filter (·.state = .unprocessed)) := by
  refine ⟨frame_after t ops, fun k => rows_after, fun now => ⟨fun r => ?_, fun k => rfl⟩⟩
  have touches : Touches now (t.after ops) _ _ := touches_of_reply (r := r) rfl
  exact ⟨touches, fun k => touches.rows_eq⟩

/-- Of two rows of one id the first is taken up. -/
example :
    let rows : List (Withdrawal AssetOrder) := [.new "w" ⟨.part, 7⟩, .new "w" ⟨.part, 8⟩]
    (after ⟨rows, [], [], []⟩
      [(midnight, .claim .asset "w"), (midnight, .claim .asset "w")]).assetRows =
      [.claimed midnight (.new "w" ⟨.part, 7⟩), .new "w" ⟨.part, 8⟩] :=
  rfl

end Tables

end Ledger

end Payout
