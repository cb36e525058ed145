import Payout.Proofs.Settlement.Sharing

/-!
# Tokens that have left

What still happens to a token once its transaction is or may be through. The row that the
transaction was for is done with: no call and no release is made on its behalf any more. Nothing
ties a token to one row, though, and another row that asks for the same token is paid out like any
other (`acts_after_departure`).
-/

namespace Payout.Settlement
open Ledger Journal

variable {ι σ : Type} [DecidableEq ι] {settler : ι → Settler}

/-- Without another call, an agent that waits still has the row in hand for which it called. -/
lemma Journal.hand_of_called {m : ι → Conduct} {js : Journal ι σ} {i : ι}
    (h : js.Ordered settler m)
    (noCall : ∀ d ∈ js, d.agent = i → d.exchange.request.isCall = false)
    (called : (js.foldl see m i).phase = .called) :
    (m i).phase = .called ∧ (js.foldl see m i).hand = (m i).hand := by
  induction js generalizing m with
  | nil => exact ⟨called, rfl⟩
  | cons d js ih =>
    obtain ⟨allowed, rest⟩ := h
    obtain ⟨before, same⟩ := ih rest (fun d hd => noCall d (List.mem_cons_of_mem _ hd)) called
    rw [List.foldl_cons, same]
    by_cases hi : i = d.agent
    · subst hi
      rw [see_self] at before ⊢
      -- No other turn leads to a waiting agent.
      cases Conduct.turn allowed with
      | granted _ _ granted => rw [granted] at before; cases before
      | barred barred => rw [barred] at before; cases before
      | called call => rw [noCall d List.mem_cons_self rfl] at call; cases call
      | gone _ _ _ gone => rw [gone] at before; cases before
      | same _ hand phase => exact ⟨phase ▸ before, hand⟩
    · rw [see_of_ne hi] at before ⊢
      exact ⟨before, rfl⟩

/-- A request about a token: a call that hands it out, or a release. -/
def Concerns (c : AssetClass) (n : UInt64) : Request → Prop
  | .call call _ => call.token? = some (c, n)
  | .ledger (.release c' n') => c' = c ∧ n' = n
  | _ => False

/-- Every request about a token is a call or a release. -/
lemma Concerns.isAct {c n} {r : Request} (h : Concerns c n r) : r.isCall ∨ r.isRelease := by
  cases r with
  | ledger r =>
    cases r with
    | release => exact .inr rfl
    | _ => cases h
  | call => exact .inl rfl
  | _ => cases h

/-- A call that pays currency out hands out no token. -/
lemma token?_callFor (x : CurrencyPayout) (receiver : String) (units : Nat) :
    (x.callFor receiver units).token? = none := by
  unfold CurrencyPayout.callFor
  cases x.call <;> rfl

/-- What is done about a token is done for a row that asks for it. -/
lemma Conduct.Allows.holds {s : Settler} {m : Conduct} {r : Request} {c n} (h : m.Allows s r)
    (concerns : Concerns c n r) : m.Holds .asset (AssetOrder.mk c n) := by
  cases r with
  | ledger r =>
    cases r with
    | release c' n' =>
      obtain ⟨rfl, rfl⟩ := concerns
      exact h.2
    | _ => cases concerns
  | call call price =>
    obtain ⟨_, k, o, held, pays⟩ := h
    cases k with
    | asset =>
      have same : some (o.assetClass, o.tokenId) = some (c, n) := pays.symm.trans concerns
      cases o
      cases same
      exact held
    | currency =>
      obtain ⟨x, units, _, _, rfl⟩ := pays
      cases (token?_callFor x _ units).symm.trans concerns
  | _ => cases concerns

/-- A journal in which an agent called for a token, and the wait for that call has just shown that
the transaction is or may be through. -/
structure Departs (c : AssetClass) (n : UInt64) (pre mid : Journal ι σ) (call wait : Deed ι σ) :
    Prop where
  agent : wait.agent = call.agent
  called : ∃ cc price pending, call.exchange = ⟨.call cc price, .ok pending⟩ ∧
    cc.token? = some (c, n) ∧ ∃ confirmations ms a,
      wait.exchange = ⟨.wait pending confirmations ms, a⟩ ∧ mayBeThrough a = true
  /-- The call is the agent's last before the wait. -/
  last : ∀ d ∈ mid, d.agent = call.agent → d.exchange.request.isCall = false

/-- The agent has the row in hand for which it called, waits, and knows then that the transaction
may be through. -/
lemma Departs.gone {c n} {pre mid : Journal ι σ} {call wait : Deed ι σ}
    (h : Departs c n pre mid call wait)
    (ordered : (pre ++ call :: mid ++ [wait]).Ordered settler fun _ => .initial) :
    (seen (pre ++ call :: mid) wait.agent).hand = (seen pre call.agent).hand ∧
      (seen (pre ++ call :: mid) wait.agent).phase = .called ∧
      (seen (pre ++ call :: mid ++ [wait]) wait.agent).phase = .gone := by
  obtain ⟨agent, ⟨cc, price, pending, sent, _, confirmations, ms, a, waited, through⟩, last⟩ := h
  have called : (seen (pre ++ call :: mid) wait.agent).phase = .called := by
    have allowed := allows_of_ordered ordered
    rw [waited] at allowed
    exact allowed
  refine ⟨?_, called, ?_⟩
  · rw [agent, List.append_cons, seen_append] at called
    have afterCall : (mid ++ [wait]).Ordered settler (seen (pre ++ [call])) := by
      have shape : pre ++ call :: mid ++ [wait] = pre ++ [call] ++ (mid ++ [wait]) := by simp
      rw [shape] at ordered
      exact (ordered_append.1 ordered).2
    obtain ⟨_, same⟩ := hand_of_called (ordered_append.1 afterCall).1 last called
    rw [agent, List.append_cons, seen_append, same, seen_append, List.foldl_cons, List.foldl_nil,
      see_self, sent]
    rfl
  · rw [seen_append, List.foldl_cons, List.foldl_nil, see_self, waited]
    simp [Conduct.next, through]

/-- **A row is done with once its token may have left.** What is done about the token after that is
done for another row that asks for the same token. -/
theorem acts_after_departure {passes : ι → Nat} {t : Tables}
    {js pre mid post rest : Journal ι Tables} {call wait d : Deed ι Tables} {S : System ι} {c n}
    (run : (System.start settler passes t).Runs js S)
    (shape : js = pre ++ call :: mid ++ [wait] ++ (post ++ d :: rest))
    (departs : Departs c n pre mid call wait) (concerns : Concerns c n d.exchange.request) :
    ∃ id id', (seen pre call.agent).hand = some (.asset, id) ∧
      (seen (pre ++ call :: mid ++ [wait] ++ post) d.agent).hand = some (.asset, id') ∧ id' ≠ id ∧
      ∃ row ∈ S.ledger.tables.assetRows, row.id = id' ∧ row.order = AssetOrder.mk c n := by
  subst shape
  have inv := run.invariant
  have ordered := inv.ordered
  have before := (ordered_append.1 ordered).1
  obtain ⟨hand, called, gone⟩ := departs.gone before
  obtain ⟨cc, price, pending, sent, token, _⟩ := departs.called
  -- The call was made for a row in hand, and so is the deed.
  have allowedCall : (seen pre call.agent).Allows (settler call.agent) call.exchange.request := by
    rw [List.append_assoc] at before
    exact allows_of_ordered before
  have concerned : Concerns c n call.exchange.request := by
    rw [sent]
    exact token
  obtain ⟨row, _, first, _⟩ := allowedCall.holds concerned
  have allowedDeed : (seen (pre ++ call :: mid ++ [wait] ++ post) d.agent).Allows (settler d.agent)
      d.exchange.request := by
    rw [← List.append_assoc] at ordered
    exact allows_of_ordered ordered
  obtain ⟨row', listed, second, order⟩ := allowedDeed.holds concerns
  refine ⟨row.id, row'.id, first, second, ?_, ?_⟩
  · intro same
    rw [same] at second
    exact nothing_after_gone ordered (inv.once _ _) (hand.trans first) called gone
      concerns.isAct second
  · -- The other row was listed, and rows only go on.
    obtain ⟨l, hl, _, rows, list, mem⟩ := exists_listing listed
    have hl' : l ∈ pre ++ call :: mid ++ [wait] ++ (post ++ d :: rest) := by
      rw [← List.append_assoc]
      exact List.mem_append_left _ hl
    obtain ⟨found, mem', id_eq, order_eq⟩ := (inv.faithful l hl').listed list mem
    exact ⟨found, mem', id_eq, order_eq.trans order⟩

/-- One worker pays out two rows that ask for one token, up to the second call. -/
def twice : Journal Unit Tables × System Unit :=
  (System.start (fun _ => partsOnly) (fun _ => 1) (rowsForOnePart ["w", "v"])).turns obliging noon
    (List.replicate 16 ())

/-- The worker's first call succeeds, and its wait shows that the transaction is through. -/
lemma departs_twice :
    Departs .part 7 (twice.1.take 6) [] (twice.1.get ⟨6, by decide⟩) (twice.1.get ⟨7, by decide⟩) :=
  ⟨rfl, ⟨_, _, _, rfl, rfl, _, _, _, rfl, rfl⟩, fun _ hd => absurd hd List.not_mem_nil⟩

/-- The worker makes its second call for another row, which asks for the same token. -/
theorem acts_after_departure_twice :
    ∃ id id', id' ≠ id ∧
      ∃ row ∈ twice.2.ledger.tables.assetRows, row.id = id' ∧
        row.order = AssetOrder.mk .part 7 := by
  have run : (System.start (fun _ => partsOnly) (fun _ => 1) (rowsForOnePart ["w", "v"])).Runs
      twice.1 twice.2 := System.runs_turns rfl
  have shape : twice.1 = twice.1.take 6 ++ twice.1.get ⟨6, by decide⟩ :: [] ++
      [twice.1.get ⟨7, by decide⟩] ++
        ((twice.1.drop 8).take 7 ++ twice.1.get ⟨15, by decide⟩ :: []) := rfl
  obtain ⟨id, id', _, _, other, row⟩ := acts_after_departure run shape departs_twice rfl
  exact ⟨id, id', other, row⟩

/-- The token is called for again after its transaction has succeeded. -/
theorem token_called_for_twice :
    (System.start (fun _ => partsOnly) (fun _ => 1) (rowsForOnePart ["w", "v"])).Runs
        twice.1 twice.2 ∧
      ∃ pre call wait post d, twice.1 = pre ++ call :: [] ++ [wait] ++ (post ++ [d]) ∧
        Departs .part 7 pre [] call wait ∧ d.exchange.request.isCall = true ∧
          Concerns .part 7 d.exchange.request :=
  ⟨System.runs_turns rfl, _, _, _, (twice.1.drop 8).take 7, twice.1.get ⟨15, by decide⟩, rfl,
    departs_twice, rfl, rfl⟩

end Payout.Settlement
