import Mathlib.Data.Finset.Card
import Mathlib.Data.Finset.Insert
import Payout.Proofs.Ledger.Rows
import Payout.Proofs.Settlement.Conduct

/-!
# Journals

What several agents have asked and were answered, in one order, whoever they are: workers beside
each other or the sessions of one program one after another. Each deed keeps the state of the
surroundings before and after it. When every agent's requests are in order, then for each row no
more calls are made than claims of the row were granted (`calls_le_grants`), and with one grant
nothing is done for a row any more once its transaction may be through (`nothing_after_gone`).
-/

namespace Payout.Settlement

/-- An exchange of an agent, with the state of the surroundings before and after it. -/
structure Deed (ι σ : Type) where
  agent : ι
  exchange : Exchange interface
  found : σ
  left : σ

/-- The deeds of several agents, in order. -/
abbrev Journal (ι σ : Type) := List (Deed ι σ)

variable {ι σ : Type}

/-- What tables bring back could be answered. -/
lemma sound_of_perform {now : Instant} {r : Ledger.Request} {t t' : Ledger.Tables} {v : r.Value}
    (performed : Ledger.Tables.perform now r t = .ok (v, t')) : Sound ⟨.ledger r, .ok v⟩ := by
  cases r with
  | asset c n => exact (Ledger.Tables.perform_asset performed).2
  | _ => trivial

/-- What is in order writes an outcome or nothing. -/
lemma settles_of_allows {s : Settler} {m : Conduct} {r : Ledger.Request}
    (h : m.Allows s (.ledger r)) :
    r.Settles := by
  cases r with
  | update => exact h
  | _ => trivial

/-- Where at most one item of a list is counted, two items that are counted are the same. -/
lemma eq_of_countP_le_one {α : Type} {p : α → Bool} {l : List α} {a b : α} (h : l.countP p ≤ 1)
    (ha : a ∈ l) (hb : b ∈ l) (pa : p a = true) (pb : p b = true) : a = b := by
  have ha' := List.mem_filter.2 ⟨ha, pa⟩
  have hb' := List.mem_filter.2 ⟨hb, pb⟩
  rw [List.countP_eq_length_filter] at h
  generalize l.filter p = few at h ha' hb'
  match few with
  | [_] => exact (List.mem_singleton.1 ha').trans (List.mem_singleton.1 hb').symm
  | _ :: _ :: _ => simp at h

namespace Journal

variable [DecidableEq ι]

/-- What was seen after one more deed. -/
def see (m : ι → Conduct) (d : Deed ι σ) : ι → Conduct :=
  Function.update m d.agent ((m d.agent).next d.exchange)

/-- What each agent has seen in a journal. -/
def seen (js : Journal ι σ) : ι → Conduct := js.foldl see fun _ => .initial

/-- The exchanges of one agent. -/
def own (i : ι) (js : Journal ι σ) : Trace :=
  js.filterMap fun d => if d.agent = i then some d.exchange else none

/-- How often claims of a row were granted. -/
def grants (k : Kind) (id : String) (js : Journal ι σ) : Nat :=
  js.countP fun d => isGrant k id d.exchange

/-- How often a contract is called on behalf of a row: by an agent who asked for that row last. -/
def callsFrom (k : Kind) (id : String) (m : ι → Conduct) : Journal ι σ → Nat
  | [] => 0
  | d :: js =>
    (if d.exchange.request.isCall ∧ (m d.agent).hand = some (k, id) then 1 else 0) +
      callsFrom k id (see m d) js

/-- How often a contract is called on behalf of a row. -/
def calls (k : Kind) (id : String) (js : Journal ι σ) : Nat := callsFrom k id (fun _ => .initial) js

/-- Every request is in order when it is made. -/
def Ordered (settler : ι → Settler) (m : ι → Conduct) : Journal ι σ → Prop
  | [] => True
  | d :: js =>
    (m d.agent).Allows (settler d.agent) d.exchange.request ∧ Ordered settler (see m d) js

variable {settler : ι → Settler} {m : ι → Conduct} {js js' : Journal ι σ} {d : Deed ι σ}
  {k : Kind} {id : String} {i j : ι}

/-- An agent sees its own deed. -/
@[simp] lemma see_self : see m d d.agent = (m d.agent).next d.exchange := Function.update_self ..

/-- An agent sees nothing of the deeds of others. -/
lemma see_of_ne (h : i ≠ d.agent) : see m d i = m i := Function.update_of_ne h ..

/-- The exchanges of an agent in two journals follow one another. -/
@[simp] lemma own_append : own i (js ++ js') = own i js ++ own i js' := List.filterMap_append

/-- A deed is one exchange of its agent. -/
@[simp] lemma own_self : own d.agent [d] = [d.exchange] := by simp [own]

/-- A deed is no exchange of another agent. -/
lemma own_of_ne (h : i ≠ d.agent) : own i [d] = [] := by simp [own, h.symm]

/-- What an agent has seen depends on its own exchanges. -/
lemma foldl_see : js.foldl see m i = (m i).after (own i js) := by
  induction js generalizing m with
  | nil => rfl
  | cons d js ih =>
    rw [List.foldl_cons, ih]
    by_cases h : i = d.agent
    · subst h
      simp [own]
    · simp [own, see_of_ne h, Ne.symm h]

/-- What was seen in a first journal is where the second goes on from. -/
lemma seen_append (js js' : Journal ι σ) : seen (js ++ js') = js'.foldl see (seen js) :=
  List.foldl_append

/-- Each agent has seen its own exchanges. -/
lemma seen_apply : js.seen i = Conduct.initial.after (own i js) := foldl_see

/-- Agents that are orderly by themselves are so together. -/
lemma ordered_of_own (h : ∀ i, (m i).Orderly (settler i) (own i js)) : js.Ordered settler m := by
  induction js generalizing m with
  | nil => trivial
  | cons d js ih =>
    have ofAgent := h d.agent
    simp only [own, List.filterMap_cons, if_true, Conduct.orderly_cons] at ofAgent
    refine ⟨ofAgent.1, ih ?_⟩
    intro i
    by_cases hi : i = d.agent
    · subst hi
      rw [see_self]
      exact ofAgent.2
    · have ofOther := h i
      rw [see_of_ne hi]
      simpa [own, Ne.symm hi] using ofOther

/-- Two journals are in order one after the other if the second is after what the first has
shown. -/
lemma ordered_append :
    (js ++ js').Ordered settler m ↔
      js.Ordered settler m ∧ js'.Ordered settler (js.foldl see m) := by
  induction js generalizing m with
  | nil => simp [Ordered]
  | cons d js ih => simp [Ordered, ih, and_assoc]

/-- A request is in order with what its agent has seen before it. -/
lemma allows_of_ordered {pre post : Journal ι σ}
    (h : (pre ++ d :: post).Ordered settler fun _ => .initial) :
    (pre.seen d.agent).Allows (settler d.agent) d.exchange.request :=
  (ordered_append.1 h).2.1

omit [DecidableEq ι] in
/-- The grants in two journals add up. -/
lemma grants_append (js js' : Journal ι σ) :
    grants k id (js ++ js') = grants k id js + grants k id js' :=
  List.countP_append

omit [DecidableEq ι] in
/-- A row that was granted by the end was granted by the last deed or before it. -/
lemma grants_snoc_pos (some : 0 < grants k id (js ++ [d])) :
    isGrant k id d.exchange = true ∨ 0 < grants k id js := by
  rw [grants_append] at some
  by_cases grant : isGrant k id d.exchange = true
  · exact .inl grant
  · have none : grants k id [d] = 0 := List.countP_eq_zero.2 (by simpa using grant)
    exact .inr (by omega)

omit [DecidableEq ι] in
/-- A row is granted at most once if the last deed grants it only where nothing else has. -/
lemma grants_snoc_le (once : grants k id js ≤ 1)
    (fresh : isGrant k id d.exchange = true → grants k id js = 0) :
    grants k id (js ++ [d]) ≤ 1 := by
  rw [grants_append]
  by_cases grant : isGrant k id d.exchange = true
  · have none := fresh grant
    have one : grants k id [d] ≤ 1 := List.countP_le_length
    omega
  · have none : grants k id [d] = 0 := List.countP_eq_zero.2 (by simpa using grant)
    omega

/-- For each row no more calls are made than there are agents to whom it was granted and claims of
it that are granted later. -/
lemma callsFrom_le (h : js.Ordered settler m) {holders : Finset ι}
    (hold : ∀ i, (m i).hand = some (k, id) → (m i).phase = .granted → i ∈ holders) :
    callsFrom k id m js ≤ holders.card + grants k id js := by
  -- A grant adds its agent to the holders, and a call takes its agent out of them.
  induction js generalizing m holders with
  | nil => exact Nat.zero_le _
  | cons d js ih =>
    obtain ⟨allowed, rest⟩ := h
    -- The others have seen nothing new, so only the agent of the deed is looked at.
    have step (holders' : Finset ι)
        (agent : ((m d.agent).next d.exchange).hand = some (k, id) →
          ((m d.agent).next d.exchange).phase = .granted → d.agent ∈ holders')
        (others : ∀ i ≠ d.agent, i ∈ holders → i ∈ holders') :
        callsFrom k id (see m d) js ≤ holders'.card + grants k id js := by
      apply ih rest
      intro i hand phase
      by_cases hi : i = d.agent
      · subst hi
        rw [see_self] at hand phase
        exact agent hand phase
      · rw [see_of_ne hi] at hand phase
        exact others i hi (hold i hand phase)
    have count : grants k id js ≤ grants k id (d :: js) :=
      List.Sublist.countP_le (List.sublist_cons_self d js)
    unfold callsFrom
    cases Conduct.turn allowed with
    | @granted k' id' grant hand phase notCall =>
      rw [if_neg (by simp [notCall])]
      by_cases same : (k', id') = (k, id)
      · cases same
        have more := step (insert d.agent holders)
          (fun _ _ => Finset.mem_insert_self _ _) (fun i _ hi => Finset.mem_insert_of_mem hi)
        have card := Finset.card_insert_le d.agent holders
        have one : grants k id (d :: js) = grants k id js + 1 := List.countP_cons_of_pos grant
        omega
      · have less := step holders
          (fun h _ => absurd (Option.some.inj (hand.symm.trans h)) same) (fun _ _ hi => hi)
        omega
    | barred phase notCall =>
      rw [if_neg (by simp [notCall])]
      have less := step holders
        (fun _ h => by rw [phase] at h; cases h) (fun _ _ hi => hi)
      omega
    | called call hand before phase =>
      by_cases same : (m d.agent).hand = some (k, id)
      · have held := hold _ same before
        have less := step (holders.erase d.agent)
          (fun _ h => by rw [phase] at h; cases h) (fun i ne hi => Finset.mem_erase.2 ⟨ne, hi⟩)
        have card := Finset.card_erase_add_one held
        split <;> omega
      · rw [if_neg (by simp [same])]
        have less := step holders
          (fun _ h => by rw [phase] at h; cases h) (fun _ _ hi => hi)
        omega
    | gone notCall hand _ phase =>
      rw [if_neg (by simp [notCall])]
      have less := step holders
        (fun _ h => by rw [phase] at h; cases h) (fun _ _ hi => hi)
      omega
    | same notCall hand phase =>
      rw [if_neg (by simp [notCall])]
      have less := step holders
        (fun h h' => hold _ (hand ▸ h) (phase ▸ h')) (fun _ _ hi => hi)
      omega

/-- For each row no more calls are made than claims of it are granted. -/
lemma calls_le_grants (h : js.Ordered settler fun _ => .initial) :
    calls k id js ≤ grants k id js := by
  have bound : callsFrom k id (fun _ => .initial) js ≤ (∅ : Finset ι).card + grants k id js :=
    callsFrom_le h nofun
  rw [Finset.card_empty, Nat.zero_add] at bound
  exact bound

/-- An agent that has a row in hand and was not refused was granted it. -/
lemma exists_grant_from (h : js.Ordered settler m) (hand : (js.foldl see m i).hand = some (k, id))
    (phase : (js.foldl see m i).phase ≠ .barred) :
    ((m i).hand = some (k, id) ∧ (m i).phase ≠ .barred) ∨
      ∃ d ∈ js, d.agent = i ∧ isGrant k id d.exchange = true := by
  induction js generalizing m with
  | nil => exact .inl ⟨hand, phase⟩
  | cons d js ih =>
    obtain ⟨allowed, rest⟩ := h
    obtain ⟨hand', phase'⟩ | ⟨g, hg, grant⟩ := ih rest hand phase
    · by_cases hi : i = d.agent
      · subst hi
        rw [see_self] at hand' phase'
        -- Only a grant puts a row in hand that is not barred.
        cases Conduct.turn allowed with
        | granted grant hand'' =>
          cases hand'.symm.trans hand''
          exact .inr ⟨d, List.mem_cons_self, rfl, grant⟩
        | barred barred => exact absurd barred phase'
        | called _ same granted => exact .inl ⟨same ▸ hand', by rw [granted]; exact nofun⟩
        | gone _ same called => exact .inl ⟨same ▸ hand', by rw [called]; exact nofun⟩
        | same _ same phase'' => exact .inl ⟨same ▸ hand', phase'' ▸ phase'⟩
      · rw [see_of_ne hi] at hand' phase'
        exact .inl ⟨hand', phase'⟩
    · exact .inr ⟨g, List.mem_cons_of_mem _ hg, grant⟩

/-- An agent that has a row in hand, and is not barred from it, was granted it. -/
lemma exists_grant (h : js.Ordered settler fun _ => .initial)
    (hand : (seen js i).hand = some (k, id)) (phase : (seen js i).phase ≠ .barred) :
    ∃ d ∈ js, d.agent = i ∧ isGrant k id d.exchange = true := by
  obtain ⟨hand, _⟩ | grant := exists_grant_from h hand phase
  · cases hand
  · exact grant

section Passes

variable {passes : ι → Nat} (sound : ∀ d ∈ js, Sound d.exchange)

include sound

/-- The answers to each agent are sound if all answers are. -/
lemma sound_own : ∀ e ∈ own i js, Sound e := by
  intro e he
  obtain ⟨d, hd, found⟩ := List.mem_filterMap.1 he
  split at found
  case isTrue =>
    rw [← Option.some.inj found]
    exact sound d hd
  case isFalse => cases found

/-- Agents that make passes are in order. -/
lemma ordered_of_passes
    (made : ∀ i, ∃ q, ((settler i).polls (passes i) fun _ => none).Reaches (own i js) q) :
    js.Ordered settler fun _ => .initial := by
  refine ordered_of_own fun i => ?_
  obtain ⟨q, path⟩ := made i
  exact polls_orderly path (sound_own sound)

/-- What an agent that makes passes asks next is in order too. -/
lemma allows_of_passes {r next}
    (path : ((settler i).polls (passes i) fun _ => none).Reaches (own i js) (.ask r next)) :
    (seen js i).Allows (settler i) r := by
  have orderly := polls_orderly (path.snoc (deaf r)) (by
    rw [List.forall_mem_append]
    refine ⟨sound_own sound, ?_⟩
    intro e he
    cases List.mem_singleton.1 he
    exact sound_deaf r)
  rw [seen_apply]
  exact (Conduct.orderly_append.1 orderly).2.1

end Passes

/-- A row that an agent has seen was listed to it. -/
lemma exists_listing {row : Withdrawal k.Order} (h : ⟨k, row⟩ ∈ (seen js i).listed) :
    ∃ d ∈ js, d.agent = i ∧
      ∃ rows, d.exchange = ⟨.ledger (.unprocessed k), .ok rows⟩ ∧ row ∈ rows := by
  rw [seen_apply] at h
  obtain ⟨e, he, rows, rfl, mem⟩ := Conduct.exists_listing h
  obtain ⟨d, hd, found⟩ := List.mem_filterMap.1 he
  split at found
  case isTrue agent => exact ⟨d, hd, agent, rows, Option.some.inj found, mem⟩
  case isFalse => cases found

/-- The agent is at work on a row: it was granted the row, and the row's transaction is not
through. -/
def AtWork (k : Kind) (id : String) (c : Conduct) : Prop :=
  c.hand = some (k, id) ∧ (c.phase = .granted ∨ c.phase = .called)

omit [DecidableEq ι] in
/-- Calls and releases on behalf of a row are made by an agent at work on it. -/
lemma atWork_of_act (allowed : (m d.agent).Allows (settler d.agent) d.exchange.request)
    (act : d.exchange.request.isCall ∨ d.exchange.request.isRelease)
    (hand : (m d.agent).hand = some (k, id)) : AtWork k id (m d.agent) := by
  obtain ⟨i, ⟨r, a⟩, found, left⟩ := d
  refine ⟨hand, ?_⟩
  cases r with
  | ledger r =>
    cases r with
    | release c n => exact allowed.1
    | _ => simp [Request.isCall, Request.isRelease] at act
  | call c p => exact .inl allowed.1
  | _ => simp [Request.isCall, Request.isRelease] at act

/-- As long as a row is not granted to anybody, nobody starts to work on it. -/
lemma not_atWork (h : js.Ordered settler m) (none : grants k id js = 0)
    (idle : ∀ i, ¬ AtWork k id (m i)) : ¬ AtWork k id (js.foldl see m i) := by
  induction js generalizing m with
  | nil => exact idle i
  | cons d js ih =>
    obtain ⟨allowed, rest⟩ := h
    have notGranted : ¬ isGrant k id d.exchange = true :=
      fun grant => List.countP_eq_zero.1 none d List.mem_cons_self grant
    have none' : grants k id js = 0 :=
      List.countP_eq_zero.2 fun g hg => List.countP_eq_zero.1 none g (List.mem_cons_of_mem _ hg)
    refine ih rest none' ?_
    intro i work
    by_cases hi : i = d.agent
    · subst hi
      rw [see_self] at work
      obtain ⟨hand, phase⟩ := work
      have before := idle d.agent
      -- Work starts with a grant, and any other turn only goes on with it or ends it.
      cases Conduct.turn allowed with
      | granted grant hand' =>
        cases hand.symm.trans hand'
        exact notGranted grant
      | barred barred => rw [barred] at phase; rcases phase with phase | phase <;> cases phase
      | called _ same granted => exact before ⟨same ▸ hand, .inl granted⟩
      | gone _ _ _ gone => rw [gone] at phase; rcases phase with phase | phase <;> cases phase
      | same _ same phase' => exact before ⟨same ▸ hand, phase' ▸ phase⟩
    · rw [see_of_ne hi] at work
      exact idle i work

/-- Where a row is granted once at most, nothing is done for it any more once its transaction is or
may be through. -/
lemma nothing_after_gone {pre post rest : Journal ι σ} {w : Deed ι σ}
    (h : (pre ++ [w] ++ (post ++ d :: rest)).Ordered settler fun _ => .initial)
    (once : grants k id (pre ++ [w] ++ (post ++ d :: rest)) ≤ 1)
    (hand : (seen pre w.agent).hand = some (k, id))
    (called : (seen pre w.agent).phase = .called)
    (gone : (seen (pre ++ [w]) w.agent).phase = .gone)
    (act : d.exchange.request.isCall ∨ d.exchange.request.isRelease) :
    (seen (pre ++ [w] ++ post) d.agent).hand ≠ some (k, id) := by
  intro hand'
  obtain ⟨ordered, after⟩ := ordered_append.1 h
  -- The grant of the row was the agent's own.
  obtain ⟨g, hg, agent, grant⟩ : ∃ g ∈ pre, g.agent = w.agent ∧ isGrant k id g.exchange = true :=
    exists_grant (ordered_append.1 ordered).1 hand (by rw [called]; exact nofun)
  have hg' : g ∈ pre ++ [w] := List.mem_append_left _ hg
  have split : grants k id (pre ++ [w] ++ (post ++ d :: rest)) =
      grants k id (pre ++ [w]) + (grants k id post + grants k id (d :: rest)) := by
    rw [grants_append, grants_append post]
  have positive : 0 < grants k id (pre ++ [w]) := List.countP_pos_iff.2 ⟨g, hg', grant⟩
  -- So nobody is at work on the row when its transaction is through.
  have idle : ∀ i, ¬ AtWork k id (seen (pre ++ [w]) i) := by
    rintro i ⟨held, phase⟩
    obtain ⟨g', mem, agent', grant'⟩ : ∃ g' ∈ pre ++ [w], g'.agent = i ∧
        isGrant k id g'.exchange = true :=
      exists_grant ordered held (by rcases phase with phase | phase <;> rw [phase] <;> exact nofun)
    have few : grants k id (pre ++ [w]) ≤ 1 := by omega
    have same : g = g' := eq_of_countP_le_one few hg' mem grant grant'
    rw [← agent', ← same, agent, gone] at phase
    rcases phase with phase | phase <;> cases phase
  have late : ¬ AtWork k id (post.foldl see (seen (pre ++ [w])) d.agent) :=
    not_atWork (ordered_append.1 after).1 (by omega) idle
  have allowed :
      ((seen (pre ++ [w] ++ post)) d.agent).Allows (settler d.agent) d.exchange.request := by
    rw [seen_append]
    exact (ordered_append.1 after).2.1
  rw [← seen_append] at late
  exact late (atWork_of_act allowed act hand')

end Journal

end Payout.Settlement
