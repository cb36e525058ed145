import Payout.Proofs.Ledger.Persistence
import Payout.Proofs.Settlement.Sharing

/-!
# Sessions on one ledger file

One settler after another opens the same ledger file, makes passes and is cut off: between two
steps, inside a step on the disk, or while the chain has not answered. Any step on the disk may
fail, and the chain answers anything. Over all sessions together no row is paid out twice, and
whenever a call is made the document says that its row was taken up (`calls_of_sessions`).
-/

namespace Payout.Settlement
open Ledger Journal

/-- A disk, the number of the present session, and what it has opened and has yet to do. -/
structure Service where
  disk : Disk
  session : Nat
  running : Option (Store × Step (Unit × KnownDecimals))

namespace Service

/-- No session yet. -/
def start (d : Disk) : Service := ⟨d, 0, none⟩

/-- The next session is to come. -/
def ended (S : Service) (d : Disk) : Service := ⟨d, S.session + 1, none⟩

section Moves

variable (settler : Nat → Settler) (passes : Nat → Nat) (path : String)

/-- One step, and the deed it consists of. A session that is cut off while the chain is called is
one whose call was answered somehow before. -/
inductive Moves : Service → Journal Nat Disk → Service → Prop where
  | opened {S s d} :
    S.running = none →
    Disk.Runs (Store.opened (.file path)) S.disk d (some (.ok s)) →
    Moves S [] { S with
      disk := d
      running := some (s, (settler S.session).polls (passes S.session) fun _ => none) }
  | unopened {S o d} :
    S.running = none →
    Disk.Runs (Store.opened (.file path)) S.disk d o →
    Moves S [] (S.ended d)
  | answered {S s r next now a s' d} :
    S.running = some (s, .ask (.ledger r) next) →
    Disk.Runs (s.answer now r) S.disk d (some (a, s')) →
    Moves S [⟨S.session, ⟨.ledger r, a⟩, S.disk, d⟩]
      { S with disk := d, running := some (s', next a) }
  | elsewhere {S s r next a} :
    S.running = some (s, .ask r next) →
    (∀ q, r ≠ .ledger q) →
    Moves S [⟨S.session, ⟨r, a⟩, S.disk, S.disk⟩] { S with running := some (s, next a) }
  | cut {S} :
    Moves S [] (S.ended S.disk)
  | broken {S s r next now d} :
    S.running = some (s, .ask (.ledger r) next) →
    Disk.Runs (s.answer now r) S.disk d none →
    Moves S [] (S.ended d)

/-- Any number of steps, with all deeds in order. -/
inductive Runs (S : Service) : Journal Nat Disk → Service → Prop where
  | refl :
    Runs S [] S
  | step {js S' ds S''} :
    Runs S js S' →
    Moves settler passes path S' ds S'' →
    Runs S (js ++ ds) S''

/-- What holds of the sessions at every moment. -/
structure Invariant (js : Journal Nat Disk) (S : Service) : Prop where
  made : ∀ i, ∃ q, ((settler i).polls (passes i) fun _ => none).Reaches (own i js) q
  present : ∀ s p, S.running = some (s, p) → s.Agrees path S.disk ∧
    ((settler S.session).polls (passes S.session) fun _ => none).Reaches (own S.session js) p
  future : ∀ i, S.session ≤ i → S.running = none ∨ i ≠ S.session → own i js = []
  sound : ∀ d ∈ js, Sound d.exchange
  once : ∀ k id, grants k id js ≤ 1
  taken : ∀ k id, 0 < grants k id js → ∃ t, Recorded path S.disk t ∧ t.Taken k id

end Moves

section Steps

variable {settler : Nat → Settler} {passes : Nat → Nat} {path : String} {js ds : Journal Nat Disk}
  {S S' : Service} {d : Disk}

/-- The invariant holds before the first session. -/
lemma invariant_start : Invariant settler passes path [] (start d) where
  made _ := ⟨_, .here⟩
  present _ _ running := nomatch running
  future _ _ _ := rfl
  sound _ hd := absurd hd List.not_mem_nil
  once _ _ := Nat.zero_le 1
  taken _ _ some := absurd some (Nat.lt_irrefl 0)

/-- The document on one disk holds what the other holds, or what came of it. -/
def Continues (path : String) (d d' : Disk) : Prop :=
  ∀ t, Recorded path d t → ∃ t', Recorded path d' t' ∧ t.Later t'

/-- A document continues itself. -/
lemma Continues.refl : Continues path d d := fun t recorded => ⟨t, recorded, .refl t⟩

/-- A row that was taken up in a document is so in one that continues it. -/
lemma Continues.taken {d d' k id} (h : Continues path d d')
    (taken : ∃ t, Recorded path d t ∧ t.Taken k id) :
    ∃ t, Recorded path d' t ∧ t.Taken k id := by
  obtain ⟨t, recorded, taken⟩ := taken
  obtain ⟨t', recorded', later⟩ := h t recorded
  exact ⟨t', recorded', later.taken taken⟩

namespace Invariant

/-- A session may end at any moment. -/
lemma ended (h : Invariant settler passes path js S) (keeps : Continues path S.disk d) :
    Invariant settler passes path js (S.ended d) where
  made := h.made
  present _ _ running := nomatch running
  future i later _ := h.future i (Nat.le_of_succ_le later) (.inr (Nat.ne_of_gt later))
  sound := h.sound
  once := h.once
  taken k id some := keeps.taken (h.taken k id some)

/-- A session that is answered goes on along its passes. -/
lemma reaches (h : Invariant settler passes path js S) {s r next} (a : r.Answer)
    (running : S.running = some (s, .ask r next)) :
    ((settler S.session).polls (passes S.session) fun _ => none).Reaches
      (own S.session (js ++ [⟨S.session, ⟨r, a⟩, S.disk, d⟩])) (next a) := by
  have last : own S.session [(⟨S.session, ⟨r, a⟩, S.disk, d⟩ : Deed Nat Disk)] = [⟨r, a⟩] :=
    own_self
  rw [own_append, last]
  exact (h.present s _ running).2.snoc a

/-- One more deed of the present session, if it granted nothing twice and nothing that is not
written down. -/
lemma snoc (h : Invariant settler passes path js S) {s s' r next} {a : r.Answer}
    (running : S.running = some (s, .ask r next)) (agrees : s'.Agrees path d)
    (sound : Sound ⟨r, a⟩) (keeps : Continues path S.disk d)
    (granted : ∀ k id, isGrant k id ⟨r, a⟩ = true →
      grants k id js = 0 ∧ ∃ t, Recorded path d t ∧ t.Taken k id) :
    Invariant settler passes path (js ++ [⟨S.session, ⟨r, a⟩, S.disk, d⟩])
      { S with disk := d, running := some (s', next a) } where
  made i := by
    by_cases present : i = S.session
    · rw [present]
      exact ⟨next a, h.reaches a running⟩
    · rw [own_append, own_of_ne present, List.append_nil]
      exact h.made i
  present := by
    rintro _ _ ⟨⟩
    exact ⟨agrees, h.reaches a running⟩
  future i later other := by
    have absent : i ≠ S.session := other.resolve_left nofun
    rw [own_append, own_of_ne absent, List.append_nil]
    exact h.future i later (.inr absent)
  sound := by
    intro d' hd'
    rcases List.mem_append.1 hd' with hd' | hd'
    · exact h.sound d' hd'
    · cases List.mem_singleton.1 hd'
      exact sound
  once k id := grants_snoc_le (h.once k id) fun grant => (granted k id grant).1
  taken k id some := by
    obtain grant | before := grants_snoc_pos some
    · exact (granted k id grant).2
    · exact keeps.taken (h.taken k id before)

/-- The next request is in order. -/
lemma allows (h : Invariant settler passes path js S) {s r next}
    (running : S.running = some (s, .ask r next)) :
    (seen js S.session).Allows (settler S.session) r :=
  allows_of_passes h.sound (h.present s _ running).2

/-- Whatever the sessions have asked was in order. -/
lemma ordered (h : Invariant settler passes path js S) : js.Ordered settler fun _ => .initial :=
  ordered_of_passes h.sound h.made

end Invariant

/-- What an answer leaves in the document, whole or cut off, continues what was there. -/
lemma continues_of_answer (other : temporaryPath path ≠ path) {s : Store} {now r o}
    (settles : r.Settles)
    (agrees : s.Agrees path d) {d'} (answer : Disk.Runs (s.answer now r) d d' o) :
    Continues path d d' := by
  intro t recorded
  obtain ⟨t', recorded', rfl | ⟨v, performed⟩⟩ := (runs_answer other agrees answer).1 t recorded
  · exact ⟨t', recorded', .refl t'⟩
  · exact ⟨t', recorded', Tables.later_perform settles performed⟩

/-- A row that is granted was not granted before, and is taken up in the document. -/
lemma granted_once {s s' : Store} {d' : Disk} {now k id}
    (taken : 0 < grants k id js → ∃ t, Recorded path d t ∧ t.Taken k id) (agrees : s.Agrees path d)
    (agrees' : s'.Agrees path d')
    (performed : Tables.perform now (.claim k id) s.tables = .ok (true, s'.tables)) :
    grants k id js = 0 ∧ ∃ t, Recorded path d' t ∧ t.Taken k id := by
  obtain ⟨row, before, free, after⟩ := Tables.perform_claim_true performed
  -- Tables with a row are those of the document.
  have filled {s : Store} {d row} (agrees : s.Agrees path d)
      (found : s.tables.row? k id = some row) :
      Recorded path d s.tables := by
    obtain empty | recorded := agrees.2
    · rw [empty] at found
      cases k <;> cases found
    · exact recorded
  constructor
  · by_contra some
    obtain ⟨t, recorded, row', before', free'⟩ := taken (Nat.pos_of_ne_zero some)
    cases recorded.unique (filled agrees before)
    cases before.symm.trans before'
    exact free' free
  · exact ⟨s'.tables, filled agrees' after, row.claimed now, after, nofun⟩

/-- Every step keeps the invariant. -/
lemma Moves.invariant (other : temporaryPath path ≠ path) (move : Moves settler passes path S ds S')
    (h : Invariant settler passes path js S) : Invariant settler passes path (js ++ ds) S' := by
  cases move with
  | opened closed opening =>
    rename_i s d
    obtain ⟨rfl, opened⟩ := runs_opened opening
    rw [List.append_nil]
    -- A session that has just been opened has done nothing.
    refine ⟨h.made, ?_, fun i later absent => ?_, h.sound, h.once, h.taken⟩
    · rintro _ _ ⟨⟩
      refine ⟨opened s rfl, ?_⟩
      rw [h.future S.session (Nat.le_refl _) (.inl closed)]
      exact .here
    · exact h.future i later (.inr (absent.resolve_left nofun))
  | unopened closed opening =>
    obtain ⟨rfl, -⟩ := runs_opened opening
    rw [List.append_nil]
    exact h.ended .refl
  | answered running answer =>
    rename_i s r next now a s' d
    obtain ⟨agrees, -⟩ := h.present s _ running
    obtain ⟨agrees', answered⟩ := (runs_answer other agrees answer).2 a s' rfl
    have keeps := continues_of_answer other (settles_of_allows (h.allows running)) agrees answer
    refine h.snoc running agrees' ?_ keeps fun k id grant => ?_
    · obtain ⟨v, performed, rfl⟩ | ⟨e, rfl, -⟩ := answered
      · exact sound_of_perform performed
      · cases r <;> trivial
    · cases isGrant_iff.1 grant
      obtain ⟨v, performed, value⟩ | ⟨e, value, -⟩ := answered
      · cases value
        exact granted_once (h.taken _ _) agrees agrees' performed
      · cases value
  | elsewhere running elsewhere =>
    rename_i s r next a
    obtain ⟨agrees, -⟩ := h.present s _ running
    refine h.snoc running agrees ?_ .refl fun k id grant => ?_
    · cases r with
      | ledger q => exact absurd rfl (elsewhere q)
      | _ => trivial
    · cases isGrant_iff.1 grant
      exact absurd rfl (elsewhere _)
  | cut =>
    rw [List.append_nil]
    exact h.ended .refl
  | broken running answer =>
    rw [List.append_nil]
    -- The answer was cut off, so nobody was granted anything, but the document may have gone on.
    obtain ⟨agrees, -⟩ := h.present _ _ running
    exact h.ended
      (continues_of_answer other (settles_of_allows (h.allows running)) agrees answer)

/-- The invariant holds after every run. -/
lemma Runs.invariant (other : temporaryPath path ≠ path)
    (run : (start d).Runs settler passes path js S) : Invariant settler passes path js S := by
  induction run with
  | refl => exact invariant_start
  | step _ move ih => exact move.invariant other ih

/-- A step is at most one deed, which finds the disk as it was. -/
lemma Moves.few (move : Moves settler passes path S ds S') :
    ds = [] ∨ ∃ e, ds = [e] ∧ e.found = S.disk := by
  cases move with
  | answered => exact .inr ⟨_, rfl, rfl⟩
  | elsewhere => exact .inr ⟨_, rfl, rfl⟩
  | _ => exact .inl rfl

/-- Before each deed a run has come to the disk that the deed found. -/
lemma Runs.before {pre post e} (run : S.Runs settler passes path js S')
    (split : js = pre ++ e :: post) :
    ∃ S₁, S.Runs settler passes path pre S₁ ∧ e.found = S₁.disk := by
  induction run generalizing post with
  | refl => cases pre <;> cases split
  | @step js S₁ ds S₂ run move ih =>
    -- The deed is the last step's, or it was there before.
    obtain rfl | ⟨last, rfl, found⟩ := move.few
    · rw [List.append_nil] at split
      exact ih split
    · rcases List.eq_nil_or_concat post with rfl | ⟨post, e', rfl⟩
      · obtain ⟨rfl, same⟩ := List.append_inj' split rfl
        cases same
        exact ⟨S₁, run, found⟩
      · have split' : js ++ [last] = (pre ++ e :: post) ++ [e'] := by simpa using split
        exact ih (List.append_inj' split' rfl).1

end Steps

end Service

/-- **No row is paid out twice, over any number of sessions.** A row is granted once at most and at
most one call is made on its behalf, wherever the sessions are cut off and whatever fails. When a
call is made, it pays out what the row asks for, the document says that the first row of its id was
taken up, and no later claim of the row is granted. -/
theorem calls_of_sessions (settler : Nat → Settler) (passes : Nat → Nat) {path : String}
    (other : temporaryPath path ≠ path) {disk : Disk} {js : Journal Nat Disk} {S : Service}
    (run : (Service.start disk).Runs settler passes path js S) :
    (∀ k id, grants k id js ≤ 1 ∧ calls k id js ≤ 1) ∧
      ∀ pre d post c price a, js = pre ++ d :: post → d.exchange = ⟨.call c price, a⟩ →
        ∃ k id, (seen pre d.agent).hand = some (k, id) ∧
          (∃ o, (seen pre d.agent).Holds k o ∧
            (settler d.agent).Pays (seen pre d.agent).reported k o c) ∧
          (∃ t, Recorded path d.found t ∧ t.Taken k id) ∧
          ∀ d' ∈ post, d'.exchange ≠ ⟨.ledger (.claim k id), .ok true⟩ := by
  have inv := run.invariant other
  refine ⟨fun k id => ⟨inv.once k id, (calls_le_grants inv.ordered).trans (inv.once k id)⟩, ?_⟩
  intro pre d post c price a split call
  have ordered := inv.ordered
  rw [split] at ordered
  have allowed := allows_of_ordered ordered
  rw [call] at allowed
  obtain ⟨phase, k, o, ⟨row, listed, hand, order⟩, pays⟩ := allowed
  obtain ⟨g, hg, -, grant⟩ := exists_grant (ordered_append.1 ordered).1 hand
    (by rw [phase]; exact nofun)
  have granted : 0 < grants k row.id pre := List.countP_pos_iff.2 ⟨g, hg, grant⟩
  refine ⟨k, row.id, hand, ⟨o, ⟨row, listed, hand, order⟩, pays⟩, ?_, ?_⟩
  · -- The grant was written down before it was answered, and the document has only gone on since.
    obtain ⟨S₁, run₁, found⟩ := run.before split
    rw [found]
    exact (run₁.invariant other).taken k row.id granted
  · intro d' hd' claim
    have again : 0 < grants k row.id (d :: post) :=
      List.countP_pos_iff.2 ⟨d', List.mem_cons_of_mem _ hd', isGrant_iff.2 claim⟩
    have once := inv.once k row.id
    rw [split, grants_append] at once
    omega

namespace Service

/-- The next step of the present session, on a disk that serves every step and in surroundings that
answer all that the ledger is not asked. -/
def turn (surroundings : (r : Request) → r.Answer) (now : Instant) (S : Service) :
    Journal Nat Disk × Service :=
  match S.running with
  | none => ([], S)
  | some (_, .done _) => ([], S)
  | some (s, .ask (.ledger r) next) =>
    let ((a, s'), d) := (s.answer now r).run Disk.answer S.disk
    ([⟨S.session, ⟨.ledger r, a⟩, S.disk, d⟩], { S with disk := d, running := some (s', next a) })
  | some (s, .ask r next) =>
    ([⟨S.session, ⟨r, surroundings r⟩, S.disk, S.disk⟩],
      { S with running := some (s, next (surroundings r)) })

/-- The next steps of the present session. -/
def turns (surroundings : (r : Request) → r.Answer) (now : Instant) (S : Service) :
    Nat → Journal Nat Disk × Service
  | 0 => ([], S)
  | n + 1 =>
    let (ds, S) := S.turn surroundings now
    let (ds', S) := S.turns surroundings now n
    (ds ++ ds', S)

/-- The present session is cut off, and the next one opens what the last had. -/
def restart (settler : Nat → Settler) (passes : Nat → Nat) (S : Service) : Service :=
  { S with
    session := S.session + 1
    running := S.running.map fun (s, _) =>
      (s, (settler (S.session + 1)).polls (passes (S.session + 1)) fun _ => none) }

variable {settler : Nat → Settler} {passes : Nat → Nat} {path : String} {js : Journal Nat Disk}
  {S S' : Service} {d : Disk} {surroundings : (r : Request) → r.Answer} {now : Instant}

/-- A run goes on with the next step of the present session. -/
lemma Runs.turn (run : S.Runs settler passes path js S') :
    S.Runs settler passes path (js ++ (S'.turn surroundings now).1)
      (S'.turn surroundings now).2 := by
  unfold Service.turn
  split
  case h_1 =>
    rw [List.append_nil]
    exact run
  case h_2 =>
    rw [List.append_nil]
    exact run
  case h_3 s r next running => exact run.step (.answered running (Disk.runs_run _ _))
  case h_4 s r next other running =>
    refine run.step (.elsewhere running ?_)
    rintro q rfl
    exact other q next rfl .rfl

/-- A run goes on with the next steps of the present session. -/
lemma Runs.turns {n} (run : S.Runs settler passes path js S') :
    S.Runs settler passes path (js ++ (S'.turns surroundings now n).1)
      (S'.turns surroundings now n).2 := by
  induction n generalizing js S' with
  | zero =>
    rw [Service.turns, List.append_nil]
    exact run
  | succ n ih =>
    rw [Service.turns, ← List.append_assoc]
    exact ih run.turn

/-- What one session leaves the next one opens. -/
lemma Runs.restart (other : temporaryPath path ≠ path)
    (run : (start d).Runs settler passes path js S)
    (filled : S.running.all (fun r => r.1.tables ≠ .empty) = true) :
    (start d).Runs settler passes path js (S.restart settler passes) := by
  have ended : (start d).Runs settler passes path (js ++ []) (S.ended S.disk) := run.step .cut
  cases running : S.running with
  | none =>
    have same : S.restart settler passes = S.ended S.disk := by
      simp [Service.restart, Service.ended, running]
    rw [same, ← List.append_nil js]
    exact ended
  | some r =>
    obtain ⟨⟨backend, t⟩, p⟩ := r
    obtain ⟨⟨file, held⟩, -⟩ := (run.invariant other).present _ p running
    dsimp only at file held
    subst file
    have recorded : Recorded path S.disk t := by
      refine held.resolve_left ?_
      rw [running] at filled
      simpa using filled
    have opened : (start d).Runs settler passes path (js ++ [] ++ []) _ :=
      ended.step (.opened rfl (runs_opened_of_recorded recorded))
    rw [List.append_nil, List.append_nil] at opened
    have same : S.restart settler passes = ⟨S.disk, S.session + 1, some (⟨.file path, t⟩,
        (settler (S.session + 1)).polls (passes (S.session + 1)) fun _ => none)⟩ := by
      simp only [Service.restart, running]
      rfl
    rw [same]
    exact opened

end Service

/-- A disk with a document of two rows that share an id. -/
def stocked : Disk :=
  ⟨[(["home", "l"], .file (Bytes.ofText (rowsForOnePart ["w", "w"]).document)),
    (Disk.home, .directory)]⟩

/-- The first session on that disk, before its first step. -/
def opened : Service :=
  ⟨stocked, 0, some (⟨.file "l", rowsForOnePart ["w", "w"]⟩, partsOnly.polls 1 fun _ => none)⟩

/-- The first session up to its call. -/
def called : Journal Nat Disk × Service := opened.turns obliging noon 7

/-- The session is cut off before the call is answered, and the next one finds the other row. -/
def resumed : Journal Nat Disk × Service :=
  (called.2.restart (fun _ => partsOnly) fun _ => 1).turns obliging noon 6

/-- Over a session that is cut off at its call and the one after it, one call is made for the two
rows of an id. -/
theorem calls_of_restart :
    temporaryPath "l" ≠ "l" ∧
      (Service.start stocked).Runs (fun _ => partsOnly) (fun _ => 1) "l"
        (called.1 ++ resumed.1) resumed.2 ∧
      calls .asset "w" (called.1 ++ resumed.1) = 1 ∧
      ∀ k id, grants k id (called.1 ++ resumed.1) ≤ 1 ∧ calls k id (called.1 ++ resumed.1) ≤ 1 := by
  have other : temporaryPath "l" ≠ "l" := by decide
  have recorded : Recorded "l" stocked (rowsForOnePart ["w", "w"]) :=
    ⟨_, rfl, Tables.ofDocument?_bytes _⟩
  have first :
      (Service.start stocked).Runs (fun _ => partsOnly) (fun _ => 1) "l" ([] ++ []) opened :=
    .step .refl (.opened rfl (runs_opened_of_recorded recorded))
  have cutOff : (Service.start stocked).Runs (fun _ => partsOnly) (fun _ => 1) "l"
      ([] ++ [] ++ called.1) called.2 :=
    first.turns
  rw [List.append_nil, List.nil_append] at cutOff
  have run : (Service.start stocked).Runs (fun _ => partsOnly) (fun _ => 1) "l"
      (called.1 ++ resumed.1) resumed.2 :=
    (cutOff.restart other (by decide)).turns
  exact ⟨other, run, by decide, (calls_of_sessions _ _ other run).1⟩

end Payout.Settlement
