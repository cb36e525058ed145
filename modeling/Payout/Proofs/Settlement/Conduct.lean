import Payout.Proofs.Settlement.Courses

/-!
# The conduct of a settler

What may be said of a settler at every moment, from nothing but what it has asked and was answered
so far. `Conduct` keeps the rows it was given, the numbers of decimals it was told, the row it asked
for last and how far the work on that row has come; `Allows` says which requests are in order then.
A settler that makes any number of passes only ever makes requests that are in order
(`polls_orderly`), wherever it is cut off: it calls the chain once for a row that it was granted and
as the row's order says, waits once for that call, and puts no asset back whose transaction is
through or may be.
-/

namespace Payout

/-- The token that a call hands out. -/
def ContractCall.token? : ContractCall → Option (AssetClass × UInt64)
  | .mintAsset c _ n _ => some (c, n)
  | .transferFromVault c _ n => some (c, n)
  | _ => none

namespace Settlement
open Program

/-- How far the work on the row that was asked for last has come. -/
inductive Phase where
  /-- The row was not granted. -/
  | barred
  /-- The row was granted. -/
  | granted
  /-- The call for the row was made. -/
  | called
  /-- The transaction of the row is through, or may be. -/
  | gone
deriving DecidableEq

/-- Where the answer to a claim leaves a row. -/
def Phase.ofClaim : Except LedgerError Bool → Phase
  | .ok true => .granted
  | _ => .barred

/-- What a settler has seen so far. -/
structure Conduct where
  listed : List ((k : Kind) × Withdrawal k.Order)
  reported : List (CurrencyClass × UInt8)
  /-- The row that was asked for last. -/
  hand : Option (Kind × String)
  phase : Phase

/-- Whether a transaction that was waited for is through or may be: it succeeded, or the time was
up. -/
def mayBeThrough : Except ChainError Receipt → Bool
  | .ok receipt => receipt.success
  | .error (.confirmationTimeout _ _) => true
  | .error _ => false

namespace Conduct

/-- Nothing was seen. -/
def initial : Conduct := ⟨[], [], none, .barred⟩

/-- What was seen after one more exchange. -/
def next (m : Conduct) (e : Exchange interface) : Conduct :=
  match e with
  | ⟨.ledger (.unprocessed k), .ok rows⟩ => { m with listed := m.listed ++ rows.map (⟨k, ·⟩) }
  | ⟨.ledger (.claim k id), a⟩ =>
    { m with hand := some (k, id), phase := .ofClaim a }
  | ⟨.decimals c, .ok d⟩ => { m with reported := (c, d) :: m.reported }
  | ⟨.call _ _, _⟩ => { m with phase := .called }
  | ⟨.wait _ _ _, a⟩ => { m with phase := if mayBeThrough a then .gone else m.phase }
  | _ => m

/-- What was seen after exchanges. -/
def after (m : Conduct) (es : Trace) : Conduct := es.foldl next m

end Conduct

/-- An amount in on-chain units, by a number of decimals that was reported if one is needed. -/
def Converts (x : CurrencyPayout) (reported : List (CurrencyClass × UInt8)) (amount : Decimal)
    (units : Nat) : Prop :=
  match x.scale with
  | none => amount.toChainUnits none = .ok units
  | some scale => ∃ d, (x.currencyClass, d) ∈ reported ∧
      amount.toChainUnits (some ⟨scale, d⟩) = .ok units

/-- A call pays out what an order asks for: the asset, or the amount to the destination. -/
def Settler.Pays (s : Settler) (reported : List (CurrencyClass × UInt8)) :
    (k : Kind) → k.Order → ContractCall → Prop
  | .asset, (o : AssetOrder), c => c.token? = some (o.assetClass, o.tokenId)
  | .currency, (o : CurrencyOrder), c => ∃ x units, s.currencyPayout o.currencyClass = some x ∧
      Converts x reported o.amount units ∧ c = x.callFor o.destination units

namespace Conduct

/-- The row that was asked for last is one that was listed with an order. -/
def Holds (m : Conduct) (k : Kind) (o : k.Order) : Prop :=
  ∃ row : Withdrawal k.Order, ⟨k, row⟩ ∈ m.listed ∧ m.hand = some (k, row.id) ∧ row.order = o

/-- The requests that are in order. -/
def Allows (s : Settler) (m : Conduct) : Request → Prop
  | .call c _ => m.phase = .granted ∧ ∃ k o, m.Holds k o ∧ s.Pays m.reported k o c
  | .wait _ _ _ => m.phase = .called
  | .ledger (.release c n) =>
    (m.phase = .granted ∨ m.phase = .called) ∧ m.Holds .asset (AssetOrder.mk c n)
  | .ledger (.update _ _ o) => o.state ≠ .unprocessed
  | _ => True

/-- Every request of a trace is in order when it is made. -/
def Orderly (s : Settler) (m : Conduct) : Trace → Prop
  | [] => True
  | e :: es => m.Allows s e.request ∧ (m.next e).Orderly s es

variable {s : Settler} {m : Conduct} {e : Exchange interface} {es fs : Trace}

/-- Without exchanges no more was seen. -/
@[simp] lemma after_nil : m.after [] = m := rfl

/-- What the first exchange shows is seen before the others. -/
@[simp] lemma after_cons : m.after (e :: es) = (m.next e).after es := rfl

/-- What was seen after some exchanges is where the others go on from. -/
@[simp] lemma after_append : m.after (es ++ fs) = (m.after es).after fs := List.foldl_append

/-- A trace without exchanges is in order. -/
@[simp] lemma orderly_nil : m.Orderly s [] := trivial

/-- A trace is in order if its first request is, and the others after what was seen then. -/
@[simp] lemma orderly_cons :
    m.Orderly s (e :: es) ↔ m.Allows s e.request ∧ (m.next e).Orderly s es :=
  .rfl

/-- Two traces are in order one after the other if the second is after what the first has shown. -/
@[simp] lemma orderly_append :
    m.Orderly s (es ++ fs) ↔ m.Orderly s es ∧ (m.after es).Orderly s fs := by
  induction es generalizing m with
  | nil => simp
  | cons e es ih => simp [ih, and_assoc]

/-- What was listed and reported stays so. -/
lemma grows_next : m.listed ⊆ (m.next e).listed ∧ m.reported ⊆ (m.next e).reported := by
  unfold next
  split
  case h_1 => exact ⟨List.subset_append_left _ _, fun _ h => h⟩
  case h_3 => exact ⟨fun _ h => h, List.subset_cons_self _ _⟩
  all_goals exact ⟨fun _ h => h, fun _ h => h⟩

/-- A row that was listed stays so. -/
lemma listed_after : m.listed ⊆ (m.after es).listed := by
  induction es generalizing m with
  | nil => exact fun _ h => h
  | cons e es ih => exact fun _ h => ih (grows_next.1 h)

/-- A row that is listed in the end was so at first or was brought by a list. -/
lemma exists_listing_from {k} {row : Withdrawal k.Order} (h : ⟨k, row⟩ ∈ (m.after es).listed) :
    ⟨k, row⟩ ∈ m.listed ∨
      ∃ e ∈ es, ∃ rows, e = ⟨.ledger (.unprocessed k), .ok rows⟩ ∧ row ∈ rows := by
  induction es generalizing m with
  | nil => exact .inl h
  | cons e es ih =>
    obtain h | ⟨e', mem, rows, he, hrow⟩ := ih h
    · unfold next at h
      split at h
      case h_1 =>
        rename_i k' rows _
        rcases List.mem_append.1 h with h | h
        · exact .inl h
        · obtain ⟨row', hrow, e⟩ := List.mem_map.1 h
          cases e
          exact .inr ⟨_, List.mem_cons_self, rows, rfl, hrow⟩
      all_goals exact .inl h
    · exact .inr ⟨e', List.mem_cons_of_mem _ mem, rows, he, hrow⟩

/-- A row that is listed after a start from nothing was brought by a list. -/
lemma exists_listing {k} {row : Withdrawal k.Order} (h : ⟨k, row⟩ ∈ (initial.after es).listed) :
    ∃ e ∈ es, ∃ rows, e = ⟨.ledger (.unprocessed k), .ok rows⟩ ∧ row ∈ rows := by
  obtain h | h := exists_listing_from h
  · cases h
  · exact h

/-- A number of decimals that was reported stays so. -/
lemma reported_after : m.reported ⊆ (m.after es).reported := by
  induction es generalizing m with
  | nil => exact fun _ h => h
  | cons e es ih => exact fun _ h => ih (grows_next.2 h)

end Conduct

/-- A claim of a row that was granted. -/
def isGrant (k : Kind) (id : String) (e : Exchange interface) : Bool :=
  match e with
  | ⟨.ledger (.claim k' id'), .ok true⟩ => k' = k ∧ id' = id
  | _ => false

/-- The exchange that grants a row is the claim of it that was answered with true. -/
lemma isGrant_iff {k id} {e : Exchange interface} :
    isGrant k id e = true ↔ e = ⟨.ledger (.claim k id), .ok true⟩ := by
  constructor
  · intro h
    unfold isGrant at h
    split at h
    case h_1 =>
      simp only [decide_eq_true_eq] at h
      obtain ⟨rfl, rfl⟩ := h
      rfl
    case h_2 => cases h
  · rintro rfl
    simp [isGrant]

/-- A contract call. -/
def Request.isCall : Request → Bool
  | .call _ _ => true
  | _ => false

/-- A request to put an asset back. -/
def Request.isRelease : Request → Bool
  | .ledger (.release _ _) => true
  | _ => false

/-- How an exchange that is in order moves the hand and the phase. -/
inductive Turn (m : Conduct) (e : Exchange interface) : Prop where
  | granted {k id} :
    isGrant k id e = true →
    (m.next e).hand = some (k, id) →
    (m.next e).phase = .granted →
    e.request.isCall = false →
    Turn m e
  | barred :
    (m.next e).phase = .barred →
    e.request.isCall = false →
    Turn m e
  | called :
    e.request.isCall = true →
    (m.next e).hand = m.hand →
    m.phase = .granted →
    (m.next e).phase = .called →
    Turn m e
  | gone :
    e.request.isCall = false →
    (m.next e).hand = m.hand →
    m.phase = .called →
    (m.next e).phase = .gone →
    Turn m e
  | same :
    e.request.isCall = false →
    (m.next e).hand = m.hand →
    (m.next e).phase = m.phase →
    Turn m e

/-- A request that is in order moves the hand and the phase in one of the ways that `Turn` lists. -/
lemma Conduct.turn {s : Settler} {m : Conduct} {e : Exchange interface}
    (h : m.Allows s e.request) : Turn m e := by
  obtain ⟨r, a⟩ := e
  cases r with
  | ledger r =>
    cases r with
    | claim k id =>
      match a with
      | .ok true => exact @Turn.granted _ _ k id (by simp [isGrant]) rfl rfl rfl
      | .ok false => exact .barred rfl rfl
      | .error _ => exact .barred rfl rfl
    | unprocessed k => cases a <;> exact .same rfl rfl rfl
    | _ => exact .same rfl rfl rfl
  | call c p => exact .called rfl rfl h.1 rfl
  | wait p n t =>
    by_cases through : mayBeThrough a = true
    · exact .gone rfl rfl h (by simp [Conduct.next, through])
    · exact .same rfl rfl (by simp [Conduct.next, through])
  | decimals c => cases a <;> exact .same rfl rfl rfl
  | _ => exact .same rfl rfl rfl

/-- Exchanges that change nothing in what was seen and are in order with it. -/
lemma orderly_of_forall {s : Settler} {m : Conduct} {es : Trace}
    (h : ∀ e ∈ es, m.next e = m ∧ m.Allows s e.request) : m.Orderly s es ∧ m.after es = m := by
  induction es with
  | nil => exact ⟨trivial, rfl⟩
  | cons e es ih =>
    obtain ⟨same, allowed⟩ := h e List.mem_cons_self
    obtain ⟨orderly, unchanged⟩ := ih fun e he => h e (List.mem_cons_of_mem _ he)
    rw [Conduct.orderly_cons, Conduct.after_cons, same]
    exact ⟨⟨allowed, orderly⟩, unchanged⟩

/-- An exchange that changes nothing in what was seen and is always in order. -/
def Quiet (e : Exchange interface) : Prop :=
  ∀ (s : Settler) (m : Conduct), m.next e = m ∧ m.Allows s e.request

/-- Quiet exchanges are in order, and nothing is seen by them. -/
lemma orderly_of_quiet {s : Settler} {m : Conduct} {es : Trace} (h : ∀ e ∈ es, Quiet e) :
    m.Orderly s es ∧ m.after es = m :=
  orderly_of_forall fun e he => h e he s m

/-- Reports are quiet. -/
lemma Notes.quiet {es : Trace} (h : Notes es) : ∀ e ∈ es, Quiet e := by
  intro e he s m
  obtain ⟨r, a⟩ := e
  obtain ⟨n, rfl⟩ := h _ he
  exact ⟨rfl, trivial⟩

/-- Asking for a gas price is quiet. -/
lemma PriceCourse.quiet {p es r} (h : PriceCourse p es r) : ∀ e ∈ es, Quiet e := by
  intro e he s m
  obtain ⟨req, a⟩ := e
  rcases h.forall _ he with rfl | rfl <;> exact ⟨rfl, trivial⟩

/-- A question about users is quiet. -/
lemma AsksUser.quiet {e : Exchange interface} (h : AsksUser e) : Quiet e := by
  intro s m
  obtain ⟨r, a⟩ := e
  obtain ⟨_, rfl⟩ | ⟨_, rfl⟩ := h <;> exact ⟨rfl, trivial⟩

/-- An answer that could be given: an asset that is brought back is the one that was asked for. -/
def Sound (e : Exchange interface) : Prop :=
  match e with
  | ⟨.ledger (.asset c n), .ok a⟩ => a.isFor c n = true
  | _ => True

section Courses

variable {s : Settler} {m : Conduct} {p : Policy}

/-- A submission leaves everything but the phase as it was, and the transaction is not through where
its failure lets the asset be handed back. -/
lemma SubmitCourse.orderly {signer c es r} (h : SubmitCourse p signer c es r)
    (granted : m.phase = .granted) (pays : ∃ k o, m.Holds k o ∧ s.Pays m.reported k o c) :
    m.Orderly s es ∧ ∃ phase, m.after es = { m with phase := phase } ∧
      ∀ e, r = .error e → e.allowsCompensation = true → phase = .granted ∨ phase = .called := by
  cases h with
  | unpriced priced =>
    obtain ⟨orderly, same⟩ := orderly_of_quiet (s := s) (m := m) priced.quiet
    exact ⟨orderly, m.phase, same, fun _ _ _ => .inl granted⟩
  | refused priced =>
    obtain ⟨orderly, same⟩ := orderly_of_quiet (s := s) (m := m) priced.quiet
    rw [Conduct.orderly_append, Conduct.after_append, same]
    exact ⟨⟨orderly, ⟨granted, pays⟩, trivial⟩, .called, rfl, fun _ _ _ => .inr rfl⟩
  | unconfirmed priced =>
    rename_i price pending e
    obtain ⟨orderly, same⟩ := orderly_of_quiet (s := s) (m := m) priced.quiet
    rw [Conduct.orderly_append, Conduct.after_append, same]
    refine ⟨⟨orderly, ⟨granted, pays⟩, rfl, trivial⟩, _, rfl, ?_⟩
    rintro _ ⟨⟩ allowed
    -- A timeout leaves the transaction gone, but it does not let the asset be handed back.
    cases e with
    | confirmationTimeout => cases allowed
    | _ => exact .inr rfl
  | reverted priced failure =>
    obtain ⟨orderly, same⟩ := orderly_of_quiet (s := s) (m := m) priced.quiet
    rw [Conduct.orderly_append, Conduct.after_append, same]
    refine ⟨⟨orderly, ⟨granted, pays⟩, rfl, trivial⟩, _, rfl, fun _ _ _ => .inr ?_⟩
    simp [mayBeThrough, failure, Conduct.next]
  | confirmed priced =>
    obtain ⟨orderly, same⟩ := orderly_of_quiet (s := s) (m := m) priced.quiet
    rw [Conduct.orderly_append, Conduct.after_append, same]
    exact ⟨⟨orderly, ⟨granted, pays⟩, rfl, trivial, trivial⟩, _, rfl, nofun⟩

/-- An error never sets its row free. -/
lemma outcome_ne_unprocessed (e : SettlementError) : e.outcome.state ≠ .unprocessed := by
  unfold SettlementError.outcome
  split <;> exact nofun

/-- A failure puts an asset back only while its transaction is not through. -/
lemma FailureCourse.orderly {id c n e compensate es} (h : FailureCourse id c n e compensate es)
    (held : m.Holds .asset (AssetOrder.mk c n))
    (notGone : (compensate && e.allowsCompensation) = true → m.phase = .granted ∨
      m.phase = .called) :
    m.Orderly s es := by
  cases h with
  | kept _ notes => exact ⟨outcome_ne_unprocessed e, (orderly_of_quiet notes.quiet).1⟩
  | released allowed notes release =>
    rename_i a notes' fs r n'
    obtain ⟨orderly₁, same₁⟩ := orderly_of_quiet (s := s) (m := m) notes.quiet
    have releasing : m.Orderly s fs ∧ m.after fs = m := by
      apply orderly_of_forall
      intro e he
      obtain ⟨req, a⟩ := e
      rcases release.forall _ he with h | h | ⟨_, h⟩ <;> cases h
      · exact ⟨rfl, notGone allowed, held⟩
      · exact ⟨rfl, trivial⟩
      · exact ⟨rfl, trivial⟩
    rw [List.cons_append, List.cons_append, Conduct.orderly_cons, Conduct.orderly_append,
      Conduct.orderly_append]
    refine ⟨outcome_ne_unprocessed e, ⟨orderly₁, ?_⟩, trivial, trivial⟩
    change (m.after notes').Orderly s fs
    rw [same₁]
    exact releasing.1

/-- The call that hands an asset out names the asset. -/
lemma token?_of_path {x : AssetPayout} {a signer c} (h : x.path a = .ok (signer, c)) :
    c.token? = some (x.assetClass, a.tokenId) := by
  unfold AssetPayout.path at h
  split at h
  · cases h
    rfl
  · split at h <;> cases h
    rfl

/-- Handing an asset out is orderly for a row that asks for it. -/
lemma HandOutCourse.orderly {x : AssetPayout} {a es r} (h : HandOutCourse x p a es r)
    (granted : m.phase = .granted) (held : m.Holds .asset (AssetOrder.mk x.assetClass a.tokenId)) :
    m.Orderly s es ∧ ∃ phase, m.after es = { m with phase := phase } ∧
      ∀ e, r = .error e → e.allowsCompensation = true → phase = .granted ∨ phase = .called := by
  cases h with
  | disowned course =>
    obtain ⟨same, allowed⟩ := course.asksUser.quiet s m
    exact ⟨⟨allowed, trivial⟩, m.phase, same, fun _ _ _ => .inl granted⟩
  | untracked course =>
    obtain ⟨same, allowed⟩ := course.asksUser.quiet s m
    exact ⟨⟨allowed, trivial⟩, m.phase, same, fun _ _ _ => .inl granted⟩
  | submitted course path submission =>
    obtain ⟨same, allowed⟩ := course.asksUser.quiet s m
    rw [Conduct.orderly_cons, Conduct.after_cons, same]
    obtain ⟨orderly, rest⟩ :=
      submission.orderly (s := s) granted ⟨.asset, _, held, token?_of_path path⟩
    exact ⟨⟨allowed, orderly⟩, rest⟩

/-- Paying out an asset is in order for a row that was granted and orders it. -/
lemma PayOutCourse.orderly {x : AssetPayout} {row a es r} (h : PayOutCourse x p row a es r)
    (granted : m.phase = .granted) (held : m.Holds .asset row.order)
    (isFor : a.isFor x.assetClass row.order.tokenId)
    (ofClass : x.assetClass = row.order.assetClass) :
    m.Orderly s es := by
  have same : row.order = AssetOrder.mk x.assetClass row.order.tokenId := by rw [ofClass]
  have token : a.tokenId = row.order.tokenId := by
    simp only [Asset.isFor, decide_eq_true_eq] at isFor
    exact isFor.2
  have held' : m.Holds .asset (AssetOrder.mk x.assetClass a.tokenId) := by
    rw [token, ← same]; exact held
  cases h with
  | failed course failure =>
    obtain ⟨orderly, phase, after, notGone⟩ := course.orderly (s := s) granted held'
    rw [Conduct.orderly_append, after]
    refine ⟨orderly, trivial, failure.orderly ?_ ?_⟩
    · rw [← same]
      exact held
    · intro allowed
      exact notGone _ rfl (by simpa using allowed)
  | unrecorded course =>
    obtain ⟨orderly, _⟩ := course.orderly (s := s) granted held'
    rw [Conduct.orderly_append]
    exact ⟨orderly, nofun, trivial, trivial⟩
  | recorded course =>
    obtain ⟨orderly, _⟩ := course.orderly (s := s) granted held'
    rw [Conduct.orderly_append]
    exact ⟨orderly, nofun, trivial, trivial⟩

/-- Settling an asset row that was granted is orderly. -/
lemma AssetCourse.orderly {row es r} (h : AssetCourse s row es r) (granted : m.phase = .granted)
    (held : m.Holds .asset row.order) (sound : ∀ e ∈ es, Sound e) : m.Orderly s es := by
  cases h with
  | unconfigured _ failure => exact ⟨trivial, failure.orderly held fun _ => .inl granted⟩
  | unloaded _ failure => exact ⟨trivial, trivial, failure.orderly held nofun⟩
  | paidOut set course =>
    have ofClass := s.assetClass_eq set
    have isFor := sound _ List.mem_cons_self
    rw [← ofClass] at isFor
    exact ⟨trivial, course.orderly granted held isFor ofClass⟩

/-- The numbers of decimals that are known were reported. -/
def Conduct.Knows (m : Conduct) (known : KnownDecimals) : Prop :=
  ∀ c d, known c = some d → (c, d) ∈ m.reported

/-- An amount is converted by a number of decimals that was reported, and that is all that is
learnt. -/
lemma AmountCourse.orderly {x : CurrencyPayout} {amount d es r d'}
    (h : AmountCourse x amount d es r d')
    (known : ∀ n, d = some n → (x.currencyClass, n) ∈ m.reported) :
    m.Orderly s es ∧ ∃ reported, m.after es = { m with reported := reported } ∧
      (∀ n, d' = some n → (x.currencyClass, n) ∈ reported) ∧
      ∀ units, r = .ok units → Converts x reported amount units := by
  cases h with
  | unscaled scale =>
    refine ⟨trivial, m.reported, rfl, known, ?_⟩
    intro units h
    simpa [Converts, scale] using h
  | known scale =>
    refine ⟨trivial, m.reported, rfl, known, ?_⟩
    intro units h
    simp only [Converts, scale]
    exact ⟨_, known _ rfl, h⟩
  | unknown => exact ⟨⟨trivial, trivial⟩, m.reported, rfl, nofun, nofun⟩
  | learnt scale =>
    refine ⟨⟨trivial, trivial⟩, _, rfl, ?_, ?_⟩
    · rintro _ ⟨⟩
      exact List.mem_cons_self
    · intro units h
      simp only [Converts, scale]
      exact ⟨_, List.mem_cons_self, h⟩

/-- Paying an order out is orderly for a row that asks for it. -/
lemma PaymentCourse.orderly {x : CurrencyPayout} {order d es r d'}
    (h : PaymentCourse x p order d es r d') (set : s.currencyPayout order.currencyClass = some x)
    (granted : m.phase = .granted) (held : m.Holds .currency order)
    (known : ∀ n, d = some n → (x.currencyClass, n) ∈ m.reported) :
    m.Orderly s es ∧ ∀ n, d' = some n → (x.currencyClass, n) ∈ (m.after es).reported := by
  cases h with
  | unconverted amount =>
    obtain ⟨orderly, reported, after, learnt, _⟩ := amount.orderly (s := s) known
    rw [after]
    exact ⟨orderly, learnt⟩
  | submitted amount course =>
    obtain ⟨orderly, reported, after, learnt, converts⟩ := amount.orderly (s := s) known
    rw [Conduct.orderly_append, Conduct.after_append, after]
    obtain ⟨orderly', phase, after', _⟩ := course.orderly (s := s)
      (m := { m with reported := reported }) granted
      ⟨.currency, order, held, x, _, set, converts _ rfl, rfl⟩
    rw [after']
    exact ⟨⟨orderly, orderly'⟩, learnt⟩

/-- The outcome of a payment never sets its row free. -/
lemma outcomeOf_ne_unprocessed (r : Except SettlementError Confirmed) :
    (CurrencyPayout.outcomeOf r).state ≠ .unprocessed := by
  cases r with
  | ok confirmed => exact nofun
  | error e => exact outcome_ne_unprocessed e

/-- Settling a currency row that was granted is orderly. -/
lemma CurrencyCourse.orderly {row known es r known'} (h : CurrencyCourse s row known es r known')
    (granted : m.phase = .granted) (held : m.Holds .currency row.order) (knows : m.Knows known) :
    m.Orderly s es ∧ (m.after es).Knows known' := by
  cases h with
  | unconfigured _ notes =>
    exact ⟨⟨trivial, outcome_ne_unprocessed _, (orderly_of_quiet notes.quiet).1⟩,
      fun c d h => Conduct.reported_after (knows c d h)⟩
  | paidOut set payment notes notes' =>
    rename_i x fs r d' ns a ns'
    have ofClass := s.currencyClass_eq set
    obtain ⟨orderly, learnt⟩ := payment.orderly (s := s) set granted held
      (fun n h => knows _ n (ofClass ▸ h))
    obtain ⟨quiet, same⟩ := orderly_of_quiet (s := s) (m := m.after fs) notes.quiet
    rw [Conduct.orderly_append, Conduct.orderly_append]
    refine ⟨⟨⟨orderly, quiet⟩, outcomeOf_ne_unprocessed _, (orderly_of_quiet notes'.quiet).1⟩, ?_⟩
    intro c d h
    dsimp only at h
    -- The number of this class was reported now or before, those of other classes before.
    split at h
    case isTrue same =>
      rw [List.append_assoc, Conduct.after_append]
      apply Conduct.reported_after
      rw [same, ← ofClass]
      exact learnt d h
    case isFalse => exact Conduct.reported_after (knows c d h)

/-- Processing a listed row is orderly. -/
lemma RowCourse.orderly {k row known es r known'} (h : RowCourse s k row known es r known')
    (listed : ⟨k, row⟩ ∈ m.listed) (knows : m.Knows known) (sound : ∀ e ∈ es, Sound e) :
    m.Orderly s es ∧ (m.after es).Knows known' := by
  cases h with
  | unclaimed => exact ⟨⟨trivial, trivial, trivial⟩, knows⟩
  | refused => exact ⟨⟨trivial, trivial⟩, knows⟩
  | asset course =>
    rename_i row es
    refine ⟨⟨trivial, course.orderly rfl ⟨row, listed, rfl, rfl⟩ ?_⟩, ?_⟩
    · exact fun e he => sound e (List.mem_cons_of_mem _ he)
    · exact fun c d h => Conduct.reported_after (knows c d h)
  | currency course =>
    rename_i row es
    obtain ⟨orderly, knows'⟩ :=
      course.orderly (m := m.next ⟨.ledger (.claim .currency row.id), .ok true⟩) rfl
        ⟨row, listed, rfl, rfl⟩ knows
    exact ⟨⟨trivial, orderly⟩, knows'⟩

/-- Processing listed rows is orderly. -/
lemma RowsCourse.orderly {k rows known es rs known'} (h : RowsCourse s k rows known es rs known')
    (listed : ∀ row ∈ rows, ⟨k, row⟩ ∈ m.listed) (knows : m.Knows known)
    (sound : ∀ e ∈ es, Sound e) : m.Orderly s es ∧ (m.after es).Knows known' := by
  induction h generalizing m with
  | nil => exact ⟨trivial, knows⟩
  | cons row rows ih =>
    rw [List.forall_mem_append] at sound
    obtain ⟨orderly, knows'⟩ := row.orderly (listed _ List.mem_cons_self) knows sound.1
    rw [Conduct.orderly_append, Conduct.after_append]
    obtain ⟨orderly', knows''⟩ := ih
      (fun row h => Conduct.listed_after (listed row (List.mem_cons_of_mem _ h))) knows' sound.2
    exact ⟨⟨orderly, orderly'⟩, knows''⟩

/-- A pass over one table is in order, and the decimals it goes by were reported. -/
lemma TableCourse.orderly {k summary known es r known'}
    (h : TableCourse s k summary known es r known') (knows : m.Knows known)
    (sound : ∀ e ∈ es, Sound e) : m.Orderly s es ∧ (m.after es).Knows known' := by
  cases h with
  | unlisted => exact ⟨⟨trivial, trivial⟩, knows⟩
  | listed notes course =>
    rename_i rows ns fs rs
    rw [List.forall_mem_append] at sound
    obtain ⟨quiet, same⟩ := orderly_of_quiet (s := s)
      (m := m.next ⟨.ledger (.unprocessed k), .ok rows⟩) notes.quiet
    rw [Conduct.orderly_append, Conduct.after_append, Conduct.after_cons, same]
    obtain ⟨orderly, knows'⟩ := course.orderly
      (m := m.next ⟨.ledger (.unprocessed k), .ok rows⟩)
      (fun row h => List.mem_append_right _ (List.mem_map_of_mem h)) knows sound.2
    exact ⟨⟨⟨trivial, quiet⟩, orderly⟩, knows'⟩

/-- A pass is in order, and the decimals it goes by were reported. -/
lemma PollCourse.orderly {known es r known'} (h : PollCourse s known es r known')
    (knows : m.Knows known) (sound : ∀ e ∈ es, Sound e) :
    m.Orderly s es ∧ (m.after es).Knows known' := by
  cases h with
  | stopped table => exact table.orderly knows sound
  | passed asset currency =>
    rw [List.forall_mem_append] at sound
    obtain ⟨orderly, knows'⟩ := asset.orderly knows sound.1
    obtain ⟨orderly', knows''⟩ := currency.orderly knows' sound.2
    rw [Conduct.orderly_append, Conduct.after_append]
    exact ⟨⟨orderly, orderly'⟩, knows''⟩

/-- Any number of passes are in order. -/
lemma PollsCourse.orderly {n known es known'} (h : PollsCourse s n known es known')
    (knows : m.Knows known) (sound : ∀ e ∈ es, Sound e) : m.Orderly s es := by
  induction h generalizing m with
  | zero => trivial
  | succ poll _ ih =>
    rw [List.forall_mem_append] at sound
    obtain ⟨orderly, knows'⟩ := poll.orderly knows sound.1
    rw [Conduct.orderly_append]
    exact ⟨orderly, ih knows' sound.2⟩

end Courses

/-- Surroundings that answer every request and grant nothing. -/
def deaf : (r : Request) → r.Answer
  | .ledger _ => .error (.backend "")
  | .estimate => .error (.rpc "")
  | .decimals _ => .error (.rpc "")
  | .call _ _ => .error (.rpc "")
  | .wait _ _ _ => .error (.rpc "")
  | .pause => false
  | .note _ => ()

/-- Surroundings that grant nothing give only answers that could be given. -/
lemma sound_deaf (r : Request) : Sound ⟨r, deaf r⟩ := by
  cases r with
  | ledger r => cases r <;> trivial
  | _ => trivial

/-- Passes are orderly from the first request on, wherever they are cut off. -/
theorem polls_orderly {s : Settler} {n es q} (h : (s.polls n fun _ => none).Reaches es q)
    (sound : ∀ e ∈ es, Sound e) : Conduct.initial.Orderly s es := by
  -- A path that was cut off goes on to an end where nothing is granted.
  obtain ⟨fs, a, ends, answered⟩ := h.extend deaf
  have orderly := (polls_course ends).orderly (m := .initial) nofun (by
    rw [List.forall_mem_append]
    refine ⟨sound, ?_⟩
    intro e he
    obtain ⟨r, a⟩ := e
    have answer := answered _ he
    simp only [Exchange.mk.injEq, heq_eq_eq, true_and] at answer
    subst answer
    exact sound_deaf r)
  exact (Conduct.orderly_append.1 orderly).1

end Settlement

end Payout
