import Payout.Proofs.Settlement.Evidence

/-!
# Authority

When an asset is handed out, and by which call. The question about users that is asked for an asset
is answered from the users of the ledger, and says whether its destination may have it (`Owned`);
where the asset is says whether it can be handed out from there (`InReach`). A call is made for a
row if and only if both hold and a gas price was obtained, and it is the one call that hands the
asset out (`calls_of_authority`).
-/

namespace Payout.Settlement
open Program Ledger
open CurrencyPayout (outcomeOf)

/-- The destination of an asset is the wallet of its linked user or, for an asset that is not
linked, nobody's. -/
def Owned (t : Tables) (a : Asset) : Prop :=
  match a.userId with
  | some id => ∃ user wallet, t.user? id = some user ∧ user.wallet = some wallet ∧
      sameAddress wallet a.destination = true
  | none =>
    ∀ user ∈ t.users, ∀ wallet, user.wallet = some wallet → sameAddress wallet a.destination = false

/-- An asset was never minted, or the vault holds it. -/
def InReach (x : AssetPayout) (a : Asset) : Prop :=
  ∀ location, a.custody = some location → sameAddress location x.vault = true

/-- The call that hands out the asset of an order: one that was never minted is minted, another is
moved out of the vault. -/
def AssetPayout.callFor (x : AssetPayout) (o : AssetOrder) (a : Asset) : ContractCall :=
  match a.custody with
  | none => .mintAsset o.assetClass a.destination o.tokenId (x.baseUri ++ toString o.tokenId)
  | some _ => .transferFromVault o.assetClass a.destination o.tokenId

/-- The answers to requests for the gas price in a trace. -/
def quotes (es : Trace) : List (Except ChainError Nat) :=
  es.filterMap fun
    | ⟨.estimate, a⟩ => some a
    | _ => none

section Courses

variable {t t' : Tables} {x : AssetPayout} {a : Asset} {p : Policy} {es fs : Trace}

/-- The quotes of two traces follow one another. -/
@[simp] lemma quotes_append : quotes (es ++ fs) = quotes es ++ quotes fs := List.filterMap_append

/-- Exchanges apart from the chain ask for no gas price. -/
lemma Apart.quotes_eq (h : Apart es) : quotes es = [] := by
  refine List.filterMap_eq_nil_iff.2 fun e he => ?_
  obtain ⟨r, a⟩ := e
  obtain ⟨q, rfl⟩ | ⟨m, rfl⟩ | rfl := h _ he <;> rfl

/-- An asset that is linked to a user may go if its destination is the user's wallet. -/
lemma ruling_eq_ok_of_linked {id wallet owner} (link : a.userId = some id) :
    ruling a wallet owner = .ok () ↔ ∃ w, wallet = some w ∧ sameAddress w a.destination = true := by
  unfold ruling AssetPayout.mismatch?
  rw [link]
  cases wallet with
  | none => simp
  | some w => by_cases same : sameAddress w a.destination <;> simp [same]

/-- An asset that is not linked may go if its destination is no user's wallet. -/
lemma ruling_eq_ok_of_unlinked {wallet owner} (link : a.userId = none) :
    ruling a wallet owner = .ok () ↔ owner = none := by
  unfold ruling AssetPayout.mismatch?
  rw [link]
  cases owner <;> simp

/-- The question about users is answered from the tables, and settles whether the destination is
right. -/
lemma OwnershipCourse.eq_ok_iff {q r} (h : OwnershipCourse a q r) (served : Served t [q] t') :
    r = .ok () ↔ Owned t a := by
  unfold Owned
  cases h with
  | linkedUnknown link =>
    obtain ⟨now, answer, -⟩ := served_ledger.1 served
    cases answer
  | @linked id user link =>
    obtain ⟨now, answer, -⟩ := served_ledger.1 served
    obtain rfl : t.user? id = user := Except.ok.inj answer
    rw [ruling_eq_ok_of_linked link, link]
    dsimp only
    cases t.user? id <;> simp
  | unlinkedUnknown link =>
    obtain ⟨now, answer, -⟩ := served_ledger.1 served
    cases answer
  | @unlinked owner link =>
    obtain ⟨now, answer, -⟩ := served_ledger.1 served
    obtain rfl : t.userByWallet? a.destination = owner := Except.ok.inj answer
    rw [ruling_eq_ok_of_unlinked link, link]
    unfold Tables.userByWallet?
    rw [List.find?_eq_none]
    refine forall₂_congr fun user _ => ?_
    cases user.wallet <;> simp

/-- Where the asset is settles whether it can be handed out, and by which call. -/
lemma path_of_inReach (reach : InReach x a) {o : AssetOrder}
    (isFor : a.isFor o.assetClass o.tokenId)
    (ofClass : x.assetClass = o.assetClass) : ∃ signer, x.path a = .ok (signer, x.callFor o a) := by
  have token : a.tokenId = o.tokenId := by
    simp only [Asset.isFor, decide_eq_true_eq] at isFor
    exact isFor.2
  unfold AssetPayout.path AssetPayout.callFor
  rw [ofClass, token]
  cases custody : a.custody with
  | none => exact ⟨x.mintSigner, rfl⟩
  | some location => exact ⟨x.vaultSigner, if_pos (reach location custody)⟩

/-- An asset for which there is a call is within reach. -/
lemma inReach_of_path {c} (path : x.path a = .ok c) : InReach x a := by
  intro location custody
  unfold AssetPayout.path at path
  rw [custody] at path
  dsimp only at path
  split at path
  case isTrue same => exact same
  case isFalse => cases path

/-- A price came if the last estimate did. -/
lemma Attempts.quoted {e : Except ChainError Nat}
    (h : Attempts ChainError.isTransient (ask .estimate) es e) :
    quotes es ≠ [] ∧ ((∃ price, .ok price ∈ quotes es) ↔ ∃ price, e = .ok price) := by
  induction h with
  | last once =>
    cases ends_ask.1 once
    simp [quotes, eq_comm]
  | gaveUp once =>
    cases ends_ask.1 once
    simp [quotes]
  | again once _ _ ih =>
    cases ends_ask.1 once
    simpa [quotes] using ih.2

/-- A price was asked for, and a submission has one if and only if one was quoted. -/
lemma PriceCourse.quoted {r} (h : PriceCourse p es r) :
    quotes es ≠ [] ∧ ((∃ price, .ok price ∈ quotes es) ↔ ∃ price, r = .ok price) := by
  obtain ⟨estimate, attempts, rfl⟩ := h
  refine ⟨attempts.quoted.1, attempts.quoted.2.trans ?_⟩
  cases estimate <;> simp [Except.map]

/-- Exchanges that ask for a price, and make a call, and no other, if and only if one came. -/
structure Calls (c : ContractCall) (es : Trace) : Prop where
  asks : quotes es ≠ []
  sent_iff : sent es ≠ [] ↔ ∃ price, .ok price ∈ quotes es
  sent_eq : sent es ≠ [] → ∃ answer, sent es = [(c, answer)]

/-- Exchanges that obtain a price and then make one call are of the form that is wanted. -/
lemma PriceCourse.calls {price c answer} (h : PriceCourse p es (.ok price))
    (unasked : quotes fs = []) (called : sent fs = [(c, answer)]) : Calls c (es ++ fs) := by
  have all : quotes (es ++ fs) = quotes es := by rw [quotes_append, unasked, List.append_nil]
  have one : sent (es ++ fs) = [(c, answer)] := by
    rw [sent_append, h.offChain.1, called, List.nil_append]
  have got : ∃ price, .ok price ∈ quotes es := h.quoted.2.2 ⟨price, rfl⟩
  exact ⟨by rw [all]; exact h.quoted.1, by simp [one, all, got], fun _ => ⟨answer, one⟩⟩

/-- A submission asks for a price, and makes its call if and only if one came. -/
lemma SubmitCourse.calls {signer c r} (h : SubmitCourse p signer c es r) : Calls c es := by
  cases h with
  | unpriced priced =>
    have none : sent es = [] := priced.offChain.1
    have noPrice : ¬ ∃ price, .ok price ∈ quotes es := by
      rw [priced.quoted.2]
      simp
    exact ⟨priced.quoted.1, by simp only [none, noPrice]; simp, fun sent => absurd none sent⟩
  | refused priced => exact priced.calls rfl rfl
  | unconfirmed priced => exact priced.calls rfl rfl
  | reverted priced => exact priced.calls rfl rfl
  | confirmed priced => exact priced.calls rfl rfl

/-- Handing an asset out is refused without a question to the chain, or its call is made if a price
comes. -/
lemma HandOutCourse.authority {r} (h : HandOutCourse x p a es r) (served : Served t es t')
    {o : AssetOrder}
    (isFor : a.isFor o.assetClass o.tokenId) (ofClass : x.assetClass = o.assetClass) :
    (Owned t a ∧ InReach x a ∧ Calls (x.callFor o a) es) ∨
      (¬ (Owned t a ∧ InReach x a) ∧ sent es = [] ∧ quotes es = []) := by
  have silent {q} (asks : AsksUser q) : sent [q] = [] ∧ quotes [q] = [] :=
    ⟨asks.apart.offChain.1, asks.apart.quotes_eq⟩
  cases h with
  | disowned course =>
    refine .inr ⟨fun both => ?_, silent course.asksUser⟩
    cases (course.eq_ok_iff served).2 both.1
  | untracked course path =>
    refine .inr ⟨fun both => ?_, silent course.asksUser⟩
    -- An asset within reach has a call.
    obtain ⟨signer, other⟩ := path_of_inReach both.2 isFor ofClass
    cases path.symm.trans other
  | @submitted q signer c es r course path submission =>
    rw [← List.singleton_append] at served
    obtain ⟨t₁, asked, -⟩ := served_append.1 served
    have reach := inReach_of_path path
    obtain ⟨signer', path'⟩ := path_of_inReach reach isFor ofClass
    cases path.symm.trans path'
    obtain ⟨none, unasked⟩ := silent course.asksUser
    have calls := submission.calls
    refine .inl ⟨(course.eq_ok_iff asked).1 rfl, reach, ?_⟩
    rw [← List.singleton_append]
    refine ⟨?_, ?_, ?_⟩
    · rw [quotes_append, unasked]
      exact calls.asks
    · rw [quotes_append, sent_append, unasked, none]
      exact calls.sent_iff
    · rw [sent_append, none]
      exact calls.sent_eq

/-- What is apart from the chain adds no call and no quote before or after. -/
lemma Apart.around {pre post : Trace} (before : Apart pre) (after : Apart post) :
    sent (pre ++ es ++ post) = sent es ∧ quotes (pre ++ es ++ post) = quotes es := by
  simp [before.offChain.1, before.quotes_eq, after.offChain.1, after.quotes_eq]

/-- What is done for an asset row that was granted is to hand out its asset, and nothing else that
the chain is asked. -/
lemma Settled.handOut {s : Settler} {w : Withdrawal AssetOrder} {v}
    (h : Settled s t .asset w es v) (set : s.assetPayout w.order.assetClass = some x)
    (kept : t.asset? w.order.assetClass w.order.tokenId = some a) :
    ∃ pre fs post t₁ a₁, es = pre ++ fs ++ post ∧ Apart pre ∧ Apart post ∧
      HandOutCourse x s.policy a₁ fs v ∧ Served t₁ fs t₁ ∧ t.Keeps t₁ ∧
      t₁.asset? w.order.assetClass w.order.tokenId = some a₁ := by
  cases h with
  | @written t₁ es v ns rest keeps served verdict notes trailing =>
    obtain ⟨a₁, recorded, -⟩ : ∃ a₁, t₁.asset? w.order.assetClass w.order.tokenId = some a₁ ∧
        a₁.released = a.released := by
      have same := keeps.asset? w.order.assetClass w.order.tokenId
      rw [kept] at same
      exact Option.map_eq_some_iff.1 same
    cases verdict with
    | unset unset => cases unset.symm.trans set
    | unloaded =>
      obtain ⟨now, answer, -⟩ := served_ledger.1 served
      cases (congrArg Prod.fst (Tables.reply_asset recorded)).symm.trans answer
    | @handedOut _ x' a' fs _ set' course =>
      cases set.symm.trans set'
      obtain ⟨now, answer, handed⟩ := served_ledger.1 served
      cases (congrArg Prod.fst (Tables.reply_asset recorded)).symm.trans answer
      rw [reply_of_reads rfl] at handed
      refine ⟨[⟨.ledger (.claim .asset w.id), .ok true⟩,
        ⟨.ledger (.asset w.order.assetClass w.order.tokenId), .ok a₁⟩], fs,
        ns ++ ⟨.ledger (.update .asset w.id (outcomeOf v)), .ok ()⟩ :: rest, t₁, a₁, ?_, ?_, ?_,
        course, handed, keeps, recorded⟩
      · simp
      · exact apart_ledger (apart_ledger apart_nil)
      · exact notes.apart.append (apart_ledger trailing.apart)

end Courses

section Keeping

variable {t t' : Tables} {x : AssetPayout} {a a' : Asset}

/-- What is said of an asset up to where it is. -/
lemma fields_of_released (same : a'.released = a.released) :
    a'.userId = a.userId ∧ a'.destination = a.destination ∧ a'.custody = a.custody := by
  simp only [Asset.released, Asset.mk.injEq] at same
  exact ⟨same.2.2.2.2.1, same.2.2.1, same.2.2.2.1⟩

/-- Who may have an asset does not change while the users stay, wherever the asset is. -/
lemma owned_iff_of_keeps (keeps : t.Keeps t') (same : a'.released = a.released) :
    Owned t' a' ↔ Owned t a := by
  obtain ⟨user, destination, -⟩ := fields_of_released same
  unfold Owned Tables.user?
  rw [keeps.users, user, destination]

/-- Assets that differ only in whether they were put back are within reach alike. -/
lemma inReach_iff_of_released (same : a'.released = a.released) : InReach x a' ↔ InReach x a := by
  unfold InReach
  rw [(fields_of_released same).2.2]

/-- They are handed out by the same call. -/
lemma callFor_of_released {o : AssetOrder} (same : a'.released = a.released) :
    x.callFor o a' = x.callFor o a := by
  obtain ⟨-, destination, custody⟩ := fields_of_released same
  unfold AssetPayout.callFor
  rw [custody, destination]

end Keeping

/-- **Assets go where they may, by the right call.** When a pass over tables in memory comes to an
asset row that waits, whose class is paid out and whose asset is recorded, it asks for a gas price
if and only if the destination may have the asset and the asset is in reach; it then makes a call if
and only if a price came, and that call is the one that hands the asset out. -/
theorem calls_of_authority {s : Settler} {known : KnownDecimals} {b : Surroundings} {t : Tables}
    {w : Withdrawal AssetOrder} {x : AssetPayout} {a : Asset}
    (first : t.row? .asset w.id = some w) (free : w.state = .unprocessed)
    (set : s.assetPayout w.order.assetClass = some x)
    (recorded : t.asset? w.order.assetClass w.order.tokenId = some a) :
    let own := onBehalf .asset w.id (s.passOver b known t).trace
    (sent own ≠ [] ↔ (∃ price, .ok price ∈ quotes own) ∧ Owned t a ∧ InReach x a) ∧
      (quotes own ≠ [] ↔ Owned t a ∧ InReach x a) ∧
      (sent own ≠ [] → ∃ answer, sent own = [(x.callFor w.order a, answer)]) := by
  intro own
  obtain ⟨_, -, swept⟩ := passOver_swept s b known t
  obtain ⟨i, waits⟩ := exists_waits first free
  obtain ⟨es, v, now, refusals, settled, -, all, refused⟩ := swept.settled_of_waits waits
  obtain ⟨pre, fs, post, t₁, a₁, rfl, before, after, course, served, keeps, recorded₁⟩ :=
    settled.handOut set recorded
  -- Rows before this one may have put the asset back, but keep all that decides about it.
  have same : a₁.released = a.released := by
    have same := keeps.asset? w.order.assetClass w.order.tokenId
    rw [recorded, recorded₁] at same
    exact Option.some.inj same
  have whole : own = pre ++ fs ++ (post ++ refusals) := all.trans (List.append_assoc ..)
  have after' : Apart (post ++ refusals) := after.append (apart_of_refusals refused)
  obtain ⟨sentSame, quotesSame⟩ : sent (pre ++ fs ++ (post ++ refusals)) = sent fs ∧
      quotes (pre ++ fs ++ (post ++ refusals)) = quotes fs := before.around after'
  rw [whole, sentSame, quotesSame, ← owned_iff_of_keeps keeps same, ← inReach_iff_of_released same,
    ← callFor_of_released same]
  have isFor : a₁.isFor w.order.assetClass w.order.tokenId := List.find?_some recorded₁
  obtain ⟨owned, reach, calls⟩ | ⟨notBoth, none, unasked⟩ :=
    course.authority served isFor (s.assetClass_eq set)
  · exact ⟨by rw [calls.sent_iff]; simp [owned, reach],
      by simp [calls.asks, owned, reach], calls.sent_eq⟩
  · exact ⟨by simp [none, notBoth], by simp [unasked, notBoth], fun sent => absurd none sent⟩

/-- A pass over one row whose part was never minted asks for a price and mints the part. -/
theorem calls_of_authority_minted :
    let own :=
      onBehalf .asset "w" (partsOnly.passOver atNoon (fun _ => none) (rowsForOnePart ["w"])).trace
    quotes own ≠ [] ∧ ∃ answer, sent own = [(.mintAsset .part "0xa" 7 "ipfs/7", answer)] := by
  have authority := @calls_of_authority partsOnly (fun _ => none) atNoon (rowsForOnePart ["w"])
    (.new "w" ⟨.part, 7⟩) ⟨.part, "0xv", "0xs", "0xm", "ipfs/"⟩
    ⟨.part, 7, "0xa", none, none, .withdrawing, none⟩ rfl rfl rfl rfl
  have may : Owned (rowsForOnePart ["w"]) ⟨.part, 7, "0xa", none, none, .withdrawing, none⟩ ∧
      InReach ⟨.part, "0xv", "0xs", "0xm", "ipfs/"⟩
        ⟨.part, 7, "0xa", none, none, .withdrawing, none⟩ :=
    ⟨fun _ mem => absurd mem List.not_mem_nil, nofun⟩
  exact ⟨authority.2.1.2 may, authority.2.2 (authority.1.2 ⟨⟨1, List.mem_cons_self⟩, may⟩)⟩

end Payout.Settlement
