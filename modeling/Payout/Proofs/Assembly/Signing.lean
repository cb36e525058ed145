import Payout.Assembly.Running
import Payout.Proofs.Assembly.Wiring
import Payout.Proofs.Program.Layers
import Payout.Proofs.Settlement.Dispatch

/-!
# Signing

What is written to a row of its transaction, beside what the node was asked and told when that was
sent. A pass of a settler that was built from settings sends one transaction for such a row: it is
signed by the key that the settings give the role of the call, its nonce is the count that the node
has just given for the address of that key, and its price is the estimate that the node has just
given, adjusted (`Signed`).
-/

namespace Payout

/-- Whether a request has to do with sending a transaction: the price, the count, and the
transaction. -/
def Host.Request.submits : Host.Request → Bool
  | .node .gasPrice => true
  | .node (.pendingCount _) => true
  | .node (.send _ _ _) => true
  | _ => false

/-- The exchanges of a program on the host. -/
abbrev Host.Trace := List (Exchange Host.interface)

/-- Of exchanges on the host those that have to do with sending a transaction. -/
def Host.submissions (hs : Host.Trace) : Host.Trace := hs.filter (·.request.submits)

namespace Assembly
open Program Settlement
open Host (submissions)

section Answers

variable {a : Assembly} {store store' : Ledger.Store} {es : Settlement.Trace} {hs : Host.Trace}

/-- The submissions among exchanges in two parts are those of the parts. -/
lemma submissions_append {hs hs' : Host.Trace} :
    submissions (hs ++ hs') = submissions hs ++ submissions hs' :=
  List.filter_append ..

/-- Nothing is sent while a program works on the disk. -/
lemma submits_of_onDisk {α : Type} {p : Program Disk.interface α} {x}
    (h : (Host.onDisk p).Ends hs x) :
    ∀ e ∈ hs, e.request.submits = false := by
  refine forall_of_ends_run h fun {r hs x} h => ?_
  cases ends_request.1 h
  exact List.forall_mem_singleton.2 rfl

/-- Whatever else is asked, no transaction is sent for that. -/
lemma submits_of_answer {r : Settlement.Request} {x} (aside : r.submits = false)
    (h : (a.answer r store).Ends hs x) : ∀ e ∈ hs, e.request.submits = false := by
  cases r with
  | ledger q =>
    obtain ⟨_, now, rest, rfl, asked, answered⟩ := ends_andThen.1 h
    cases ends_request.1 asked
    exact List.forall_mem_append.2 ⟨List.forall_mem_singleton.2 rfl, submits_of_onDisk answered⟩
  | estimate => cases aside
  | decimals c =>
    have h₁ := (ends_stateT_lift.1 h).1
    unfold answerDecimals at h₁
    split at h₁
    case h_1 contract _ =>
      obtain ⟨_, answer, rest, rfl, asked, h₂⟩ := ends_andThen.1 h₁
      cases ends_request.1 asked
      have ended : rest = [] := by
        cases answer with
        | error e => exact (ends_pure.1 h₂).1
        | ok answer =>
          dsimp only at h₂
          split at h₂ <;> exact (ends_pure.1 h₂).1
      subst ended
      exact List.forall_mem_singleton.2 rfl
    case h_2 =>
      obtain ⟨rfl, -⟩ := ends_pure.1 h₁
      exact fun _ he => absurd he List.not_mem_nil
  | call => cases aside
  | wait p confirmations timeoutMs =>
    obtain ⟨_, _, rfl, h₁⟩ := Program.ends_ask.1 (ends_stateT_lift.1 h).1
    obtain ⟨answer, rest, rfl, h₂⟩ := Program.ends_ask.1 h₁
    have ended : rest = [] := by
      cases answer with
      | error e => exact (ends_pure.1 h₂).1
      | ok found => cases found <;> exact (ends_pure.1 h₂).1
    subst ended
    exact List.forall_mem_cons.2 ⟨rfl, List.forall_mem_singleton.2 rfl⟩
  | pause =>
    cases ends_request.1 (ends_stateT_lift.1 h).1
    exact List.forall_mem_singleton.2 rfl
  | note n =>
    cases ends_request.1 (ends_stateT_lift.1 h).1
    exact List.forall_mem_singleton.2 rfl

/-- An estimate is the price that the node gives. -/
lemma estimate_course {r} (h : Connection.estimate.Ends hs r) :
    (∃ price, hs = [⟨.node .gasPrice, .ok price⟩] ∧ r = .ok price) ∨
      ∃ e e', hs = [⟨.node .gasPrice, .error e⟩] ∧ r = .error e' := by
  obtain ⟨answer, rest, rfl, h₁⟩ := Program.ends_ask.1 h
  cases answer with
  | error e =>
    obtain ⟨rfl, rfl⟩ := ends_pure.1 h₁
    exact .inr ⟨e, _, rfl, rfl⟩
  | ok price =>
    obtain ⟨rfl, rfl⟩ := ends_pure.1 h₁
    exact .inl ⟨price, rfl, rfl⟩

/-- A call that is sent takes the count of its account for its nonce and is signed by this
account. -/
lemma answerCall_course {c : ContractCall} {gasPrice : Nat} {pending : Pending}
    (h : (a.answerCall c gasPrice).Ends hs (.ok pending)) :
    ∃ o gas, Connection.order a.assetContract a.currencyContract c = .ok o ∧
      submissions hs =
        [⟨.node (.pendingCount (a.connection.account c.role).address), .ok pending.nonce⟩,
          ⟨.node (.send (a.connection.account c.role)
            ⟨o.target, pending.nonce, gasPrice, a.connection.chainId, o.input⟩ gas),
              .ok pending.hash⟩] := by
  unfold answerCall at h
  split at h
  case h_1 => cases (ends_pure.1 h).2
  case h_2 o ordered =>
    obtain ⟨counted, _, rfl, h₁⟩ := Program.ends_ask.1 h
    cases counted with
    | error e => cases (ends_pure.1 h₁).2
    | ok nonce =>
      obtain ⟨estimated, _, rfl, h₂⟩ := Program.ends_ask.1 h₁
      cases estimated with
      | error e => cases (ends_pure.1 h₂).2
      | ok gas =>
        obtain ⟨sent, _, rfl, h₃⟩ := Program.ends_ask.1 h₂
        cases sent with
        | error e => cases (ends_pure.1 h₃).2
        | ok hash =>
          obtain ⟨_, _, rfl, h₄⟩ := Program.ends_ask.1 h₃
          obtain ⟨rfl, ⟨⟩⟩ := ends_pure.1 h₄
          exact ⟨o, gas, ordered, rfl⟩

/-- Where nothing is sent, nothing is asked of the node for that. -/
lemma submissions_eq_nil (h : Carried a.answer store es hs store') (aside : Aside es) :
    submissions hs = [] := by
  have none : ∀ d ∈ hs, d.request.submits = false :=
    h.forall fun e he {_ _ _} answered => submits_of_answer (aside e he) answered
  exact List.filter_eq_nil_iff.2 fun d hd => ne_true_of_eq_false (none d hd)

/-- Estimates that the node did not give. -/
def Unpriced (hs : Host.Trace) : Prop := ∀ e ∈ hs, ∃ x, e = ⟨.node .gasPrice, .error x⟩

/-- Attempts end with the estimate that the node gives, and before it the node gives none. -/
lemma submissions_of_attempts {estimate : Nat}
    (attempts : Attempts ChainError.isTransient (ask .estimate) es (.ok estimate))
    (h : Carried a.answer store es hs store') :
    ∃ failed, Unpriced failed ∧ submissions hs = failed ++ [⟨.node .gasPrice, .ok estimate⟩] := by
  -- The induction is on the attempts, of which only the last has brought an estimate.
  generalize given : Except.ok estimate = r at attempts
  induction attempts generalizing store hs with
  | last asked =>
    subst given
    cases Settlement.ends_ask.1 asked
    cases h with
    | cons answered rest =>
      cases rest
      obtain ⟨price, rfl, ⟨⟩⟩ | ⟨e, e', -, ⟨⟩⟩ := estimate_course (ends_stateT_lift.1 answered).1
      exact ⟨[], fun _ he => absurd he List.not_mem_nil, rfl⟩
  | gaveUp => cases given
  | again asked _ _ ih =>
    cases Settlement.ends_ask.1 asked
    obtain ⟨hs₁, store₁, hs₂, rfl, first, rest⟩ := carried_append.1 h
    cases first with
    | cons answered nothing =>
      cases nothing
      obtain ⟨price, -, ⟨⟩⟩ | ⟨e, e', rfl, -⟩ := estimate_course (ends_stateT_lift.1 answered).1
      cases rest with
      | cons paused rest =>
        obtain ⟨failed, unpriced, all⟩ := ih rest given
        cases ends_request.1 (ends_stateT_lift.1 paused).1
        refine ⟨⟨.node .gasPrice, .error e⟩ :: failed,
          List.forall_mem_cons.2 ⟨⟨e, rfl⟩, unpriced⟩, ?_⟩
        rw [submissions_append, submissions_append, submissions_append, all]
        rfl

/-- A price is the last one that the node gives, adjusted, after it has given none. -/
lemma submissions_of_price {p : Policy} {price : Nat} (h : Carried a.answer store es hs store')
    (priced : PriceCourse p es (.ok price)) :
    ∃ failed estimate, submissions hs = failed ++ [⟨.node .gasPrice, .ok estimate⟩] ∧
      Unpriced failed ∧ price = Fee.adjust p.feePercent estimate := by
  obtain ⟨estimate, attempts, given⟩ := priced
  cases estimate with
  | error e => cases given
  | ok estimate =>
    cases given
    obtain ⟨failed, unpriced, all⟩ := submissions_of_attempts attempts h
    exact ⟨failed, estimate, all, unpriced, rfl⟩

end Answers

/-- The calls that settings provide for an order. -/
inductive Provides (s : Settings) : (k : Kind) → k.Order → ContractCall → Prop where
  | mintAsset {o : AssetOrder} {x receiver n uri} :
    s.asset o.assetClass = some x →
    Provides s .asset o (.mintAsset o.assetClass receiver n uri)
  | transferFromVault {o : AssetOrder} {x receiver n} :
    s.asset o.assetClass = some x →
    Provides s .asset o (.transferFromVault o.assetClass receiver n)
  | mintCurrency {o : CurrencyOrder} {x amount} :
    s.currency o.currencyClass = some x →
    x.callFor o.currencyClass = .mint →
    Provides s .currency o (.mintCurrency o.currencyClass o.destination amount)
  | transferCurrency {o : CurrencyOrder} {x amount} :
    s.currency o.currencyClass = some x →
    x.callFor o.currencyClass = .transfer →
    Provides s .currency o (.transferCurrency o.currencyClass o.destination amount)

/-- The address that a settler takes for the signer of a call is the one of the account that signs
it. -/
lemma Wired.commissions {s : Settings} {a : Assembly} (wired : Wired s a) {k : Kind}
    {o : k.Order} {signer c} (h : Commissions a.settler k o signer c) :
    signer = a.connection.signer c.role ∧ Provides s k o c := by
  cases h with
  | @asset o x r _ _ set path =>
    rw [wired.asset] at set
    obtain ⟨y, configured, rfl⟩ := Option.map_eq_some_iff.1 set
    unfold AssetPayout.path at path
    split at path
    · cases path
      exact ⟨rfl, .mintAsset configured⟩
    · split at path <;> cases path
      exact ⟨rfl, .transferFromVault configured⟩
  | @currency o x amount set =>
    rw [wired.currency] at set
    obtain ⟨y, configured, rfl⟩ := Option.map_eq_some_iff.1 set
    unfold CurrencyPayout.callFor currencyPayout
    cases called : y.callFor o.currencyClass with
    | mint => exact ⟨rfl, .mintCurrency configured called⟩
    | transfer => exact ⟨rfl, .transferCurrency configured called⟩

/-- A transaction on its way: the call it is for, the price that the node gave, the account that
signs it, what is signed, and the hash that the node gave. -/
structure Dispatch where
  call : ContractCall
  estimate : Nat
  account : Account
  tx : Node.Call
  gas : Nat
  hash : TransactionHash

/-- What is written to a row of a transaction that was sent for it among exchanges on the host. -/
structure Signed (s : Settings) (a : Assembly) (k : Kind) (o : k.Order) (out : Outcome)
    (hs : Host.Trace) (d : Dispatch) : Prop where
  /-- The price, the count of the signing address and one transaction, in this order, once the node
  gives a price. -/
  sent : ∃ failed, Unpriced failed ∧ submissions hs = failed ++
    [⟨.node .gasPrice, .ok d.estimate⟩, ⟨.node (.pendingCount d.account.address), .ok d.tx.nonce⟩,
      ⟨.node (.send d.account d.tx d.gas), .ok d.hash⟩]
  price : d.tx.gasPrice = Fee.adjust s.gas.adjustmentPercent d.estimate
  key : PrivateKey.read (s.signers.key d.call.role) = .ok d.account.key
  provided : Provides s k o d.call
  ordered : ∃ order, Connection.order a.assetContract a.currencyContract d.call = .ok order ∧
    d.tx.target = order.target ∧ d.tx.input = order.input
  recorded : out.txHash = some d.hash.text ∧ out.nonce = some d.tx.nonce ∧
    out.signer = some d.account.address.text

/-- Exchanges of a pass that are carried out by some on the host, between what is before and what is
after them. -/
inductive Part (a : Assembly) (store store' : Ledger.Store) (pre own post : Settlement.Trace) :
    Host.Trace → Host.Trace → Prop where
  | intro {store₁ store₂ hs hs' hs''} :
    Carried a.answer store pre hs store₁ →
    Carried a.answer store₁ own hs' store₂ →
    Carried a.answer store₂ post hs'' store' →
    Part a store store' pre own post (hs ++ hs' ++ hs'') hs'

section Passes

variable {s : Settings} {a : Assembly} {store store' : Ledger.Store} {trace own : Settlement.Trace}
  {hs : Host.Trace}

/-- The middle of three parts of a pass is carried out by exchanges of its own on the host. -/
lemma part_of_carried {pre post : Settlement.Trace}
    (h : Carried a.answer store (pre ++ own ++ post) hs store') :
    ∃ hs' store₁ store₂, Part a store store' pre own post hs hs' ∧
      Carried a.answer store₁ own hs' store₂ := by
  obtain ⟨_, _, hs₃, rfl, h, last⟩ := carried_append.1 h
  obtain ⟨hs₁, _, hs₂, rfl, first, middle⟩ := carried_append.1 h
  exact ⟨hs₂, _, _, .intro first middle last, middle⟩

/-- Where a transaction is written to a row, it was signed and sent while the row was in hand. -/
lemma Wired.signed {store₁ store₂ : Ledger.Store} {k : Kind} {row : Withdrawal k.Order}
    {r out answer n} (wired : Wired s a) (shape : RowShape a.settler k row own r)
    (carried : Carried a.answer store₁ own hs store₂)
    (written : ⟨.ledger (.update k row.id out), answer⟩ ∈ own) (nonce : out.nonce = some n) :
    ∃ d, Signed s a k row.order out hs d := by
  obtain ⟨pre, priced, price, signer, c, pending, post, rfl, before, course, after,
      commissioned, recorded⟩ :=
    shape.exists_call written nonce
  obtain ⟨signs, provided⟩ := wired.commissions commissioned
  subst signs
  -- What is done before the price and after the call has nothing to do with sending.
  obtain ⟨hs₁, _, _, rfl, first, carried⟩ := carried_append.1 carried
  obtain ⟨hs₂, _, _, rfl, second, carried⟩ := carried_append.1 carried
  cases carried with
  | @cons _ _ hs₃ _ _ _ hs₄ _ called last =>
    obtain ⟨failed, estimate, asked, unpriced, rfl⟩ := submissions_of_price second course
    obtain ⟨order, gas, ordered, sent⟩ := answerCall_course (ends_stateT_lift.1 called).1
    let tx : Node.Call :=
      ⟨order.target, pending.nonce, Fee.adjust a.settler.policy.feePercent estimate,
      a.connection.chainId, order.input⟩
    refine ⟨⟨c, estimate, a.connection.account c.role, tx, gas, pending.hash⟩,
      ⟨failed, unpriced, ?_⟩, ?_, Connection.key_of_ofKeys wired.connection c.role, provided,
      ⟨order, ordered, rfl, rfl⟩, recorded⟩
    · rw [submissions_append, submissions_append, submissions_append,
        submissions_eq_nil first before, asked, sent, submissions_eq_nil last after,
        List.append_nil, List.nil_append, List.append_assoc]
      rfl
    · change Fee.adjust a.settler.policy.feePercent estimate = _
      rw [wired.policy]
      rfl

end Passes

/-- A pass that writes no nonce to a row but that of a transaction which was signed and sent while
the row was in hand. -/
structure Faithful (s : Settings) (a : Assembly) (store store' : Ledger.Store)
    (trace : Settlement.Trace) (hs : Host.Trace) : Prop where
  carried : Carried a.answer store trace hs store'
  signed : ∀ {before after k id out answer n}, trace =
    before ++ ⟨.ledger (.update k id out), answer⟩ :: after → out.nonce = some n →
      ∃ pre own own' post hs' d rows, ∃ row ∈ rows, before = pre ++ own ∧ after = own' ++ post ∧
        ⟨.ledger (.unprocessed k), .ok rows⟩ ∈ pre ∧ row.id = id ∧
        Tenure k id (own ++ ⟨.ledger (.update k id out), answer⟩ :: own') ∧
        Part a store store' pre (own ++ ⟨.ledger (.update k id out), answer⟩ :: own') post hs hs' ∧
        Signed s a k row.order out hs' d

/-- **The recorded transaction is the signed one.** Let a settler be built from settings, and let a
pass of it run on a host that may answer anything. Wherever a nonce is written to a row, one
transaction was sent while the row was in hand, after the node had given a price and the count of
the signer's address. That count is its nonce and the node's answer its hash; its price is the
adjusted one, and it is signed with the key that the settings give the role of the call. The call is
one that they provide for the row. -/
theorem signed_of_recorded {s : Settings} {given : Option Ledger.Store} {start : Host.Trace}
    {a : Assembly} {opened store store' : Ledger.Store} {known : KnownDecimals} {hs : Host.Trace}
    {result : Except SettlementError Summary × KnownDecimals}
    (built : (build s given).Ends start (.ok (a, opened)))
    (ran : (a.poll known store).Ends hs (result, store')) :
    ∃ trace, (a.settler.poll known).Ends trace result ∧ Faithful s a store store' trace hs := by
  have wired := wired_of_build built
  obtain ⟨trace, polled, carried⟩ := carried_of_ends ran
  refine ⟨trace, polled, carried, fun {before after k id out answer n} split nonce => ?_⟩
  subst split
  have toured := (poll_course polled).parted.toured k
  obtain ⟨pre, own, own', post, rows, row, r, rfl, rfl, listed, mem, rfl, shape⟩ :=
    toured.exists_of_split rfl
  have parts : pre ++ own ++ ⟨.ledger (.update k row.id out), answer⟩ :: (own' ++ post) =
      pre ++ (own ++ ⟨.ledger (.update k row.id out), answer⟩ :: own') ++ post := by simp
  rw [parts] at carried
  obtain ⟨hs', store₁, store₂, part, inHand⟩ := part_of_carried carried
  obtain ⟨d, signed⟩ :=
    wired.signed shape inHand (List.mem_append_right own List.mem_cons_self) nonce
  exact ⟨pre, own, own', post, hs', d, rows, row, mem, rfl, rfl, listed, rfl,
    shape.tenure, part, signed⟩

/-- Settings for parts only. -/
def partSettings : Settings where
  service := .default
  ledger := ⟨"memory", 30, .table []⟩
  chain := ⟨"http://node", 7, "0x1111111111111111111111111111111111111111"⟩
  gas := .default
  signers :=
    ⟨"0x1111111111111111111111111111111111111111111111111111111111111111",
      "0x2222222222222222222222222222222222222222222222222222222222222222",
      "0x3333333333333333333333333333333333333333333333333333333333333333"⟩
  asset c :=
    if c = .part then some ⟨"0x2222222222222222222222222222222222222222", "ipfs/"⟩ else none
  currency _ := none

/-- A row for a part that was never minted. -/
def partStore : Ledger.Store :=
  ⟨.memory, ⟨[.new "w" ⟨.part, 7⟩], [],
    [⟨.part, 7, "0x3333333333333333333333333333333333333333", none, none, .withdrawing, none⟩], []⟩⟩

/-- A host with a node on which every transaction succeeds. -/
def willing : (r : Host.Request) → r.Answer
  | .disk _ => .error .notFound
  | .node .chainId => .ok (7 : UInt64)
  | .node .gasPrice => .ok (100 : Nat)
  | .node (.pendingCount _) => .ok (5 : UInt64)
  | .node (.view _ _) => .ok ([] : List UInt8)
  | .node (.gas _ _) => .ok (21000 : Nat)
  | .node (.send _ _ _) => .ok (⟨[1]⟩ : TransactionHash)
  | .node (.report h _ _) => .ok (some ⟨h, some 9, true, .null⟩ : Option Node.Report)
  | .now => noon
  | .pause => false
  | .log _ => ()
  | .shutdown => false
  | .rest _ => .timeUp

/-- Building the settler for parts. -/
def partBuild : Host.Trace × Except SettlementError (Assembly × Ledger.Store) :=
  (build partSettings (some partStore)).path willing

/-- The nonce of the row after a pass on that host, and how often the node was asked for what a
transaction needs. -/
def partPassed (x : Assembly × Ledger.Store) : Option (Option UInt64) × Nat :=
  let (hs, _, store) := (x.1.poll (fun _ => none) x.2).path willing
  ((store.tables.row? .asset "w").map (·.outcome.nonce), (submissions hs).length)

/-- A part is minted on a willing host: the nonce that the node counted is written to the row, after
three exchanges that submit. -/
theorem signed_of_recorded_part :
    ∃ x result, partPassed x = (some (some 5), 3) ∧
      (build partSettings (some partStore)).Ends partBuild.1 (.ok x) ∧
      let (hs, _, store) := (x.1.poll (fun _ => none) x.2).path willing
      ∃ trace, (x.1.settler.poll fun _ => none).Ends trace result ∧
        Faithful partSettings x.1 x.2 store trace hs := by
  have ends := ends_path willing (build partSettings (some partStore))
  have passed : partBuild.2.toOption.map partPassed = some (some (some 5), 3) := by decide +kernel
  change Program.Ends _ partBuild.1 partBuild.2 at ends
  cases built : partBuild.2 with
  | error e =>
    rw [built] at passed
    cases passed
  | ok x =>
    rw [built] at ends passed
    have ran := ends_path willing (x.1.poll (fun _ => none) x.2)
    exact ⟨x, _, Option.some.inj passed, ends, signed_of_recorded ends ran⟩

end Assembly

end Payout
