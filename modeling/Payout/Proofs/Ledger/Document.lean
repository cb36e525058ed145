import Payout.Disk.Tree
import Payout.Ledger.Document
import Payout.Proofs.Decimal.Text
import Payout.Proofs.Instant.Text
import Payout.Proofs.Json.RoundTrip

/-!
# Reading tables back

The document of tables holds all that is in them: read back it gives the tables again
(`ofDocument?_document`), also as the bytes of a file. A record is read back because its members are
written under the names that are asked for, each name once.
-/

namespace Payout

namespace Json

section Fields

variable {α : Type} {read : Json → Option α} {write : α → Json}

/-- Members under the names that are asked for are the fields. -/
lemma fields?_object {names : List String} {members : List (String × Json)}
    (same : members.map (·.1) = names) (distinct : names.Nodup) :
    fields? names (.object members) = some (members.map fun m => .given m.2) := by
  subst same
  have once :
      ¬ ((members.map (·.1)).any fun name => 1 < (members.filter (·.1 = name)).length) = true := by
    simp only [List.any_eq_true, decide_eq_true_eq, not_exists, not_and, Nat.not_lt]
    intro name _
    have count : (members.filter (·.1 = name)).length = (members.map (·.1)).count name := by
      rw [List.count, List.countP_map, List.countP_eq_length_filter]
      congr 2
    rw [count]
    exact List.nodup_iff_count.1 distinct name
  have found : Payout.Field.ofMembers (members.map (·.1)) members =
      members.map fun m => .given m.2 := by
    clear once
    induction members with
    | nil => rfl
    | cons m members ih =>
      obtain ⟨fresh, distinct⟩ := List.nodup_cons.1 distinct
      -- The first member does not hide any of the others.
      have others : ∀ name ∈ members.map (·.1), (m :: members).lookup name =
          members.lookup name := by
        intro name member
        have other : (name == m.1) = false := by
          simp only [beq_eq_false_iff_ne]
          rintro rfl
          exact fresh member
        obtain ⟨k, v⟩ := m
        rw [List.lookup_cons, other]
      have rest : Payout.Field.ofMembers (members.map (·.1)) (m :: members) =
          Payout.Field.ofMembers (members.map (·.1)) members :=
        List.map_congr_left fun name member => by rw [others name member]
      have first : (m :: members).lookup m.1 = some m.2 := by
        obtain ⟨k, v⟩ := m
        simp
      have shape : Payout.Field.ofMembers ((m :: members).map (·.1)) (m :: members) =
          ((m :: members).lookup m.1).elim .omitted .given ::
            Payout.Field.ofMembers (members.map (·.1)) (m :: members) := rfl
      rw [shape, first, rest, ih distinct]
      rfl
  rw [fields?, if_neg once, found]

/-- What is written as null or as a value that is not null is read back as it was. -/
lemma orNull_ofOption (back : ∀ a, read (write a) = some a) (notNull : ∀ a, write a ≠ .null)
    (o : Option α) : Field.orNull read (ofOption write o) = some o := by
  cases o with
  | none => rfl
  | some a =>
    rw [ofOption, Field.orNull, back a]
    · rfl
    · exact notNull a

/-- A list is read back if each of its items is. -/
lemma list?_map (back : ∀ a, read (write a) = some a) (items : List α) :
    list? read (.array (items.map write)) = some items := by
  induction items with
  | nil => rfl
  | cons a items ih =>
    rw [list?, List.map_cons, List.mapM_cons, back a]
    rw [list?] at ih
    rw [ih]
    rfl

/-- A number of 64 bits is read back as it was written. -/
lemma uint64?_ofUInt64 (n : UInt64) : uint64? (ofUInt64 n) = some n := by
  have range : 0 ≤ (n.toNat : Int) ∧ (n.toNat : Int) < (2 ^ 64 : Nat) := by
    have := n.toNat_lt
    omega
  rw [uint64?, ofUInt64, nat?, if_pos range]
  simp

/-- What is written for a number of 64 bits says all about it. -/
lemma plain_ofUInt64 (n : UInt64) : Plain (ofUInt64 n) := by
  apply Plain.integer
  have := n.toNat_lt
  constructor <;> omega

/-- A value that may be missing is plain when it is there if every value is. -/
lemma plain_ofOption (plain : ∀ a, Plain (write a)) (o : Option α) : Plain (ofOption write o) := by
  cases o with
  | none => exact .null
  | some a => exact plain a

/-- A list of plain values is plain. -/
lemma plain_map (plain : ∀ a, Plain (write a)) (items : List α) :
    Plain (.array (items.map write)) := by
  refine .array fun v h => ?_
  obtain ⟨a, -, rfl⟩ := List.mem_map.1 h
  exact plain a

end Fields

/-- A text that may be missing is read back. -/
lemma orNull_string (o : Option String) : Field.orNull string? (ofOption .string o) = some o :=
  orNull_ofOption (fun s => (rfl : string? (.string s) = some s)) (fun _ => by simp) o

/-- A number that may be missing is read back. -/
lemma orNull_uint64 (o : Option UInt64) : Field.orNull uint64? (ofOption ofUInt64 o) = some o :=
  orNull_ofOption uint64?_ofUInt64 (fun _ => by simp [ofUInt64]) o

/-- A time that may be missing is read back. -/
lemma orNull_instant (o : Option Instant) :
    Field.orNull Instant.ofJson? (ofOption Instant.toJson o) = some o := by
  refine orNull_ofOption (fun i => ?_) (fun _ => by simp [Instant.toJson]) o
  rw [Instant.toJson, Instant.ofJson?, String.toList_ofList, Instant.ofText?_text]

end Json

/-- A decimal is read back with its digits and its scale. -/
lemma Decimal.ofJson?_toJson (a : Decimal) : Decimal.ofJson? a.toJson = some a := by
  rw [Decimal.toJson, Decimal.ofJson?, String.toList_ofList, Decimal.ofText?_text]

section Names

/-- The class of an asset is read back from its name. -/
lemma name?_assetClass (c : AssetClass) :
    Json.name? AssetClass.ofName? (.string c.name) = some c := by
  cases c <;> decide

/-- The class of a currency is read back from its name. -/
lemma name?_currencyClass (c : CurrencyClass) :
    Json.name? CurrencyClass.ofName? (.string c.name) = some c := by
  cases c <;> decide

/-- The state of an asset is read back from its name. -/
lemma name?_assetState (s : AssetState) :
    Json.name? AssetState.ofName? (.string s.name) = some s := by
  cases s <;> decide

/-- The state of a withdrawal is read back from its name. -/
lemma name?_withdrawalState (s : WithdrawalState) :
    Json.name? WithdrawalState.ofName? (.string s.name) = some s := by
  cases s <;> decide

end Names

/-- The fields that a record's members give. -/
abbrev Json.given (members : List (String × Json)) : List Json.Field :=
  members.map fun m => .given m.2

-- The written forms of names and numbers are variables here: no check of the proof may unfold them.
/-- The order of an asset is read from fields that hold its class and its token. -/
lemma Kind.order?_asset {classJson tokenJson : Json} {o : AssetOrder}
    (assetClass : Json.name? AssetClass.ofName? classJson = some o.assetClass)
    (tokenId : Json.uint64? tokenJson = some o.tokenId) :
    Kind.order? .asset [.given classJson, .given tokenJson] = some o := by
  simp only [Kind.order?, Option.bind_eq_bind, Field.required, assetClass, tokenId,
    Option.bind_some]
  rfl

/-- The order of an amount is read from fields that hold its class, the amount and where it goes. -/
lemma Kind.order?_currency {classJson amountJson : Json} {o : CurrencyOrder}
    (currencyClass : Json.name? CurrencyClass.ofName? classJson = some o.currencyClass)
    (amount : Decimal.ofJson? amountJson = some o.amount) :
    Kind.order? .currency [.given classJson, .given amountJson, .given (.string o.destination)] =
      some o := by
  simp only [Kind.order?, Option.bind_eq_bind, Field.required, currencyClass, amount, Json.string?,
    Option.bind_some]
  rfl

/-- What a row orders is read back from the members that are written for it. -/
lemma Kind.order?_orderMembers (k : Kind) (o : k.Order) :
    k.order? (Json.given (k.orderMembers o)) = some o := by
  cases k with
  | asset => exact Kind.order?_asset (name?_assetClass _) (Json.uint64?_ofUInt64 _)
  | currency => exact Kind.order?_currency (name?_currencyClass _) (Decimal.ofJson?_toJson _)

/-- An outcome is read back from its members. -/
lemma Outcome.ofFields?_members (o : Outcome) :
    Outcome.ofFields? Json.Field.optional (Json.given o.members) = some o := by
  simp [Outcome.members, Outcome.ofFields?, Field.required, Json.Field.optional, Field.withDefault,
    name?_withdrawalState, Json.orNull_string, Json.orNull_uint64]

/-- A row is read back from its record. -/
lemma Withdrawal.ofJson?_toJson {k : Kind} (w : Withdrawal k.Order) :
    ofJson? k w.toJson = some w := by
  have fields :
      Json.fields? ("id" :: k.orderNames ++ Outcome.fieldNames ++ ["updated_at"]) w.toJson =
      some (Json.given (("id", Json.string w.id) :: k.orderMembers w.order ++ w.outcome.members ++
        [("updated_at", Json.ofOption Instant.toJson w.updatedAt)])) :=
    Json.fields?_object (by cases k <;> rfl)
      (by cases k <;> simp [Kind.orderNames, Outcome.fieldNames])
  have orders : (Json.given (k.orderMembers w.order)).length = k.orderNames.length := by
    cases k <;> rfl
  have outcomes : (Json.given w.outcome.members).length = Outcome.fieldNames.length := rfl
  have shape :
      Json.given (("id", Json.string w.id) :: k.orderMembers w.order ++ w.outcome.members ++
      [("updated_at", Json.ofOption Instant.toJson w.updatedAt)]) =
        .given (.string w.id) :: (Json.given (k.orderMembers w.order) ++
          (Json.given w.outcome.members ++
          [.given (Json.ofOption Instant.toJson w.updatedAt)])) := by
    simp
  rw [shape] at fields
  have order := Kind.order?_orderMembers k w.order
  have outcome := Outcome.ofFields?_members w.outcome
  generalize Json.given (k.orderMembers w.order) = orderFields at fields order orders
  generalize Json.given w.outcome.members = outcomeFields at fields outcome outcomes
  rw [ofJson?, fields]
  simp only [Option.bind_eq_bind, Option.bind_some, List.take_left' orders, List.drop_left' orders,
    List.take_left' outcomes, List.drop_left' outcomes, order, outcome, Field.required,
    Json.string?, Json.Field.optional, Field.withDefault, Json.orNull_instant]

/-- An asset is read from seven fields of which each holds its part. -/
lemma Asset.ofJson?_of_fields {v classJson tokenJson stateJson : Json} {a : Asset}
    (fields : Json.fields? ["asset_class", "token_id", "destination_wallet_address",
      "custody_location", "user_id", "state", "placement"] v =
        some [.given classJson, .given tokenJson, .given (.string a.destination),
          .given (Json.ofOption .string a.custody), .given (Json.ofOption .string a.userId),
          .given stateJson, .given (Json.ofOption .string a.placement)])
    (assetClass : Json.name? AssetClass.ofName? classJson = some a.assetClass)
    (tokenId : Json.uint64? tokenJson = some a.tokenId)
    (state : Json.name? AssetState.ofName? stateJson = some a.state) :
    Asset.ofJson? v = some a := by
  rw [Asset.ofJson?, fields]
  simp only [Option.bind_eq_bind, Option.bind_some, Field.required, Json.Field.nullable,
    Field.omittable, assetClass, state, tokenId, Json.string?, Json.orNull_string]

/-- An asset is read back from its record. -/
lemma Asset.ofJson?_toJson (a : Asset) : Asset.ofJson? a.toJson = some a :=
  Asset.ofJson?_of_fields (Json.fields?_object rfl (by simp)) (name?_assetClass _)
    (Json.uint64?_ofUInt64 _) (name?_assetState _)

/-- A user is read back from its record. -/
lemma User.ofJson?_toJson (u : User) : User.ofJson? u.toJson = some u := by
  have fields : Json.fields? ["id", "wallet_address"] u.toJson =
      some [.given (.string u.id), .given (Json.ofOption .string u.wallet)] :=
    Json.fields?_object rfl (by simp)
  rw [User.ofJson?, fields]
  simp only [Option.bind_eq_bind, Option.bind_some, Field.required, Json.Field.nullable,
    Field.omittable, Json.string?, Json.orNull_string]

section Plain

/-- A time is written as a text. -/
lemma Instant.plain_toJson (i : Instant) : Json.Plain i.toJson := .string

/-- The written form of a row is plain. -/
lemma Withdrawal.plain_toJson {k : Kind} (w : Withdrawal k.Order) : Json.Plain w.toJson := by
  have text : ∀ o : Option String, Json.Plain (Json.ofOption .string o) :=
    Json.plain_ofOption fun _ => .string
  have order : ∀ m ∈ k.orderMembers w.order, Json.Plain m.2 := by
    cases k with
    | asset => simp [Kind.orderMembers, Json.Plain.string, Json.plain_ofUInt64]
    | currency => simp [Kind.orderMembers, Json.Plain.string, Decimal.toJson]
  have outcome : ∀ m ∈ w.outcome.members, Json.Plain m.2 := by
    simp [Outcome.members, Json.Plain.string, text, Json.plain_ofOption Json.plain_ofUInt64]
  refine .object fun m h => ?_
  rcases List.mem_append.1 h with h | h
  · rcases List.mem_append.1 h with h | h
    · rcases List.mem_cons.1 h with rfl | h
      · exact .string
      · exact order m h
    · exact outcome m h
  · rw [List.eq_of_mem_singleton h]
    exact Json.plain_ofOption Instant.plain_toJson _

/-- The written form of an asset is plain. -/
lemma Asset.plain_toJson (a : Asset) : Json.Plain a.toJson := by
  have text : ∀ o : Option String, Json.Plain (Json.ofOption .string o) :=
    Json.plain_ofOption fun _ => .string
  refine .object ?_
  simp [Json.Plain.string, Json.plain_ofUInt64, text]

/-- The written form of a user is plain. -/
lemma User.plain_toJson (u : User) : Json.Plain u.toJson := by
  have text : ∀ o : Option String, Json.Plain (Json.ofOption .string o) :=
    Json.plain_ofOption fun _ => .string
  refine .object ?_
  simp [Json.Plain.string, text]

end Plain

/-- Text is read back from its bytes. -/
lemma Bytes.text?_ofText (s : String) : Bytes.text? (Bytes.ofText s) = some s := by
  have bytes : (⟨(Bytes.ofText s).toArray⟩ : ByteArray) = s.toByteArray := rfl
  rw [Bytes.text?, bytes, String.fromUTF8?, dif_pos s.isValidUTF8]
  rfl

namespace Ledger.Tables

/-- The written form of tables is plain. -/
lemma plain_toJson (t : Tables) : Json.Plain t.toJson := by
  refine .object ?_
  have assetRows := Json.plain_map (Withdrawal.plain_toJson (k := .asset)) t.assetRows
  have currencyRows := Json.plain_map (Withdrawal.plain_toJson (k := .currency)) t.currencyRows
  have assets := Json.plain_map Asset.plain_toJson t.assets
  have users := Json.plain_map User.plain_toJson t.users
  intro m h
  rcases List.mem_cons.1 h with rfl | h
  · exact assetRows
  rcases List.mem_cons.1 h with rfl | h
  · exact currencyRows
  rcases List.mem_cons.1 h with rfl | h
  · exact assets
  · rw [List.eq_of_mem_singleton h]
    exact users

/-- Tables are read back from the value that is written for them. -/
lemma ofJson?_toJson (t : Tables) : ofJson? t.toJson = some t := by
  have fields : Json.fields? ["withdrawals", "currency_withdrawals", "assets", "users"] t.toJson =
      some [.given (.array (t.assetRows.map (Withdrawal.toJson (k := .asset)))),
        .given (.array (t.currencyRows.map (Withdrawal.toJson (k := .currency)))),
        .given (.array (t.assets.map Asset.toJson)), .given (.array (t.users.map User.toJson))] :=
    Json.fields?_object rfl (by simp)
  rw [ofJson?, fields]
  have assetRows := Json.list?_map (Withdrawal.ofJson?_toJson (k := .asset)) t.assetRows
  have currencyRows := Json.list?_map (Withdrawal.ofJson?_toJson (k := .currency)) t.currencyRows
  have assets := Json.list?_map Asset.ofJson?_toJson t.assets
  have users := Json.list?_map User.ofJson?_toJson t.users
  simp only [Option.bind_eq_bind, Option.bind_some, Field.withDefault, assets, users]
  exact (congrArg (Option.bind · _) assetRows).trans (congrArg (Option.bind · _) currencyRows)

/-- The document of tables holds all of them. -/
theorem ofDocument?_document (t : Tables) : ofDocument? t.document = some t := by
  rw [ofDocument?, document, Json.ofText?_prettyText t.plain_toJson, Option.bind_eq_bind,
    Option.bind_some, ofJson?_toJson]

/-- The bytes of the document hold all of the tables. -/
theorem ofDocument?_bytes (t : Tables) :
    (Bytes.ofText t.document).text?.bind ofDocument? = some t := by
  rw [Bytes.text?_ofText, Option.bind_some, ofDocument?_document]

end Ledger.Tables

end Payout
