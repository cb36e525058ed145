import Payout.Evm.Connection
import Payout.Proofs.Program.Paths
import Payout.Settings.Loader

/-!
# Accepted settings

What can be relied on once settings were accepted, be it those of a document or those of a file with
the variables that override them (`Accepted`). Every check holds; so the times, counts and
percentages are not zero, every address can be read, and no currency is scaled by zero.
-/

namespace Payout
open Program

/-- The first of two steps that may fail has not failed where both have not. -/
lemma exists_of_bind_eq_ok {ε α β : Type} {x : Except ε α} {f : α → Except ε β} {b : β}
    (h : x >>= f = .ok b) :
    ∃ a, x = .ok a ∧ f a = .ok b := by
  cases x with
  | error e => cases h
  | ok a => exact ⟨a, rfl, h⟩

/-- If two steps fail that may, one of them does. -/
lemma of_bind_eq_error {ε α β : Type} {x : Except ε α} {f : α → Except ε β} {e : ε}
    (h : x >>= f = .error e) :
    x = .error e ∨ ∃ a, f a = .error e := by
  cases x with
  | error e' =>
    cases h
    exact .inl rfl
  | ok a => exact .inr ⟨a, h⟩

namespace Text

/-- A text of ASCII characters has one byte for each of them. -/
lemma byteChars_of_ascii {text : List Char} (ascii : ∀ c ∈ text, c.toNat ≤ 127) :
    byteChars text = text := by
  induction text with
  | nil => rfl
  | cons c text ih =>
    obtain ⟨first, rest⟩ := List.forall_mem_cons.1 ascii
    have byte : String.utf8EncodeChar c = [UInt8.ofNat c.toNat] := if_pos first
    have same : Char.ofNat (UInt8.ofNat c.toNat).toNat = c := by
      rw [UInt8.toNat_ofNat', Nat.mod_eq_of_lt (by omega), Char.ofNat_toNat]
    have step :
        byteChars (c :: text) = Char.ofNat (UInt8.ofNat c.toNat).toNat :: byteChars text := by
      unfold byteChars
      simp only [String.toUTF8, String.toByteArray_ofList]
      rw [List.utf8Encode_cons, List.utf8Encode_singleton, byte, ByteArray.data_append,
        Array.toList_append, List.map_append]
      rfl
    rw [step, same, ih rest]

/-- Hexadecimal digits are ASCII. -/
lemma toNat_le_of_hexValue? {c : Char} (hex : (hexValue? c).isSome) : c.toNat ≤ 127 := by
  have le_of {d : Char} (h : c ≤ d) : c.toNat ≤ d.toNat := h
  unfold hexValue? at hex
  split at hex
  case isTrue digit => exact Nat.le_trans (le_of digit.2) (by decide)
  case isFalse =>
    split at hex
    case isTrue lower => exact Nat.le_trans (le_of lower.2) (by decide)
    case isFalse =>
      split at hex
      case isTrue upper => exact Nat.le_trans (le_of upper.2) (by decide)
      case isFalse => cases hex

/-- An even number of hexadecimal digits can be read as bytes. -/
lemma isSome_bytesOfHex? {text : List Char} (even : text.length % 2 = 0)
    (hex : ∀ c ∈ text, (hexValue? c).isSome) :
    (bytesOfHex? text).isSome := by
  induction text using bytesOfHex?.induct with
  | case1 => rfl
  | case2 => cases even
  | case3 high low rest ih =>
    obtain ⟨h, highRead⟩ := Option.isSome_iff_exists.1 (hex high (by simp))
    obtain ⟨l, lowRead⟩ := Option.isSome_iff_exists.1 (hex low (by simp))
    have even' : rest.length % 2 = 0 := by
      simp only [List.length_cons] at even
      omega
    obtain ⟨bytes, read⟩ := Option.isSome_iff_exists.1 (ih even' fun c hc => hex c (by simp [hc]))
    rw [bytesOfHex?, highRead, lowRead, read]
    rfl

/-- What is read as bytes may be marked in either case, what is checked only in one. -/
lemma dropAnyHexMark_eq {text : List Char} (hex : isHex (dropHexMark text)) :
    dropAnyHexMark text = dropHexMark text := by
  unfold dropAnyHexMark
  split
  case h_1 => rfl
  case h_2 rest => simp [isHex, dropHexMark, hexValue?] at hex
  case h_3 _ other _ =>
    unfold dropHexMark
    split
    case h_1 => exact (other _ rfl).elim
    case h_2 => rfl

end Text

namespace Settings

/-- An address that passes its check is read as the bytes that its digits stand for. -/
lemma fixedBytes_of_addressCheck {field value : String}
    (h : (addressCheck field value).holds = true) :
    ∃ bytes, Text.bytesOfHex? (Text.dropHexMark value.toList) = some bytes ∧
      Text.fixedBytes 20 value = .ok bytes := by
  obtain ⟨length, hex⟩ : (Text.dropHexMark value.toList).length = 40 ∧
      Text.isHex (Text.dropHexMark value.toList) := by
    simpa [addressCheck] using h
  have digits : ∀ c ∈ Text.dropHexMark value.toList, (Text.hexValue? c).isSome :=
    List.all_eq_true.1 hex
  have bytes : Text.byteChars (Text.dropAnyHexMark value.toList) =
      Text.dropHexMark value.toList := by
    rw [Text.dropAnyHexMark_eq hex]
    exact Text.byteChars_of_ascii fun c hc => Text.toNat_le_of_hexValue? (digits c hc)
  obtain ⟨read, readBytes⟩ :=
    Option.isSome_iff_exists.1 (Text.isSome_bytesOfHex? (by rw [length]) digits)
  have none : (Text.dropHexMark value.toList).zipIdx.find? (fun d => (Text.hexValue? d.1).isNone) =
      Option.none := by
    refine List.find?_eq_none.2 fun d hd => ?_
    simpa using Option.isSome_iff_ne_none.1 (digits d.1 (List.fst_mem_of_mem_zipIdx hd))
  refine ⟨read, readBytes, ?_⟩
  unfold Text.fixedBytes
  rw [bytes]
  dsimp only
  rw [length, none, readBytes]
  rfl

/-- An address that passes its check can be read. -/
lemma exists_read_of_addressCheck {field value : String}
    (h : (addressCheck field value).holds = true) :
    ∃ a, Connection.readAddress value = .ok a := by
  obtain ⟨bytes, -, fixed⟩ := fixedBytes_of_addressCheck h
  refine ⟨⟨bytes⟩, ?_⟩
  unfold Connection.readAddress Address.read
  rw [fixed]
  rfl

/-- Settings that were accepted. -/
inductive Accepted (s : Settings) : Prop where
  | document {env text} :
    ofDocument env text = .ok s →
    Accepted s
  | file {env start path ds} :
    (load env start path).Ends ds (.ok s) →
    Accepted s

section Accepted

variable {s s' : Settings}

/-- Settings that are found valid are given back as they are, and every check holds of them. -/
lemma holds_of_validate (h : s.validate = .ok s') :
    s = s' ∧ ∀ check ∈ s.checks, check.holds = true := by
  unfold validate at h
  split at h
  case h_1 none =>
    cases h
    refine ⟨rfl, fun check mem => ?_⟩
    have found := List.find?_eq_none.1 (Option.map_eq_none_iff.1 none) check mem
    simpa using found
  case h_2 => cases h

/-- A document without references is read as it stands, and accepted when there is nothing to
complain of. -/
lemma ofDocument_of_references {env : Environment} {text : List Char} (plain : references text = [])
    (written : ofText? (String.ofList text) = some s) (clean : s.complaint? = none) :
    ofDocument env (String.ofList text) = .ok s := by
  have unchanged : substitute env (String.ofList text) = .ok (String.ofList text) := by
    rw [substitute, String.toList_ofList, plain]
    rfl
  have said : read env (String.ofList text) = .ok s := by
    rw [read, unchanged]
    simp only [Bind.bind, Except.bind, written]
  have valid : s.validate = .ok s := by rw [validate, clean]
  rw [ofDocument, said]
  exact valid

/-- Settings are accepted only if every check of them holds. -/
lemma Accepted.holds (h : Accepted s) : ∀ check ∈ s.checks, check.holds = true := by
  cases h with
  | document read =>
    obtain ⟨s', -, valid⟩ := exists_of_bind_eq_ok read
    obtain ⟨rfl, holds⟩ := holds_of_validate valid
    exact holds
  | @file env start path ds loaded =>
    cases path with
    | none => cases (ends_pure.1 loaded).2
    | some path =>
      obtain ⟨_, document, _, -, -, h⟩ := ends_andThen.1 loaded
      obtain ⟨text, -, h⟩ := exists_of_bind_eq_ok (ends_pure.1 h).2
      obtain ⟨s', -, h⟩ := exists_of_bind_eq_ok h
      obtain ⟨s', -, valid⟩ := exists_of_bind_eq_ok h
      obtain ⟨rfl, holds⟩ := holds_of_validate valid
      exact holds

/-- Pace and price of accepted settings are not zero. -/
lemma Accepted.pace (h : Accepted s) :
    s.service.pollIntervalSecs ≠ 0 ∧ s.service.confirmations ≠ 0 ∧
      s.service.confirmationTimeoutSecs ≠ 0 ∧ s.gas.adjustmentPercent ≠ 0 := by
  have pace : ∀ check ∈ s.paceChecks, check.holds = true := fun check mem =>
    h.holds check (List.mem_append_left _ (List.mem_append_left _ mem))
  simpa [paceChecks] using pace

/-- The check of the vault's address holds of accepted settings. -/
lemma Accepted.vaultCheck (h : Accepted s) :
    (addressCheck "chain.vault_address" s.chain.vaultAddress).holds = true := by
  have mem : addressCheck "chain.vault_address" s.chain.vaultAddress ∈ s.chainChecks := by
    simp [chainChecks]
  exact h.holds _ (List.mem_append_left _ (List.mem_append_right _ mem))

/-- The vault's address of accepted settings can be read. -/
lemma Accepted.vault (h : Accepted s) : ∃ a, Connection.readAddress s.chain.vaultAddress = .ok a :=
  exists_read_of_addressCheck h.vaultCheck

/-- The classes of assets that are listed are those that are set, each with its contract. -/
lemma mem_assets {c x} : (c, x) ∈ s.assets ↔ s.asset c = some x := by
  have all : c ∈ AssetClass.all := by cases c <;> decide
  simp [assets, all]

/-- The currencies that are listed are those that are set, each with its contract. -/
lemma mem_currencies {c x} : (c, x) ∈ s.currencies ↔ s.currency c = some x := by
  have all : c ∈ CurrencyClass.all := by cases c <;> decide
  simp [currencies, all]

/-- The contract's address of every class of assets that is set can be read. -/
lemma Accepted.asset (h : Accepted s) {c x} (set : s.asset c = some x) :
    ∃ a, Connection.readAddress x.contract = .ok a := by
  have mem : addressCheck s!"assets.{c.name}.contract" x.contract ∈ s.contractChecks :=
    List.mem_append_left _ (List.mem_cons_of_mem _ (List.mem_map.2 ⟨(c, x), mem_assets.2 set, rfl⟩))
  exact exists_read_of_addressCheck (h.holds _ (List.mem_append_right _ mem))

/-- The contract of a currency can be read, and amounts of it are not scaled by zero, be the scale
set or not. -/
lemma Accepted.currency (h : Accepted s) {c x} (set : s.currency c = some x) :
    (∃ a, Connection.readAddress x.contract = .ok a) ∧ x.scaleFor c ≠ some 0 := by
  have checked : ∀ check ∈ [addressCheck s!"currencies.{c.symbol}.contract" x.contract,
      ⟨x.scaleFor c ≠ some 0, s!"currencies.{c.symbol}.internal_scale must be positive"⟩],
        check.holds = true := by
    intro check mem
    refine h.holds check (List.mem_append_right _ (List.mem_append_right _ ?_))
    exact List.mem_flatMap.2 ⟨(c, x), mem_currencies.2 set, mem⟩
  obtain ⟨address, scale⟩ := List.forall_mem_cons.1 checked
  exact ⟨exists_read_of_addressCheck address, by simpa using scale⟩

end Accepted

end Settings

end Payout
