import Payout.Assembly.Wiring
import Payout.Proofs.Settings.Validation

/-!
# Wiring

What building a settler comes to. A settler that is built pays out just the classes that settings
give a contract, and the address that it takes for the signer of a call is the one of the key by
which the connection signs that call (`wired_of_build`).
-/

namespace Payout
open Program

/-- The private key that settings give a role. -/
def SignerSettings.key (s : SignerSettings) : SignerRole → String
  | .vault => s.vault
  | .minter => s.minter
  | .treasury => s.treasury

namespace Connection

/-- An account that was read from a text has the key that the text spells. -/
lemma key_of_readAccount {text : String} {x : Account} (h : readAccount text = .ok x) :
    PrivateKey.read text = .ok x.key := by
  unfold readAccount at h
  split at h
  case h_1 key read =>
    cases h
    exact read
  case h_2 => cases h

/-- The accounts of a connection are those of the keys. -/
lemma key_of_ofKeys {chainId : UInt64} {keys : SignerSettings} {x : Connection}
    (h : ofKeys chainId keys = .ok x)
    (role : SignerRole) : PrivateKey.read (keys.key role) = .ok (x.account role).key := by
  unfold ofKeys at h
  obtain ⟨vault, vaultRead, h⟩ := exists_of_bind_eq_ok h
  obtain ⟨minter, minterRead, h⟩ := exists_of_bind_eq_ok h
  obtain ⟨treasury, treasuryRead, ⟨⟩⟩ := exists_of_bind_eq_ok h
  cases role
  · exact key_of_readAccount vaultRead
  · exact key_of_readAccount minterRead
  · exact key_of_readAccount treasuryRead

/-- A connection holds the accounts of the keys. -/
lemma ofKeys_of_connect {url : String} {chainId : UInt64} {keys : SignerSettings} {hs}
    {x : Connection}
    (h : (connect url chainId keys).Ends hs (.ok x)) : ofKeys chainId keys = .ok x := by
  unfold connect at h
  split at h
  case isTrue => cases (ends_pure.1 h).2
  case isFalse =>
    obtain ⟨_, served, hs₂, -, -, h⟩ := ends_andThen.1 h
    cases served with
    | error e => cases (ends_pure.1 h).2
    | ok served =>
      dsimp only at h
      split at h
      case isTrue => cases (ends_pure.1 h).2
      case isFalse =>
        split at h
        case h_1 => cases (ends_pure.1 h).2
        case h_2 x accounts =>
          obtain ⟨_, _, _, -, -, h⟩ := ends_andThen.1 h
          cases (ends_pure.1 h).2
          exact accounts

end Connection

namespace Assembly

/-- An assembly as settings describe it. -/
structure Wired (s : Settings) (a : Assembly) : Prop where
  connection : Connection.ofKeys s.chain.chainId s.signers = .ok a.connection
  policy : a.settler.policy = s.policy
  asset : ∀ c, a.settler.assetPayout c = (s.asset c).map (assetPayout s a.connection c)
  currency : ∀ c, a.settler.currencyPayout c = (s.currency c).map (currencyPayout a.connection c)

section Registrations

variable {s : Settings} {a a' : Assembly} {rs : List Registration}

/-- A class of assets is registered just if the settings give it a contract. -/
lemma asset_mem_registrations {c x} : .asset c x ∈ registrations s ↔ s.asset c = some x := by
  simp [registrations, Settings.mem_assets]

/-- A currency is registered just if the settings give it a contract. -/
lemma currency_mem_registrations {c x} :
    .currency c x ∈ registrations s ↔ s.currency c = some x := by
  simp [registrations, Settings.mem_currencies]

/-- What has become of an assembly when classes are registered. -/
structure Registers (s : Settings) (a : Assembly) (rs : List Registration)
    (a' : Assembly) : Prop where
  connection : a'.connection = a.connection
  policy : a'.settler.policy = a.settler.policy
  asset : ∀ c, (a'.settler.assetPayout c = a.settler.assetPayout c ∧ ∀ x, .asset c x ∉ rs) ∨
    ∃ x, .asset c x ∈ rs ∧ a'.settler.assetPayout c = some (assetPayout s a.connection c x)
  currency :
    ∀ c, (a'.settler.currencyPayout c = a.settler.currencyPayout c ∧ ∀ x, .currency c x ∉ rs) ∨
    ∃ x, .currency c x ∈ rs ∧ a'.settler.currencyPayout c = some (currencyPayout a.connection c x)

/-- One registration changes what is paid out for its own class and nothing else. -/
lemma registers_of_register {r} (h : register s a r = .ok a') : Registers s a [r] a' := by
  cases r with
  | asset c x =>
    obtain ⟨contract, -, ⟨⟩⟩ := exists_of_bind_eq_ok h
    refine ⟨rfl, rfl, fun c' => ?_, fun c' => .inl ⟨rfl, by simp⟩⟩
    by_cases same : c' = c
    · subst same
      exact .inr ⟨x, List.mem_singleton_self _, if_pos rfl⟩
    · exact .inl ⟨if_neg same, by simp [same]⟩
  | currency c x =>
    obtain ⟨contract, -, ⟨⟩⟩ := exists_of_bind_eq_ok h
    refine ⟨rfl, rfl, fun c' => .inl ⟨rfl, by simp⟩, fun c' => ?_⟩
    by_cases same : c' = c
    · subst same
      exact .inr ⟨x, List.mem_singleton_self _, if_pos rfl⟩
    · exact .inl ⟨if_neg same, by simp [same]⟩

/-- Registering some classes and then others registers all of them. -/
lemma Registers.append {rs' : List Registration} {a'' : Assembly} (h : Registers s a rs a')
    (h' : Registers s a' rs' a'') : Registers s a (rs ++ rs') a'' where
  connection := h'.connection.trans h.connection
  policy := h'.policy.trans h.policy
  asset c := by
    obtain ⟨same, none⟩ | ⟨x, mem, set⟩ := h'.asset c
    · obtain ⟨same', none'⟩ | ⟨x, mem, set⟩ := h.asset c
      · exact .inl ⟨same.trans same', fun x => List.not_mem_append (none' x) (none x)⟩
      · exact .inr ⟨x, List.mem_append_left _ mem, same.trans set⟩
    · rw [h.connection] at set
      exact .inr ⟨x, List.mem_append_right _ mem, set⟩
  currency c := by
    obtain ⟨same, none⟩ | ⟨x, mem, set⟩ := h'.currency c
    · obtain ⟨same', none'⟩ | ⟨x, mem, set⟩ := h.currency c
      · exact .inl ⟨same.trans same', fun x => List.not_mem_append (none' x) (none x)⟩
      · exact .inr ⟨x, List.mem_append_left _ mem, same.trans set⟩
    · rw [h.connection] at set
      exact .inr ⟨x, List.mem_append_right _ mem, set⟩

/-- Registering a list of classes without an error registers each of them. -/
lemma registers_of_registerAll {hs} (h : (registerAll s a rs).Ends hs (.ok a')) :
    Registers s a rs a' := by
  induction rs generalizing a hs with
  | nil =>
    obtain ⟨-, ⟨⟩⟩ := ends_pure.1 h
    exact ⟨rfl, rfl, fun _ => .inl ⟨rfl, by simp⟩, fun _ => .inl ⟨rfl, by simp⟩⟩
  | cons r rs ih =>
    unfold registerAll at h
    split at h
    case h_1 e failed => cases (ends_pure.1 h).2
    case h_2 a₁ registered =>
      obtain ⟨_, _, hs', -, -, rest⟩ := ends_andThen.1 h
      exact (registers_of_register registered).append (ih rest)

/-- Who registers the classes of settings, and nothing else, is wired as they say. -/
lemma Registers.wired {x : Connection} (h : Registers s (idle s x) (registrations s) a)
    (keys : Connection.ofKeys s.chain.chainId s.signers = .ok x) : Wired s a := by
  have connection : a.connection = x := h.connection
  refine ⟨connection ▸ keys, h.policy, fun c => ?_, fun c => ?_⟩
  · obtain ⟨same, none⟩ | ⟨x', mem, set⟩ := h.asset c
    · have unset : s.asset c = Option.none :=
        Option.eq_none_iff_forall_ne_some.2 fun x' some => none x' (asset_mem_registrations.2 some)
      rw [same, unset]
      rfl
    · rw [set, asset_mem_registrations.1 mem, connection]
      rfl
  · obtain ⟨same, none⟩ | ⟨x', mem, set⟩ := h.currency c
    · have unset : s.currency c = Option.none :=
        Option.eq_none_iff_forall_ne_some.2 fun x' some =>
          none x' (currency_mem_registrations.2 some)
      rw [same, unset]
      rfl
    · rw [set, currency_mem_registrations.1 mem, connection]
      rfl

end Registrations

/-- A settler that was built is wired as the settings say. -/
lemma wired_of_build {s : Settings} {given hs} {a : Assembly} {store}
    (h : (build s given).Ends hs (.ok (a, store))) :
    Wired s a := by
  obtain ⟨_, opened, _, -, -, h⟩ := ends_andThen.1 h
  cases opened with
  | error e => cases (ends_pure.1 h).2
  | ok store =>
    obtain ⟨_, connected, _, -, h', h⟩ := ends_andThen.1 h
    cases connected with
    | error e => cases (ends_pure.1 h).2
    | ok a =>
      cases (ends_pure.1 h).2
      obtain ⟨_, linked, _, -, h, h'⟩ := ends_andThen.1 h'
      cases linked with
      | error e => cases (ends_pure.1 h').2
      | ok x => exact (registers_of_registerAll h').wired (Connection.ofKeys_of_connect h)

end Assembly

end Payout
