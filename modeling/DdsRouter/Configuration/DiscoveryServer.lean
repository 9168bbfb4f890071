import DdsRouter.Types.Containers

/-!
# `DiscoveryServerParticipantConfiguration::is_valid`

The model of the validation in `DiscoveryServerParticipantConfiguration.cpp`. The checks run in
a fixed order and the first that fails appends its diagnostic to the formatter and makes the
call return `false`. The parent class's check, and the validity of guid prefixes, addresses and
TLS material, belong to types declared outside the router core; the model reads them through
`ValidityChecks`.

## Main results

- `isValid_iff`: a configuration is accepted exactly when the parent accepts it, every address
  is valid, it listens or connects, and active TLS backs every role it takes.
- `isValid_diagnostics`: what the call returns and leaves in the formatter, check by check.
-/

namespace DdsRouter

/-- `types::security::TlsKind`, as far as `is_valid` asks: the server and client roles. -/
inductive TlsKind
  | server
  | client
  deriving DecidableEq

/-- The checks `is_valid` delegates to types declared outside the router core:
`SimpleParticipantConfiguration::is_valid`, which may itself append to the formatter,
`GuidPrefix::is_valid`, `Address::is_valid`, `DiscoveryServerConnectionAddress::is_valid`, and the
two queries of `TlsConfiguration`. -/
structure ValidityChecks (Simple GuidPrefix Address ConnectionAddress Tls : Type) where
  simpleIsValid : Simple → String → Bool × String
  guidPrefixIsValid : GuidPrefix → Bool
  addressIsValid : Address → Bool
  connectionAddressIsValid : ConnectionAddress → Bool
  isActive : Tls → Bool
  compatible : TlsKind → Tls → Bool

/-- A `DiscoveryServerParticipantConfiguration`: its `SimpleParticipantConfiguration` part (id,
kind, repeater flag and domain) and the fields it adds. -/
structure DiscoveryServerParticipantConfiguration (Simple GuidPrefix Address ConnectionAddress
    Tls : Type) [LinearOrder Address] [LinearOrder ConnectionAddress] where
  simple : Simple
  discoveryServerGuidPrefix : GuidPrefix
  listeningAddresses : OrderedSet Address
  connectionAddresses : OrderedSet ConnectionAddress
  tlsConfiguration : Tls

namespace DiscoveryServerParticipantConfiguration

variable {Simple GuidPrefix Address ConnectionAddress Tls : Type} [LinearOrder Address]
  [LinearOrder ConnectionAddress] [ToString GuidPrefix] [ToString Address]
  [ToString ConnectionAddress]
  (checks : ValidityChecks Simple GuidPrefix Address ConnectionAddress Tls)

/-- The checks after the parent's, in the order `is_valid` makes them: the diagnostic of the first
that fails, or `none` when all pass. -/
def firstFailure (c : DiscoveryServerParticipantConfiguration Simple GuidPrefix Address
    ConnectionAddress Tls) : Option String :=
  if !checks.guidPrefixIsValid c.discoveryServerGuidPrefix then
    some ("Non valid Participant Guid Prefix " ++ toString c.discoveryServerGuidPrefix ++ ". ")
  else match c.listeningAddresses.elems.find? (!checks.addressIsValid ·) with
  | some address => some ("Incorrect address " ++ toString address ++ " in listening addresses. ")
  | none =>
  match c.connectionAddresses.elems.find? (!checks.connectionAddressIsValid ·) with
  | some address => some ("Incorrect address " ++ toString address ++ " in connection addresses. ")
  | none =>
  if c.listeningAddresses.elems.isEmpty && c.connectionAddresses.elems.isEmpty then
    some "No listening or connection address specified. "
  else if checks.isActive c.tlsConfiguration then
    if !c.listeningAddresses.elems.isEmpty &&
        !checks.compatible .server c.tlsConfiguration then
      some "TLS requires to support Server Configuration if listening addresses set. "
    else if !c.connectionAddresses.elems.isEmpty &&
        !checks.compatible .client c.tlsConfiguration then
      some "TLS requires to support Client Configuration if connection addresses set. "
    else none
  else none

/-- `DiscoveryServerParticipantConfiguration::is_valid(error_msg)`: the result, and the formatter
after the call. -/
def isValid (c : DiscoveryServerParticipantConfiguration Simple GuidPrefix Address
    ConnectionAddress Tls) (errorMsg : String) : Bool × String :=
  match checks.simpleIsValid c.simple errorMsg with
  | (false, errorMsg) => (false, errorMsg)
  | (true, errorMsg) =>
    match firstFailure checks c with
    | some diagnostic => (false, errorMsg ++ diagnostic)
    | none => (true, errorMsg)

/-- `DiscoveryServerParticipantConfiguration::operator==`, which the source leaves as a stub
that answers `false` for every pair, a configuration and itself included. -/
def equals (_ _ : DiscoveryServerParticipantConfiguration Simple GuidPrefix Address
    ConnectionAddress Tls) : Bool :=
  false

/-- The checks after the parent's all pass exactly when the guid prefix and every address are
valid, the participant listens or connects, and active TLS backs each role it takes. -/
theorem firstFailure_eq_none_iff (c : DiscoveryServerParticipantConfiguration Simple GuidPrefix
    Address ConnectionAddress Tls) :
    firstFailure checks c = none ↔
      checks.guidPrefixIsValid c.discoveryServerGuidPrefix = true ∧
      (∀ a ∈ c.listeningAddresses, checks.addressIsValid a = true) ∧
      (∀ a ∈ c.connectionAddresses, checks.connectionAddressIsValid a = true) ∧
      (c.listeningAddresses.elems ≠ [] ∨ c.connectionAddresses.elems ≠ []) ∧
      (checks.isActive c.tlsConfiguration = true →
        (c.listeningAddresses.elems ≠ [] → checks.compatible .server c.tlsConfiguration = true) ∧
        (c.connectionAddresses.elems ≠ [] →
          checks.compatible .client c.tlsConfiguration = true)) := by
  unfold firstFailure
  by_cases hg : checks.guidPrefixIsValid c.discoveryServerGuidPrefix = true
  swap
  · simp [hg]
  simp only [hg, Bool.not_true, Bool.false_eq_true, if_false, true_and]
  cases hl : c.listeningAddresses.elems.find? (!checks.addressIsValid ·) with
  | some a =>
    have ha : a ∈ c.listeningAddresses ∧ checks.addressIsValid a = false :=
      ⟨List.mem_of_find?_eq_some hl, by simpa using List.find?_some hl⟩
    simp only [reduceCtorEq, false_iff, not_and]
    exact fun h => absurd (h a ha.1) (by simp [ha.2])
  | none =>
  cases hc : c.connectionAddresses.elems.find? (!checks.connectionAddressIsValid ·) with
  | some a =>
    have ha : a ∈ c.connectionAddresses ∧ checks.connectionAddressIsValid a = false :=
      ⟨List.mem_of_find?_eq_some hc, by simpa using List.find?_some hc⟩
    simp only [reduceCtorEq, false_iff, not_and]
    exact fun _ h => absurd (h a ha.1) (by simp [ha.2])
  | none =>
    have hL : ∀ a ∈ c.listeningAddresses, checks.addressIsValid a = true := by
      simpa [List.find?_eq_none] using hl
    have hC : ∀ a ∈ c.connectionAddresses, checks.connectionAddressIsValid a = true := by
      simpa [List.find?_eq_none] using hc
    simp only [hL, hC, true_and, implies_true, ← List.isEmpty_iff, Bool.not_eq_true]
    split_ifs <;> simp_all [imp_iff_not_or]

/-- **The validity gate.** A configuration is accepted exactly when the parent accepts it, the
guid prefix and every address are valid, it listens or connects, and, with TLS active, the TLS
material backs every role it takes. -/
theorem isValid_iff (c : DiscoveryServerParticipantConfiguration Simple GuidPrefix Address
    ConnectionAddress Tls) (errorMsg : String) :
    (isValid checks c errorMsg).1 = true ↔
      (checks.simpleIsValid c.simple errorMsg).1 = true ∧
      checks.guidPrefixIsValid c.discoveryServerGuidPrefix = true ∧
      (∀ a ∈ c.listeningAddresses, checks.addressIsValid a = true) ∧
      (∀ a ∈ c.connectionAddresses, checks.connectionAddressIsValid a = true) ∧
      (c.listeningAddresses.elems ≠ [] ∨ c.connectionAddresses.elems ≠ []) ∧
      (checks.isActive c.tlsConfiguration = true →
        (c.listeningAddresses.elems ≠ [] → checks.compatible .server c.tlsConfiguration = true) ∧
        (c.connectionAddresses.elems ≠ [] →
          checks.compatible .client c.tlsConfiguration = true)) := by
  rw [← firstFailure_eq_none_iff]
  unfold isValid
  rcases checks.simpleIsValid c.simple errorMsg with ⟨_ | _, m⟩
  · simp
  · cases firstFailure checks c <;> simp

-- ════════════════════════════════════════════════════════════════════════
-- Diagnostics, check by check
-- ════════════════════════════════════════════════════════════════════════

section Diagnostics

variable {c : DiscoveryServerParticipantConfiguration Simple GuidPrefix Address ConnectionAddress
  Tls}

/-- After the parent accepted, `is_valid` appends the diagnostic of the first failing check. -/
theorem isValid_of_simpleIsValid {errorMsg m : String}
    (h : checks.simpleIsValid c.simple errorMsg = (true, m)) :
    isValid checks c errorMsg =
      ((firstFailure checks c).isNone, m ++ (firstFailure checks c).getD "") := by
  unfold isValid
  rw [h]
  cases firstFailure checks c <;> simp

theorem firstFailure_guidPrefix
    (hg : checks.guidPrefixIsValid c.discoveryServerGuidPrefix = false) :
    firstFailure checks c =
      some ("Non valid Participant Guid Prefix " ++ toString c.discoveryServerGuidPrefix ++
        ". ") := by
  simp [firstFailure, hg]

theorem firstFailure_listening (hg : checks.guidPrefixIsValid c.discoveryServerGuidPrefix = true)
    {a : Address} (ha : a ∈ c.listeningAddresses) (hinvalid : checks.addressIsValid a = false)
    (hleast : ∀ b ∈ c.listeningAddresses, b < a → checks.addressIsValid b = true) :
    firstFailure checks c =
      some ("Incorrect address " ++ toString a ++ " in listening addresses. ") := by
  have hfind : c.listeningAddresses.elems.find? (!checks.addressIsValid ·) = some a :=
    OrderedSet.find?_elems_eq_some ha (by simp [hinvalid]) fun b hb hba => by simp [hleast b hb hba]
  simp [firstFailure, hg, hfind]

omit [ToString GuidPrefix] [ToString Address] [ToString ConnectionAddress] in
/-- The searches over both address sets find nothing when every address is valid. -/
theorem find?_addresses_eq_none
    (hL : ∀ b ∈ c.listeningAddresses, checks.addressIsValid b = true)
    (hC : ∀ b ∈ c.connectionAddresses, checks.connectionAddressIsValid b = true) :
    c.listeningAddresses.elems.find? (!checks.addressIsValid ·) = none ∧
    c.connectionAddresses.elems.find? (!checks.connectionAddressIsValid ·) = none :=
  ⟨List.find?_eq_none.2 fun b hb => by simp [hL b hb],
    List.find?_eq_none.2 fun b hb => by simp [hC b hb]⟩

theorem firstFailure_connection (hg : checks.guidPrefixIsValid c.discoveryServerGuidPrefix = true)
    (hL : ∀ b ∈ c.listeningAddresses, checks.addressIsValid b = true)
    {a : ConnectionAddress} (ha : a ∈ c.connectionAddresses)
    (hinvalid : checks.connectionAddressIsValid a = false)
    (hleast : ∀ b ∈ c.connectionAddresses, b < a → checks.connectionAddressIsValid b = true) :
    firstFailure checks c =
      some ("Incorrect address " ++ toString a ++ " in connection addresses. ") := by
  have hfindL : c.listeningAddresses.elems.find? (!checks.addressIsValid ·) = none :=
    List.find?_eq_none.2 fun b hb => by simp [hL b hb]
  have hfindC : c.connectionAddresses.elems.find? (!checks.connectionAddressIsValid ·) = some a :=
    OrderedSet.find?_elems_eq_some ha (by simp [hinvalid]) fun b hb hba => by simp [hleast b hb hba]
  simp [firstFailure, hg, hfindL, hfindC]

theorem firstFailure_noAddress (hg : checks.guidPrefixIsValid c.discoveryServerGuidPrefix = true)
    (hL : c.listeningAddresses.elems = []) (hC : c.connectionAddresses.elems = []) :
    firstFailure checks c = some "No listening or connection address specified. " := by
  simp [firstFailure, hg, hL, hC]

theorem firstFailure_tlsServer (hg : checks.guidPrefixIsValid c.discoveryServerGuidPrefix = true)
    (hL : ∀ b ∈ c.listeningAddresses, checks.addressIsValid b = true)
    (hC : ∀ b ∈ c.connectionAddresses, checks.connectionAddressIsValid b = true)
    (hlistens : c.listeningAddresses.elems ≠ [])
    (hactive : checks.isActive c.tlsConfiguration = true)
    (hserver : checks.compatible .server c.tlsConfiguration = false) :
    firstFailure checks c =
      some "TLS requires to support Server Configuration if listening addresses set. " := by
  obtain ⟨hfindL, hfindC⟩ := find?_addresses_eq_none checks hL hC
  simp [firstFailure, hg, hfindL, hfindC, hlistens, hactive, hserver]

theorem firstFailure_tlsClient (hg : checks.guidPrefixIsValid c.discoveryServerGuidPrefix = true)
    (hL : ∀ b ∈ c.listeningAddresses, checks.addressIsValid b = true)
    (hC : ∀ b ∈ c.connectionAddresses, checks.connectionAddressIsValid b = true)
    (hconnects : c.connectionAddresses.elems ≠ [])
    (hactive : checks.isActive c.tlsConfiguration = true)
    (hserver :
      c.listeningAddresses.elems ≠ [] → checks.compatible .server c.tlsConfiguration = true)
    (hclient : checks.compatible .client c.tlsConfiguration = false) :
    firstFailure checks c =
      some "TLS requires to support Client Configuration if connection addresses set. " := by
  obtain ⟨hfindL, hfindC⟩ := find?_addresses_eq_none checks hL hC
  simpa [firstFailure, hg, hfindL, hfindC, hconnects, hactive, hclient] using hserver

end Diagnostics

/-- **The diagnostics of `is_valid`.** What the call returns and leaves in the formatter, check
by check in the order it makes them. A parent that rejects has the last word. Otherwise the
first failing check appends its own diagnostic, naming, for an invalid address, the least invalid
one of its set; a configuration that passes leaves the formatter as the parent left it. -/
theorem isValid_diagnostics (c : DiscoveryServerParticipantConfiguration Simple GuidPrefix Address
    ConnectionAddress Tls) (errorMsg m : String) :
    (checks.simpleIsValid c.simple errorMsg = (false, m) →
      isValid checks c errorMsg = (false, m)) ∧
    (checks.simpleIsValid c.simple errorMsg = (true, m) →
      (checks.guidPrefixIsValid c.discoveryServerGuidPrefix = false →
        isValid checks c errorMsg = (false, m ++
          ("Non valid Participant Guid Prefix " ++ toString c.discoveryServerGuidPrefix ++ ". "))) ∧
      (checks.guidPrefixIsValid c.discoveryServerGuidPrefix = true →
        ∀ a ∈ c.listeningAddresses, checks.addressIsValid a = false →
        (∀ b ∈ c.listeningAddresses, b < a → checks.addressIsValid b = true) →
        isValid checks c errorMsg = (false, m ++
          ("Incorrect address " ++ toString a ++ " in listening addresses. "))) ∧
      (checks.guidPrefixIsValid c.discoveryServerGuidPrefix = true →
        (∀ b ∈ c.listeningAddresses, checks.addressIsValid b = true) →
        ∀ a ∈ c.connectionAddresses, checks.connectionAddressIsValid a = false →
        (∀ b ∈ c.connectionAddresses, b < a → checks.connectionAddressIsValid b = true) →
        isValid checks c errorMsg = (false, m ++
          ("Incorrect address " ++ toString a ++ " in connection addresses. "))) ∧
      (checks.guidPrefixIsValid c.discoveryServerGuidPrefix = true →
        c.listeningAddresses.elems = [] → c.connectionAddresses.elems = [] →
        isValid checks c errorMsg =
          (false, m ++ "No listening or connection address specified. ")) ∧
      (checks.guidPrefixIsValid c.discoveryServerGuidPrefix = true →
        (∀ b ∈ c.listeningAddresses, checks.addressIsValid b = true) →
        (∀ b ∈ c.connectionAddresses, checks.connectionAddressIsValid b = true) →
        c.listeningAddresses.elems ≠ [] → checks.isActive c.tlsConfiguration = true →
        checks.compatible .server c.tlsConfiguration = false →
        isValid checks c errorMsg = (false, m ++
          "TLS requires to support Server Configuration if listening addresses set. ")) ∧
      (checks.guidPrefixIsValid c.discoveryServerGuidPrefix = true →
        (∀ b ∈ c.listeningAddresses, checks.addressIsValid b = true) →
        (∀ b ∈ c.connectionAddresses, checks.connectionAddressIsValid b = true) →
        c.connectionAddresses.elems ≠ [] → checks.isActive c.tlsConfiguration = true →
        (c.listeningAddresses.elems ≠ [] → checks.compatible .server c.tlsConfiguration = true) →
        checks.compatible .client c.tlsConfiguration = false →
        isValid checks c errorMsg = (false, m ++
          "TLS requires to support Client Configuration if connection addresses set. ")) ∧
      ((isValid checks c errorMsg).1 = true → (isValid checks c errorMsg).2 = m)) := by
  refine ⟨fun h => by simp [isValid, h], fun h => ?_⟩
  -- each failing check fixes `firstFailure`, which `is_valid` appends to the parent's message
  have hfail : ∀ d, firstFailure checks c = some d → isValid checks c errorMsg = (false, m ++ d) :=
    fun d hd => by simp [isValid_of_simpleIsValid checks h, hd]
  refine ⟨fun hg => hfail _ (firstFailure_guidPrefix checks hg),
    fun hg a ha hi hl => hfail _ (firstFailure_listening checks hg ha hi hl),
    fun hg hL a ha hi hl => hfail _ (firstFailure_connection checks hg hL ha hi hl),
    fun hg hL hC => hfail _ (firstFailure_noAddress checks hg hL hC),
    fun hg hL hC hl ha hs => hfail _ (firstFailure_tlsServer checks hg hL hC hl ha hs),
    fun hg hL hC hc ha hs hcl => hfail _ (firstFailure_tlsClient checks hg hL hC hc ha hs hcl),
    fun hok => ?_⟩
  rw [isValid_of_simpleIsValid checks h] at hok ⊢
  cases hff : firstFailure checks c <;> simp_all

/-- Checks on naturals: guid prefixes other than `0` and addresses below `100` are valid, and
TLS, active when set, backs both roles. -/
def sampleChecks : ValidityChecks Unit ℕ ℕ ℕ Bool :=
  ⟨fun _ errorMsg => (true, errorMsg), (· != 0), fun a => decide (a < 100),
    fun a => decide (a < 100), id, fun _ _ => true⟩

/-- A configuration listening on the two invalid addresses `150` and `200`. -/
def sampleConfiguration : DiscoveryServerParticipantConfiguration Unit ℕ ℕ ℕ Bool :=
  ⟨(), 1, ⟨[150, 200], by decide⟩, OrderedSet.empty, false⟩

theorem isValid_diagnostics_sample :
    sampleChecks.simpleIsValid () "" = (true, "") ∧ sampleChecks.guidPrefixIsValid 1 = true ∧
    150 ∈ sampleConfiguration.listeningAddresses ∧ sampleChecks.addressIsValid 150 = false ∧
    (∀ b ∈ sampleConfiguration.listeningAddresses, b < 150 →
      sampleChecks.addressIsValid b = true) ∧
    isValid sampleChecks sampleConfiguration "" =
      (false, "" ++ ("Incorrect address " ++ toString 150 ++ " in listening addresses. ")) :=
  have hparent : sampleChecks.simpleIsValid () "" = (true, "") := rfl
  have hmem : 150 ∈ sampleConfiguration.listeningAddresses := by decide
  have hleast : ∀ b ∈ sampleConfiguration.listeningAddresses, b < 150 →
      sampleChecks.addressIsValid b = true := by decide
  ⟨hparent, rfl, hmem, rfl, hleast,
    ((isValid_diagnostics sampleChecks sampleConfiguration "" "").2 hparent).2.1 rfl 150 hmem rfl
      hleast⟩

end DiscoveryServerParticipantConfiguration

end DdsRouter
