import RifRelayServer.Lib.InsertionOrder
import RifRelayServer.Lib.Failure
import RifRelayServer.StoredTransactions

/-!
# Trusted verifiers

The server relays a request only when it trusts the verifier that the request names.
Once it is initialized it trusts those of its configuration, in lower case, and lists them
with the tokens and the contracts that they accept. Before, it trusts none.
-/

namespace RifRelayServer

open InsertionOrder

/-- The contracts of the configuration, without the relay hub. -/
structure ContractsConfig where
  deployVerifierAddress : Address
  relayVerifierAddress : Address
  feesReceiver : Address
  trustedVerifiers : List Address

/-- `toLowerCase`, as a text. -/
def lowerCase (text : String) : String := String.ofList (toLowerCase text)

def addConfiguredVerifier (verifiers : List Address) (address : Address) : List Address :=
  if address ≠ addressZero ∧ lowerCase address ∉ verifiers then add verifiers (lowerCase address)
  else verifiers

/-- `_initTrustedVerifiers`, with the set of verifiers that it leaves. -/
def initTrustedVerifiers (contracts : ContractsConfig) : List Address :=
  addConfiguredVerifier
    (addConfiguredVerifier (addAll [] (contracts.trustedVerifiers.map lowerCase))
      contracts.relayVerifierAddress)
    contracts.deployVerifierAddress

def isTrustedVerifier (trustedVerifiers : List Address) (verifier : Address) : Bool :=
  trustedVerifiers.contains (lowerCase verifier)

def suppliedVerifierNotTrusted : String := "Supplied verifier is not trusted"

/-- No verifier is supplied in an empty text either. -/
def queryVerifiers (verifier : Option String) (verifiers : List Address) :
    Except String (List Address) :=
  match verifier with
  | none => .ok verifiers
  | some verifier =>
      if verifier = "" then .ok verifiers
      else if verifiers.contains (lowerCase verifier) then .ok [verifier]
      else .error suppliedVerifierNotTrusted

/-- What the handlers ask of other code: the checksummed spelling of an address, and
what a verifier contract accepts. -/
structure VerifierContracts where
  getAddress : String → Except String Address
  getAcceptedTokens : Address → Except String (List Address)
  getAcceptedContracts : Address → Except String (List Address)

def acceptedOrNone (answer : Except String (List Address)) : List Address :=
  match answer with
  | .ok accepted => accepted
  | .error _ => []

def getAcceptedTokensFromVerifier (contracts : VerifierContracts) (verifier : Address) :
    List Address :=
  acceptedOrNone (contracts.getAcceptedTokens verifier)

def getAcceptedContractsFromVerifier (contracts : VerifierContracts) (verifier : Address) :
    List Address :=
  acceptedOrNone (contracts.getAcceptedContracts verifier)

abbrev HandlerResponse := List (Address × List Address)

/-- The loop of the two handlers over the verifiers. -/
def respond (getAddress : String → Except String Address) (accepted : Address → List Address) :
    List Address → HandlerResponse → Except String HandlerResponse
  | [], res => .ok res
  | verifier :: verifiers, res => do
      let key ← getAddress verifier
      respond getAddress accepted verifiers (assign res key (accepted verifier))

def answerTrusted (getAddress : String → Except String Address)
    (accepted : Address → List Address) (trustedVerifiers : List Address)
    (verifier : Option String) : Except String HandlerResponse := do
  let verifiers ← queryVerifiers verifier trustedVerifiers
  respond getAddress accepted verifiers []

def tokenHandler (contracts : VerifierContracts) (trustedVerifiers : List Address)
    (verifier : Option String) : Except String HandlerResponse :=
  answerTrusted contracts.getAddress (getAcceptedTokensFromVerifier contracts) trustedVerifiers
    verifier

def destinationContractHandler (contracts : VerifierContracts) (trustedVerifiers : List Address)
    (verifier : Option String) : Except String HandlerResponse :=
  answerTrusted contracts.getAddress (getAcceptedContractsFromVerifier contracts) trustedVerifiers
    verifier

def verifierHandler (trustedVerifiers : List Address) : List Address := trustedVerifiers

theorem lowerCase_eq_iff {a b : String} :
    lowerCase a = lowerCase b ↔ toLowerCase a = toLowerCase b := by
  rw [lowerCase, lowerCase, String.ofList_inj]

theorem mem_addConfiguredVerifier {verifiers : List Address} {address x : Address} :
    x ∈ addConfiguredVerifier verifiers address ↔
      x ∈ verifiers ∨ address ≠ addressZero ∧ x = lowerCase address := by
  unfold addConfiguredVerifier
  split
  next h => rw [mem_add, and_iff_right h.1]
  next h =>
    refine ⟨Or.inl, fun hx => hx.elim id ?_⟩
    rintro ⟨hne, rfl⟩
    exact not_not.mp fun hnew => h ⟨hne, hnew⟩

theorem nodup_addConfiguredVerifier {verifiers : List Address} (h : verifiers.Nodup)
    (address : Address) : (addConfiguredVerifier verifiers address).Nodup := by
  unfold addConfiguredVerifier
  split
  · exact nodup_add h
  · exact h

theorem nodup_initTrustedVerifiers (contracts : ContractsConfig) :
    (initTrustedVerifiers contracts).Nodup :=
  nodup_addConfiguredVerifier
    (nodup_addConfiguredVerifier (nodup_addAll List.nodup_nil) _) _

/-- The verifier is one that the configuration names. The zero address stands for none,
unless the list of verifiers names it. -/
def ContractsConfig.Names (contracts : ContractsConfig) (verifier : Address) : Prop :=
  (∃ trusted ∈ contracts.trustedVerifiers, toLowerCase trusted = toLowerCase verifier) ∨
    ∃ configured ∈ [contracts.relayVerifierAddress, contracts.deployVerifierAddress],
      configured ≠ addressZero ∧ toLowerCase configured = toLowerCase verifier

theorem mem_initTrustedVerifiers {contracts : ContractsConfig} {verifier : Address} :
    lowerCase verifier ∈ initTrustedVerifiers contracts ↔ contracts.Names verifier := by
  simp only [initTrustedVerifiers, mem_addConfiguredVerifier, mem_addAll, List.not_mem_nil,
    false_or, List.mem_map, lowerCase_eq_iff, ContractsConfig.Names, List.mem_cons, or_false,
    exists_eq_or_imp, exists_eq_left, or_assoc]
  simp only [eq_comm]

theorem mem_initTrustedVerifiers_iff {contracts : ContractsConfig} {trusted : Address} :
    trusted ∈ initTrustedVerifiers contracts ↔
      ∃ named, contracts.Names named ∧ trusted = lowerCase named := by
  constructor
  · intro h
    have hlower : ∃ named, trusted = lowerCase named := by
      simp only [initTrustedVerifiers, mem_addConfiguredVerifier, mem_addAll, List.not_mem_nil,
        false_or, List.mem_map] at h
      rcases h with (⟨named, -, rfl⟩ | ⟨-, rfl⟩) | ⟨-, rfl⟩
      · exact ⟨named, rfl⟩
      · exact ⟨_, rfl⟩
      · exact ⟨_, rfl⟩
    obtain ⟨named, rfl⟩ := hlower
    exact ⟨named, mem_initTrustedVerifiers.mp h, rfl⟩
  · rintro ⟨named, hnames, rfl⟩
    exact mem_initTrustedVerifiers.mpr hnames

section Responses

variable {getAddress : String → Except String Address} {accepted : Address → List Address}
  {verifiers : List Address} {before res : HandlerResponse} {key : Address} {tokens : List Address}

/-- The entry is that of the last verifier that is spelled so. -/
def LastSpelled (getAddress : String → Except String Address) (accepted : Address → List Address)
    (verifiers : List Address) (key : Address) (tokens : List Address) : Prop :=
  ∃ earlier verifier later, verifiers = earlier ++ verifier :: later ∧
    getAddress verifier = .ok key ∧ tokens = accepted verifier ∧
    ∀ other ∈ later, getAddress other ≠ .ok key

theorem lastSpelled_cons {verifier : Address} :
    LastSpelled getAddress accepted (verifier :: verifiers) key tokens ↔
      LastSpelled getAddress accepted verifiers key tokens ∨
        getAddress verifier = .ok key ∧ tokens = accepted verifier ∧
          ∀ other ∈ verifiers, getAddress other ≠ .ok key := by
  constructor
  · rintro ⟨earlier, it, later, hsplit, hkey, htokens, hlast⟩
    cases earlier with
    | nil =>
        cases hsplit
        exact Or.inr ⟨hkey, htokens, hlast⟩
    | cons first earlier =>
        cases hsplit
        exact Or.inl ⟨earlier, it, later, rfl, hkey, htokens, hlast⟩
  · rintro (⟨earlier, it, later, rfl, hkey, htokens, hlast⟩ | ⟨hkey, htokens, hlast⟩)
    · exact ⟨verifier :: earlier, it, later, rfl, hkey, htokens, hlast⟩
    · exact ⟨[], verifier, verifiers, rfl, hkey, htokens, hlast⟩

theorem LastSpelled.exists_spelled (h : LastSpelled getAddress accepted verifiers key tokens) :
    ∃ verifier ∈ verifiers, getAddress verifier = .ok key ∧ tokens = accepted verifier := by
  obtain ⟨earlier, verifier, later, rfl, hkey, htokens, -⟩ := h
  exact ⟨verifier, List.mem_append_right _ List.mem_cons_self, hkey, htokens⟩

theorem exists_lastSpelled (accepted : Address → List Address)
    (h : ∃ verifier ∈ verifiers, getAddress verifier = .ok key) :
    ∃ tokens, LastSpelled getAddress accepted verifiers key tokens := by
  induction verifiers with
  | nil =>
      obtain ⟨_, hmem, -⟩ := h
      cases hmem
  | cons first verifiers ih =>
      by_cases hlater : ∃ other ∈ verifiers, getAddress other = .ok key
      · obtain ⟨tokens, hlast⟩ := ih hlater
        exact ⟨tokens, lastSpelled_cons.mpr (Or.inl hlast)⟩
      · obtain ⟨verifier, hmem, hkey⟩ := h
        have hnone : ∀ other ∈ verifiers, getAddress other ≠ .ok key :=
          fun other hother hspelled => hlater ⟨other, hother, hspelled⟩
        rcases List.mem_cons.mp hmem with rfl | hother
        · exact ⟨_, lastSpelled_cons.mpr (Or.inr ⟨hkey, rfl, hnone⟩)⟩
        · exact absurd hkey (hnone verifier hother)

theorem spelled_of_respond (h : respond getAddress accepted verifiers before = .ok res) :
    ∀ verifier ∈ verifiers, ∃ key, getAddress verifier = .ok key := by
  induction verifiers generalizing before with
  | nil => exact fun _ hmem => absurd hmem List.not_mem_nil
  | cons verifier verifiers ih =>
      obtain ⟨key, hkey, hrest⟩ := Failure.bind_eq_ok_iff.mp h
      exact List.forall_mem_cons.mpr ⟨⟨key, hkey⟩, ih hrest⟩

theorem misspelled_of_respond {e : String}
    (h : respond getAddress accepted verifiers before = .error e) :
    ∃ verifier ∈ verifiers, getAddress verifier = .error e := by
  induction verifiers generalizing before with
  | nil => cases h
  | cons verifier verifiers ih =>
      rw [respond] at h
      cases hkey : getAddress verifier with
      | error e' =>
          rw [hkey] at h
          cases h
          exact ⟨verifier, List.mem_cons_self, hkey⟩
      | ok key =>
          rw [hkey, Failure.ok_bind] at h
          obtain ⟨other, hother, hmisspelled⟩ := ih h
          exact ⟨other, List.mem_cons_of_mem _ hother, hmisspelled⟩

theorem respond_keys_nodup (h : respond getAddress accepted verifiers before = .ok res)
    (hbefore : (before.map Prod.fst).Nodup) : (res.map Prod.fst).Nodup := by
  induction verifiers generalizing before with
  | nil => exact Except.ok.inj h ▸ hbefore
  | cons verifier verifiers ih =>
      obtain ⟨key, -, hrest⟩ := Failure.bind_eq_ok_iff.mp h
      refine ih hrest ?_
      rw [map_fst_assign]
      exact nodup_add hbefore

theorem mem_respond_iff (h : respond getAddress accepted verifiers before = .ok res) :
    (key, tokens) ∈ res ↔ LastSpelled getAddress accepted verifiers key tokens ∨
      (key, tokens) ∈ before ∧ ∀ verifier ∈ verifiers, getAddress verifier ≠ .ok key := by
  induction verifiers generalizing before with
  | nil =>
      obtain rfl := Except.ok.inj h
      simp [LastSpelled]
  | cons verifier verifiers ih =>
      obtain ⟨spelled, hspelled, hrest⟩ := Failure.bind_eq_ok_iff.mp h
      rw [ih hrest, lastSpelled_cons, List.forall_mem_cons, mem_assign, hspelled, Except.ok.injEq,
        Prod.mk.injEq, ne_eq, ne_eq, Except.ok.injEq, or_assoc]
      apply or_congr_right
      constructor
      · rintro ⟨⟨hold, hne⟩ | ⟨rfl, rfl⟩, hother⟩
        · exact Or.inr ⟨hold, Ne.symm hne, hother⟩
        · exact Or.inl ⟨rfl, rfl, hother⟩
      · rintro (⟨rfl, rfl, hother⟩ | ⟨hold, hne, hother⟩)
        · exact ⟨Or.inr ⟨rfl, rfl⟩, hother⟩
        · exact ⟨Or.inl ⟨hold, Ne.symm hne⟩, hother⟩

variable {contracts : VerifierContracts} {config : ContractsConfig} {verifier : Option String}

/-- The verifiers that a request asks about: the one it supplies, as it spells it, or
every one that the configuration names. -/
def ContractsConfig.Asks (config : ContractsConfig) (verifier : Option String)
    (asked : Address) : Prop :=
  if verifier.getD "" = "" then ∃ named, config.Names named ∧ asked = lowerCase named
  else verifier = some asked

/-- A request with a verifier that is not trusted is refused. -/
def ContractsConfig.Admits (config : ContractsConfig) (verifier : Option String) : Prop :=
  ∀ supplied, verifier = some supplied → supplied ≠ "" → config.Names supplied

theorem queryVerifiers_cases (config : ContractsConfig) (verifier : Option String) :
    (∃ verifiers, queryVerifiers verifier (initTrustedVerifiers config) = .ok verifiers ∧
      config.Admits verifier ∧ ∀ asked, asked ∈ verifiers ↔ config.Asks verifier asked) ∨
    queryVerifiers verifier (initTrustedVerifiers config) = .error suppliedVerifierNotTrusted ∧
      ¬ config.Admits verifier := by
  have hnone : verifier.getD "" = "" → config.Admits verifier ∧
      ∀ asked, asked ∈ initTrustedVerifiers config ↔ config.Asks verifier asked := by
    intro hempty
    refine ⟨fun supplied hsupplied hne => ?_, fun asked => ?_⟩
    · rw [hsupplied, Option.getD_some] at hempty
      exact absurd hempty hne
    · rw [mem_initTrustedVerifiers_iff, ContractsConfig.Asks, if_pos hempty]
  cases verifier with
  | none => exact Or.inl ⟨_, rfl, hnone rfl⟩
  | some supplied =>
      unfold queryVerifiers
      dsimp only
      split
      next hempty => exact Or.inl ⟨_, rfl, hnone hempty⟩
      next hsupplied =>
        have htrusted : (initTrustedVerifiers config).contains (lowerCase supplied) = true ↔
            config.Names supplied := List.contains_iff_mem.trans mem_initTrustedVerifiers
        split
        next hcontains =>
          refine Or.inl ⟨[supplied], rfl, ?_, fun asked => ?_⟩
          · rintro _ hsame -
            exact Option.some.inj hsame ▸ htrusted.mp hcontains
          · rw [ContractsConfig.Asks, Option.getD_some, if_neg hsupplied, List.mem_singleton,
              Option.some_inj, eq_comm]
        next hcontains =>
          exact Or.inr ⟨rfl, fun hadmits => hcontains (htrusted.mpr (hadmits _ rfl hsupplied))⟩

/-- What is answered about the verifiers asked about: an entry for each, under its checksummed
spelling, none twice, and nothing else. -/
structure Answers (getAddress : String → Except String Address)
    (accepted : Address → List Address) (asked : Address → Prop) (res : HandlerResponse) :
    Prop where
  nodup : (res.map Prod.fst).Nodup
  sound : ∀ key tokens, (key, tokens) ∈ res →
    ∃ verifier, asked verifier ∧ getAddress verifier = .ok key ∧ tokens = accepted verifier
  complete : ∀ verifier, asked verifier →
    ∃ key, getAddress verifier = .ok key ∧ key ∈ res.map Prod.fst

theorem respond_answers (h : respond getAddress accepted verifiers [] = .ok res) :
    Answers getAddress accepted (· ∈ verifiers) res where
  nodup := respond_keys_nodup h List.nodup_nil
  sound key tokens hmem := by
    rcases (mem_respond_iff h).mp hmem with hlast | ⟨hbefore, -⟩
    · exact hlast.exists_spelled
    · cases hbefore
  complete verifier hverifier := by
    obtain ⟨key, hkey⟩ := spelled_of_respond h verifier hverifier
    obtain ⟨tokens, hlast⟩ := exists_lastSpelled accepted ⟨verifier, hverifier, hkey⟩
    exact ⟨key, hkey, List.mem_map.mpr ⟨_, (mem_respond_iff h).mpr (Or.inl hlast), rfl⟩⟩

/-- The outcome of a handler: the verifiers asked about, or the error of one that is not
trusted or not spelled as an address is. -/
def Handled (getAddress : String → Except String Address) (accepted : Address → List Address)
    (config : ContractsConfig) (verifier : Option String) :
    Except String HandlerResponse → Prop
  | .ok res => config.Admits verifier ∧ Answers getAddress accepted (config.Asks verifier) res
  | .error e => ¬ config.Admits verifier ∧ e = suppliedVerifierNotTrusted ∨
      config.Admits verifier ∧ ∃ asked, config.Asks verifier asked ∧ getAddress asked = .error e

theorem answerTrusted_handled (getAddress : String → Except String Address)
    (accepted : Address → List Address) (config : ContractsConfig) (verifier : Option String) :
    Handled getAddress accepted config verifier
      (answerTrusted getAddress accepted (initTrustedVerifiers config) verifier) := by
  unfold answerTrusted
  rcases queryVerifiers_cases config verifier with
    ⟨verifiers, hquery, hadmits, hasked⟩ | ⟨hquery, hadmits⟩
  · rw [hquery, Failure.ok_bind]
    cases hrespond : respond getAddress accepted verifiers [] with
    | ok res =>
        have hasks : (· ∈ verifiers) = config.Asks verifier := funext fun v => propext (hasked v)
        exact ⟨hadmits, hasks ▸ respond_answers hrespond⟩
    | error e =>
        obtain ⟨asked, hmem, hmisspelled⟩ := misspelled_of_respond hrespond
        exact Or.inr ⟨hadmits, asked, (hasked asked).mp hmem, hmisspelled⟩
  · rw [hquery]
    exact Or.inl ⟨hadmits, rfl⟩

end Responses

/-- An initialized server lists the verifiers of its configuration, in lower case and none
twice, and answers about these and no other. -/
theorem handlers_answer_trusted (contracts : VerifierContracts) (config : ContractsConfig)
    (verifier : Option String) :
    (verifierHandler (initTrustedVerifiers config)).Nodup ∧
      (∀ trusted, trusted ∈ verifierHandler (initTrustedVerifiers config) ↔
        ∃ named, config.Names named ∧ trusted = lowerCase named) ∧
      Handled contracts.getAddress (getAcceptedTokensFromVerifier contracts) config verifier
        (tokenHandler contracts (initTrustedVerifiers config) verifier) ∧
      Handled contracts.getAddress (getAcceptedContractsFromVerifier contracts) config verifier
        (destinationContractHandler contracts (initTrustedVerifiers config) verifier) :=
  ⟨nodup_initTrustedVerifiers config, fun _ => mem_initTrustedVerifiers_iff,
    answerTrusted_handled _ _ config verifier, answerTrusted_handled _ _ config verifier⟩

end RifRelayServer
