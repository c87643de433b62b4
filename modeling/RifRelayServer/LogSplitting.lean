import RifRelayServer.LogScan
import RifRelayServer.Boosting
import RifRelayServer.Lib.Ranges
import Mathlib

/-!
# Scans that are split

A range longer than `maxBlockRange` is asked for in parts. Each part ends with
the block that the next one starts with, and both ends belong to a request, so a
log of such a block is answered twice.
-/

namespace RifRelayServer

section Splitting

variable {config : BlockchainConfig} {relayHubAddress managerAddress : Address}
  {provider : LogProvider} {names : List ManagerEvent} {chain : Chain} {latest : ℕ}
  {fromBlock toBlock : ℤ}

/-- The scan of the range asks the node, and the node answers, for the logs that
it has up to its latest block. -/
def Answered (config : BlockchainConfig) (relayHubAddress : Address) (provider : LogProvider)
    (managerAddress : Address) (options : PastEventOptions) (names : List ManagerEvent)
    (chain : Chain) (latest : ℕ) : Prop :=
  ∀ logFilters,
    getLogFilters config relayHubAddress provider managerAddress options names = .ok logFilters →
    ∀ filter ∈ logFilters,
      getProviderLogsRequests provider filter = .ok (chain.getLogs filter latest)

theorem performLogRequests_of_answered {answer : Filter → List TypedEvent}
    {logFilters : List Filter}
    (h : ∀ filter ∈ logFilters, getProviderLogsRequests provider filter = .ok (answer filter)) :
    performLogRequests provider logFilters = logFilters.flatMap answer := by
  induction logFilters with
  | nil => rfl
  | cons filter logFilters ih =>
      have hfirst := h filter List.mem_cons_self
      have hrest := ih fun it hit => h it (List.mem_cons_of_mem _ hit)
      simp only [performLogRequests] at hrest ⊢
      rw [List.filterMap_cons_some (by rw [hfirst]; rfl), List.flatten_cons, hrest,
        List.flatMap_cons]

def selectedIn (relayHubAddress managerAddress : Address) (names : List ManagerEvent)
    (chain : Chain) (blockNumber : ℕ) : List TypedEvent :=
  (chain.logs blockNumber).filter (logFilter relayHubAddress managerAddress names none none).selects

theorem getLogs_logFilter_number :
    chain.getLogs (logFilter relayHubAddress managerAddress names (some fromBlock)
        (some (.number toBlock))) latest =
      Ranges.between (selectedIn relayHubAddress managerAddress names chain) latest fromBlock
        toBlock := rfl

theorem rangeAt_toBlock (index : ℕ) :
    (rangeAt fromBlock toBlock config.maxBlockRange index).toBlock =
      min toBlock (fromBlock + config.maxBlockRange * (index + 1 : ℕ)) := by
  have hend : fromBlock + config.maxBlockRange * index + config.maxBlockRange =
      fromBlock + config.maxBlockRange * (index + 1 : ℕ) := by
    push_cast
    ring
  simp only [rangeAt, hend]
  split
  next hlt => exact (min_eq_left hlt.le).symm
  next hge => exact (min_eq_right (not_lt.mp hge)).symm

theorem getLogs_rangeAt (index : ℕ) :
    chain.getLogs (logFilter relayHubAddress managerAddress names
        (some (rangeAt fromBlock toBlock config.maxBlockRange index).fromBlock)
        (some (.number (rangeAt fromBlock toBlock config.maxBlockRange index).toBlock))) latest =
      Ranges.part (selectedIn relayHubAddress managerAddress names chain) latest fromBlock
        config.maxBlockRange toBlock index := by
  rw [getLogs_logFilter_number, rangeAt_toBlock]
  rfl

theorem splits_lt_iff {length step : ℤ} (hstep : 0 < step) {limit : ℤ} :
    ⌈(length : ℚ) / step⌉ < limit + 1 ↔ length ≤ limit * step := by
  rw [Int.lt_add_one_iff, Int.ceil_le, div_le_iff₀ (by exact_mod_cast hstep)]
  exact_mod_cast Iff.rfl

theorem fromBlockNumber_of_pos (hfrom : 1 ≤ fromBlock) (toTag : Option BlockTag) :
    PastEventOptions.fromBlockNumber ⟨some fromBlock, toTag⟩ = fromBlock := by
  unfold PastEventOptions.fromBlockNumber
  split
  next hnone => cases hnone
  next hzero => exact absurd (Option.some.inj hzero) (by omega)
  next n hn => exact (Option.some.inj hn).symm

theorem toBlockNumber_of_pos (hto : 1 ≤ toBlock) (from? : Option ℤ) :
    PastEventOptions.toBlockNumber ⟨from?, some (.number toBlock)⟩ provider = .ok toBlock := by
  unfold PastEventOptions.toBlockNumber
  split
  next hnone => cases hnone
  next hlatest => cases hlatest
  next hzero =>
    cases hzero
    omega
  next n hn =>
    cases hn
    rfl

/-- The filters of a range: one, or one for each part if it is long. -/
theorem getLogFilters_of_toBlockNumber {toTag : Option BlockTag} (hfrom : 1 ≤ fromBlock)
    (hto : PastEventOptions.toBlockNumber ⟨some fromBlock, toTag⟩ provider = .ok toBlock) :
    getLogFilters config relayHubAddress provider managerAddress ⟨some fromBlock, toTag⟩ names =
      if config.maxBlockRange < toBlock - fromBlock then
        (splitRange fromBlock toBlock config.maxBlockRange).map fun ranges =>
          ranges.map fun range => logFilter relayHubAddress managerAddress names
            (some range.fromBlock) (some (.number range.toBlock))
      else .ok [logFilter relayHubAddress managerAddress names (some fromBlock) toTag] := by
  rw [getLogFilters, hto, Failure.ok_bind, fromBlockNumber_of_pos hfrom]
  split
  · cases splitRange fromBlock toBlock config.maxBlockRange <;> rfl
  · rfl

theorem getLogFilters_number (hfrom : 1 ≤ fromBlock) (hle : fromBlock ≤ toBlock) :
    getLogFilters config relayHubAddress provider managerAddress
        ⟨some fromBlock, some (.number toBlock)⟩ names =
      if config.maxBlockRange < toBlock - fromBlock then
        (splitRange fromBlock toBlock config.maxBlockRange).map fun ranges =>
          ranges.map fun range => logFilter relayHubAddress managerAddress names
            (some range.fromBlock) (some (.number range.toBlock))
      else .ok [logFilter relayHubAddress managerAddress names (some fromBlock)
        (some (.number toBlock))] :=
  getLogFilters_of_toBlockNumber hfrom (toBlockNumber_of_pos (hfrom.trans hle) _)

theorem splitRange_eq {step : ℤ} (hle : fromBlock ≤ toBlock) (hstep : 0 < step) :
    splitRange fromBlock toBlock step =
      if toBlock - fromBlock ≤ (2 ^ 32 - 1) * step then
        .ok ((List.range ⌈((toBlock - fromBlock : ℤ) : ℚ) / step⌉.toNat).map
          (rangeAt fromBlock toBlock step))
      else .error invalidArrayLength := by
  have hnonneg : 0 ≤ ⌈((toBlock - fromBlock : ℤ) : ℚ) / step⌉ :=
    Int.ceil_nonneg (div_nonneg (by exact_mod_cast sub_nonneg.mpr hle) (by exact_mod_cast hstep.le))
  have hlimit := @splits_lt_iff (toBlock - fromBlock) _ hstep (2 ^ 32 - 1)
  rw [sub_add_cancel] at hlimit
  rw [splitRange]
  by_cases hsplits : toBlock - fromBlock ≤ (2 ^ 32 - 1) * step
  · rw [if_pos hsplits, if_neg]
    push Not
    exact ⟨hstep.ne', hnonneg, hlimit.mpr hsplits⟩
  · rw [if_neg hsplits, if_pos]
    exact Or.inr (Or.inr (not_lt.mp fun hlt => hsplits (hlimit.mp hlt)))

/-- The logs of a split scan, part by part. -/
theorem performLogRequests_split {parts : ℕ}
    (hanswered : ∀ index < parts, getProviderLogsRequests provider
        (logFilter relayHubAddress managerAddress names
          (some (rangeAt fromBlock toBlock config.maxBlockRange index).fromBlock)
          (some (.number (rangeAt fromBlock toBlock config.maxBlockRange index).toBlock))) =
      .ok (chain.getLogs (logFilter relayHubAddress managerAddress names
          (some (rangeAt fromBlock toBlock config.maxBlockRange index).fromBlock)
          (some (.number (rangeAt fromBlock toBlock config.maxBlockRange index).toBlock)))
        latest)) :
    performLogRequests provider (((List.range parts).map
        (rangeAt fromBlock toBlock config.maxBlockRange)).map fun range =>
          logFilter relayHubAddress managerAddress names (some range.fromBlock)
            (some (.number range.toBlock))) =
      (List.range parts).flatMap (Ranges.part (selectedIn relayHubAddress managerAddress names
        chain) latest fromBlock config.maxBlockRange toBlock) := by
  rw [@performLogRequests_of_answered _ fun filter => chain.getLogs filter latest]
  · rw [List.map_map, List.flatMap_map]
    exact List.flatMap_congr fun index _ => getLogs_rangeAt index
  · simp only [List.map_map, List.mem_map, List.mem_range]
    rintro filter ⟨index, hindex, rfl⟩
    exact hanswered index hindex

/-- The blocks where two parts meet are those at a multiple of the step before
the end. -/
theorem sharedEnd_eq_nil_iff (hpos : 0 < config.maxBlockRange) {m : ℕ}
    (hm : fromBlock + config.maxBlockRange * m < toBlock)
    (hlast : toBlock ≤ fromBlock + config.maxBlockRange * (m + 1 : ℕ)) {items : ℕ → List TypedEvent} :
    (∀ index < m, Ranges.sharedEnd items latest fromBlock config.maxBlockRange index = []) ↔
      ∀ k : ℕ, 1 ≤ k → fromBlock + config.maxBlockRange * k < toBlock →
        ∀ n ≤ latest, (n : ℤ) = fromBlock + config.maxBlockRange * k → items n = [] := by
  simp only [Ranges.sharedEnd, Ranges.between_self_eq_nil_iff]
  constructor
  · intro h k hk hbefore n hn hblock
    obtain ⟨index, rfl⟩ := Nat.exists_eq_add_of_le' hk
    have hlt : config.maxBlockRange * (index + 1 : ℕ) < config.maxBlockRange * (m + 1 : ℕ) := by
      linarith
    have hindex : index < m := by
      have := lt_of_mul_lt_mul_left hlt hpos.le
      exact_mod_cast (by omega : ((index : ℕ) : ℤ) < m)
    exact h index hindex n hn hblock
  · intro h index hindex n hn hblock
    refine h (index + 1) (Nat.le_add_left 1 index) ?_ n hn hblock
    have hle : config.maxBlockRange * (index + 1 : ℕ) ≤ config.maxBlockRange * m :=
      mul_le_mul_of_nonneg_left (by exact_mod_cast hindex) hpos.le
    linarith

/-- A split scan lists what one request would, exactly when the number of parts
can be the length of an array and no log lies where two parts meet. -/
theorem split_scan_eq_iff (hfrom : 1 ≤ fromBlock) (hle : fromBlock ≤ toBlock)
    (hstep : 1 ≤ config.maxBlockRange)
    (hanswered : Answered config relayHubAddress provider managerAddress
      ⟨some fromBlock, some (.number toBlock)⟩ names chain latest) :
    getPastEventsForHub config relayHubAddress provider managerAddress
        ⟨some fromBlock, some (.number toBlock)⟩ names =
      .ok (chain.getLogs (logFilter relayHubAddress managerAddress names (some fromBlock)
        (some (.number toBlock))) latest) ↔
      toBlock - fromBlock ≤ (2 ^ 32 - 1) * config.maxBlockRange ∧
        ∀ k : ℕ, 1 ≤ k → fromBlock + config.maxBlockRange * k < toBlock →
          ∀ n ≤ latest, (n : ℤ) = fromBlock + config.maxBlockRange * k →
            selectedIn relayHubAddress managerAddress names chain n = [] := by
  have hpos : 0 < config.maxBlockRange := hstep
  rw [Answered, getLogFilters_number hfrom hle] at hanswered
  rw [getPastEventsForHub, getLogFilters_number hfrom hle]
  by_cases hlong : config.maxBlockRange < toBlock - fromBlock
  case neg =>
    rw [if_neg hlong] at hanswered ⊢
    have hsingle := @performLogRequests_of_answered _
      (fun filter => chain.getLogs filter latest) _ (hanswered _ rfl)
    rw [List.flatMap_singleton] at hsingle
    refine iff_of_true (by rw [Failure.ok_bind, hsingle, Failure.pure_eq_ok]) ⟨by nlinarith, ?_⟩
    intro k hk hbefore
    have hstepped : config.maxBlockRange ≤ config.maxBlockRange * k :=
      le_mul_of_one_le_right hpos.le (by exact_mod_cast hk)
    linarith
  case pos =>
    rw [if_pos hlong, splitRange_eq hle hpos] at hanswered ⊢
    by_cases hsplits : toBlock - fromBlock ≤ (2 ^ 32 - 1) * config.maxBlockRange
    case neg =>
      rw [if_neg hsplits]
      exact iff_of_false nofun fun h => hsplits h.1
    case pos =>
      rw [if_pos hsplits] at hanswered ⊢
      obtain ⟨m, hm, hlow, hup⟩ := exists_ceil_div_eq (hpos.trans hlong) hpos
      have hbefore : fromBlock + config.maxBlockRange * m < toBlock := by linarith
      have hlast : toBlock ≤ fromBlock + config.maxBlockRange * (m + 1 : ℕ) := by linarith
      rw [hm, Int.toNat_natCast] at hanswered ⊢
      have hlogs := @performLogRequests_split config _ _ _ _ _ _ _ _ (m + 1) fun index
          hindex => hanswered _ rfl _ (List.mem_map_of_mem (List.mem_map_of_mem (List.mem_range.mpr hindex)))
      rw [Except.map, Failure.ok_bind, hlogs, Failure.pure_eq_ok, Except.ok.injEq,
        getLogs_logFilter_number, Ranges.flatMap_part_eq_iff hpos hbefore.le hlast,
        sharedEnd_eq_nil_iff hpos hbefore hlast]
      exact ⟨fun h => ⟨hsplits, h⟩, And.right⟩

end Splitting

/-- An added worker in the given block. -/
def sampleWorkersAdded (blockNumber : ℕ) : TypedEvent where
  address := "0xAd525463961399793f8716b0D85133ff7503a7C2"
  event := .relayWorkersAdded
  manager := sampleManager
  withdrawBlock := 0
  blockNumber := blockNumber
  transactionIndex := 0
  logIndex := 0

def workersAddedChain (blockNumber : ℕ) : Chain where
  logs n := if n = blockNumber then [sampleWorkersAdded blockNumber] else []
  blockNumber_eq _ _ h := blockNumber_of_mem_ite h rfl fun h => absurd h List.not_mem_nil

def fullNode (chain : Chain) : LogProvider where
  getBlockNumber := .ok 6
  getLogs filter _ := .ok (chain.getLogs filter 6)

def twoBlockConfig : BlockchainConfig := { sampleDependencies.config with maxBlockRange := 2 }

theorem answered_fullNode (chain : Chain) (options : PastEventOptions) :
    Answered twoBlockConfig "0xAd525463961399793f8716b0D85133ff7503a7C2" (fullNode chain)
      sampleManager options [.relayWorkersAdded] chain 6 :=
  fun _ _ _ _ => rfl

theorem split_scan_eq_iff_workersAdded :
    getPastEventsForHub twoBlockConfig "0xAd525463961399793f8716b0D85133ff7503a7C2"
        (fullNode (workersAddedChain 3)) sampleManager ⟨some 1, some (.number 5)⟩
        [.relayWorkersAdded] =
      .ok ((workersAddedChain 3).getLogs (logFilter "0xAd525463961399793f8716b0D85133ff7503a7C2"
        sampleManager [.relayWorkersAdded] (some 1) (some (.number 5))) 6) ↔
      (5 : ℤ) - 1 ≤ (2 ^ 32 - 1) * twoBlockConfig.maxBlockRange ∧
        ∀ k : ℕ, 1 ≤ k → (1 : ℤ) + twoBlockConfig.maxBlockRange * k < 5 →
          ∀ n ≤ (6 : ℕ), (n : ℤ) = 1 + twoBlockConfig.maxBlockRange * k →
          selectedIn "0xAd525463961399793f8716b0D85133ff7503a7C2" sampleManager
            [.relayWorkersAdded] (workersAddedChain 3) n = [] :=
  split_scan_eq_iff le_rfl (show (1 : ℤ) ≤ 5 by decide) (show (1 : ℤ) ≤ 2 by decide)
    (answered_fullNode _ _)

/-- The log in block 3 ends one part, starts the next, and is listed twice. -/
theorem split_scan_repeats :
    ¬ ∀ (config : BlockchainConfig) (relayHubAddress managerAddress : Address)
        (provider : LogProvider) (names : List ManagerEvent) (chain : Chain) (latest : ℕ)
        (fromBlock toBlock : ℤ), 1 ≤ fromBlock → fromBlock ≤ toBlock → 1 ≤ config.maxBlockRange →
      Answered config relayHubAddress provider managerAddress
        ⟨some fromBlock, some (.number toBlock)⟩ names chain latest →
      getPastEventsForHub config relayHubAddress provider managerAddress
          ⟨some fromBlock, some (.number toBlock)⟩ names =
        .ok (chain.getLogs (logFilter relayHubAddress managerAddress names (some fromBlock)
          (some (.number toBlock))) latest) := by
  intro h
  have htwice := h twoBlockConfig "0xAd525463961399793f8716b0D85133ff7503a7C2" sampleManager
    (fullNode (workersAddedChain 3)) [.relayWorkersAdded] (workersAddedChain 3) 6 1 5 le_rfl
    (by decide) (by decide) (answered_fullNode _ _)
  have hrepeated : getPastEventsForHub twoBlockConfig
      "0xAd525463961399793f8716b0D85133ff7503a7C2" (fullNode (workersAddedChain 3)) sampleManager
      ⟨some 1, some (.number 5)⟩ [.relayWorkersAdded] =
        .ok [sampleWorkersAdded 3, sampleWorkersAdded 3] := by
    decide +kernel
  have honce : (workersAddedChain 3).getLogs (logFilter
      "0xAd525463961399793f8716b0D85133ff7503a7C2" sampleManager [.relayWorkersAdded] (some 1)
      (some (.number 5))) 6 = [sampleWorkersAdded 3] := by
    decide +kernel
  rw [hrepeated, honce] at htwice
  exact absurd (Except.ok.inj htwice) (by decide)

end RifRelayServer
