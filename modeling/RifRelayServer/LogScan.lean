import RifRelayServer.TransactionManager
import RifRelayServer.Lib.Binary64
import RifRelayServer.Lib.Failure
import Mathlib

/-!
# Scanning the logs of the hub

The server learns what happened on the hub from its logs. A long range of blocks
is split, and each part is asked for on its own; a part that stays without an
answer is left out of the result.
-/

namespace RifRelayServer

inductive ManagerEvent
  | relayServerRegistered
  | relayWorkersAdded
  | transactionRelayed
  | transactionRelayedButRevertedByRecipient
  | stakeAdded
  | stakeUnlocked
  | stakeWithdrawn
  deriving DecidableEq

def defaultManagerEvents : List ManagerEvent :=
  [.relayServerRegistered, .relayWorkersAdded, .transactionRelayed,
    .transactionRelayedButRevertedByRecipient]

/-- A log of the hub, decoded. Its first indexed argument is the manager; only an
unlocked stake has a block from which it can be withdrawn. -/
structure TypedEvent where
  address : Address
  event : ManagerEvent
  manager : Address
  withdrawBlock : ℕ
  blockNumber : ℕ
  transactionIndex : ℕ
  logIndex : ℕ
  deriving DecidableEq

inductive BlockTag
  | latest
  | number (n : ℤ)
  deriving DecidableEq

structure PastEventOptions where
  fromBlock : Option ℤ
  toBlock : Option BlockTag

/-- A request for the logs with any of the names and the given manager. -/
structure Filter where
  address : Address
  names : List ManagerEvent
  manager : Address
  fromBlock : Option ℤ
  toBlock : Option BlockTag
  deriving DecidableEq

/-- The answers to one scan. Each attempt of a request has an answer of its own. -/
structure LogProvider where
  getBlockNumber : Except String ℕ
  getLogs : Filter → ℕ → Except String (List TypedEvent)

structure BlockRange where
  fromBlock : ℤ
  toBlock : ℤ
  deriving DecidableEq

def invalidArrayLength : String := "Invalid array length"

def rangeAt (min max desiredRange : ℤ) (index : ℕ) : BlockRange :=
  let fromBlock := min + desiredRange * index
  { fromBlock
    toBlock := if max < fromBlock + desiredRange then max else fromBlock + desiredRange }

/-- The number of splits is the length of an array, so it must be one. The arithmetic is exact
here, as that of the source is for block numbers. -/
def splitRange (min max desiredRange : ℤ) : Except String (List BlockRange) :=
  let splits := ⌈((max - min : ℤ) : ℚ) / desiredRange⌉
  if desiredRange = 0 ∨ splits < 0 ∨ 2 ^ 32 ≤ splits then .error invalidArrayLength
  else .ok ((List.range splits.toNat).map (rangeAt min max desiredRange))

open Binary64 in
def rangeOfDoublesAt (min max desiredRange : ℤ) (index : ℕ) : BlockRange :=
  let fromBlock := nearestInt (min + nearestInt (desiredRange * index))
  { fromBlock
    toBlock := if max < nearestInt (fromBlock + desiredRange) then max
      else nearestInt (fromBlock + desiredRange) }

open Binary64 in
/-- `splitRange` in the source's own arithmetic, which rounds each step to a double. -/
def splitRangeOfDoubles (min max desiredRange : ℤ) : Except String (List BlockRange) :=
  let splits := ⌈nearest (nearestInt (max - min) / desiredRange)⌉
  if desiredRange = 0 ∨ splits < 0 ∨ 2 ^ 32 ≤ splits then .error invalidArrayLength
  else .ok ((List.range splits.toNat).map (rangeOfDoublesAt min max desiredRange))

def PastEventOptions.fromBlockNumber (options : PastEventOptions) : ℤ :=
  match options.fromBlock with
  | none | some 0 => 1
  | some n => n

def PastEventOptions.toBlockNumber (options : PastEventOptions) (provider : LogProvider) :
    Except String ℤ :=
  match options.toBlock with
  | none | some .latest | some (.number 0) => provider.getBlockNumber.map Nat.cast
  | some (.number n) => .ok n

section Scan

variable (config : BlockchainConfig) (relayHubAddress : Address) (provider : LogProvider)
  (managerAddress : Address) (options : PastEventOptions) (names : List ManagerEvent)

def logFilter (fromBlock : Option ℤ) (toBlock : Option BlockTag) : Filter where
  address := relayHubAddress
  names := names
  manager := managerAddress
  fromBlock := fromBlock
  toBlock := toBlock

def getLogFilters : Except String (List Filter) := do
  let toBlockNumber ← options.toBlockNumber provider
  if config.maxBlockRange < toBlockNumber - options.fromBlockNumber then
    let ranges ← splitRange options.fromBlockNumber toBlockNumber config.maxBlockRange
    return ranges.map fun range => logFilter relayHubAddress managerAddress names
      (some range.fromBlock) (some (.number range.toBlock))
  else
    return [logFilter relayHubAddress managerAddress names options.fromBlock options.toBlock]

/-- The first answer to a request that is made again up to `retries` times. -/
def retry {α : Type} (request : ℕ → Except String α) (attempt : ℕ) : ℕ → Except String α
  | 0 => request attempt
  | retries + 1 =>
      match request attempt with
      | .ok answer => .ok answer
      | .error _ => retry request (attempt + 1) retries

def getProviderLogsRequests (logFilter : Filter) : Except String (List TypedEvent) :=
  retry (provider.getLogs logFilter) 1 3

/-- The requests that are rejected are filtered out. -/
def performLogRequests (logFilters : List Filter) : List TypedEvent :=
  (logFilters.filterMap fun logFilter => (getProviderLogsRequests provider logFilter).toOption).flatten

def getPastEventsForHub : Except String (List TypedEvent) := do
  let logFilters ← getLogFilters config relayHubAddress provider managerAddress options names
  return performLogRequests provider logFilters

end Scan

/-- The logs of each block of a chain. Blocks are only added to it, so what a
node has is the chain up to some block. -/
structure Chain where
  logs : ℕ → List TypedEvent
  blockNumber_eq : ∀ n, ∀ log ∈ logs n, log.blockNumber = n

/-- The logs of a chain, given block by block. -/
theorem blockNumber_of_mem_ite {n k : ℕ} {event log : TypedEvent} {others : List TypedEvent}
    (h : log ∈ if n = k then [event] else others) (hevent : event.blockNumber = k)
    (hothers : log ∈ others → log.blockNumber = n) : log.blockNumber = n := by
  split at h
  next hn => rw [List.mem_singleton.mp h, hn, hevent]
  · exact hothers h

def Filter.selects (filter : Filter) (log : TypedEvent) : Bool :=
  isSameAddress log.address filter.address && filter.names.contains log.event &&
    isSameAddress log.manager filter.manager

def BlockTag.resolve (latest : ℕ) : BlockTag → ℤ
  | .latest => latest
  | .number n => n

/-- Both ends of the range are included. -/
def Filter.spans (filter : Filter) (latest blockNumber : ℕ) : Bool :=
  filter.fromBlock.getD latest ≤ blockNumber &&
    (blockNumber : ℤ) ≤ (filter.toBlock.getD .latest).resolve latest

/-- What a node whose latest block is `latest` answers. -/
def Chain.getLogs (chain : Chain) (filter : Filter) (latest : ℕ) : List TypedEvent :=
  ((List.range (latest + 1)).filter (filter.spans latest)).flatMap fun n =>
    (chain.logs n).filter filter.selects

/-- The scan is answered by a node that follows the chain and has got to block
`head` when the scan starts. The node may fail to answer. -/
structure LogProvider.Follows (provider : LogProvider) (chain : Chain) (head : ℕ) : Prop where
  getBlockNumber : ∀ n, provider.getBlockNumber = .ok n → head ≤ n
  getLogs : ∀ filter attempt logs, provider.getLogs filter attempt = .ok logs →
    ∃ latest, head ≤ latest ∧ (∀ n, provider.getBlockNumber = .ok n → n ≤ latest) ∧
      logs = chain.getLogs filter latest

/-- From the block after the last scanned one to the latest. -/
def PastEventOptions.since (lastScannedBlock : ℕ) : PastEventOptions where
  fromBlock := some (lastScannedBlock + 1)
  toBlock := some .latest

/-- The block is within the requested range, once the node has it. -/
def Filter.Covers (filter : Filter) (blockNumber : ℕ) : Prop :=
  ∀ latest, blockNumber ≤ latest → filter.spans latest blockNumber = true

/-- The request is for blocks after the given one only. -/
def Filter.StartsAfter (filter : Filter) (blockNumber : ℕ) : Prop :=
  ∃ fromBlock, filter.fromBlock = some fromBlock ∧ (blockNumber : ℤ) < fromBlock

section Answered

variable (config : BlockchainConfig) (relayHubAddress : Address) (provider : LogProvider)
  (managerAddress : Address) (options : PastEventOptions) (names : List ManagerEvent)

/-- The requests of a scan that got an answer. -/
def answeredRequests : List Filter :=
  match getLogFilters config relayHubAddress provider managerAddress options names with
  | .ok logFilters => logFilters.filter fun it => (getProviderLogsRequests provider it).isOk
  | .error _ => []

/-- The scan makes a request, and none of its requests is given up. -/
def isAnswered : Bool :=
  match getLogFilters config relayHubAddress provider managerAddress options names with
  | .ok logFilters =>
      !logFilters.isEmpty && logFilters.all fun it => (getProviderLogsRequests provider it).isOk
  | .error _ => true

end Answered

theorem Chain.mem_getLogs {chain : Chain} {filter : Filter} {latest : ℕ} {log : TypedEvent} :
    log ∈ chain.getLogs filter latest ↔
      log ∈ chain.logs log.blockNumber ∧ log.blockNumber ≤ latest ∧
        filter.spans latest log.blockNumber = true ∧ filter.selects log = true := by
  simp only [Chain.getLogs, List.mem_flatMap, List.mem_filter, List.mem_range, Order.lt_add_one_iff]
  constructor
  · rintro ⟨n, ⟨hlatest, hspans⟩, hmem, hselects⟩
    obtain rfl := chain.blockNumber_eq n log hmem
    exact ⟨hmem, hlatest, hspans, hselects⟩
  · rintro ⟨hmem, hlatest, hspans, hselects⟩
    exact ⟨log.blockNumber, ⟨hlatest, hspans⟩, hmem, hselects⟩

theorem exists_of_retry_eq_ok {α : Type} {request : ℕ → Except String α} {attempt retries : ℕ}
    {answer : α} (h : retry request attempt retries = .ok answer) :
    ∃ k, request k = .ok answer := by
  induction retries generalizing attempt with
  | zero => exact ⟨attempt, h⟩
  | succ retries ih =>
      rw [retry] at h
      split at h
      next hrequest => exact ⟨attempt, hrequest.trans h⟩
      · exact ih h

theorem mem_performLogRequests {provider : LogProvider} {logFilters : List Filter}
    {log : TypedEvent} :
    log ∈ performLogRequests provider logFilters ↔
      ∃ logFilter ∈ logFilters, ∃ logs,
        getProviderLogsRequests provider logFilter = .ok logs ∧ log ∈ logs := by
  simp only [performLogRequests, List.mem_flatten, List.mem_filterMap]
  constructor
  · rintro ⟨logs, ⟨logFilter, hfilter, hanswer⟩, hlog⟩
    refine ⟨logFilter, hfilter, logs, ?_, hlog⟩
    cases hrequest : getProviderLogsRequests provider logFilter with
    | ok answer => rw [hrequest] at hanswer; exact congrArg _ (Option.some.inj hanswer)
    | error e => rw [hrequest] at hanswer; cases hanswer
  · rintro ⟨logFilter, hfilter, logs, hanswer, hlog⟩
    exact ⟨logs, ⟨logFilter, hfilter, by rw [hanswer]; rfl⟩, hlog⟩

theorem ceil_div_bounds (a : ℤ) {d : ℤ} (hd : 0 < d) :
    a ≤ d * ⌈(a : ℚ) / d⌉ ∧ d * (⌈(a : ℚ) / d⌉ - 1) < a := by
  have hd' : (0 : ℚ) < d := Int.cast_pos.mpr hd
  constructor
  · have h := Int.le_ceil ((a : ℚ) / d)
    rw [div_le_iff₀ hd', mul_comm] at h
    exact_mod_cast h
  · have h := Int.ceil_lt_add_one ((a : ℚ) / d)
    rw [← sub_lt_iff_lt_add, lt_div_iff₀ hd', mul_comm] at h
    exact_mod_cast h

theorem exists_ceil_div_eq {a d : ℤ} (ha : 0 < a) (hd : 0 < d) :
    ∃ n : ℕ, ⌈(a : ℚ) / d⌉ = (n + 1 : ℕ) ∧ d * n < a ∧ a ≤ d * (n + 1 : ℕ) := by
  obtain ⟨hup, hlow⟩ := ceil_div_bounds a hd
  have hpos : 0 < ⌈(a : ℚ) / d⌉ :=
    Int.ceil_pos.mpr (div_pos (Int.cast_pos.mpr ha) (Int.cast_pos.mpr hd))
  obtain ⟨n, hn⟩ : ∃ n : ℕ, ⌈(a : ℚ) / d⌉ = (n + 1 : ℕ) :=
    ⟨(⌈(a : ℚ) / d⌉ - 1).toNat, by omega⟩
  rw [hn] at hup hlow
  push_cast [add_sub_cancel_right] at hlow
  exact ⟨n, hn, hlow, hup⟩

theorem splitRange_eq_ok {min max desiredRange : ℤ} {ranges : List BlockRange}
    (hsplit : splitRange min max desiredRange = .ok ranges) :
    desiredRange ≠ 0 ∧ 0 ≤ ⌈((max - min : ℤ) : ℚ) / desiredRange⌉ ∧
      ranges = (List.range ⌈((max - min : ℤ) : ℚ) / desiredRange⌉.toNat).map
        (rangeAt min max desiredRange) := by
  unfold splitRange at hsplit
  dsimp only at hsplit
  split at hsplit
  · cases hsplit
  next hvalid =>
    push Not at hvalid
    exact ⟨hvalid.1, hvalid.2.1, (Except.ok.inj hsplit).symm⟩

theorem desiredRange_pos {min max desiredRange : ℤ} {ranges : List BlockRange}
    (hsplit : splitRange min max desiredRange = .ok ranges) (hranges : ranges ≠ [])
    (hle : min ≤ max) : 0 < desiredRange := by
  obtain ⟨hne, -, rfl⟩ := splitRange_eq_ok hsplit
  refine lt_of_le_of_ne (not_lt.mp fun hneg => hranges ?_) (Ne.symm hne)
  have hquotient : ((max - min : ℤ) : ℚ) / desiredRange ≤ 0 :=
    div_nonpos_of_nonneg_of_nonpos (by exact_mod_cast sub_nonneg.mpr hle)
      (by exact_mod_cast hneg.le)
  have hsplits : ⌈((max - min : ℤ) : ℚ) / desiredRange⌉ ≤ 0 :=
    Int.ceil_le.mpr (by exact_mod_cast hquotient)
  rw [Int.toNat_of_nonpos hsplits]
  rfl

theorem splitRange_covers {min max desiredRange : ℤ} {ranges : List BlockRange}
    (hsplit : splitRange min max desiredRange = .ok ranges) (hranges : ranges ≠ []) {b : ℤ}
    (hmin : min ≤ b) (hmax : b ≤ max) :
    ∃ range ∈ ranges, range.fromBlock ≤ b ∧ b ≤ range.toBlock := by
  have hd : 0 < desiredRange := desiredRange_pos hsplit hranges (hmin.trans hmax)
  obtain ⟨-, -, rfl⟩ := splitRange_eq_ok hsplit
  obtain ⟨hceil, -⟩ := ceil_div_bounds (max - min) hd
  set splits := ⌈((max - min : ℤ) : ℚ) / desiredRange⌉
  have hsplits : 0 < splits := by
    by_contra hneg
    exact hranges (by simp [Int.toNat_of_nonpos (not_lt.mp hneg)])
  -- the first part whose end is not before `b`
  set index := (b - min - 1) / desiredRange with hindex
  have hbelow := Int.mul_ediv_self_le (x := b - min - 1) (k := desiredRange) hd.ne'
  have habove := Int.lt_mul_ediv_self_add (x := b - min - 1) (k := desiredRange) hd
  rw [← hindex] at hbelow habove
  have hlast : index < splits := by
    by_contra hge
    have := mul_le_mul_of_nonneg_left (not_lt.mp hge) hd.le
    linarith
  have hnonneg : -1 ≤ index := by
    by_contra hneg
    have := mul_le_mul_of_nonneg_left (show index ≤ -2 by omega) hd.le
    linarith
  refine ⟨rangeAt min max desiredRange index.toNat,
    List.mem_map_of_mem (List.mem_range.mpr (by omega)), ?_⟩
  rcases hnonneg.eq_or_lt with hfirst | hlater
  · have hzero : index.toNat = 0 := by omega
    rw [← hfirst] at habove
    simp only [rangeAt, hzero, Nat.cast_zero, mul_zero, add_zero]
    split <;> constructor <;> linarith
  · have hcast : (index.toNat : ℤ) = index := Int.toNat_of_nonneg (by omega)
    simp only [rangeAt, hcast]
    split <;> constructor <;> linarith

theorem splitRange_cases {min max desiredRange : ℤ} {ranges : List BlockRange}
    (hsplit : splitRange min max desiredRange = .ok ranges) (hle : min ≤ max) :
    ranges = [] ∨ 0 < desiredRange ∧ ∃ splits : ℕ, min + desiredRange * (splits - 1) < max ∧
      ranges = (List.range splits).map (rangeAt min max desiredRange) := by
  by_cases hranges : ranges = []
  · exact Or.inl hranges
  · have hd := desiredRange_pos hsplit hranges hle
    obtain ⟨-, hlast⟩ := ceil_div_bounds (max - min) hd
    obtain ⟨-, hsplits, rfl⟩ := splitRange_eq_ok hsplit
    refine Or.inr ⟨hd, _, ?_, rfl⟩
    rw [Int.toNat_of_nonneg hsplits]
    linarith

/-- No part of a range that is long enough to be split starts before it. -/
theorem le_fromBlock_of_splitRange {min max desiredRange : ℤ} {ranges : List BlockRange}
    (hlong : desiredRange < max - min) (hsplit : splitRange min max desiredRange = .ok ranges)
    {range : BlockRange} (hrange : range ∈ ranges) : min ≤ range.fromBlock := by
  obtain ⟨hne, -, rfl⟩ := splitRange_eq_ok hsplit
  obtain ⟨index, hindex, rfl⟩ := List.mem_map.mp hrange
  rcases lt_or_gt_of_ne hne with hneg | hpos
  · -- a negative length leaves a single part
    have hquotient : ((max - min : ℤ) : ℚ) / desiredRange ≤ 1 :=
      (div_le_one_of_neg (by exact_mod_cast hneg)).mpr (by exact_mod_cast hlong.le)
    have hsplits : ⌈((max - min : ℤ) : ℚ) / desiredRange⌉ ≤ 1 :=
      Int.ceil_le.mpr (by exact_mod_cast hquotient)
    have hzero : index = 0 := by
      have := List.mem_range.mp hindex
      omega
    simp [rangeAt, hzero]
  · exact le_add_of_nonneg_right (mul_nonneg hpos.le (Int.natCast_nonneg index))

section Completeness

variable {config : BlockchainConfig} {relayHubAddress : Address} {provider : LogProvider}
  {managerAddress : Address} {names : List ManagerEvent} {lastScannedBlock : ℕ}

theorem logFilter_selects {fromBlock : Option ℤ} {toBlock : Option BlockTag} {log : TypedEvent} :
    (logFilter relayHubAddress managerAddress names fromBlock toBlock).selects log = true ↔
      isSameAddress log.address relayHubAddress = true ∧ log.event ∈ names ∧
        isSameAddress log.manager managerAddress = true := by
  simp [logFilter, Filter.selects, and_assoc]

theorem covers_logFilter_number {fromBlock toBlock : ℤ} {b : ℕ} (hfrom : fromBlock ≤ b)
    (hto : b ≤ toBlock) :
    (logFilter relayHubAddress managerAddress names (some fromBlock)
      (some (.number toBlock))).Covers b := by
  intro latest _
  simp [logFilter, Filter.spans, BlockTag.resolve, hfrom, hto]

theorem covers_logFilter_latest {fromBlock : ℤ} {b : ℕ} (hfrom : fromBlock ≤ b) :
    (logFilter relayHubAddress managerAddress names (some fromBlock) (some .latest)).Covers b := by
  intro latest hlatest
  simp [logFilter, Filter.spans, BlockTag.resolve, hfrom, hlatest]

/-- The requests of a scan since the cursor: one up to the latest block, or the
parts up to the block the node reports. -/
theorem getLogFilters_since_cases {logFilters : List Filter}
    (h : getLogFilters config relayHubAddress provider managerAddress (.since lastScannedBlock)
      names = .ok logFilters) :
    logFilters = [logFilter relayHubAddress managerAddress names (some (lastScannedBlock + 1))
        (some .latest)] ∨
      ∃ toBlockNumber ranges, provider.getBlockNumber = .ok toBlockNumber ∧
        config.maxBlockRange < toBlockNumber - (lastScannedBlock + 1) ∧
        splitRange (lastScannedBlock + 1) toBlockNumber config.maxBlockRange = .ok ranges ∧
        logFilters = ranges.map fun range => logFilter relayHubAddress managerAddress names
          (some range.fromBlock) (some (.number range.toBlock)) := by
  obtain ⟨toBlockNumber, hto, h⟩ := Failure.bind_eq_ok_iff.mp h
  have hfrom : (PastEventOptions.since lastScannedBlock).fromBlockNumber = lastScannedBlock + 1 := by
    have hne : (lastScannedBlock : ℤ) + 1 ≠ 0 := by omega
    simp only [PastEventOptions.since, PastEventOptions.fromBlockNumber]
  obtain ⟨number, hnumber, rfl⟩ : ∃ number : ℕ,
      provider.getBlockNumber = .ok number ∧ toBlockNumber = number := by
    simp only [PastEventOptions.since, PastEventOptions.toBlockNumber] at hto
    cases hblock : provider.getBlockNumber with
    | error e => rw [hblock] at hto; cases hto
    | ok n => rw [hblock] at hto; exact ⟨n, rfl, (Except.ok.inj hto).symm⟩
  rw [hfrom] at h
  split at h
  next hlong =>
    obtain ⟨ranges, hsplit, h⟩ := Failure.bind_eq_ok_iff.mp h
    exact Or.inr ⟨number, ranges, hnumber, hlong, hsplit, (Except.ok.inj h).symm⟩
  · exact Or.inl (Except.ok.inj h).symm

/-- A scan since the cursor makes no request for a block up to it. -/
theorem startsAfter_of_since {logFilters : List Filter}
    (h : getLogFilters config relayHubAddress provider managerAddress (.since lastScannedBlock)
      names = .ok logFilters) {filter : Filter} (hfilter : filter ∈ logFilters) :
    filter.StartsAfter lastScannedBlock := by
  rcases getLogFilters_since_cases h with rfl | ⟨number, ranges, -, hlong, hsplit, rfl⟩
  · rw [List.mem_singleton.mp hfilter]
    exact ⟨_, rfl, by omega⟩
  · obtain ⟨range, hrange, rfl⟩ := List.mem_map.mp hfilter
    have hle := le_fromBlock_of_splitRange hlong hsplit hrange
    exact ⟨_, rfl, by omega⟩

theorem Filter.StartsAfter.not_spans {filter : Filter} {blockNumber : ℕ}
    (h : filter.StartsAfter blockNumber) (latest : ℕ) : filter.spans latest blockNumber = false := by
  obtain ⟨fromBlock, hfrom, hlt⟩ := h
  simp only [Filter.spans, hfrom, Option.getD_some, Bool.and_eq_false_iff, decide_eq_false_iff_not]
  exact Or.inl (not_le.mpr hlt)

theorem Filter.StartsAfter.mono {filter : Filter} {m n : ℕ} (h : filter.StartsAfter n)
    (hle : m ≤ n) : filter.StartsAfter m := by
  obtain ⟨fromBlock, hfrom, hlt⟩ := h
  exact ⟨fromBlock, hfrom, by omega⟩

/-- Every block that the node had when the scan started is in one of its requests. -/
theorem exists_logFilter_covers {logFilters : List Filter}
    (h : getLogFilters config relayHubAddress provider managerAddress (.since lastScannedBlock)
      names = .ok logFilters) (hfilters : logFilters ≠ []) {b : ℕ} (hafter : lastScannedBlock < b)
    (hnumber : ∀ n, provider.getBlockNumber = .ok n → b ≤ n) :
    ∃ filter ∈ logFilters, filter.Covers b ∧ ∃ fromBlock toBlock,
      filter = logFilter relayHubAddress managerAddress names fromBlock toBlock := by
  unfold getLogFilters at h
  obtain ⟨toBlockNumber, hto, h⟩ := Failure.bind_eq_ok_iff.mp h
  have hfrom : (PastEventOptions.since lastScannedBlock).fromBlockNumber = lastScannedBlock + 1 := by
    have hne : (lastScannedBlock : ℤ) + 1 ≠ 0 := by omega
    simp only [PastEventOptions.since, PastEventOptions.fromBlockNumber]
  have hb : (b : ℤ) ≤ toBlockNumber := by
    simp only [PastEventOptions.since, PastEventOptions.toBlockNumber] at hto
    cases hblock : provider.getBlockNumber with
    | error e => rw [hblock] at hto; cases hto
    | ok n =>
        rw [hblock] at hto
        cases hto
        exact Int.ofNat_le.mpr (hnumber n hblock)
  rw [hfrom] at h
  split at h
  · obtain ⟨ranges, hsplit, h⟩ := Failure.bind_eq_ok_iff.mp h
    cases h
    obtain ⟨range, hmem, hle, hge⟩ := splitRange_covers hsplit
      (fun hnil => hfilters (by rw [hnil, List.map_nil]))
      (show (lastScannedBlock : ℤ) + 1 ≤ b by omega) hb
    exact ⟨_, List.mem_map_of_mem hmem, covers_logFilter_number hle hge, _, _, rfl⟩
  · cases h
    refine ⟨_, List.mem_singleton_self _, ?_, _, _, rfl⟩
    exact covers_logFilter_latest (by omega)

/-- A scan none of whose requests is given up leaves nothing out. -/
theorem scan_complete {chain : Chain} {head : ℕ} {events : List TypedEvent}
    (hfollows : provider.Follows chain head)
    (hanswered : isAnswered config relayHubAddress provider managerAddress
      (.since lastScannedBlock) names = true)
    (h : getPastEventsForHub config relayHubAddress provider managerAddress
      (.since lastScannedBlock) names = .ok events) {b : ℕ} (hafter : lastScannedBlock < b)
    (hhead : b ≤ head) :
    (∃ filter ∈ answeredRequests config relayHubAddress provider managerAddress
      (.since lastScannedBlock) names, filter.Covers b) ∧
      ∀ log ∈ chain.logs b, isSameAddress log.address relayHubAddress = true →
        log.event ∈ names → isSameAddress log.manager managerAddress = true → log ∈ events := by
  obtain ⟨logFilters, hfilters, h⟩ := Failure.bind_eq_ok_iff.mp h
  cases h
  simp only [isAnswered, hfilters, Bool.and_eq_true, Bool.not_eq_true', List.isEmpty_eq_false_iff,
    List.all_eq_true] at hanswered
  obtain ⟨hne, hanswered⟩ := hanswered
  obtain ⟨filter, hmem, hcovers, fromBlock, toBlock, rfl⟩ := exists_logFilter_covers hfilters hne
    hafter fun n hn => hhead.trans (hfollows.getBlockNumber n hn)
  have hok := hanswered _ hmem
  refine ⟨⟨_, ?_, hcovers⟩, fun log hlog haddress hevent hmanager => ?_⟩
  · simp only [answeredRequests, hfilters]
    exact List.mem_filter.mpr ⟨hmem, hok⟩
  · obtain ⟨logs, hlogs⟩ : ∃ logs, getProviderLogsRequests provider
        (logFilter relayHubAddress managerAddress names fromBlock toBlock) = .ok logs := by
      cases hrequest : getProviderLogsRequests provider
          (logFilter relayHubAddress managerAddress names fromBlock toBlock) with
      | ok logs => exact ⟨logs, rfl⟩
      | error e => rw [hrequest] at hok; cases hok
    obtain ⟨attempt, hattempt⟩ := exists_of_retry_eq_ok hlogs
    obtain ⟨latest, hlatest, -, hanswer⟩ := hfollows.getLogs _ _ _ hattempt
    obtain rfl := chain.blockNumber_eq b log hlog
    have hle : log.blockNumber ≤ latest := hhead.trans hlatest
    exact mem_performLogRequests.mpr ⟨_, hmem, logs, hlogs, hanswer ▸ Chain.mem_getLogs.mpr
      ⟨hlog, hle, hcovers latest hle, logFilter_selects.mpr ⟨haddress, hevent, hmanager⟩⟩⟩

end Completeness

end RifRelayServer
