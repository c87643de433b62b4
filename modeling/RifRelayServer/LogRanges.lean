import RifRelayServer.LogSplitting
import Mathlib

/-!
# The ranges of a scan

The parts of a long range follow on each other, each as long as is desired but the
last, which is what remains. How many blocks a request asks for is one more than
how long its range is.
-/

namespace RifRelayServer

/-- The ranges lead from one block to another in steps, with what remains at the
end. -/
inductive Leads (step : ℤ) : ℤ → ℤ → List BlockRange → Prop
  | last {fromBlock toBlock : ℤ} (hlt : fromBlock < toBlock) (hle : toBlock ≤ fromBlock + step) :
      Leads step fromBlock toBlock [⟨fromBlock, toBlock⟩]
  | step {fromBlock toBlock : ℤ} {ranges : List BlockRange}
      (rest : Leads step (fromBlock + step) toBlock ranges) :
      Leads step fromBlock toBlock (⟨fromBlock, fromBlock + step⟩ :: ranges)

section Leads

variable {step fromBlock toBlock : ℤ} {ranges : List BlockRange}

theorem Leads.lt (h : Leads step fromBlock toBlock ranges) (hstep : 0 < step) :
    fromBlock < toBlock := by
  induction h with
  | last hlt => exact hlt
  | step _ ih => omega

theorem Leads.head?_fromBlock (h : Leads step fromBlock toBlock ranges) :
    ranges.head?.map BlockRange.fromBlock = some fromBlock := by
  cases h <;> rfl

theorem Leads.getLast? (h : Leads step fromBlock toBlock ranges) :
    ∃ range, ranges.getLast? = some range ∧ range.toBlock = toBlock ∧
      0 < range.toBlock - range.fromBlock ∧ range.toBlock - range.fromBlock ≤ step := by
  induction h with
  | @last fromBlock toBlock hlt hle =>
      refine ⟨⟨fromBlock, toBlock⟩, rfl, rfl, ?_, ?_⟩
      · exact sub_pos.mpr hlt
      · exact sub_le_iff_le_add'.mpr hle
  | step _ ih =>
      obtain ⟨range, hlast, hrange⟩ := ih
      exact ⟨range, by rw [List.getLast?_cons, hlast]; rfl, hrange⟩

theorem Leads.isChain (h : Leads step fromBlock toBlock ranges) :
    ranges.IsChain fun range next => next.fromBlock = range.toBlock := by
  induction h with
  | last => exact List.isChain_singleton _
  | step rest ih =>
      apply List.IsChain.cons ih
      intro next hnext
      have hfirst := rest.head?_fromBlock
      rw [Option.mem_def.mp hnext] at hfirst
      exact Option.some.inj hfirst

theorem Leads.dropLast (h : Leads step fromBlock toBlock ranges) :
    ∀ range ∈ ranges.dropLast, range.toBlock - range.fromBlock = step := by
  induction h with
  | last => simp
  | @step fromBlock toBlock ranges rest ih =>
      have hne : ranges ≠ [] := by
        rintro rfl
        exact nomatch rest
      rw [List.dropLast_cons_of_ne_nil hne]
      intro range hrange
      rcases List.mem_cons.mp hrange with rfl | hrange
      · exact add_sub_cancel_left _ _
      · exact ih range hrange

theorem Leads.covers (h : Leads step fromBlock toBlock ranges) {block : ℤ}
    (hfrom : fromBlock ≤ block) (hto : block ≤ toBlock) :
    ∃ range ∈ ranges, range.fromBlock ≤ block ∧ block ≤ range.toBlock := by
  induction h with
  | last => exact ⟨_, List.mem_singleton_self _, hfrom, hto⟩
  | @step fromBlock toBlock ranges rest ih =>
      by_cases hfirst : block ≤ fromBlock + step
      · exact ⟨_, List.mem_cons_self, hfrom, hfirst⟩
      · obtain ⟨range, hmem, hrange⟩ := ih (by omega) hto
        exact ⟨range, List.mem_cons_of_mem _ hmem, hrange⟩

theorem Leads.within (h : Leads step fromBlock toBlock ranges) (hstep : 0 < step) :
    ∀ range ∈ ranges, fromBlock ≤ range.fromBlock ∧ range.toBlock ≤ toBlock ∧
      range.toBlock - range.fromBlock ≤ step := by
  induction h with
  | last hlt hle =>
      intro range hrange
      obtain rfl := List.mem_singleton.mp hrange
      exact ⟨le_rfl, le_rfl, sub_le_iff_le_add'.mpr hle⟩
  | step rest ih =>
      intro range hrange
      rcases List.mem_cons.mp hrange with rfl | hrange
      · exact ⟨le_rfl, (rest.lt hstep).le, (add_sub_cancel_left _ _).le⟩
      · obtain ⟨hfrom, hto, hlength⟩ := ih range hrange
        exact ⟨by omega, hto, hlength⟩

theorem Leads.length (h : Leads step fromBlock toBlock ranges) :
    step * (ranges.length - 1) < toBlock - fromBlock ∧
      toBlock - fromBlock ≤ step * ranges.length := by
  induction h with
  | last hlt hle =>
      simp only [List.length_singleton, Nat.cast_one, sub_self, mul_zero, mul_one]
      omega
  | step _ ih =>
      simp only [List.length_cons, Nat.cast_add, Nat.cast_one, add_sub_cancel_right, mul_add,
        mul_one, mul_sub] at ih ⊢
      omega

theorem Leads.length_eq_ceil (h : Leads step fromBlock toBlock ranges) (hstep : 0 < step) :
    (ranges.length : ℤ) = ⌈((toBlock - fromBlock : ℤ) : ℚ) / step⌉ := by
  have hstep' : (0 : ℚ) < step := Int.cast_pos.mpr hstep
  obtain ⟨hlow, hup⟩ := h.length
  symm
  rw [Int.ceil_eq_iff, lt_div_iff₀ hstep', div_le_iff₀ hstep', mul_comm, mul_comm (_ : ℚ) (step : ℚ)]
  exact_mod_cast And.intro hlow hup

end Leads

theorem rangeAt_succ (fromBlock toBlock step : ℤ) (index : ℕ) :
    rangeAt fromBlock toBlock step (index + 1) = rangeAt (fromBlock + step) toBlock step index := by
  have hfrom : fromBlock + step * (index + 1 : ℕ) = fromBlock + step + step * index := by
    push_cast
    ring
  simp only [rangeAt, hfrom]

/-- The ranges at the first indices, as many as it takes to get to the last block. -/
theorem leads_rangeAt {step : ℤ} {parts : ℕ} {fromBlock toBlock : ℤ}
    (hlow : step * parts < toBlock - fromBlock)
    (hup : toBlock - fromBlock ≤ step * (parts + 1 : ℕ)) (hstep : 0 < step) :
    Leads step fromBlock toBlock
      ((List.range (parts + 1)).map (rangeAt fromBlock toBlock step)) := by
  induction parts generalizing fromBlock with
  | zero =>
      have hrange : rangeAt fromBlock toBlock step 0 = ⟨fromBlock, toBlock⟩ := by
        simp only [rangeAt, Nat.cast_zero, mul_zero, add_zero, BlockRange.mk.injEq, true_and]
        split
        · rfl
        · push_cast at hup
          omega
      rw [List.range_one, List.map_singleton, hrange]
      apply Leads.last <;> push_cast at hlow hup <;> omega
  | succ parts ih =>
      have hnonneg : 0 ≤ step * (parts : ℤ) := mul_nonneg hstep.le (Int.natCast_nonneg _)
      push_cast [mul_add] at hlow hup ih
      have hfirst : rangeAt fromBlock toBlock step 0 = ⟨fromBlock, fromBlock + step⟩ := by
        simp only [rangeAt, Nat.cast_zero, mul_zero, add_zero]
        rw [if_neg (by omega)]
      rw [List.range_succ_eq_map, List.map_cons, hfirst, List.map_map]
      apply Leads.step
      rw [show rangeAt fromBlock toBlock step ∘ Nat.succ = rangeAt (fromBlock + step) toBlock step
        from funext (rangeAt_succ fromBlock toBlock step)]
      exact ih (by omega) (by omega)

theorem exists_leads_of_splitRange {min max desiredRange : ℤ} (hlt : min < max)
    (hrange : 0 < desiredRange) (hsplits : max - min ≤ (2 ^ 32 - 1) * desiredRange) :
    ∃ ranges, splitRange min max desiredRange = .ok ranges ∧
      Leads desiredRange min max ranges := by
  obtain ⟨parts, hparts, hlow, hup⟩ := exists_ceil_div_eq (sub_pos.mpr hlt) hrange
  rw [splitRange_eq hlt.le hrange, if_pos hsplits, hparts, Int.toNat_natCast]
  exact ⟨_, rfl, leads_rangeAt hlow hup hrange⟩

/-- What a range is split into. -/
structure IsSplitOf (min max desiredRange : ℤ) (ranges : List BlockRange) : Prop where
  length : (ranges.length : ℤ) = ⌈((max - min : ℤ) : ℚ) / desiredRange⌉
  first : ranges.head?.map BlockRange.fromBlock = some min
  last : ∃ range, ranges.getLast? = some range ∧ range.toBlock = max ∧
    0 < range.toBlock - range.fromBlock ∧ range.toBlock - range.fromBlock ≤ desiredRange
  consecutive : ranges.IsChain fun range next => next.fromBlock = range.toBlock
  full : ∀ range ∈ ranges.dropLast, range.toBlock - range.fromBlock = desiredRange
  covers : ∀ block, min ≤ block → block ≤ max →
    ∃ range ∈ ranges, range.fromBlock ≤ block ∧ block ≤ range.toBlock
  within : ∀ range ∈ ranges, min ≤ range.fromBlock ∧ range.toBlock ≤ max

theorem Leads.isSplitOf {min max desiredRange : ℤ} {ranges : List BlockRange}
    (h : Leads desiredRange min max ranges) (hrange : 0 < desiredRange) :
    IsSplitOf min max desiredRange ranges where
  length := h.length_eq_ceil hrange
  first := h.head?_fromBlock
  last := h.getLast?
  consecutive := h.isChain
  full := h.dropLast
  covers _ hmin hmax := h.covers hmin hmax
  within range hmem := ⟨(h.within hrange range hmem).1, (h.within hrange range hmem).2.1⟩

section Doubles

open Binary64

variable {min max desiredRange : ℤ}

/-- Between two safe ends not further apart than `2 ^ 53` a part is where it would be exactly. -/
theorem rangeOfDoublesAt_eq {index : ℕ} (hrange : 1 ≤ desiredRange) (hmin : |min| ≤ maxSafeInteger)
    (hmax : |max| ≤ maxSafeInteger) (hspan : max - min ≤ 2 ^ 53)
    (hindex : desiredRange * index < max - min) :
    rangeOfDoublesAt min max desiredRange index = rangeAt min max desiredRange index := by
  have hsafe : (maxSafeInteger : ℤ) = 2 ^ 53 - 1 := by decide
  rw [hsafe] at hmin hmax
  obtain ⟨hminLow, hminHigh⟩ := abs_le.mp hmin
  obtain ⟨hmaxLow, hmaxHigh⟩ := abs_le.mp hmax
  have hoffset : 0 ≤ desiredRange * index := mul_nonneg (by omega) (Int.natCast_nonneg index)
  have hproduct : nearestInt (desiredRange * index) = desiredRange * index :=
    nearestInt_of_abs_le (abs_le.mpr ⟨by omega, by omega⟩)
  have hfrom : nearestInt (min + desiredRange * index) = min + desiredRange * index :=
    nearestInt_of_abs_le (abs_le.mpr ⟨by omega, by omega⟩)
  rw [rangeOfDoublesAt, hproduct, hfrom, rangeAt]
  rcases le_or_gt (min + desiredRange * index + desiredRange) max with hle | hgt
  · have hto : nearestInt (min + desiredRange * index + desiredRange) =
        min + desiredRange * index + desiredRange :=
      nearestInt_of_abs_le (abs_le.mpr ⟨by omega, by omega⟩)
    rw [hto]
  · have hto := le_nearestInt (abs_le.mpr ⟨by omega, by omega⟩) hgt.le
    have hclamped : (if max < nearestInt (min + desiredRange * index + desiredRange) then max
        else nearestInt (min + desiredRange * index + desiredRange)) = max := by
      split <;> omega
    rw [hclamped, if_pos hgt]

theorem splitRangeOfDoubles_eq (hlt : min < max) (hrange : 1 ≤ desiredRange)
    (hmin : |min| ≤ maxSafeInteger) (hmax : |max| ≤ maxSafeInteger)
    (hspan : max - min ≤ 2 ^ 53) :
    splitRangeOfDoubles min max desiredRange = splitRange min max desiredRange := by
  have hdistance : nearestInt (max - min) = max - min :=
    nearestInt_of_abs_le (abs_le.mpr ⟨by omega, hspan⟩)
  rw [splitRangeOfDoubles, hdistance, ceil_nearest_div (by omega) hspan (by omega), splitRange]
  have hparts : (List.range ⌈((max - min : ℤ) / desiredRange : ℚ)⌉.toNat).map
        (rangeOfDoublesAt min max desiredRange) =
      (List.range ⌈((max - min : ℤ) / desiredRange : ℚ)⌉.toNat).map
        (rangeAt min max desiredRange) := by
    refine List.map_congr_left fun index hindex => ?_
    apply rangeOfDoublesAt_eq hrange hmin hmax hspan
    have hpos : (0 : ℚ) < desiredRange := by exact_mod_cast hrange
    have hbelow := Int.lt_ceil.mp (Int.lt_toNat.mp (List.mem_range.mp hindex))
    rw [lt_div_iff₀ hpos] at hbelow
    rw [mul_comm]
    exact_mod_cast hbelow
  rw [hparts]

-- Further apart the steps are rounded: a part is missing, and the end is not reached.
example : ((splitRangeOfDoubles (-9000000000000003) 9000000000000003 3600000000000001).map
    fun ranges => (ranges.length, ranges.getLast?.map BlockRange.toBlock)).toOption =
      some (5, some 9000000000000002) := by
  decide +kernel

/-- The range of two safe ends, not further apart than `2 ^ 53`, is split if the parts can be
counted by the length of an array, and nothing is returned otherwise. -/
theorem splitRange_isSplitOf (hlt : min < max) (hrange : 1 ≤ desiredRange)
    (hmin : |min| ≤ maxSafeInteger) (hmax : |max| ≤ maxSafeInteger)
    (hspan : max - min ≤ 2 ^ 53) :
    (⌈((max - min : ℤ) : ℚ) / desiredRange⌉ < 2 ^ 32 →
        ∃ ranges, splitRangeOfDoubles min max desiredRange = .ok ranges ∧
          IsSplitOf min max desiredRange ranges) ∧
      (2 ^ 32 ≤ ⌈((max - min : ℤ) : ℚ) / desiredRange⌉ →
        splitRangeOfDoubles min max desiredRange = .error invalidArrayLength) := by
  have hlimit := @splits_lt_iff (max - min) _ hrange (2 ^ 32 - 1)
  rw [sub_add_cancel] at hlimit
  rw [splitRangeOfDoubles_eq hlt hrange hmin hmax hspan]
  constructor
  · intro hsplits
    obtain ⟨ranges, hranges, hleads⟩ :=
      exists_leads_of_splitRange hlt hrange (hlimit.mp hsplits)
    exact ⟨ranges, hranges, hleads.isSplitOf hrange⟩
  · intro hsplits
    rw [splitRange_eq hlt.le hrange, if_neg fun hle => (hlimit.mpr hle).not_ge hsplits]

end Doubles

theorem splitRange_isSplitOf_five :
    ∃ ranges, splitRangeOfDoubles 1 5 3 = .ok ranges ∧ IsSplitOf 1 5 3 ranges :=
  (splitRange_isSplitOf (by decide) (by decide) (by decide) (by decide) (by decide)).1 (by norm_num)

/-- An array has no more than `2 ^ 32 - 1` elements. -/
theorem splitRange_too_many :
    ¬ ∀ min max desiredRange : ℤ, min < max → 1 ≤ desiredRange →
      ∃ ranges, splitRangeOfDoubles min max desiredRange = .ok ranges ∧
        IsSplitOf min max desiredRange ranges := by
  intro h
  obtain ⟨ranges, hranges, -⟩ := h 0 (2 ^ 32) 1 (by decide) le_rfl
  rw [splitRangeOfDoubles_eq (by decide) le_rfl (by decide) (by decide) (by decide),
    splitRange_eq (by decide) Int.one_pos, if_neg (by decide)] at hranges
  cases hranges

/-- The blocks that a request asks for, when the latest block is the given one. -/
noncomputable def Filter.blocks (filter : Filter) (latest : ℕ) : Finset ℤ :=
  Finset.Icc (filter.fromBlock.getD latest) ((filter.toBlock.getD .latest).resolve latest)

/-- The block up to which a scan is asked for: the given one, or the latest that the
node has. -/
def LogProvider.IsEnd (provider : LogProvider) (toTag : Option BlockTag) (toBlock : ℤ) : Prop :=
  toTag = some (.number toBlock) ∨
    (toTag = none ∨ toTag = some .latest) ∧ provider.getBlockNumber.map Nat.cast = .ok toBlock

section Bounded

variable {config : BlockchainConfig} {relayHubAddress managerAddress : Address}
  {provider : LogProvider} {names : List ManagerEvent} {toTag : Option BlockTag}
  {fromBlock toBlock : ℤ}

theorem LogProvider.IsEnd.toBlockNumber (hend : provider.IsEnd toTag toBlock) (hto : 1 ≤ toBlock)
    (from? : Option ℤ) : PastEventOptions.toBlockNumber ⟨from?, toTag⟩ provider = .ok toBlock := by
  rcases hend with rfl | ⟨rfl | rfl, hnode⟩
  · exact toBlockNumber_of_pos hto from?
  · exact hnode
  · exact hnode

theorem LogProvider.IsEnd.resolve (hend : provider.IsEnd toTag toBlock) (hto : 1 ≤ toBlock) :
    (toTag.getD .latest).resolve toBlock.toNat = toBlock := by
  have hlatest : (toBlock.toNat : ℤ) = toBlock := Int.toNat_of_nonneg (by omega)
  rcases hend with rfl | ⟨rfl | rfl, -⟩
  · rfl
  · exact hlatest
  · exact hlatest

theorem card_blocks_logFilter {latest : ℕ}
    (hle : fromBlock ≤ (toTag.getD .latest).resolve latest) :
    (((logFilter relayHubAddress managerAddress names (some fromBlock) toTag).blocks latest).card :
      ℤ) = (toTag.getD .latest).resolve latest - fromBlock + 1 := by
  rw [Filter.blocks, Int.card_Icc, Int.toNat_of_nonneg]
  · simp only [logFilter, Option.getD_some]
    ring
  · simp only [logFilter, Option.getD_some]
    omega

/-- The limit is on how long a range is, and it counts one block less than the
request asks for. -/
theorem blocks_le_maxBlockRange_iff (hfrom : 1 ≤ fromBlock) (hle : fromBlock ≤ toBlock)
    (hend : provider.IsEnd toTag toBlock) (hrange : 1 ≤ config.maxBlockRange) :
    (∀ logFilters, getLogFilters config relayHubAddress provider managerAddress
          ⟨some fromBlock, toTag⟩ names = .ok logFilters →
        ∀ filter ∈ logFilters,
          ((filter.blocks toBlock.toNat).card : ℤ) ≤ config.maxBlockRange) ↔
      toBlock - fromBlock < config.maxBlockRange ∨
        (2 ^ 32 - 1) * config.maxBlockRange < toBlock - fromBlock := by
  have hto : 1 ≤ toBlock := hfrom.trans hle
  rw [getLogFilters_of_toBlockNumber hfrom (hend.toBlockNumber hto _)]
  by_cases hlong : config.maxBlockRange < toBlock - fromBlock
  case neg =>
    have hcard := @card_blocks_logFilter relayHubAddress managerAddress names toTag fromBlock
      toBlock.toNat (by rw [hend.resolve hto]; exact hle)
    rw [hend.resolve hto] at hcard
    rw [if_neg hlong]
    constructor
    · intro h
      have hbound := h _ rfl _ (List.mem_singleton_self _)
      exact Or.inl (by omega)
    · rintro hshort logFilters hfilters filter hfilter
      obtain rfl := Except.ok.inj hfilters
      obtain rfl := List.mem_singleton.mp hfilter
      rw [hcard]
      omega
  case pos =>
    rw [if_pos hlong]
    by_cases hsplits : toBlock - fromBlock ≤ (2 ^ 32 - 1) * config.maxBlockRange
    case neg =>
      rw [splitRange_eq hle hrange, if_neg hsplits]
      exact iff_of_true nofun (Or.inr (not_le.mp hsplits))
    case pos =>
      -- the first part is as long as the limit
      obtain ⟨ranges, hranges, hleads⟩ := exists_leads_of_splitRange (by omega) hrange hsplits
      rw [hranges]
      apply iff_of_false _ (by omega)
      intro h
      cases hleads with
      | last _ hlast => omega
      | step =>
          have hcard := @card_blocks_logFilter relayHubAddress managerAddress names
            (some (.number (fromBlock + config.maxBlockRange))) fromBlock toBlock.toNat
            (le_add_of_nonneg_right (by omega))
          have hbound := h _ rfl _ (List.mem_map_of_mem List.mem_cons_self)
          rw [hcard] at hbound
          simp only [Option.getD_some, BlockTag.resolve] at hbound
          omega

end Bounded

theorem blocks_le_maxBlockRange_iff_two :
    (∀ logFilters, getLogFilters twoBlockConfig "0xAd525463961399793f8716b0D85133ff7503a7C2"
          (fullNode (workersAddedChain 3)) sampleManager ⟨some 5, some .latest⟩
          defaultManagerEvents = .ok logFilters →
        ∀ filter ∈ logFilters, ((filter.blocks (6 : ℤ).toNat).card : ℤ) ≤
          twoBlockConfig.maxBlockRange) ↔
      (6 : ℤ) - 5 < twoBlockConfig.maxBlockRange ∨
        (2 ^ 32 - 1) * twoBlockConfig.maxBlockRange < (6 : ℤ) - 5 :=
  blocks_le_maxBlockRange_iff (by decide) (by decide) (Or.inr ⟨Or.inr rfl, rfl⟩) (by decide)

/-- From block 4 to block 6 are three blocks. -/
theorem blocks_exceed_maxBlockRange :
    ¬ ∀ (config : BlockchainConfig) (relayHubAddress managerAddress : Address)
        (provider : LogProvider) (names : List ManagerEvent) (fromBlock toBlock : ℤ)
        (logFilters : List Filter),
      1 ≤ fromBlock → fromBlock ≤ toBlock → 1 ≤ config.maxBlockRange →
      getLogFilters config relayHubAddress provider managerAddress
        ⟨some fromBlock, some (.number toBlock)⟩ names = .ok logFilters →
      ∀ filter ∈ logFilters, ((filter.blocks toBlock.toNat).card : ℤ) ≤ config.maxBlockRange := by
  intro h
  have hbound := h twoBlockConfig "0xAd525463961399793f8716b0D85133ff7503a7C2" sampleManager
    (fullNode (workersAddedChain 3)) defaultManagerEvents 4 6 _ (by decide) (by decide) (by decide)
    rfl _ (List.mem_singleton_self _)
  exact absurd hbound (by decide)

end RifRelayServer
