import RifRelayServer.EventDelivery
import Mathlib

/-!
# Stake events that are handled once

A scan starts after the cursor and goes to the latest block, the cursor moves to
the block the round started with, and only once the events have been handled. An
event is handled again when its round stops in between or when it is from a
later block, and twice in one round where two parts of a split scan meet.
-/

namespace RifRelayServer

open Std.Do Keeping Runs

set_option mvcgen.warning false

/-- The block is the end of a part of a split scan and the start of the next one. -/
def LogProvider.partsMeetAt (config : BlockchainConfig) (provider : LogProvider)
    (lastScannedBlock blockNumber : ℕ) : Bool :=
  match provider.getBlockNumber with
  | .error _ => false
  | .ok toBlockNumber =>
      decide (config.maxBlockRange < toBlockNumber - (lastScannedBlock + 1)) &&
        decide (lastScannedBlock + 1 < blockNumber) && decide (blockNumber < toBlockNumber) &&
        decide (config.maxBlockRange ∣ blockNumber - (lastScannedBlock + 1))

section Scan

variable {config : BlockchainConfig} {relayHubAddress managerAddress : Address}
  {provider : LogProvider} {names : List ManagerEvent} {chain : Chain} {head lastScannedBlock : ℕ}
  {log : TypedEvent} {events : List TypedEvent}

theorem Chain.nodup_getLogs (hdistinct : ∀ n, (chain.logs n).Nodup) (filter : Filter)
    (latest : ℕ) : (chain.getLogs filter latest).Nodup := by
  rw [Chain.getLogs, List.nodup_flatMap]
  refine ⟨fun n _ => (hdistinct n).filter _, ?_⟩
  refine ((List.nodup_range.filter _).pairwise_of_forall_ne fun m _ n _ hne => ?_)
  intro log hm hn
  have hblockM := chain.blockNumber_eq m log (List.mem_of_mem_filter hm)
  have hblockN := chain.blockNumber_eq n log (List.mem_of_mem_filter hn)
  exact hne (hblockM.symm.trans hblockN)

/-- A log is answered at most once if no two requests are answered with it. -/
theorem count_performLogRequests_le_one {logFilters : List Filter}
    (hnodup : ∀ filter ∈ logFilters, ∀ logs,
      getProviderLogsRequests provider filter = .ok logs → logs.Nodup)
    (happart : logFilters.Pairwise fun filter other => ∀ logs others,
      getProviderLogsRequests provider filter = .ok logs →
        getProviderLogsRequests provider other = .ok others → log ∈ logs → log ∉ others) :
    (performLogRequests provider logFilters).count log ≤ 1 := by
  induction logFilters with
  | nil => simp [performLogRequests]
  | cons filter logFilters ih =>
      obtain ⟨hfirst, hrest⟩ := List.pairwise_cons.mp happart
      specialize ih (fun it hit => hnodup it (List.mem_cons_of_mem _ hit)) hrest
      cases hanswer : getProviderLogsRequests provider filter with
      | error e =>
          simp only [performLogRequests] at ih ⊢
          rwa [List.filterMap_cons_none (by rw [hanswer]; rfl)]
      | ok logs =>
          have hcons : performLogRequests provider (filter :: logFilters) =
              logs ++ performLogRequests provider logFilters := by
            simp only [performLogRequests]
            rw [List.filterMap_cons_some (by rw [hanswer]; rfl), List.flatten_cons]
          have honce := List.nodup_iff_count_le_one.mp
            (hnodup filter List.mem_cons_self logs hanswer) log
          rw [hcons, List.count_append]
          by_cases hmem : log ∈ logs
          · have hnone : log ∉ performLogRequests provider logFilters := by
              intro hlater
              obtain ⟨other, hother, others, hothers, hin⟩ := mem_performLogRequests.mp hlater
              exact hfirst other hother logs others hanswer hothers hmem hin
            rw [List.count_eq_zero_of_not_mem hnone]
            exact honce
          · rw [List.count_eq_zero_of_not_mem hmem, zero_add]
            exact ih

/-- What an answered request says of a log in its answer. -/
theorem LogProvider.Follows.of_mem (hfollows : provider.Follows chain head) {filter : Filter}
    {logs : List TypedEvent} (hanswer : getProviderLogsRequests provider filter = .ok logs) :
    ∃ latest, logs = chain.getLogs filter latest := by
  obtain ⟨attempt, hattempt⟩ := exists_of_retry_eq_ok hanswer
  obtain ⟨latest, -, -, hlogs⟩ := hfollows.getLogs _ _ _ hattempt
  exact ⟨latest, hlogs⟩

theorem le_of_mem_getLogs {fromBlock : ℤ} {toBlock : Option BlockTag} {latest : ℕ}
    (h : log ∈ chain.getLogs (logFilter relayHubAddress managerAddress names (some fromBlock)
      toBlock) latest) : fromBlock ≤ log.blockNumber := by
  obtain ⟨-, -, hspans, -⟩ := Chain.mem_getLogs.mp h
  exact of_decide_eq_true (Bool.and_eq_true_iff.mp hspans).1

theorem ge_of_mem_getLogs {fromBlock toBlock : ℤ} {latest : ℕ}
    (h : log ∈ chain.getLogs (logFilter relayHubAddress managerAddress names (some fromBlock)
      (some (.number toBlock))) latest) : (log.blockNumber : ℤ) ≤ toBlock := by
  obtain ⟨-, -, hspans, -⟩ := Chain.mem_getLogs.mp h
  exact of_decide_eq_true (Bool.and_eq_true_iff.mp hspans).2

/-- What a scan since the cursor returns lies after the cursor. -/
theorem lt_blockNumber_of_since (hfollows : provider.Follows chain head)
    (h : getPastEventsForHub config relayHubAddress provider managerAddress
      (.since lastScannedBlock) names = .ok events) (hlog : log ∈ events) :
    lastScannedBlock < log.blockNumber := by
  obtain ⟨logFilters, hfilters, h⟩ := Failure.bind_eq_ok_iff.mp h
  obtain rfl := Except.ok.inj h
  obtain ⟨filter, hfilter, logs, hanswer, hmem⟩ := mem_performLogRequests.mp hlog
  obtain ⟨latest, rfl⟩ := hfollows.of_mem hanswer
  have hblock : ((lastScannedBlock : ℤ) + 1) ≤ log.blockNumber := by
    rcases getLogFilters_since_cases hfilters with rfl | ⟨number, ranges, -, hlong, hsplit, rfl⟩
    · obtain rfl := List.mem_singleton.mp hfilter
      exact le_of_mem_getLogs hmem
    · obtain ⟨range, hrange, rfl⟩ := List.mem_map.mp hfilter
      exact (le_fromBlock_of_splitRange hlong hsplit hrange).trans (le_of_mem_getLogs hmem)
  omega

/-- Two parts list the same log only where they meet. -/
theorem partsMeetAt_of_mem {toBlockNumber splits index other latest latest' : ℕ}
    (hnumber : provider.getBlockNumber = .ok toBlockNumber) (hd : 0 < config.maxBlockRange)
    (hlong : config.maxBlockRange < toBlockNumber - (lastScannedBlock + 1))
    (hsplits : (lastScannedBlock + 1 : ℤ) + config.maxBlockRange * (splits - 1) < toBlockNumber)
    (hlt : index < other) (hother : other < splits)
    (hmem : log ∈ chain.getLogs (logFilter relayHubAddress managerAddress names
      (some (rangeAt (lastScannedBlock + 1) toBlockNumber config.maxBlockRange index).fromBlock)
      (some (.number (rangeAt (lastScannedBlock + 1) toBlockNumber config.maxBlockRange
        index).toBlock))) latest)
    (hmem' : log ∈ chain.getLogs (logFilter relayHubAddress managerAddress names
      (some (rangeAt (lastScannedBlock + 1) toBlockNumber config.maxBlockRange other).fromBlock)
      (some (.number (rangeAt (lastScannedBlock + 1) toBlockNumber config.maxBlockRange
        other).toBlock))) latest') :
    provider.partsMeetAt config lastScannedBlock log.blockNumber = true := by
  have hto := ge_of_mem_getLogs hmem
  have hfrom := le_of_mem_getLogs hmem'
  have hend : (rangeAt (lastScannedBlock + 1) toBlockNumber config.maxBlockRange index).toBlock ≤
      lastScannedBlock + 1 + config.maxBlockRange * (index + 1) := by
    simp only [rangeAt]
    split <;> linarith
  simp only [rangeAt] at hfrom
  have hnext : (index : ℤ) + 1 ≤ other := by exact_mod_cast hlt
  have hlast : (other : ℤ) ≤ splits - 1 := by
    have : (other : ℤ) + 1 ≤ splits := by exact_mod_cast hother
    linarith
  have hsteps := mul_le_mul_of_nonneg_left hnext hd.le
  have hmost := mul_le_mul_of_nonneg_left hlast hd.le
  have hfirst := mul_nonneg hd.le (Int.natCast_nonneg index)
  have hblock : (log.blockNumber : ℤ) =
      lastScannedBlock + 1 + config.maxBlockRange * other := by linarith
  have hpositive : config.maxBlockRange ≤ config.maxBlockRange * other := by linarith
  simp only [LogProvider.partsMeetAt, hnumber, Bool.and_eq_true, decide_eq_true_eq]
  refine ⟨⟨⟨hlong, ?_⟩, ?_⟩, ⟨other, by linarith⟩⟩
  · exact_mod_cast (by linarith : (lastScannedBlock : ℤ) + 1 < log.blockNumber)
  · exact_mod_cast (by linarith : (log.blockNumber : ℤ) < toBlockNumber)

/-- A log is returned once by a scan, unless it lies where two parts meet. -/
theorem count_since_le_one (hdistinct : ∀ n, (chain.logs n).Nodup)
    (hfollows : provider.Follows chain head) (hafter : lastScannedBlock < head)
    (h : getPastEventsForHub config relayHubAddress provider managerAddress
      (.since lastScannedBlock) names = .ok events)
    (hmeet : provider.partsMeetAt config lastScannedBlock log.blockNumber = false) :
    events.count log ≤ 1 := by
  obtain ⟨logFilters, hfilters, h⟩ := Failure.bind_eq_ok_iff.mp h
  obtain rfl := Except.ok.inj h
  refine count_performLogRequests_le_one ?_ ?_
  · intro filter _ logs hanswer
    obtain ⟨latest, rfl⟩ := hfollows.of_mem hanswer
    exact Chain.nodup_getLogs hdistinct _ _
  · rcases getLogFilters_since_cases hfilters with rfl | ⟨number, ranges, hnumber, hlong, hsplit, rfl⟩
    · exact List.pairwise_singleton _ _
    · have hle := hfollows.getBlockNumber number hnumber
      rcases splitRange_cases hsplit (by omega) with rfl | ⟨hd, splits, hsplits, rfl⟩
      · exact List.Pairwise.nil
      · rw [List.map_map, List.pairwise_map]
        refine List.pairwise_lt_range.imp_of_mem fun {index other} _ hother hlt => ?_
        intro logs others hlogs hothers hmem hmem'
        obtain ⟨latest, rfl⟩ := hfollows.of_mem hlogs
        obtain ⟨latest', rfl⟩ := hfollows.of_mem hothers
        have hmeets := partsMeetAt_of_mem hnumber hd hlong hsplits hlt (List.mem_range.mp hother)
          hmem hmem'
        rw [hmeet] at hmeets
        cases hmeets

end Scan

/-- From `a` to `b` some of the events were acted on, each as often as it is listed at most. -/
def ActsAmong (events a b : List TypedEvent) : Prop := ∃ new, new.Sublist events ∧ b = a ++ new

namespace ActsAmong

variable {events a b c : List TypedEvent} {eventData : TypedEvent}

theorem refl (events a : List TypedEvent) : ActsAmong events a a :=
  ⟨[], List.nil_sublist _, (List.append_nil a).symm⟩

theorem single (eventData : TypedEvent) (a : List TypedEvent) :
    ActsAmong [eventData] a (a ++ [eventData]) := ⟨[eventData], List.Sublist.refl _, rfl⟩

theorem cons (h : ActsAmong [eventData] a b) (hrest : ActsAmong events b c) :
    ActsAmong (eventData :: events) a c := by
  obtain ⟨first, hfirst, rfl⟩ := h
  obtain ⟨rest, hrest, rfl⟩ := hrest
  exact ⟨first ++ rest, hfirst.append hrest, List.append_assoc _ _ _⟩

end ActsAmong

/-- What was acted on so far, and the cursor. -/
def WorkerState.actedAt (state : WorkerState) : List TypedEvent × ℕ :=
  (state.acted, state.scan.lastScannedBlock)

section Acted

variable {server : RelayServer} {round : Round} {x : List TypedEvent × ℕ}

attribute [local spec] refreshStake_keepsRoundView refreshGasPrice_keepsRoundView
  refreshBalance_keepsRoundView init_keepsRoundView updateLatestTxBlockNumber_sorts
  finishRound_keepsBesideAlert

/-- The program acts on no stake event and leaves the cursor where it is. -/
abbrev KeepsActed {α : Type} (x : List TypedEvent × ℕ) (program : RoundM α) : Prop :=
  Keeps (fun state => state.actedAt = x) program

@[local spec] theorem updateRegistrationManager_keepsActed
    {update : RegistrationManager → RegistrationManager} :
    KeepsActed x (updateRegistrationManager update) := by
  mvcgen [updateRegistrationManager]

@[local spec] theorem handleStakeEvent_acts {currentBlock : ℕ} {eventData : TypedEvent} :
    ⦃fun state => ⌜state.actedAt = x⌝⦄ handleStakeEvent server round currentBlock eventData
    ⦃post⟨fun _ state => ⌜ActsAmong [eventData] x.1 state.acted ∧
        state.scan.lastScannedBlock = x.2⌝,
      fun _ state => ⌜ActsAmong [eventData] x.1 state.acted ∧
        state.scan.lastScannedBlock = x.2⌝⟩⦄ := by
  mvcgen [handleStakeEvent, noteActed, handleStakeWithdrawnEvent]
    with grind [ActsAmong.refl, ActsAmong.single, WorkerState.actedAt]

@[local spec] theorem handleStakeEvents_acts {currentBlock : ℕ} (events : List TypedEvent) :
    ⦃fun state => ⌜state.actedAt = x⌝⦄
    handleEach (handleStakeEvent server round currentBlock) events
    ⦃post⟨fun _ state => ⌜ActsAmong events x.1 state.acted ∧ state.scan.lastScannedBlock = x.2⌝,
      fun _ state => ⌜ActsAmong events x.1 state.acted ∧ state.scan.lastScannedBlock = x.2⌝⟩⦄ := by
  induction events generalizing x with
  | nil =>
      mvcgen [handleEach]
      grind [ActsAmong.refl, WorkerState.actedAt]
  | cons eventData events ih =>
      mvcgen [handleEach, ih] with grind [ActsAmong.refl, ActsAmong.cons, WorkerState.actedAt]

/-- What was acted on from `a` to `b` is among the stake events that the round's scan returned. -/
def ActsOnScan (server : RelayServer) (round : Round) (lastScannedBlock : ℕ)
    (a b : List TypedEvent) : Prop :=
  b = a ∨ ∃ events, getPastEventsForHub server.dependencies.config server.relayHubAddress
    round.stakeScan server.managerAddress (.since lastScannedBlock) stakeEvents = .ok events ∧
      ActsAmong events a b

@[local spec] theorem handlePastEvents_acts {hubEvents : List TypedEvent}
    {lastScannedBlock currentBlock : ℕ} {forceRegistration : Bool} :
    ⦃fun state => ⌜state.actedAt = x⌝⦄
    handlePastEvents server round hubEvents lastScannedBlock currentBlock forceRegistration
    ⦃post⟨fun _ state => ⌜ActsOnScan server round lastScannedBlock x.1 state.acted⌝,
      fun _ state => ⌜ActsOnScan server round lastScannedBlock x.1 state.acted⌝⟩⦄ := by
  mvcgen [handlePastEvents, noteHanded, fetchStakeEvents, noteStakeScan,
    extractDuePendingEvents] with grind [ActsOnScan, WorkerState.actedAt]

@[local spec] theorem getAllHubEventsSinceLastScan_keepsActed :
    KeepsActed x (getAllHubEventsSinceLastScan server round) := by
  mvcgen [getAllHubEventsSinceLastScan, noteHubScan] with grind [WorkerState.actedAt]

theorem ActsOnScan.refl (lastScannedBlock : ℕ) (a : List TypedEvent) :
    ActsOnScan server round lastScannedBlock a a := Or.inl rfl

@[local spec] theorem handleChanges_acts {currentBlockNumber : ℕ} :
    ⦃fun state => ⌜state.actedAt = x⌝⦄ handleChanges server round currentBlockNumber
    ⦃post⟨fun _ state => ⌜ActsOnScan server round x.2 x.1 state.acted⌝,
      fun _ state => ⌜ActsOnScan server round x.2 x.1 state.acted⌝⟩⦄ := by
  mvcgen [handleChanges, moveCursor] with grind [ActsOnScan.refl, WorkerState.actedAt]

@[local spec] theorem worker_acts :
    ⦃fun state => ⌜state.actedAt = x⌝⦄ worker server round
    ⦃post⟨fun _ state => ⌜ActsOnScan server round x.2 x.1 state.acted⌝,
      fun _ state => ⌜ActsOnScan server round x.2 x.1 state.acted⌝⟩⦄ := by
  mvcgen [worker, refreshGasPrice, refreshBalance, setReadyState]
    with grind [ActsOnScan.refl, WorkerState.actedAt]

theorem intervalHandler_acts :
    ⦃fun state => ⌜state.actedAt = x⌝⦄ intervalHandler server round
    ⦃post⟨fun _ state => ⌜ActsOnScan server round x.2 x.1 state.acted⌝,
      fun _ state => ⌜ActsOnScan server round x.2 x.1 state.acted⌝⟩⦄ := by
  mvcgen [intervalHandler, startRound, workerSemaphore]
    with grind [ActsOnScan.refl, WorkerState.actedAt]

end Acted

/-- A round that acts on an event gets as far as moving the cursor, the block of
the event is not after that of the round, and no two parts of its scan meet there. -/
def ActsOnce (server : RelayServer) (state : WorkerState) : WorkerEvent → Prop
  | .tick round =>
      let state' := Keeping.final (intervalHandler server round) state
      ∀ log ∈ state'.acted.drop state.acted.length,
        state'.scan.lastScannedBlock ≠ state.scan.lastScannedBlock ∧
          log.blockNumber ≤ round.blockNumber ∧
          round.stakeScan.partsMeetAt server.dependencies.config state.scan.lastScannedBlock
            log.blockNumber = false
  | _ => True

instance (server : RelayServer) (state : WorkerState) (event : WorkerEvent) :
    Decidable (ActsOnce server state event) :=
  match event with
  | .tick round =>
      inferInstanceAs (Decidable (∀ log ∈ (Keeping.final (intervalHandler server round)
          state).acted.drop state.acted.length,
        (Keeping.final (intervalHandler server round) state).scan.lastScannedBlock ≠
            state.scan.lastScannedBlock ∧
          log.blockNumber ≤ round.blockNumber ∧
          round.stakeScan.partsMeetAt server.dependencies.config state.scan.lastScannedBlock
            log.blockNumber = false))
  | .init _ | .blockUnavailable | .timedOut | .managerCall _ => isTrue trivial

/-- No event was acted on twice, and none lies after the cursor. -/
structure HandledOnce (state : WorkerState) : Prop where
  nodup : state.acted.Nodup
  scanned : ∀ log ∈ state.acted, log.blockNumber ≤ state.scan.lastScannedBlock

/-- The state after events, each ending with or without an error. -/
def WorkerState.after (server : RelayServer) (state : WorkerState) (events : List WorkerEvent) :
    WorkerState :=
  events.foldl (fun state event => Keeping.final (event.program server) state) state

theorem run_workerStep (server : RelayServer) (state : WorkerState) (events : List WorkerEvent) :
    run (workerStep server) state events = some (state.after server events) :=
  run_of_total (fun _ _ => rfl) state events

section Run

variable {server : RelayServer} {chain : Chain} {state state' : WorkerState} {round : Round}

theorem acted_of_workerStep {event : WorkerEvent}
    (hstep : workerStep server state event = some state') :
    state'.acted = state.acted ∨ ∃ round, event = .tick round ∧
      ActsOnScan server round state.scan.lastScannedBlock state.acted state'.acted := by
  cases event with
  | tick round =>
      obtain rfl := Option.some.inj hstep
      exact Or.inr ⟨round, rfl, final_post (intervalHandler_acts (x := state.actedAt)) rfl⟩
  | _ => exact Or.inl (WorkerState.eq_of_roundView (roundView_of_workerStep hstep (by simp))).2.1

theorem HandledOnce.of_acted_eq (h : HandledOnce state) (hacted : state'.acted = state.acted)
    (hle : state.scan.lastScannedBlock ≤ state'.scan.lastScannedBlock) : HandledOnce state' where
  nodup := hacted ▸ h.nodup
  scanned log hlog := (h.scanned log (hacted ▸ hlog)).trans hle

/-- What is acted on in a round is new: it lies after the cursor, and is listed once. -/
theorem HandledOnce.of_acts (h : HandledOnce state) (hdistinct : ∀ n, (chain.logs n).Nodup)
    (hfollows : round.stakeScan.Follows chain round.blockNumber) {events : List TypedEvent}
    (hevents : getPastEventsForHub server.dependencies.config server.relayHubAddress
      round.stakeScan server.managerAddress (.since state.scan.lastScannedBlock) stakeEvents =
        .ok events) {new : List TypedEvent} (hnew : new.Sublist events)
    (hacted : state'.acted = state.acted ++ new)
    (hle : state.scan.lastScannedBlock ≤ state'.scan.lastScannedBlock)
    (hone : ∀ log ∈ new, state.scan.lastScannedBlock < round.blockNumber ∧
      log.blockNumber ≤ state'.scan.lastScannedBlock ∧
        round.stakeScan.partsMeetAt server.dependencies.config state.scan.lastScannedBlock
          log.blockNumber = false) : HandledOnce state' := by
  constructor
  case nodup =>
    rw [hacted, List.nodup_append]
    refine ⟨h.nodup, List.nodup_iff_count_le_one.mpr fun log => ?_, ?_⟩
    · by_cases hlog : log ∈ new
      · obtain ⟨hafter, -, hmeet⟩ := hone log hlog
        exact (hnew.count_le log).trans
          (count_since_le_one hdistinct hfollows hafter hevents hmeet)
      · rw [List.count_eq_zero_of_not_mem hlog]
        exact Nat.zero_le 1
    · rintro log hold _ hlater rfl
      obtain ⟨hafter, -, -⟩ := hone log hlater
      have hlt := lt_blockNumber_of_since hfollows hevents (hnew.subset hlater)
      exact absurd (hlt.trans_le (h.scanned log hold)) (lt_irrefl _)
  case scanned =>
    intro log hlog
    rw [hacted] at hlog
    rcases List.mem_append.mp hlog with hold | hlater
    · exact (h.scanned log hold).trans hle
    · exact (hone log hlater).2.1

theorem handledOnce_of_workerStep {event : WorkerEvent} (h : HandledOnce state)
    (hdistinct : ∀ n, (chain.logs n).Nodup) (hfollows : event.Follows chain)
    (honce : ActsOnce server state event) (hstep : workerStep server state event = some state') :
    HandledOnce state' := by
  have hle : state.scan.lastScannedBlock ≤ state'.scan.lastScannedBlock := by
    rcases scan_of_workerStep hstep with hstays | ⟨round, -, hnew, _, _, -, -, hscan⟩
    · exact hstays.lastScannedBlock.ge
    · rw [hscan]
      exact hnew.le
  rcases acted_of_workerStep hstep with hacted | ⟨round, rfl, hacted | ⟨events, hevents, new, hnew, hacted⟩⟩
  · exact h.of_acted_eq hacted hle
  · exact h.of_acted_eq hacted hle
  · apply h.of_acts hdistinct hfollows.2 hevents hnew hacted hle
    intro log hlog
    obtain rfl := Option.some.inj hstep
    have hacts := honce log (by
      rw [WorkerEvent.program] at hacted
      rw [hacted, List.drop_left]
      exact hlog)
    rcases scan_of_workerStep hstep with hstays | ⟨other, hother, hafter, _, _, -, -, hscan⟩
    · exact absurd hstays.lastScannedBlock hacts.1
    · cases hother
      refine ⟨hafter, ?_, hacts.2.2⟩
      rw [hscan]
      exact hacts.2.1

/-- No stake event is acted on twice in a run whose rounds act as asked. -/
theorem stake_events_handled_once {txStore : TxStore} {events : List WorkerEvent}
    (hdistinct : ∀ n, (chain.logs n).Nodup) (hfollows : ∀ event ∈ events, event.Follows chain)
    (honce : Along (workerStep server) (ActsOnce server)
      (.constructed server.dependencies.config txStore) events)
    (hrun : run (workerStep server) (.constructed server.dependencies.config txStore) events =
      some state) : state.acted.Nodup := by
  have hfollowing : Along (workerStep server) (fun _ event => event.Follows chain)
      (.constructed server.dependencies.config txStore) events :=
    along_of_forall fun event hevent _ => hfollows event hevent
  have hhandled : HandledOnce state :=
    invariant_of_along (fun state event state' h hallowed hstep =>
      handledOnce_of_workerStep h hdistinct hallowed.1 hallowed.2 hstep)
      ⟨List.nodup_nil, fun log hlog => absurd hlog List.not_mem_nil⟩ (hfollowing.and honce) hrun
  exact hhandled.nodup

end Run

/-- The owner unlocks the stake in block 7. -/
def sampleStakeUnlocked : TypedEvent :=
  { sampleStakeAdded with
    event := .stakeUnlocked
    withdrawBlock := 1000
    blockNumber := 7 }

def unlockedChain : Chain where
  logs n := if n = 7 then [sampleStakeUnlocked] else []
  blockNumber_eq _ _ h := blockNumber_of_mem_ite h rfl fun h => absurd h List.not_mem_nil

def nodeAt (chain : Chain) (latest : ℕ) : LogProvider where
  getBlockNumber := .ok latest
  getLogs filter _ := .ok (chain.getLogs filter latest)

theorem nodeAt_follows (chain : Chain) {head latest : ℕ} (h : head ≤ latest) :
    (nodeAt chain latest).Follows chain head where
  getBlockNumber _ hn := Except.ok.inj hn ▸ h
  getLogs _ _ _ hlogs := ⟨latest, h, fun _ hn => (Except.ok.inj hn).ge, (Except.ok.inj hlogs).symm⟩

/-- A round at the given block, when the node has got to block 7. -/
def unlockRound (blockNumber : ℕ) : Round :=
  { sampleRound (nodeAt unlockedChain 7) with blockNumber }

theorem nodup_unlockedChain (n : ℕ) : (unlockedChain.logs n).Nodup := by
  simp only [unlockedChain]
  split
  · exact List.nodup_singleton _
  · exact List.nodup_nil

theorem follows_unlockRound {blockNumber : ℕ} (h : blockNumber ≤ 7) :
    (WorkerEvent.tick (unlockRound blockNumber)).Follows unlockedChain :=
  ⟨nodeAt_follows _ h, nodeAt_follows _ h⟩

/-- What rounds at the given blocks leave, from the constructor on. -/
def afterUnlockRounds (blockNumbers : List ℕ) : WorkerState :=
  (WorkerState.constructed sampleDependencies.config TxStore.empty).after sampleStakingServer
    (blockNumbers.map fun blockNumber => .tick (unlockRound blockNumber))

theorem stake_events_handled_once_unlocked :
    (afterUnlockRounds [7]).acted = [sampleStakeUnlocked] ∧ (afterUnlockRounds [7]).acted.Nodup :=
  ⟨by decide +kernel, @stake_events_handled_once sampleStakingServer unlockedChain
    (afterUnlockRounds [7]) TxStore.empty [.tick (unlockRound 7)] nodup_unlockedChain
    (fun _ h => List.mem_singleton.mp h ▸ follows_unlockRound le_rfl) (by decide +kernel)
    (run_workerStep _ _ _)⟩

/-- A round at block 6 is told of block 7 already, and so is the round at block 7. -/
theorem stake_event_handled_twice :
    ¬ ∀ (server : RelayServer) (chain : Chain) (txStore : TxStore) (events : List WorkerEvent)
        (state : WorkerState), (∀ n, (chain.logs n).Nodup) →
      (∀ event ∈ events, event.Follows chain) →
      run (workerStep server) (.constructed server.dependencies.config txStore) events =
        some state → state.acted.Nodup := by
  intro h
  have hfollows : ∀ event ∈ [WorkerEvent.tick (unlockRound 6), .tick (unlockRound 7)],
      event.Follows unlockedChain := by
    intro event hevent
    rcases List.mem_cons.mp hevent with rfl | hevent
    · exact follows_unlockRound (by decide)
    · rw [List.mem_singleton.mp hevent]
      exact follows_unlockRound le_rfl
  have honce := h sampleStakingServer unlockedChain TxStore.empty _ (afterUnlockRounds [6, 7])
    nodup_unlockedChain hfollows (run_workerStep _ _ _)
  have htwice : (afterUnlockRounds [6, 7]).acted = [sampleStakeUnlocked, sampleStakeUnlocked] := by
    decide +kernel
  rw [htwice] at honce
  exact absurd honce (by decide)

end RifRelayServer
