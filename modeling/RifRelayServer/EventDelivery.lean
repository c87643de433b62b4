import RifRelayServer.RoundFrames
import RifRelayServer.Boosting
import Mathlib

/-!
# What the rounds read of the logs

The cursor moves over blocks whose logs a round has asked for. A request that
stays without an answer is left out silently, and the cursor moves over its
blocks all the same. When the requests of the rounds that move the cursor are
answered, no event is lost.
-/

namespace RifRelayServer
open Std.Do Keeping Runs
set_option mvcgen.warning false

/-- The program leaves the cursor and all that was read as they are. -/
abbrev KeepsScan {α : Type} (x : ScanState) (program : RoundM α) : Prop :=
  Keeps (fun state => state.scan = x) program

section KeepsScan
variable {server : RelayServer} {round : Round} {x : ScanState}

attribute [local spec] refreshGasPrice_keepsRoundView refreshBalance_keepsRoundView
  init_keepsRoundView extractDuePendingEvents_keepsRoundView updateLatestTxBlockNumber_sorts
  handleStakeEvents_keepBesideActed finishRound_keepsBesideAlert

@[local spec] theorem updateRegistrationManager_keepsScan
    {update : RegistrationManager → RegistrationManager} :
    KeepsScan x (updateRegistrationManager update) := by
  mvcgen [updateRegistrationManager]

def ScanState.afterHubScan (server : RelayServer) (round : Round) (x : ScanState)
    (events : List TypedEvent) : ScanState :=
  { x with
    hubQueries := x.hubQueries ++
      server.queries round.hubScan (.since x.lastScannedBlock) defaultManagerEvents
    hubRequests := x.hubRequests ++ answeredRequests server.dependencies.config
      server.relayHubAddress round.hubScan server.managerAddress (.since x.lastScannedBlock)
      defaultManagerEvents
    hubEvents := x.hubEvents ++ events }

def ScanState.afterStakeScan (server : RelayServer) (round : Round) (x : ScanState)
    (hubEvents stakeEventsSinceLastScan : List TypedEvent) : ScanState :=
  { x with
    stakeQueries := x.stakeQueries ++
      server.queries round.stakeScan (.since x.lastScannedBlock) stakeEvents
    stakeRequests := x.stakeRequests ++ answeredRequests server.dependencies.config
      server.relayHubAddress round.stakeScan server.managerAddress (.since x.lastScannedBlock)
      stakeEvents
    handed := x.handed ++ hubEvents ++ stakeEventsSinceLastScan }

/-- Nothing that was read is forgotten. -/
structure ScanState.Extends (x y : ScanState) : Prop where
  handed : x.handed ⊆ y.handed
  hubEvents : x.hubEvents ⊆ y.hubEvents
  hubRequests : x.hubRequests ⊆ y.hubRequests
  stakeRequests : x.stakeRequests ⊆ y.stakeRequests

/-- No request is for a block up to the cursor. -/
structure ScanState.AsksAfter (x y : ScanState) : Prop where
  hubQueries : ∀ query ∈ y.hubQueries,
    query ∈ x.hubQueries ∨ query.StartsAfter x.lastScannedBlock
  stakeQueries : ∀ query ∈ y.stakeQueries,
    query ∈ x.stakeQueries ∨ query.StartsAfter x.lastScannedBlock

structure ScanState.Stays (x y : ScanState) : Prop extends x.Extends y, x.AsksAfter y where
  lastScannedBlock : y.lastScannedBlock = x.lastScannedBlock

/-- The events of the hub or the stake events since the last scanned block, as a scan gets them. -/
def RelayServer.scanSince (server : RelayServer) (provider : LogProvider) (x : ScanState)
    (names : List ManagerEvent) : Except String (List TypedEvent) :=
  getPastEventsForHub server.dependencies.config server.relayHubAddress provider
    server.managerAddress (.since x.lastScannedBlock) names

/-- The cursor has moved to the block of the round, after both scans. -/
def ScanState.Moves (server : RelayServer) (round : Round) (x y : ScanState) : Prop :=
  x.lastScannedBlock < round.blockNumber ∧ ∃ hubEvents stakeEventsSinceLastScan,
    server.scanSince round.hubScan x defaultManagerEvents = .ok hubEvents ∧
      server.scanSince round.stakeScan x stakeEvents = .ok stakeEventsSinceLastScan ∧
        y = { (x.afterHubScan server round hubEvents).afterStakeScan server round
          (sortLatestFirst hubEvents) stakeEventsSinceLastScan with
            lastScannedBlock := round.blockNumber }

@[refl] theorem ScanState.Stays.refl (x : ScanState) : x.Stays x where
  lastScannedBlock := rfl
  handed := List.Subset.refl _
  hubEvents := List.Subset.refl _
  hubRequests := List.Subset.refl _
  stakeRequests := List.Subset.refl _
  hubQueries _ := Or.inl
  stakeQueries _ := Or.inl

theorem RelayServer.startsAfter_of_mem_queries {provider : LogProvider} {lastScannedBlock : ℕ}
    {names : List ManagerEvent} {query : Filter}
    (h : query ∈ server.queries provider (.since lastScannedBlock) names) :
    query.StartsAfter lastScannedBlock := by
  unfold RelayServer.queries at h
  cases hfilters : getLogFilters server.dependencies.config server.relayHubAddress provider
      server.managerAddress (.since lastScannedBlock) names with
  | ok logFilters =>
      rw [hfilters] at h
      exact startsAfter_of_since hfilters h
  | error e =>
      rw [hfilters] at h
      cases h

theorem ScanState.stays_afterHubScan (events : List TypedEvent) :
    x.Stays (x.afterHubScan server round events) where
  lastScannedBlock := rfl
  handed := List.Subset.refl _
  hubEvents := List.subset_append_left _ _
  hubRequests := List.subset_append_left _ _
  stakeRequests := List.Subset.refl _
  hubQueries _ hquery :=
    (List.mem_append.mp hquery).imp_right RelayServer.startsAfter_of_mem_queries
  stakeQueries _ := Or.inl

@[local spec] theorem getAllHubEventsSinceLastScan_spec :
    ⦃fun state => ⌜state.scan = x⌝⦄ getAllHubEventsSinceLastScan server round
    ⦃post⟨fun events state => ⌜server.scanSince round.hubScan x defaultManagerEvents = .ok events ∧
        state.scan = x.afterHubScan server round events⌝,
      fun _ state => ⌜state.scan = x⌝⟩⦄ := by
  mvcgen [getAllHubEventsSinceLastScan, noteHubScan]
    with grind [RelayServer.scanSince, ScanState.afterHubScan]

@[local spec] theorem noteHanded_spec {events : List TypedEvent} :
    ⦃fun state => ⌜state.scan = x⌝⦄ noteHanded events
    ⦃post⟨fun _ state => ⌜state.scan = { x with handed := x.handed ++ events }⌝,
      fun _ _ => ⌜False⌝⟩⦄ := by
  mvcgen [noteHanded] with grind

@[local spec] theorem fetchStakeEvents_spec {options : PastEventOptions} :
    ⦃fun state => ⌜state.scan = x⌝⦄ fetchStakeEvents server round options
    ⦃post⟨fun events state => ⌜getPastEventsForHub server.dependencies.config
        server.relayHubAddress round.stakeScan server.managerAddress options stakeEvents =
          .ok events ∧
        state.scan = { x with
          stakeQueries := x.stakeQueries ++ server.queries round.stakeScan options stakeEvents
          stakeRequests := x.stakeRequests ++ answeredRequests server.dependencies.config
            server.relayHubAddress round.stakeScan server.managerAddress options stakeEvents
          handed := x.handed ++ events }⌝,
      fun _ state => ⌜state.scan = x⌝⟩⦄ := by
  mvcgen [fetchStakeEvents, noteStakeScan] with grind

theorem ScanState.stays_handed (events : List TypedEvent) :
    x.Stays { x with handed := x.handed ++ events } where
  lastScannedBlock := rfl
  handed := List.subset_append_left _ _
  hubEvents := List.Subset.refl _
  hubRequests := List.Subset.refl _
  stakeRequests := List.Subset.refl _
  hubQueries _ := Or.inl
  stakeQueries _ := Or.inl

theorem ScanState.Stays.noted (events more : List TypedEvent) (requests : List Filter) :
    x.Stays { x with
      handed := x.handed ++ events ++ more
      stakeQueries := x.stakeQueries ++
        server.queries round.stakeScan (.since x.lastScannedBlock) stakeEvents
      stakeRequests := x.stakeRequests ++ requests } where
  lastScannedBlock := rfl
  handed := fun _ h => List.mem_append_left _ (List.mem_append_left _ h)
  hubEvents := List.Subset.refl _
  hubRequests := List.Subset.refl _
  stakeRequests := List.subset_append_left _ _
  hubQueries _ := Or.inl
  stakeQueries _ hquery :=
    (List.mem_append.mp hquery).imp_right RelayServer.startsAfter_of_mem_queries

@[local spec] theorem handlePastEvents_spec {hubEvents : List TypedEvent} {currentBlock : ℕ}
    {forceRegistration : Bool} :
    ⦃fun state => ⌜state.scan = x⌝⦄
    handlePastEvents server round hubEvents x.lastScannedBlock currentBlock forceRegistration
    ⦃post⟨fun _ state => ⌜∃ stakeEventsSinceLastScan,
        server.scanSince round.stakeScan x stakeEvents = .ok stakeEventsSinceLastScan ∧
          state.scan = x.afterStakeScan server round hubEvents stakeEventsSinceLastScan⌝,
      fun _ state => ⌜x.Stays state.scan⌝⟩⦄ := by
  mvcgen [handlePastEvents] with grind [ScanState.afterStakeScan, RelayServer.scanSince,
    ScanState.stays_handed, ScanState.Stays.noted]

@[local spec] theorem moveCursor_spec {currentBlockNumber : ℕ} :
    ⦃fun state => ⌜state.scan = x⌝⦄ moveCursor currentBlockNumber
    ⦃post⟨fun _ state => ⌜state.scan = { x with lastScannedBlock := currentBlockNumber }⌝,
      fun _ _ => ⌜False⌝⟩⦄ := by
  mvcgen [moveCursor] with grind

theorem ScanState.Stays.trans {y z : ScanState} (hxy : x.Stays y) (hyz : y.Stays z) :
    x.Stays z where
  lastScannedBlock := hyz.lastScannedBlock.trans hxy.lastScannedBlock
  handed := List.Subset.trans hxy.handed hyz.handed
  hubEvents := List.Subset.trans hxy.hubEvents hyz.hubEvents
  hubRequests := List.Subset.trans hxy.hubRequests hyz.hubRequests
  stakeRequests := List.Subset.trans hxy.stakeRequests hyz.stakeRequests
  hubQueries query hquery := by
    rcases hyz.hubQueries query hquery with hold | hnew
    · exact hxy.hubQueries query hold
    · exact Or.inr (hxy.lastScannedBlock ▸ hnew)
  stakeQueries query hquery := by
    rcases hyz.stakeQueries query hquery with hold | hnew
    · exact hxy.stakeQueries query hold
    · exact Or.inr (hxy.lastScannedBlock ▸ hnew)

theorem ScanState.stays_afterStakeScan (hubEvents stakeEventsSinceLastScan : List TypedEvent) :
    x.Stays (x.afterStakeScan server round hubEvents stakeEventsSinceLastScan) :=
  .noted hubEvents stakeEventsSinceLastScan _

theorem ScanState.moves_of_scans {hubEvents stakeEventsSinceLastScan : List TypedEvent}
    (hnew : x.lastScannedBlock < round.blockNumber)
    (hhub : server.scanSince round.hubScan x defaultManagerEvents = .ok hubEvents)
    (hstake : server.scanSince round.stakeScan (x.afterHubScan server round hubEvents)
      stakeEvents = .ok stakeEventsSinceLastScan) :
    x.Moves server round { (x.afterHubScan server round hubEvents).afterStakeScan server round
      (sortLatestFirst hubEvents) stakeEventsSinceLastScan with
        lastScannedBlock := round.blockNumber } :=
  ⟨hnew, hubEvents, stakeEventsSinceLastScan, hhub, hstake, rfl⟩

@[local spec] theorem handleChanges_spec (hnew : x.lastScannedBlock < round.blockNumber) :
    ⦃fun state => ⌜state.scan = x⌝⦄ handleChanges server round round.blockNumber
    ⦃post⟨fun _ state => ⌜x.Moves server round state.scan⌝,
      fun _ state => ⌜x.Stays state.scan ∨ x.Moves server round state.scan⌝⟩⦄ := by
  mvcgen [handleChanges] with grind [ScanState.Stays.refl, ScanState.Stays.trans,
    ScanState.stays_afterHubScan, ScanState.stays_afterStakeScan, ScanState.moves_of_scans]

/-- A round leaves the cursor where it is or moves it after both scans, however it ends. -/
@[local spec] theorem worker_spec :
    ⦃fun state => ⌜state.scan = x⌝⦄ worker server round
    ⦃post⟨fun _ state => ⌜x.Stays state.scan ∨ x.Moves server round state.scan⌝,
      fun _ state => ⌜x.Stays state.scan ∨ x.Moves server round state.scan⌝⟩⦄ := by
  mvcgen [worker, setReadyState] with grind [ScanState.Stays.refl]

theorem intervalHandler_spec :
    ⦃fun state => ⌜state.scan = x⌝⦄ intervalHandler server round
    ⦃post⟨fun _ state => ⌜x.Stays state.scan ∨ x.Moves server round state.scan⌝,
      fun _ state => ⌜x.Stays state.scan ∨ x.Moves server round state.scan⌝⟩⦄ := by
  mvcgen [intervalHandler, startRound, workerSemaphore] with grind [ScanState.Stays.refl]

end KeepsScan

def Round.isAnswered (server : RelayServer) (round : Round) (lastScannedBlock : ℕ) : Bool :=
  RifRelayServer.isAnswered server.dependencies.config server.relayHubAddress round.hubScan
      server.managerAddress (.since lastScannedBlock) defaultManagerEvents &&
    RifRelayServer.isAnswered server.dependencies.config server.relayHubAddress round.stakeScan
      server.managerAddress (.since lastScannedBlock) stakeEvents

def ScansAnswered (server : RelayServer) (state : WorkerState) : WorkerEvent → Prop
  | .tick round =>
      (Keeping.final (intervalHandler server round) state).scan.lastScannedBlock ≠
          state.scan.lastScannedBlock →
        round.isAnswered server state.scan.lastScannedBlock = true
  | _ => True

/-- The scans are answered from the chain, which has got to the block of the tick. -/
def WorkerEvent.Follows (chain : Chain) : WorkerEvent → Prop
  | .tick round =>
      round.hubScan.Follows chain round.blockNumber ∧
        round.stakeScan.Follows chain round.blockNumber
  | _ => True

def RelayServer.IsOwn (server : RelayServer) (log : TypedEvent) : Prop :=
  isSameAddress log.address server.relayHubAddress = true ∧
    isSameAddress log.manager server.managerAddress = true

/-- Stake events and added workers are handed over, and what the hub scan asks for
is returned to the round. -/
structure ScanState.Delivers (scan : ScanState) (log : TypedEvent) : Prop where
  handed : log.event ∈ ManagerEvent.relayWorkersAdded :: stakeEvents → log ∈ scan.handed
  hubEvents : log.event ∈ defaultManagerEvents → log ∈ scan.hubEvents

/-- Nothing is missing of the blocks up to the cursor. -/
structure NoEventLost (server : RelayServer) (chain : Chain) (scan : ScanState) : Prop where
  delivered : ∀ b, server.dependencies.config.initialBlockToScan < b → b ≤ scan.lastScannedBlock →
    ∀ log ∈ chain.logs b, server.IsOwn log → scan.Delivers log
  hubFetched : ∀ b, server.dependencies.config.initialBlockToScan < b →
    b ≤ scan.lastScannedBlock → ∃ filter ∈ scan.hubRequests, filter.Covers b
  stakeFetched : ∀ b, server.dependencies.config.initialBlockToScan < b →
    b ≤ scan.lastScannedBlock → ∃ filter ∈ scan.stakeRequests, filter.Covers b

section Run

variable {server : RelayServer} {chain : Chain} {x y : ScanState} {round : Round}

theorem ScanState.Extends.delivers (h : x.Extends y) {log : TypedEvent} (hlog : x.Delivers log) :
    y.Delivers log where
  handed hevent := h.handed (hlog.handed hevent)
  hubEvents hevent := h.hubEvents (hlog.hubEvents hevent)

theorem mem_sortLatestFirst {events : List TypedEvent} {log : TypedEvent} :
    log ∈ sortLatestFirst events ↔ log ∈ events :=
  List.mem_insertionSort _

theorem ScanState.stays_afterScans (server : RelayServer) (round : Round) (x : ScanState)
    (hubEvents stakeEventsSinceLastScan : List TypedEvent) :
    x.Stays ((x.afterHubScan server round hubEvents).afterStakeScan server round
      (sortLatestFirst hubEvents) stakeEventsSinceLastScan) :=
  (ScanState.stays_afterHubScan hubEvents).trans
    (ScanState.stays_afterStakeScan (sortLatestFirst hubEvents) stakeEventsSinceLastScan)

theorem ScanState.extends_afterScans (server : RelayServer) (round : Round) (x : ScanState)
    (hubEvents stakeEventsSinceLastScan : List TypedEvent) (currentBlockNumber : ℕ) :
    x.Extends { (x.afterHubScan server round hubEvents).afterStakeScan server round
      (sortLatestFirst hubEvents) stakeEventsSinceLastScan with
        lastScannedBlock := currentBlockNumber } :=
  have h := x.stays_afterScans server round hubEvents stakeEventsSinceLastScan
  ⟨h.handed, h.hubEvents, h.hubRequests, h.stakeRequests⟩

theorem NoEventLost.of_stays (h : NoEventLost server chain x) (hstays : x.Stays y) :
    NoEventLost server chain y where
  delivered b hafter hle log hlog hown :=
    hstays.delivers (h.delivered b hafter (hstays.lastScannedBlock ▸ hle) log hlog hown)
  hubFetched b hafter hle := by
    obtain ⟨filter, hmem, hcovers⟩ := h.hubFetched b hafter (hstays.lastScannedBlock ▸ hle)
    exact ⟨filter, hstays.hubRequests hmem, hcovers⟩
  stakeFetched b hafter hle := by
    obtain ⟨filter, hmem, hcovers⟩ := h.stakeFetched b hafter (hstays.lastScannedBlock ▸ hle)
    exact ⟨filter, hstays.stakeRequests hmem, hcovers⟩

/-- The blocks the cursor moves over are in requests that were answered, so their
events are among those the two scans got. -/
theorem NoEventLost.of_moves (h : NoEventLost server chain x)
    (hfollows : (WorkerEvent.tick round).Follows chain)
    (hanswered : round.isAnswered server x.lastScannedBlock = true)
    (hmoves : x.Moves server round y) : NoEventLost server chain y := by
  obtain ⟨-, hubEvents, stakeEventsSinceLastScan, hhub, hstake, rfl⟩ := hmoves
  have hextends := x.extends_afterScans server round hubEvents stakeEventsSinceLastScan
    round.blockNumber
  obtain ⟨hhubAnswered, hstakeAnswered⟩ := Bool.and_eq_true_iff.mp hanswered
  have hhubScan {b : ℕ} (hafter : x.lastScannedBlock < b) (hle : b ≤ round.blockNumber) :=
    scan_complete hfollows.1 hhubAnswered hhub hafter hle
  have hstakeScan {b : ℕ} (hafter : x.lastScannedBlock < b) (hle : b ≤ round.blockNumber) :=
    scan_complete hfollows.2 hstakeAnswered hstake hafter hle
  constructor
  case delivered =>
    intro b hstart hle log hlog hown
    rcases le_or_gt b x.lastScannedBlock with hbefore | hafter
    · exact hextends.delivers (h.delivered b hstart hbefore log hlog hown)
    · have hhubEvent (hevent : log.event ∈ defaultManagerEvents) : log ∈ hubEvents :=
        (hhubScan hafter hle).2 log hlog hown.1 hevent hown.2
      refine ⟨fun hevent => ?_, fun hevent => List.mem_append_right _ (hhubEvent hevent)⟩
      rcases List.mem_cons.mp hevent with hworker | hstakeEvent
      · have hdefault : log.event ∈ defaultManagerEvents := by rw [hworker]; decide
        exact List.mem_append_left _
          (List.mem_append_right _ (mem_sortLatestFirst.mpr (hhubEvent hdefault)))
      · exact List.mem_append_right _ ((hstakeScan hafter hle).2 log hlog hown.1 hstakeEvent hown.2)
  case hubFetched =>
    intro b hstart hle
    rcases le_or_gt b x.lastScannedBlock with hbefore | hafter
    · obtain ⟨filter, hmem, hcovers⟩ := h.hubFetched b hstart hbefore
      exact ⟨filter, hextends.hubRequests hmem, hcovers⟩
    · obtain ⟨filter, hmem, hcovers⟩ := (hhubScan hafter hle).1
      exact ⟨filter, List.mem_append_right _ hmem, hcovers⟩
  case stakeFetched =>
    intro b hstart hle
    rcases le_or_gt b x.lastScannedBlock with hbefore | hafter
    · obtain ⟨filter, hmem, hcovers⟩ := h.stakeFetched b hstart hbefore
      exact ⟨filter, hextends.stakeRequests hmem, hcovers⟩
    · obtain ⟨filter, hmem, hcovers⟩ := (hstakeScan hafter hle).1
      exact ⟨filter, List.mem_append_right _ hmem, hcovers⟩

theorem scan_of_workerStep {state state' : WorkerState} {event : WorkerEvent}
    (hstep : workerStep server state event = some state') :
    state.scan.Stays state'.scan ∨
      ∃ round, event = .tick round ∧ state.scan.Moves server round state'.scan := by
  cases event with
  | tick round =>
      obtain rfl := Option.some.inj hstep
      exact (final_post intervalHandler_spec rfl).imp_right fun hmoves => ⟨round, rfl, hmoves⟩
  | _ =>
      have hview := roundView_of_workerStep hstep (by simp)
      rw [(WorkerState.eq_of_roundView hview).1]
      exact Or.inl (ScanState.Stays.refl _)

theorem noEventLost_of_workerStep {state state' : WorkerState} {event : WorkerEvent}
    (h : NoEventLost server chain state.scan) (hfollows : event.Follows chain)
    (hanswered : ScansAnswered server state event)
    (hstep : workerStep server state event = some state') :
    NoEventLost server chain state'.scan := by
  rcases scan_of_workerStep hstep with hstays | ⟨round, rfl, hmoves⟩
  · exact h.of_stays hstays
  · refine h.of_moves hfollows (hanswered ?_) hmoves
    obtain rfl := Option.some.inj hstep
    obtain ⟨hnew, _, _, -, -, hscan⟩ := hmoves
    have hlast : (Keeping.final (intervalHandler server round) state).scan.lastScannedBlock =
        round.blockNumber := congrArg ScanState.lastScannedBlock hscan
    omega

/-- Nothing is lost in a run in which the scans that move the cursor are answered. -/
theorem no_event_lost {txStore : TxStore} {events : List WorkerEvent} {state : WorkerState}
    (hfollows : ∀ event ∈ events, event.Follows chain)
    (hanswered : Along (workerStep server) (ScansAnswered server)
      (.constructed server.dependencies.config txStore) events)
    (hrun : run (workerStep server) (.constructed server.dependencies.config txStore) events =
      some state) : NoEventLost server chain state.scan := by
  have hfollowing : Along (workerStep server) (fun _ event => event.Follows chain)
      (.constructed server.dependencies.config txStore) events :=
    along_of_forall fun event hevent _ => hfollows event hevent
  refine invariant_of_along (I := fun state => NoEventLost server chain state.scan)
    (fun state event state' h hallowed hstep =>
      noEventLost_of_workerStep h hallowed.1 hallowed.2 hstep) ?_ (hfollowing.and hanswered) hrun
  constructor <;> exact fun b hafter hle => absurd (hafter.trans_le hle) (lt_irrefl _)

end Run

def sampleHub : Address := "0xAd525463961399793f8716b0D85133ff7503a7C2"

def sampleStakingServer : RelayServer where
  dependencies := sampleDependencies
  customReplenish := false
  relayHubAddress := sampleHub

/-- The owner stakes for the manager in block 3. -/
def sampleStakeAdded : TypedEvent where
  address := sampleHub
  event := .stakeAdded
  manager := sampleManager
  withdrawBlock := 0
  blockNumber := 3
  transactionIndex := 0
  logIndex := 0

def stakedChain : Chain where
  logs n := if n = 3 then [sampleStakeAdded] else []
  blockNumber_eq _ _ h := blockNumber_of_mem_ite h rfl fun h => absurd h List.not_mem_nil

/-- A node at block 6 that answers what it is asked. -/
def answering : LogProvider where
  getBlockNumber := .ok 6
  getLogs filter _ := .ok (stakedChain.getLogs filter 6)

def failing : LogProvider where
  getBlockNumber := .ok 6
  getLogs _ _ := .error "timeout"

def sampleMoment : Moment where
  provider := sampleProvider
  getBalance _ := .ok 1000
  getStakeInfo := .ok ⟨5, 0, sampleWorker⟩
  getRelayInfo := .ok ⟨true, sampleManager, false, ""⟩
  populateTransaction := .ok "0x"
  estimateGas := .error "timeout"
  getCode := .ok "0x6080"
  getNetwork := .ok ()
  asyncFind := .ok ()
  otherCalls := []

/-- A round at block 6 with the given answers to its scans. -/
def sampleRound (scan : LogProvider) : Round where
  blockNumber := 6
  workersAddedScan := answering
  hubScan := scan
  activeScan := answering
  stakeScan := scan
  moments _ := sampleMoment

theorem answering_follows : answering.Follows stakedChain 6 where
  getBlockNumber _ h := (Except.ok.inj h).le
  getLogs _ _ _ h := ⟨6, le_rfl, fun _ hn => (Except.ok.inj hn).ge, (Except.ok.inj h).symm⟩

theorem failing_follows : failing.Follows stakedChain 6 where
  getBlockNumber _ h := (Except.ok.inj h).le
  getLogs _ _ _ h := nomatch h

def stateAfterTick (scan : LogProvider) : WorkerState :=
  Keeping.final (intervalHandler sampleStakingServer (sampleRound scan))
    (.constructed sampleDependencies.config TxStore.empty)

theorem no_event_lost_answering :
    (stateAfterTick answering).scan.lastScannedBlock = 6 ∧
      NoEventLost sampleStakingServer stakedChain (stateAfterTick answering).scan :=
  ⟨by decide +kernel,
    @no_event_lost sampleStakingServer stakedChain TxStore.empty [.tick (sampleRound answering)]
      (stateAfterTick answering)
      (fun _ h => List.mem_singleton.mp h ▸ ⟨answering_follows, answering_follows⟩)
      ⟨fun _ => by decide +kernel, fun _ _ => trivial⟩ rfl⟩

/-- The event of the stake is lost to a round whose requests for logs all fail. -/
theorem stake_event_lost :
    ¬ ∀ (server : RelayServer) (chain : Chain) (txStore : TxStore) (events : List WorkerEvent)
        (state : WorkerState), (∀ event ∈ events, event.Follows chain) →
      run (workerStep server) (.constructed server.dependencies.config txStore) events =
        some state → NoEventLost server chain state.scan := by
  intro h
  have hlost := h sampleStakingServer stakedChain TxStore.empty [.tick (sampleRound failing)]
    (stateAfterTick failing)
    (fun _ h => List.mem_singleton.mp h ▸ ⟨failing_follows, failing_follows⟩) rfl
  have hcursor : (stateAfterTick failing).scan.lastScannedBlock = 6 := by decide +kernel
  have hhanded : (stateAfterTick failing).scan.handed = [] := by decide +kernel
  have hdelivered := hlost.delivered 3 (by decide) (by omega) sampleStakeAdded
    List.mem_cons_self ⟨by decide +kernel, by decide +kernel⟩
  have hmem := hdelivered.handed (by decide)
  rw [hhanded] at hmem
  cases hmem

end RifRelayServer
