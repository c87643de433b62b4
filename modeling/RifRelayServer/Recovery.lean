import RifRelayServer.AlertedRounds

/-!
# Ready again

What stands in the way of readiness passes: while the hub holds the stake and the
registration and the accounts are funded, as many rounds as the configuration asks for
make a server ready again that is initialized and has read from the hub a stake that is
locked and large enough. The stake is read when one of its events is handled, so a server
that is restarted after them does not learn it from rounds without one.
-/

namespace RifRelayServer

open Std.Do Keeping Runs

set_option mvcgen.warning false

/-- Whenever the round is answered, the stake is held and locked, the server is registered
and both accounts have what they need. -/
structure Round.Favourable (server : RelayServer) (round : Round) : Prop where
  managerBalance : ∀ n balance, (round.moments n).getBalance server.managerAddress = .ok balance →
    server.dependencies.config.managerMinBalance ≤ balance
  workerBalance : ∀ n balance, (round.moments n).getBalance server.workerAddress = .ok balance →
    server.dependencies.config.workerMinBalance ≤ balance
  stakeInfo : ∀ n stakeInfo, (round.moments n).getStakeInfo = .ok stakeInfo →
    server.dependencies.config.managerMinStake ≤ stakeInfo.stake ∧ stakeInfo.withdrawBlock = 0
  relayInfo : ∀ n relayData, (round.moments n).getRelayInfo = .ok relayData →
    server.isRegistrationValid (some relayData) = true

/-- What the readiness of a server that is registered rests on. -/
structure Standing where
  initialized : Bool
  lastSuccessfulRounds : ℕ
  balanceRequired : AmountRequired
  stakeRequired : AmountRequired
  isStakeLocked : Bool

def WorkerState.standing (state : WorkerState) : Standing where
  initialized := state.initialized
  lastSuccessfulRounds := state.lastSuccessfulRounds
  balanceRequired := state.registrationManager.balanceRequired
  stakeRequired := state.registrationManager.stakeRequired
  isStakeLocked := state.registrationManager.isStakeLocked

/-- The server is initialized, has counted the rounds and has read a stake that is locked and
large enough. -/
@[grind] structure Standing.Staked (server : RelayServer) (rounds : ℕ) (standing : Standing) :
    Prop where
  initialized : standing.initialized = true
  lastSuccessfulRounds : standing.lastSuccessfulRounds = rounds
  balanceRequired :
    standing.balanceRequired.requiredValue = server.dependencies.config.managerMinBalance
  stakeRequired : standing.stakeRequired.requiredValue = server.dependencies.config.managerMinStake
  isSatisfied : standing.stakeRequired.isSatisfied = true
  isStakeLocked : standing.isStakeLocked = true

section Staked

variable {server : RelayServer} {round : Round} {x : Standing}

abbrev KeepsStanding {α : Type} (x : Standing) (program : RoundM α) : Prop :=
  Keeps (fun state => state.standing = x) program

@[grind →] theorem WorkerState.standing_of_apart {s t : WorkerState} (h : s.apart = t.apart) :
    s.standing = t.standing := by
  have heq := WorkerState.eq_of_apart h
  simp only [standing, heq]

@[grind →] theorem WorkerState.standing_of_besideFunds {s t : WorkerState}
    (h : s.besideFunds = t.besideFunds) : s.standing = t.standing := by
  have heq := WorkerState.eq_of_besideFunds h
  simp only [standing, heq]

theorem receive_standing {α : Type} {answer : Moment → Except String α} :
    ⦃fun state => ⌜state.standing = x⌝⦄ receive server round answer
    ⦃post⟨fun a state => ⌜state.standing = x ∧ ∃ n, answer (round.moments n) = .ok a⌝,
      fun _ state => ⌜state.standing = x⌝⟩⦄ := by
  mvcgen [-receive_keepsApart, -awaited_keepsApart, receive, awaited] with grind [WorkerState.standing]

@[local spec] theorem updateLatestTxBlockNumber_keepsStanding {events : List TypedEvent} :
    KeepsStanding x (updateLatestTxBlockNumber server round events) := by
  mvcgen [updateLatestTxBlockNumber, queryLatestActiveEvent] with grind [WorkerState.standing]

@[local spec] theorem getAllHubEventsSinceLastScan_keepsStanding :
    KeepsStanding x (getAllHubEventsSinceLastScan server round) := by
  mvcgen [getAllHubEventsSinceLastScan, noteHubScan] with grind [WorkerState.standing]

@[local spec] theorem refreshGasPrice_keepsStanding : KeepsStanding x (refreshGasPrice server round) := by
  mvcgen [refreshGasPrice] with grind [WorkerState.standing]

/-- What a round reads of the stake shows it as it is. -/
theorem refreshStake_staked (rounds : ℕ) (hfavourable : round.Favourable server) :
    ⦃fun state => ⌜state.standing.Staked server rounds⌝⦄ refreshStake server round
    ⦃post⟨fun _ state => ⌜state.standing.Staked server rounds⌝, fun _ _ => ⌜True⌝⟩⦄ := by
  mvcgen [-receive_keepsApart, refreshStake, receive_standing, noteStakeRead,
    updateRegistrationManager] with grind [WorkerState.standing, RegistrationManager.setStake,
      AmountRequired.isSatisfied, Round.Favourable]

theorem updateRegistrationManager_keepsStanding {update : RegistrationManager → RegistrationManager}
    (h : ∀ manager, (update manager).balanceRequired = manager.balanceRequired ∧
      (update manager).stakeRequired = manager.stakeRequired ∧
      (update manager).isStakeLocked = manager.isStakeLocked) :
    KeepsStanding x (updateRegistrationManager update) := by
  mvcgen [updateRegistrationManager] with grind [WorkerState.standing]

theorem handleStakeEvent_staked (rounds : ℕ) (hfavourable : round.Favourable server)
    (currentBlock : ℕ) (eventData : TypedEvent) :
    ⦃fun state => ⌜state.standing.Staked server rounds⌝⦄
    handleStakeEvent server round currentBlock eventData
    ⦃post⟨fun _ state => ⌜state.standing.Staked server rounds⌝, fun _ _ => ⌜True⌝⟩⦄ := by
  have hrefresh := refreshStake_staked rounds hfavourable
  mvcgen [handleStakeEvent, noteActed, handleStakeWithdrawnEvent, hrefresh,
    updateRegistrationManager_keepsStanding] with grind [WorkerState.standing]

/-- A loop over events leads where its body does. -/
theorem handleEach_leads {I : WorkerState → Prop} {handle : TypedEvent → RoundM (List Hash)}
    (hhandle : ∀ eventData, ⦃fun state => ⌜I state⌝⦄ handle eventData
      ⦃post⟨fun _ state => ⌜I state⌝, fun _ _ => ⌜True⌝⟩⦄) (events : List TypedEvent) :
    ⦃fun state => ⌜I state⌝⦄ handleEach handle events
    ⦃post⟨fun _ state => ⌜I state⌝, fun _ _ => ⌜True⌝⟩⦄ := by
  induction events with
  | nil => mvcgen [handleEach]
  | cons eventData events ih => mvcgen [handleEach, hhandle, ih]

/-- Once the past events are handled, the server finds itself registered. -/
theorem handlePastEvents_staked (rounds : ℕ) (hfavourable : round.Favourable server)
    (hubEvents : List TypedEvent) (lastScannedBlock currentBlock : ℕ) (forceRegistration : Bool) :
    ⦃fun state => ⌜state.standing.Staked server rounds⌝⦄
    handlePastEvents server round hubEvents lastScannedBlock currentBlock forceRegistration
    ⦃post⟨fun _ state => ⌜state.standing.Staked server rounds ∧
        server.isRegistrationValid state.registrationManager.relayData = true⌝,
      fun _ _ => ⌜True⌝⟩⦄ := by
  have hevents := handleEach_leads (handleStakeEvent_staked rounds hfavourable currentBlock)
  mvcgen [-receive_keepsApart, handlePastEvents, noteHanded, fetchStakeEvents, noteStakeScan,
    extractDuePendingEvents, hevents, receive_standing, updateRegistrationManager]
    with grind [WorkerState.standing, Round.Favourable]

/-- A server that knows its stake and its registration. -/
def WorkerState.Settled (server : RelayServer) (rounds : ℕ) (state : WorkerState) : Prop :=
  state.standing.Staked server rounds ∧
    server.isRegistrationValid state.registrationManager.relayData = true

theorem replenishStrategy_settled (rounds currentBlock : ℕ) :
    Keeps (fun state => state.Settled server rounds)
      (replenishStrategy server round currentBlock) := by
  mvcgen [replenishStrategy, setWorkerBalance]
    with grind [WorkerState.Settled, WorkerState.standing, WorkerState.eq_of_apart]

theorem finishRound_ready (rounds : ℕ) (hfavourable : round.Favourable server)
    (currentBlockNumber : ℕ) (hubEvents : List TypedEvent) (transactionHashes : List Hash) :
    ⦃fun state => ⌜state.Settled server rounds⌝⦄
    finishRound server round currentBlockNumber hubEvents transactionHashes
    ⦃post⟨fun _ state => ⌜state.standing.Staked server rounds ∧ state.ready = true⌝,
      fun _ _ => ⌜True⌝⟩⦄ := by
  have hreplenish := @replenishStrategy_settled server round rounds currentBlockNumber
  mvcgen [-receive_keepsApart, finishRound, setReadyState, handlePastHubEvents, leaveAlertedState,
    hreplenish, receive_standing]
    with grind [foldl_handlePastHubEvent, WorkerState.Settled, WorkerState.standing,
      RegistrationManager.isRegistered, Round.Favourable]

theorem handleChanges_ready (rounds : ℕ) (hfavourable : round.Favourable server)
    (currentBlockNumber : ℕ) :
    ⦃fun state => ⌜state.standing.Staked server rounds⌝⦄
    handleChanges server round currentBlockNumber
    ⦃post⟨fun _ state => ⌜state.standing.Staked server rounds ∧ state.ready = true⌝,
      fun _ _ => ⌜True⌝⟩⦄ := by
  have hpast := handlePastEvents_staked rounds hfavourable
  have hfinish := finishRound_ready rounds hfavourable currentBlockNumber
  mvcgen [handleChanges, moveCursor, hpast, hfinish]
    with grind [WorkerState.Settled, WorkerState.standing]

theorem refreshBalance_satisfied (rounds : ℕ) (hfavourable : round.Favourable server) :
    ⦃fun state => ⌜state.standing.Staked server rounds⌝⦄ refreshBalance server round
    ⦃post⟨fun _ state => ⌜state.standing.Staked server rounds ∧
        state.registrationManager.balanceRequired.isSatisfied = true⌝, fun _ _ => ⌜True⌝⟩⦄ := by
  mvcgen [-receive_keepsApart, refreshBalance, receive_standing, updateRegistrationManager]
    with grind [WorkerState.standing, RegistrationManager.setBalance, AmountRequired.isSatisfied,
      Round.Favourable]

/-- A round that does not look at the hub is one of a server that is ready. -/
theorem worker_ready (rounds : ℕ) (hfavourable : round.Favourable server) :
    ⦃fun state => ⌜state.standing.Staked server rounds⌝⦄ worker server round
    ⦃post⟨fun _ state => ⌜state.standing.Staked server rounds ∧ state.ready = true⌝,
      fun _ _ => ⌜True⌝⟩⦄ := by
  have hbalance := refreshBalance_satisfied rounds hfavourable
  have hchanges := handleChanges_ready rounds hfavourable round.blockNumber
  mvcgen [worker, setReadyState, hbalance, hchanges]
    with grind [WorkerState.standing, WorkerState.shouldRefreshState, WorkerState.isReady]

theorem intervalHandler_ready (rounds : ℕ) (hfavourable : round.Favourable server) :
    ⦃fun state => ⌜state.standing.Staked server rounds ∧
        state.scan.lastScannedBlock < round.blockNumber⌝⦄
    intervalHandler server round
    ⦃post⟨fun _ state => ⌜state.standing.Staked server (nextSuccessfulRound rounds) ∧
        state.ready = true⌝, fun _ _ => ⌜True⌝⟩⦄ := by
  have hworker := worker_ready rounds hfavourable
  mvcgen [intervalHandler, startRound, workerSemaphore, hworker] with grind [WorkerState.standing]

end Staked

def WorkerEvent.isTick : WorkerEvent → Bool
  | .tick _ => true
  | _ => false

/-- Each tick finds a new block and completes its round, and nothing else concerns the rounds. -/
def WorkerEvent.Recovers (server : RelayServer) (state : WorkerState) : WorkerEvent → Prop
  | .tick round => round.Favourable server ∧ round.completes server state = true
  | .managerCall _ => True
  | .init _ | .blockUnavailable | .timedOut => False

section Run

variable {server : RelayServer} {rounds : ℕ} {state state' : WorkerState}

theorem tick_recovers {round : Round} (hstaked : state.standing.Staked server rounds)
    (hrecovers : (WorkerEvent.tick round).Recovers server state)
    (hstep : workerStep server state (.tick round) = some state') :
    state'.standing.Staked server (nextSuccessfulRound rounds) ∧ state'.ready = true := by
  obtain ⟨hfavourable, hcompletes⟩ := hrecovers
  rw [Round.completes, Bool.and_eq_true, decide_eq_true_eq] at hcompletes
  obtain rfl := Option.some.inj hstep
  exact final_of_returns (intervalHandler_ready rounds hfavourable) ⟨hstaked, hcompletes.1⟩
    hcompletes.2

/-- Each tick counts, and the server is found ready from the first one on. -/
theorem run_recovers {events : List WorkerEvent} (hstaked : state.standing.Staked server rounds)
    (hrecovers : Along (workerStep server) (WorkerEvent.Recovers server) state events)
    (hrun : run (workerStep server) state events = some state') :
    state'.standing.Staked server (nextSuccessfulRound^[events.countP (·.isTick)] rounds) ∧
      (state.ready = true ∨ 0 < events.countP (·.isTick) → state'.ready = true) := by
  induction events generalizing state rounds with
  | nil =>
      obtain rfl := Option.some.inj hrun
      exact ⟨hstaked, fun h => h.resolve_right (lt_irrefl 0)⟩
  | cons event events ih =>
      obtain ⟨s, hs, hrest⟩ := run_cons_eq_some_iff.mp hrun
      cases event with
      | tick round =>
          obtain ⟨hnext, hready⟩ := tick_recovers hstaked hrecovers.1 hs
          obtain ⟨hlater, hstays⟩ := ih hnext (hrecovers.2 s hs) hrest
          rw [List.countP_cons_of_pos rfl, Function.iterate_succ_apply]
          exact ⟨hlater, fun _ => hstays (Or.inl hready)⟩
      | managerCall call =>
          have hsame : s.standing = state.standing ∧ s.ready = state.ready := by
            obtain rfl := Option.some.inj hs
            exact ⟨rfl, rfl⟩
          have hsettled : s.standing.Staked server rounds := hsame.1 ▸ hstaked
          obtain ⟨hlater, hstays⟩ := ih hsettled (hrecovers.2 s hs) hrest
          rw [List.countP_cons_of_neg (by simp [WorkerEvent.isTick])]
          exact ⟨hlater, fun h => hstays (h.imp_left hsame.2.trans)⟩
      | init round => exact hrecovers.1.elim
      | blockUnavailable => exact hrecovers.1.elim
      | timedOut => exact hrecovers.1.elim

theorem iterate_nextSuccessfulRound (n : ℕ) :
    nextSuccessfulRound^[n + 1] rounds = min (rounds + (n + 1)) (2 ^ 53) := by
  induction n generalizing rounds with
  | zero => rfl
  | succ n ih =>
      rw [Function.iterate_succ_apply, ih, nextSuccessfulRound]
      omega

/-- While the hub and the accounts stay as they should be and each tick completes its round, a
server that knows its stake is ready, once a tick has passed, exactly from the round on that makes
up the number the configuration asks for. -/
theorem ready_again_iff {events : List WorkerEvent} (hstaked : state.standing.Staked server rounds)
    (hrecovers : Along (workerStep server) (WorkerEvent.Recovers server) state events)
    (hrun : run (workerStep server) state events = some state')
    (htick : 0 < events.countP (·.isTick)) :
    state'.isReady server = true ↔ server.dependencies.config.successfulRoundsForReady ≤
      min (rounds + events.countP (·.isTick)) (2 ^ 53) := by
  obtain ⟨hlater, hready⟩ := run_recovers hstaked hrecovers hrun
  obtain ⟨n, hn⟩ := Nat.exists_eq_add_of_lt htick
  rw [Nat.zero_add] at hn
  have hcounted : state'.lastSuccessfulRounds =
      min (rounds + events.countP (·.isTick)) (2 ^ 53) := by
    rw [hn, ← iterate_nextSuccessfulRound n, ← hn]
    exact hlater.lastSuccessfulRounds
  rw [WorkerState.isReady, hcounted, hready (Or.inr htick)]
  split
  · simp only [Bool.false_eq_true, false_iff]
    omega
  · simp only [true_iff]
    omega

/-- The first round goes well, and the next tick times out. -/
def timedOutStaking : WorkerState :=
  constructedStaking.after sampleStakingServer [.tick (revertedRound 0), .timedOut]

def registeredRound (blockNumber : ℕ) : Round := { revertedRound 0 with blockNumber }

theorem favourable_registeredRound (blockNumber : ℕ) :
    (registeredRound blockNumber).Favourable sampleStakingServer := by
  constructor
  · intro n balance h
    cases h
    decide
  · intro n balance h
    cases h
    decide
  · intro n stakeInfo h
    cases h
    decide
  · intro n relayData h
    cases h
    decide

def registeredRounds : List WorkerEvent :=
  [.tick (registeredRound 7), .tick (registeredRound 8), .tick (registeredRound 9)]

theorem recovers_registeredRounds : Along (workerStep sampleStakingServer)
    (WorkerEvent.Recovers sampleStakingServer) timedOutStaking registeredRounds := by
  refine ⟨⟨favourable_registeredRound 7, by decide +kernel⟩, ?_⟩
  rintro s hs
  obtain rfl := Option.some.inj hs
  refine ⟨⟨favourable_registeredRound 8, by decide +kernel⟩, ?_⟩
  rintro s hs
  obtain rfl := Option.some.inj hs
  exact ⟨⟨favourable_registeredRound 9, by decide +kernel⟩, fun _ _ => trivial⟩

theorem ready_again_iff_timedOutStaking :
    timedOutStaking.isReady sampleStakingServer = false ∧
      (timedOutStaking.after sampleStakingServer (registeredRounds.take 2)).isReady
        sampleStakingServer = false ∧
      (timedOutStaking.after sampleStakingServer registeredRounds).isReady
        sampleStakingServer = true := by
  have hstaked : timedOutStaking.standing.Staked sampleStakingServer 0 := by
    constructor <;> decide +kernel
  exact ⟨by decide +kernel, by decide +kernel, (ready_again_iff hstaked recovers_registeredRounds
    (run_workerStep _ _ _) (by decide)).mpr (by decide)⟩

end Run

end RifRelayServer
