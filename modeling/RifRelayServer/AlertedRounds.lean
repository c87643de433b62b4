import RifRelayServer.StakeHandling
import Mathlib

/-!
# The alerted state

A round that has fetched the event of a reverted relay alerts the server, once the
cursor has moved and if its manager is registered. A round that finds the manager
not registered returns before, and the event is not fetched again.
-/

namespace RifRelayServer

open Std.Do Keeping Runs

set_option mvcgen.warning false

/-- What the rounds read and write of the alerted state, with the cursor and the
hub events they fetched. -/
structure AlertView where
  alerted : Bool
  alertedBlock : ℕ
  lastScannedBlock : ℕ
  hubEvents : List TypedEvent

def WorkerState.alertView (state : WorkerState) : AlertView where
  alerted := state.alerted
  alertedBlock := state.alertedBlock
  lastScannedBlock := state.scan.lastScannedBlock
  hubEvents := state.scan.hubEvents

/-- The alerted state after the hub events of a round. -/
def AlertView.noting (currentBlockNumber : ℕ) (events : List TypedEvent) (x : AlertView) :
    AlertView :=
  if anyReverted events then { x with alerted := true, alertedBlock := currentBlockNumber } else x

def AlertView.leaving (server : RelayServer) (currentBlockNumber : ℕ) (x : AlertView) :
    AlertView :=
  if x.alerted ∧
      x.alertedBlock + server.dependencies.config.alertedBlockDelay < currentBlockNumber then
    { x with alerted := false }
  else x

/-- How a round returns that has moved the cursor. -/
def AlertView.Finishes (server : RelayServer) (currentBlockNumber : ℕ) (events : List TypedEvent)
    (registered : Bool) (x y : AlertView) : Prop :=
  if registered then
    y = x.noting currentBlockNumber events ∨
      y = (x.noting currentBlockNumber events).leaving server currentBlockNumber
  else y = x

/-- The cursor has moved, with the events that were fetched. -/
def AlertView.scanned (currentBlockNumber : ℕ) (events : List TypedEvent) (x : AlertView) :
    AlertView :=
  { x with
    lastScannedBlock := currentBlockNumber
    hubEvents := x.hubEvents ++ events }

/-- How a round returns that has fetched events. -/
def AlertView.Completes (server : RelayServer) (currentBlockNumber : ℕ) (registered : Bool)
    (x y : AlertView) : Prop :=
  ∃ events, (x.scanned currentBlockNumber events).Finishes server currentBlockNumber events
    registered y

/-- How a round throws. -/
def AlertView.Throws (currentBlockNumber : ℕ) (x y : AlertView) : Prop :=
  ∃ events, y = { x with hubEvents := x.hubEvents ++ events } ∨
    y = (x.scanned currentBlockNumber events).noting currentBlockNumber events

section Views

variable {server : RelayServer} {round : Round} {x : AlertView}

attribute [local spec] refreshGasPrice_keepsRoundView refreshBalance_keepsRoundView
  init_keepsRoundView updateLatestTxBlockNumber_sorts handleStakeEvents_keepBesideActed

abbrev KeepsAlert {α : Type} (x : AlertView) (program : RoundM α) : Prop :=
  Keeps (fun state => state.alertView = x) program

@[local spec] theorem updateRegistrationManager_keepsAlert
    {update : RegistrationManager → RegistrationManager} :
    KeepsAlert x (updateRegistrationManager update) := by
  mvcgen [updateRegistrationManager]

@[local spec] theorem handlePastEvents_keepsAlert {hubEvents : List TypedEvent}
    {lastScannedBlock currentBlock : ℕ} {forceRegistration : Bool} :
    KeepsAlert x (handlePastEvents server round hubEvents lastScannedBlock currentBlock
      forceRegistration) := by
  mvcgen [handlePastEvents, noteHanded, fetchStakeEvents, noteStakeScan,
    extractDuePendingEvents] with grind [WorkerState.alertView]

@[local spec] theorem getAllHubEventsSinceLastScan_alertView :
    ⦃fun state => ⌜state.alertView = x⌝⦄ getAllHubEventsSinceLastScan server round
    ⦃post⟨fun events state => ⌜state.alertView = { x with hubEvents := x.hubEvents ++ events }⌝,
      fun _ state => ⌜state.alertView = x⌝⟩⦄ := by
  mvcgen [getAllHubEventsSinceLastScan, noteHubScan] with grind [WorkerState.alertView]

/-- The registration is looked at once the cursor has moved, and stays as it is after that. -/
def WorkerState.registeredView (state : WorkerState) : AlertView × RegistrationManager :=
  (state.alertView, state.registrationManager)

@[local spec] theorem replenishStrategy_keepsRegistered {currentBlock : ℕ}
    {x : AlertView × RegistrationManager} :
    Keeps (fun state => state.registeredView = x) (replenishStrategy server round currentBlock) := by
  mvcgen [replenishStrategy, setWorkerBalance]
    with grind [WorkerState.registeredView, WorkerState.alertView]

@[local spec] theorem finishRound_finishes {currentBlockNumber : ℕ} {events : List TypedEvent}
    {transactionHashes : List Hash} {x : AlertView × RegistrationManager} :
    ⦃fun state => ⌜state.registeredView = x⌝⦄
    finishRound server round currentBlockNumber events transactionHashes
    ⦃post⟨fun _ state => ⌜x.1.Finishes server currentBlockNumber events
        (state.registrationManager.isRegistered server) state.alertView⌝,
      fun _ state => ⌜state.alertView = x.1.noting currentBlockNumber events⌝⟩⦄ := by
  mvcgen [finishRound, setReadyState, handlePastHubEvents, leaveAlertedState]
    with grind [foldl_handlePastHubEvent, AlertView.Finishes, AlertView.noting,
      AlertView.leaving, WorkerState.registeredView, WorkerState.alertView]

theorem AlertView.noting_sortLatestFirst (currentBlockNumber : ℕ) (events : List TypedEvent) :
    x.noting currentBlockNumber (sortLatestFirst events) = x.noting currentBlockNumber events := by
  rw [noting, anyReverted_sortLatestFirst]
  rfl

theorem AlertView.completes_of_finishes {currentBlockNumber : ℕ} {events : List TypedEvent}
    {registered : Bool} {y : AlertView}
    (h : (x.scanned currentBlockNumber events).Finishes server currentBlockNumber
      (sortLatestFirst events) registered y) : x.Completes server currentBlockNumber registered y := by
  rw [Finishes, noting_sortLatestFirst] at h
  exact ⟨events, h⟩

theorem AlertView.throws_before_scan (currentBlockNumber : ℕ) : x.Throws currentBlockNumber x :=
  ⟨[], Or.inl (by rw [List.append_nil])⟩

theorem AlertView.throws_before_cursor (currentBlockNumber : ℕ) (events : List TypedEvent) :
    x.Throws currentBlockNumber { x with hubEvents := x.hubEvents ++ events } :=
  ⟨events, Or.inl rfl⟩

theorem AlertView.throws_after_cursor (currentBlockNumber : ℕ) (events : List TypedEvent) :
    x.Throws currentBlockNumber
      ((x.scanned currentBlockNumber events).noting currentBlockNumber (sortLatestFirst events)) :=
  ⟨events, Or.inr (noting_sortLatestFirst _ _)⟩

@[grind =] theorem AlertView.mk_eq_scanned (currentBlockNumber : ℕ) (events : List TypedEvent) :
    (⟨x.alerted, x.alertedBlock, currentBlockNumber, x.hubEvents ++ events⟩ : AlertView) =
      x.scanned currentBlockNumber events := rfl

@[local spec] theorem moveCursor_alertView {currentBlockNumber : ℕ} :
    ⦃fun state => ⌜state.alertView = x⌝⦄ moveCursor currentBlockNumber
    ⦃post⟨fun _ state => ⌜state.alertView = { x with lastScannedBlock := currentBlockNumber }⌝,
      fun _ _ => ⌜False⌝⟩⦄ := by
  mvcgen [moveCursor] with grind [WorkerState.alertView]

@[grind =] theorem WorkerState.registeredView_fst (state : WorkerState) :
    state.registeredView.1 = state.alertView := rfl

@[grind →] theorem WorkerState.alertView_of_apart {s t : WorkerState} (h : s.apart = t.apart) :
    s.alertView = t.alertView := by
  simp only [alertView, eq_of_apart h]

@[grind →] theorem WorkerState.alertView_of_roundView {s t : WorkerState}
    (h : s.roundView = t.roundView) : s.alertView = t.alertView := by
  simp only [alertView, eq_of_roundView h]

@[local spec] theorem handleChanges_completes {currentBlockNumber : ℕ} :
    ⦃fun state => ⌜state.alertView = x⌝⦄ handleChanges server round currentBlockNumber
    ⦃post⟨fun _ state => ⌜x.Completes server currentBlockNumber
        (state.registrationManager.isRegistered server) state.alertView⌝,
      fun _ state => ⌜x.Throws currentBlockNumber state.alertView⌝⟩⦄ := by
  mvcgen [handleChanges] with grind [AlertView.completes_of_finishes,
    AlertView.throws_before_scan, AlertView.throws_before_cursor, AlertView.throws_after_cursor]

/-- A round that gets past the block check looks at logs, or returns before. -/
@[local spec] theorem worker_completes :
    ⦃fun state => ⌜state.alertView = x⌝⦄ worker server round
    ⦃post⟨fun _ state => ⌜state.alertView = x ∨ x.lastScannedBlock < round.blockNumber ∧
        x.Completes server round.blockNumber (state.registrationManager.isRegistered server)
          state.alertView⌝,
      fun _ state => ⌜state.alertView = x ∨ x.lastScannedBlock < round.blockNumber ∧
        x.Throws round.blockNumber state.alertView⌝⟩⦄ := by
  mvcgen [worker, setReadyState] with grind [WorkerState.alertView]

theorem intervalHandler_completes :
    ⦃fun state => ⌜state.alertView = x⌝⦄ intervalHandler server round
    ⦃post⟨fun _ state => ⌜state.alertView = x ∨ x.lastScannedBlock < round.blockNumber ∧
        x.Completes server round.blockNumber (state.registrationManager.isRegistered server)
          state.alertView⌝,
      fun _ state => ⌜state.alertView = x ∨ x.lastScannedBlock < round.blockNumber ∧
        x.Throws round.blockNumber state.alertView⌝⟩⦄ := by
  mvcgen [intervalHandler, startRound, workerSemaphore] with grind [WorkerState.alertView]

end Views

/-- The tick goes through a round, and the round returns. -/
def Round.completes (server : RelayServer) (round : Round) (state : WorkerState) : Bool :=
  decide (state.scan.lastScannedBlock < round.blockNumber) &&
    returns (intervalHandler server round) state

def Round.hubEventsFetched (server : RelayServer) (round : Round) (state : WorkerState) :
    List TypedEvent :=
  (Keeping.final (intervalHandler server round) state).scan.hubEvents.drop
    state.scan.hubEvents.length

/-- The round completes and is one of those that fetched the event of a reverted relay. -/
def Round.completesReverted (server : RelayServer) (round : Round) (state : WorkerState) : Bool :=
  round.completes server state && anyReverted (round.hubEventsFetched server state)

/-- The noted block, unless the given one is more than the delay after it. -/
def RelayServer.withinDelay (server : RelayServer) (currentBlockNumber : ℕ) (since : Option ℕ) :
    Option ℕ :=
  since.filter fun block => decide
    ((currentBlockNumber : ℤ) ≤ block + server.dependencies.config.alertedBlockDelay)

theorem RelayServer.withinDelay_eq_some_iff {server : RelayServer} {currentBlockNumber block : ℕ}
    {since : Option ℕ} : server.withinDelay currentBlockNumber since = some block ↔
      since = some block ∧
        (currentBlockNumber : ℤ) ≤ block + server.dependencies.config.alertedBlockDelay := by
  rw [withinDelay, Option.filter_eq_some_iff, decide_eq_true_eq]

/-- The block of the last completed round that fetched the event of a reverted relay,
unless a completed round has come at a block more than the delay after it. -/
def alertedSince (server : RelayServer) (state : WorkerState) (since : Option ℕ) :
    WorkerEvent → Option ℕ
  | .tick round =>
      if round.completesReverted server state then some round.blockNumber
      else if round.completes server state then server.withinDelay round.blockNumber since
      else since
  | _ => since

/-- A completed round that fetched the event of a reverted relay finds the manager registered. -/
def RegisteredIfReverted (server : RelayServer) (state : WorkerState) : WorkerEvent → Prop
  | .tick round => round.completesReverted server state = true →
      (Keeping.final (intervalHandler server round) state).registrationManager.isRegistered
        server = true
  | _ => True

instance (server : RelayServer) (state : WorkerState) (event : WorkerEvent) :
    Decidable (RegisteredIfReverted server state event) :=
  match event with
  | .tick round => inferInstanceAs (Decidable (round.completesReverted server state = true →
      (Keeping.final (intervalHandler server round) state).registrationManager.isRegistered
        server = true))
  | .init _ | .blockUnavailable | .timedOut | .managerCall _ => isTrue trivial

/-- The server is alerted since the block noted, by a block that the cursor has reached. -/
structure AlertView.AlertedSince (x : AlertView) (since : Option ℕ) : Prop where
  alerted : ∀ block, since = some block → x.alerted = true ∧ block ≤ x.alertedBlock
  scanned : x.alertedBlock ≤ x.lastScannedBlock

namespace AlertView

variable {server : RelayServer} {x y : AlertView} {since : Option ℕ} {currentBlockNumber : ℕ}
  {events : List TypedEvent}

theorem AlertedSince.of_since (h : x.AlertedSince since) {since' : Option ℕ}
    (hsince : ∀ block, since' = some block → since = some block) : x.AlertedSince since' where
  alerted block hblock := h.alerted block (hsince block hblock)
  scanned := h.scanned

theorem AlertedSince.scans (h : x.AlertedSince since) (hnew : x.lastScannedBlock < currentBlockNumber)
    (events : List TypedEvent) : (x.scanned currentBlockNumber events).AlertedSince since where
  alerted := h.alerted
  scanned := h.scanned.trans hnew.le

theorem AlertedSince.notes (h : x.AlertedSince since)
    (hscanned : x.lastScannedBlock = currentBlockNumber) (events : List TypedEvent) :
    (x.noting currentBlockNumber events).AlertedSince since := by
  unfold noting
  split
  · refine ⟨fun block hblock => ⟨rfl, ?_⟩, hscanned.ge⟩
    exact (h.alerted block hblock).2.trans (h.scanned.trans hscanned.le)
  · exact h

theorem AlertedSince.throws (h : x.AlertedSince since) (hnew : x.lastScannedBlock < currentBlockNumber)
    (hthrows : x.Throws currentBlockNumber y) : y.AlertedSince since := by
  obtain ⟨events, rfl | rfl⟩ := hthrows
  · exact ⟨h.alerted, h.scanned⟩
  · exact (h.scans hnew events).notes rfl events

/-- The alerted state is left only at a block more than the delay after the one noted. -/
theorem AlertedSince.leaves (h : x.AlertedSince since) :
    (x.leaving server currentBlockNumber).AlertedSince
      (server.withinDelay currentBlockNumber since) := by
  refine ⟨fun block hblock => ?_, ?_⟩
  · obtain ⟨hsince, hwithin⟩ := RelayServer.withinDelay_eq_some_iff.mp hblock
    obtain ⟨halerted, hle⟩ := h.alerted block hsince
    have hstays : x.leaving server currentBlockNumber = x := by
      apply if_neg
      intro hleaves
      have hlate := hleaves.2
      omega
    rw [hstays]
    exact ⟨halerted, hle⟩
  · unfold leaving
    split <;> exact h.scanned

theorem AlertedSince.finishes (h : x.AlertedSince since)
    (hscanned : x.lastScannedBlock = currentBlockNumber) {registered : Bool}
    (hfinishes : x.Finishes server currentBlockNumber events registered y) :
    y.AlertedSince (server.withinDelay currentBlockNumber since) := by
  have hwithin : ∀ block, server.withinDelay currentBlockNumber since = some block →
      since = some block := fun _ hblock => (RelayServer.withinDelay_eq_some_iff.mp hblock).1
  cases registered with
  | false =>
      obtain rfl : y = x := hfinishes
      exact h.of_since hwithin
  | true =>
      rcases hfinishes with rfl | rfl
      · exact (h.notes hscanned events).of_since hwithin
      · exact (h.notes hscanned events).leaves

theorem Finishes.alertedSince
    (hscanned : x.lastScannedBlock = currentBlockNumber)
    (hdelay : 0 ≤ server.dependencies.config.alertedBlockDelay)
    (hreverted : anyReverted events = true)
    (hfinishes : x.Finishes server currentBlockNumber events true y) :
    y.AlertedSince (some currentBlockNumber) := by
  have hnotes : x.noting currentBlockNumber events =
      { x with alerted := true, alertedBlock := currentBlockNumber } := if_pos hreverted
  have hnoted : (x.noting currentBlockNumber events).AlertedSince (some currentBlockNumber) := by
    rw [hnotes]
    exact ⟨fun block hblock => ⟨rfl, (Option.some.inj hblock).ge⟩, hscanned.ge⟩
  have hwithin : server.withinDelay currentBlockNumber (some currentBlockNumber) =
      some currentBlockNumber :=
    RelayServer.withinDelay_eq_some_iff.mpr ⟨rfl, le_add_of_nonneg_right hdelay⟩
  rcases hfinishes with rfl | rfl
  · exact hnoted
  · exact hwithin ▸ hnoted.leaves

end AlertView

section Run

variable {server : RelayServer} {state state' : WorkerState} {since : Option ℕ} {round : Round}

theorem hubEventsFetched_of_scanned {events : List TypedEvent}
    (h : (Keeping.final (intervalHandler server round) state).scan.hubEvents =
      state.scan.hubEvents ++ events) : round.hubEventsFetched server state = events := by
  rw [Round.hubEventsFetched, h, List.drop_left]

theorem AlertView.Completes.hubEvents {x y : AlertView} {currentBlockNumber : ℕ} {registered : Bool}
    (h : x.Completes server currentBlockNumber registered y) :
    ∃ events, y.hubEvents = x.hubEvents ++ events ∧
      (x.scanned currentBlockNumber events).Finishes server currentBlockNumber events registered y := by
  obtain ⟨events, hfinishes⟩ := h
  refine ⟨events, ?_, hfinishes⟩
  cases registered with
  | false => exact congrArg AlertView.hubEvents hfinishes
  | true =>
      rcases hfinishes with rfl | rfl
      · unfold AlertView.noting
        split <;> rfl
      · unfold AlertView.leaving AlertView.noting
        split <;> split <;> rfl

theorem alertedSince_of_tick (h : state.alertView.AlertedSince since)
    (hdelay : 0 ≤ server.dependencies.config.alertedBlockDelay)
    (hregistered : RegisteredIfReverted server state (.tick round)) :
    (Keeping.final (intervalHandler server round) state).alertView.AlertedSince
      (alertedSince server state since (.tick round)) := by
  cases hreturns : returns (intervalHandler server round) state with
  | false =>
      have hsince : alertedSince server state since (.tick round) = since := by
        simp [alertedSince, Round.completesReverted, Round.completes, hreturns]
      rw [hsince]
      rcases final_of_throws intervalHandler_completes rfl hreturns with hstays | ⟨hnew, hthrows⟩
      · rw [hstays]
        exact h
      · exact h.throws hnew hthrows
  | true =>
      rcases final_of_returns intervalHandler_completes rfl hreturns with hstays | ⟨hnew, hcompletes⟩
      · -- nothing was fetched: an alert noted before is not forgotten, but may be past its delay
        have hfetched : round.hubEventsFetched server state = [] :=
          hubEventsFetched_of_scanned ((congrArg AlertView.hubEvents hstays).trans
            (List.append_nil _).symm)
        rw [hstays]
        apply h.of_since
        intro block hblock
        simp only [alertedSince, Round.completesReverted, hfetched, anyReverted, List.any_nil,
          Bool.and_false, Bool.false_eq_true, if_false] at hblock
        split at hblock
        · exact (RelayServer.withinDelay_eq_some_iff.mp hblock).1
        · exact hblock
      · obtain ⟨events, hevents, hfinishes⟩ := hcompletes.hubEvents
        have hcompletes : round.completes server state = true := by
          rw [Round.completes, hreturns, Bool.and_true]
          exact decide_eq_true hnew
        have hfetched := hubEventsFetched_of_scanned hevents
        cases hreverted : anyReverted events with
        | true =>
            have hcompletesReverted : round.completesReverted server state = true := by
              rw [Round.completesReverted, hcompletes, hfetched, hreverted, Bool.and_true]
            rw [hregistered hcompletesReverted] at hfinishes
            have hsince : alertedSince server state since (.tick round) = some round.blockNumber :=
              if_pos hcompletesReverted
            rw [hsince]
            exact hfinishes.alertedSince rfl hdelay hreverted
        | false =>
            have hsince : alertedSince server state since (.tick round) =
                server.withinDelay round.blockNumber since := by
              simp [alertedSince, Round.completesReverted, hcompletes, hfetched, hreverted]
            rw [hsince]
            exact (h.scans hnew events).finishes rfl hfinishes

theorem alertedSince_of_workerStep {event : WorkerEvent} (h : state.alertView.AlertedSince since)
    (hdelay : 0 ≤ server.dependencies.config.alertedBlockDelay)
    (hregistered : RegisteredIfReverted server state event)
    (hstep : workerStep server state event = some state') :
    state'.alertView.AlertedSince (alertedSince server state since event) := by
  cases event with
  | tick round =>
      obtain rfl := Option.some.inj hstep
      exact alertedSince_of_tick h hdelay hregistered
  | _ =>
      rw [WorkerState.alertView_of_roundView (roundView_of_workerStep hstep (by simp))]
      exact h

/-- The server is alerted from a completed round that fetched the event of a reverted
relay on, until a completed round at a block more than the delay after the last such
round, in a run in which all such rounds find the manager registered. -/
theorem alerted_after_reverted_relay {txStore : TxStore} {events : List WorkerEvent}
    (hdelay : 0 ≤ server.dependencies.config.alertedBlockDelay)
    (hregistered : Along (workerStep server) (RegisteredIfReverted server)
      (.constructed server.dependencies.config txStore) events)
    (hrun : run (noted (workerStep server) (alertedSince server))
      (.constructed server.dependencies.config txStore, none) events = some (state, since))
    (hsince : since.isSome = true) : state.alerted = true := by
  have halerted : state.alertView.AlertedSince since := by
    refine invariant_of_along (I := fun s => s.1.alertView.AlertedSince s.2)
      (fun s event s' h hregistered hstep => ?_) ?_ hregistered.noted hrun
    · obtain ⟨hstep, hnote⟩ := noted_eq_some_iff.mp hstep
      rw [hnote]
      exact alertedSince_of_workerStep h hdelay hregistered hstep
    · exact ⟨fun _ hblock => (nomatch hblock), Nat.zero_le _⟩
  obtain ⟨block, rfl⟩ := Option.isSome_iff_exists.mp hsince
  exact (halerted.alerted block rfl).1

end Run

/-- A relayed call is reverted in block 5, after the owner staked in block 3. -/
def sampleReverted : TypedEvent :=
  { sampleStakeAdded with
    event := .transactionRelayedButRevertedByRecipient
    blockNumber := 5 }

def revertedChain : Chain where
  logs n := if n = 3 then [sampleStakeAdded] else if n = 5 then [sampleReverted] else []
  blockNumber_eq _ _ h :=
    blockNumber_of_mem_ite h rfl fun h =>
      blockNumber_of_mem_ite h rfl fun h => absurd h List.not_mem_nil

/-- A round at block 6 of a server that is registered, when its stake can be withdrawn
from the given block on. -/
def revertedRound (withdrawBlock : ℕ) : Round :=
  { sampleRound (nodeAt revertedChain 6) with
    moments := fun _ => { sampleMoment with
      getStakeInfo := .ok ⟨5, withdrawBlock, sampleWorker⟩
      getRelayInfo := .ok ⟨true, sampleManager, true, sampleStakingServer.url⟩ } }

def constructedStaking : WorkerState :=
  .constructed sampleStakingServer.dependencies.config TxStore.empty

/-- The worker after the round. -/
def afterRevertedRound (withdrawBlock : ℕ) : WorkerState :=
  constructedStaking.after sampleStakingServer [.tick (revertedRound withdrawBlock)]

/-- What is noted of the round. -/
def sinceRevertedRound (withdrawBlock : ℕ) : Option ℕ :=
  alertedSince sampleStakingServer constructedStaking none (.tick (revertedRound withdrawBlock))

theorem run_revertedRound (withdrawBlock : ℕ) :
    run (noted (workerStep sampleStakingServer) (alertedSince sampleStakingServer))
      (constructedStaking, none) [.tick (revertedRound withdrawBlock)] =
        some (afterRevertedRound withdrawBlock, sinceRevertedRound withdrawBlock) := by
  refine run_cons_eq_some_iff.mpr ⟨(_, _), noted_eq_some_iff.mpr ⟨?_, rfl⟩, rfl⟩
  exact run_workerStep _ _ [_]

theorem alerted_after_reverted_relay_staked :
    sinceRevertedRound 0 = some 6 ∧ (afterRevertedRound 0).alerted = true := by
  have hsince : sinceRevertedRound 0 = some 6 := by decide +kernel
  have halerted := @alerted_after_reverted_relay sampleStakingServer (afterRevertedRound 0)
    (sinceRevertedRound 0) TxStore.empty [.tick (revertedRound 0)] (by decide) (by decide +kernel)
    (run_revertedRound 0) (hsince ▸ rfl)
  exact ⟨hsince, halerted⟩

/-- The owner has unlocked the stake, so the round returns before it handles the event. -/
theorem not_alerted_after_reverted_relay :
    ¬ ∀ (server : RelayServer) (txStore : TxStore) (events : List WorkerEvent)
        (state : WorkerState) (since : Option ℕ),
      0 ≤ server.dependencies.config.alertedBlockDelay →
      run (noted (workerStep server) (alertedSince server))
        (.constructed server.dependencies.config txStore, none) events = some (state, since) →
      since.isSome = true → state.alerted = true := by
  intro h
  have halerted := h sampleStakingServer TxStore.empty [.tick (revertedRound 1000)]
    (afterRevertedRound 1000) (sinceRevertedRound 1000) (by decide) (run_revertedRound 1000)
    (by decide +kernel)
  have hnot : (afterRevertedRound 1000).alerted = false := by decide +kernel
  rw [hnot] at halerted
  cases halerted

end RifRelayServer
