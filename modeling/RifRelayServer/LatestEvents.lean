import RifRelayServer.DeferredUnlocks
import RifRelayServer.LogSplitting
import RifRelayServer.Lib.Latest
import Mathlib

/-!
# The latest worker added

The registration manager keeps the latest of the workers added, first from the query
at its start and then from the hub events of each round. The query sorts what it is
answered, and the loop over the hub events compares them one by one.
-/

namespace RifRelayServer

open Std.Do Keeping Runs Latest

set_option mvcgen.warning false

/-- Where the event is in the chain, as far as it is looked at. -/
def TypedEvent.position (event : TypedEvent) : ℕ ×ₗ ℕ :=
  toLex (event.blockNumber, event.transactionIndex)

/-- An event of the given ones that no other is later than, or none if there are none. -/
abbrev IsLatestEvent (events : Set TypedEvent) (last : Option TypedEvent) : Prop :=
  IsLatest TypedEvent.position events last

theorem isSecondEventLater_iff {a b : TypedEvent} :
    isSecondEventLater a b = true ↔ a.position < b.position := by
  rw [TypedEvent.position, TypedEvent.position, Prod.Lex.toLex_lt_toLex, isSecondEventLater]
  split
  next heq => simp [heq]
  next hne => simp [hne]

theorem pairwise_sortLatestFirst (events : List TypedEvent) :
    (sortLatestFirst events).Pairwise fun a b => b.position ≤ a.position := by
  have hrel : ∀ a b : TypedEvent,
      (if a.blockNumber = b.blockNumber then b.transactionIndex ≤ a.transactionIndex
        else b.blockNumber ≤ a.blockNumber) ↔ b.position ≤ a.position := by
    intro a b
    rw [TypedEvent.position, TypedEvent.position, Prod.Lex.toLex_le_toLex]
    split
    next heq => simp [heq]
    next hne =>
      simp only [Ne.symm hne, false_and, or_false]
      exact ⟨fun hle => lt_of_le_of_ne hle (Ne.symm hne), le_of_lt⟩
  have htotal : Std.Total fun a b : TypedEvent =>
      if a.blockNumber = b.blockNumber then b.transactionIndex ≤ a.transactionIndex
        else b.blockNumber ≤ a.blockNumber :=
    ⟨fun a b => by simpa only [hrel] using le_total b.position a.position⟩
  have htrans : IsTrans TypedEvent fun a b =>
      if a.blockNumber = b.blockNumber then b.transactionIndex ≤ a.transactionIndex
        else b.blockNumber ≤ a.blockNumber :=
    ⟨fun a b c hab hbc => (hrel a c).mpr (((hrel b c).mp hbc).trans ((hrel a b).mp hab))⟩
  exact (List.pairwise_insertionSort _ events).imp fun h => (hrel _ _).mp h

theorem isLatestEvent_getLatestEventData (events : List TypedEvent) :
    IsLatestEvent {e | e ∈ events} (getLatestEventData events) := by
  have hhead := isLatest_head? (pairwise_sortLatestFirst events)
  have hmem : {e | e ∈ sortLatestFirst events} = {e | e ∈ events} := by
    ext e
    exact mem_sortLatestFirst
  rw [hmem] at hhead
  exact hhead

/-- The workers added are compared with the latest one, the other hub events are passed
over. -/
theorem foldl_latestWorkerAdded (events : List TypedEvent) (last : Option TypedEvent) :
    events.foldl latestWorkerAdded last =
      (events.filter fun e => e.event = .relayWorkersAdded).foldl (later TypedEvent.position)
        last := by
  have hstep : latestWorkerAdded = fun last e =>
      if decide (e.event = .relayWorkersAdded) = true then later TypedEvent.position last e
      else last := by
    funext last e
    have hall : last.all (isSecondEventLater · e) =
        last.all fun b => decide (b.position < e.position) := by
      cases last with
      | none => rfl
      | some b =>
          rw [Option.all_some, Option.all_some, Bool.eq_iff_iff, isSecondEventLater_iff,
            decide_eq_true_eq]
    by_cases hevent : e.event = .relayWorkersAdded <;>
      simp [latestWorkerAdded, later, hevent, hall]
  rw [List.foldl_filter, hstep]

/-- The program leaves the latest worker added as it is. -/
abbrev KeepsLast {α : Type} (x : Option TypedEvent) (program : RoundM α) : Prop :=
  Keeps (fun state => state.registrationManager.lastWorkerAddedTransaction = x) program

section Programs

variable {server : RelayServer} {round : Round} {x : Option TypedEvent}

@[local spec] theorem refreshStake_keepsLast : KeepsLast x (refreshStake server round) := by
  mvcgen [refreshStake, noteStakeRead, updateRegistrationManager]
    with grind [RegistrationManager.setStake]

@[local spec] theorem handleStakeEvent_keepsLast {currentBlock : ℕ} {eventData : TypedEvent} :
    KeepsLast x (handleStakeEvent server round currentBlock eventData) := by
  mvcgen [handleStakeEvent, noteActed, updateRegistrationManager, handleStakeWithdrawnEvent]
    with grind

@[local spec] theorem handleStakeEvents_keepsLast {currentBlock : ℕ} (events : List TypedEvent) :
    KeepsLast x (handleEach (handleStakeEvent server round currentBlock) events) :=
  keeps_handleEach (fun _ => handleStakeEvent_keepsLast) events

/-- The loop over the hub events goes on from the latest worker added. -/
theorem takeDueEvents_last {hubEventsSinceLastScan : List TypedEvent}
    {lastScannedBlock currentBlock : ℕ} :
    ⦃fun state => ⌜state.registrationManager.lastWorkerAddedTransaction = x⌝⦄
    takeDueEvents server round hubEventsSinceLastScan lastScannedBlock currentBlock
    ⦃post⟨fun _ state => ⌜state.registrationManager.lastWorkerAddedTransaction =
        hubEventsSinceLastScan.foldl latestWorkerAdded x⌝,
      fun _ _ => ⌜True⌝⟩⦄ := by
  mvcgen [takeDueEvents, noteHanded, fetchStakeEvents, noteStakeScan, extractDuePendingEvents,
    updateRegistrationManager] with grind

theorem handleDueEvents_keepsLast {currentBlock : ℕ} {forceRegistration : Bool}
    {stakeHashes : List Hash} {dueEvents : List TypedEvent} :
    KeepsLast x (do
      let delayedHashes ← handleEach (handleDelayedEvent server round currentBlock) dueEvents
      let registrationHashes ← registerIfNeeded server round currentBlock forceRegistration
      return stakeHashes ++ delayedHashes ++ registrationHashes) := by
  mvcgen with grind

theorem initRegistrationManager_last {events : List TypedEvent}
    (hquery : getPastEventsForHub server.dependencies.config server.relayHubAddress
      round.workersAddedScan server.managerAddress
      ⟨some server.dependencies.config.initialBlockToScan, none⟩ [.relayWorkersAdded] =
        .ok events) :
    ⦃fun state => ⌜state.registrationManager.lastWorkerAddedTransaction = none⌝⦄
    initRegistrationManager server round
    ⦃post⟨fun _ state => ⌜state.registrationManager.lastWorkerAddedTransaction =
        getLatestEventData events⌝,
      fun _ _ => ⌜False⌝⟩⦄ := by
  mvcgen [initRegistrationManager, queryLatestWorkerAddedEvent, scanLogs, awaited,
    updateRegistrationManager] with grind

end Programs

/-- The latest worker added is the one that the call before left. -/
def PastEventsCall.resume (last : Option TypedEvent) (call : PastEventsCall) : WorkerState :=
  { call.worker with
    registrationManager :=
      { call.worker.registrationManager with lastWorkerAddedTransaction := last } }

def lastWorkerAddedStep (server : RelayServer) (last : Option TypedEvent)
    (call : PastEventsCall) : Option (Option TypedEvent) :=
  some (Keeping.final (call.program server)
    (call.resume last)).registrationManager.lastWorkerAddedTransaction

/-- The latest worker added once the registration manager is initialised. -/
def lastWorkerAddedAtStart (server : RelayServer) (round : Round) (worker : WorkerState) :
    Option TypedEvent :=
  (Keeping.final (initRegistrationManager server round)
    worker).registrationManager.lastWorkerAddedTransaction

/-- The call gets past the loop over its hub events. -/
def ReadsHubEvents (server : RelayServer) (last : Option TypedEvent) (call : PastEventsCall) :
    Prop :=
  returns (takeDueEvents server call.round call.hubEventsSinceLastScan call.lastScannedBlock
    call.currentBlock) (call.resume last) = true

instance (server : RelayServer) (last : Option TypedEvent) (call : PastEventsCall) :
    Decidable (ReadsHubEvents server last call) :=
  inferInstanceAs (Decidable (_ = true))

/-- The workers added that the calls are given. -/
def workersAddedIn (calls : List PastEventsCall) : Set TypedEvent :=
  {e | ∃ call ∈ calls, e ∈ call.hubEventsSinceLastScan ∧ e.event = .relayWorkersAdded}

section Run

variable {server : RelayServer} {last : Option TypedEvent} {call : PastEventsCall}

theorem readsHubEvents_of_returns
    (h : returns (call.program server) (call.resume last) = true) :
    ReadsHubEvents server last call := by
  rw [PastEventsCall.program, handlePastEvents_eq] at h
  unfold ReadsHubEvents
  cases htake : takeDueEvents server call.round call.hubEventsSinceLastScan call.lastScannedBlock
      call.currentBlock (call.resume last) with
  | ok taken state => rw [returns, htake]
  | error e state =>
      rw [returns, bind_of_error htake] at h
      cases h

theorem lastWorkerAddedStep_eq (h : ReadsHubEvents server last call) :
    lastWorkerAddedStep server last call =
      some (call.hubEventsSinceLastScan.foldl latestWorkerAdded last) := by
  obtain ⟨⟨stakeHashes, dueEvents⟩, state, htake⟩ := exists_ok_of_returns h
  have hloop := post_of_ok (@takeDueEvents_last server call.round last _ _ _) rfl htake
  rw [lastWorkerAddedStep, PastEventsCall.program, handlePastEvents_eq, final_bind_of_ok htake]
  exact congrArg some (handleDueEvents_keepsLast.final hloop)

theorem isLatestEvent_of_call {events : Set TypedEvent} (h : IsLatestEvent events last) :
    IsLatestEvent (events ∪ workersAddedIn [call])
      (call.hubEventsSinceLastScan.foldl latestWorkerAdded last) := by
  have hfold := isLatest_foldl_later h
    (call.hubEventsSinceLastScan.filter fun e => e.event = .relayWorkersAdded)
  have hmem : {e | e ∈ call.hubEventsSinceLastScan.filter fun e =>
      decide (e.event = .relayWorkersAdded)} = workersAddedIn [call] := by
    ext e
    simp [workersAddedIn]
  rw [foldl_latestWorkerAdded, ← hmem]
  exact hfold

theorem workersAddedIn_cons (call : PastEventsCall) (calls : List PastEventsCall) :
    workersAddedIn (call :: calls) = workersAddedIn [call] ∪ workersAddedIn calls := by
  ext e
  simp [workersAddedIn]

/-- The calls go on from the latest of the events before them. -/
theorem isLatestEvent_of_run {events : Set TypedEvent} {calls : List PastEventsCall}
    {last' : Option TypedEvent} (h : IsLatestEvent events last)
    (hreads : Along (lastWorkerAddedStep server) (ReadsHubEvents server) last calls)
    (hrun : run (lastWorkerAddedStep server) last calls = some last') :
    IsLatestEvent (events ∪ workersAddedIn calls) last' := by
  induction calls generalizing events last with
  | nil =>
      have hnone : workersAddedIn [] = ∅ := by simp [workersAddedIn]
      obtain rfl := Option.some.inj hrun
      rwa [hnone, Set.union_empty]
  | cons call calls ih =>
      obtain ⟨hread, hrest⟩ := hreads
      obtain ⟨next, hstep, hrun⟩ := run_cons_eq_some_iff.mp hrun
      have hnext := hstep
      rw [lastWorkerAddedStep_eq hread] at hnext
      obtain rfl := Option.some.inj hnext
      rw [workersAddedIn_cons, ← Set.union_assoc]
      exact ih (isLatestEvent_of_call h) (hrest _ hstep) hrun

end Run

/-- After the query at the start and any calls, the latest worker added is a latest one
of all the workers added that these were given. -/
theorem last_worker_added_isLatest {server : RelayServer} {round : Round} {worker : WorkerState}
    {queried : List TypedEvent} {calls : List PastEventsCall} {last : Option TypedEvent}
    (hworker : worker.registrationManager.lastWorkerAddedTransaction = none)
    (hquery : getPastEventsForHub server.dependencies.config server.relayHubAddress
      round.workersAddedScan server.managerAddress
      ⟨some server.dependencies.config.initialBlockToScan, none⟩ [.relayWorkersAdded] =
        .ok queried)
    (hreads : Along (lastWorkerAddedStep server) (ReadsHubEvents server)
      (lastWorkerAddedAtStart server round worker) calls)
    (hrun : run (lastWorkerAddedStep server) (lastWorkerAddedAtStart server round worker) calls =
      some last) :
    IsLatestEvent ({e | e ∈ queried} ∪ workersAddedIn calls) last ∧
      (last = none ↔ {e | e ∈ queried} ∪ workersAddedIn calls = ∅) ∧
      ∀ events : List TypedEvent, (∀ e, e ∈ events ↔ e ∈ queried ∨ e ∈ workersAddedIn calls) →
        last.map TypedEvent.position = (getLatestEventData events).map TypedEvent.position := by
  have hstart : lastWorkerAddedAtStart server round worker = getLatestEventData queried := by
    have hinit := initRegistrationManager_last hquery
    obtain ⟨_, state, hok⟩ := ok_of_not_error hinit hworker fun _ _ => id
    rw [lastWorkerAddedAtStart, Keeping.final, hok]
    exact post_of_ok hinit hworker hok
  rw [hstart] at hreads hrun
  have hlatest := isLatestEvent_of_run (isLatestEvent_getLatestEventData queried) hreads hrun
  refine ⟨hlatest, hlatest.eq_none_iff, ?_⟩
  intro events hevents
  have hmem : {e | e ∈ events} = {e | e ∈ queried} ∪ workersAddedIn calls := by
    ext e
    exact hevents e
  apply hlatest.map_key_eq
  rw [← hmem]
  exact isLatestEvent_getLatestEventData events

/-- A call that is given workers added in the given blocks. -/
def workersAddedCall (blocks : List ℕ) : PastEventsCall :=
  { sampleDeferralCall [] (.ok 10) 7 with
    hubEventsSinceLastScan := blocks.map sampleWorkersAdded }

/-- The query is answered with the worker of block 5, the rounds get blocks 3 and 6, then
5 once more. -/
theorem last_worker_added_isLatest_overlapping :
    IsLatestEvent ({e | e ∈ [sampleWorkersAdded 5]} ∪
        workersAddedIn [workersAddedCall [3, 6], workersAddedCall [5]])
      (some (sampleWorkersAdded 6)) := by
  apply And.left
  apply @last_worker_added_isLatest sampleStakingServer
    { sampleRound answering with
      workersAddedScan := ⟨.ok 6, fun _ _ => .ok [sampleWorkersAdded 5]⟩ }
    (WorkerState.constructed sampleDependencies.config TxStore.empty)
  · rfl
  · decide +kernel
  · decide +kernel
  · decide +kernel

end RifRelayServer
