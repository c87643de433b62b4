import RifRelayServer.StakeHandling
import RifRelayServer.Lib.Readings
import Mathlib

/-!
# The registration and the stake on the hub

At each stake event the manager reads the stake there is on the hub by then, and
keeps what it read unless the stake is zero. A stake that is unlocked and withdrawn
in one batch of events stays in view as it was before.
-/

namespace RifRelayServer

open Std.Do Keeping Runs Readings

set_option mvcgen.warning false

/-- A stake that is left out of the view. -/
def StakeInfo.isZero (stakeInfo : StakeInfo) : Bool := stakeInfo.stake = 0

theorem StakeInfo.isZero_iff {stakeInfo : StakeInfo} :
    stakeInfo.isZero = true ↔ stakeInfo.stake = 0 :=
  decide_eq_true_iff

/-- A stake that the server can be registered with. -/
def StakeInfo.isSufficient (managerMinStake : ℤ) (stakeInfo : StakeInfo) : Bool :=
  stakeInfo.withdrawBlock = 0 && decide (managerMinStake ≤ stakeInfo.stake)

/-- What the manager keeps of the stake, with all that it read of it. -/
structure StakeView where
  isStakeLocked : Bool
  stakeRequired : AmountRequired
  stakesRead : List StakeInfo

def WorkerState.stakeView (state : WorkerState) : StakeView where
  isStakeLocked := state.registrationManager.isStakeLocked
  stakeRequired := state.registrationManager.stakeRequired
  stakesRead := state.stakesRead

def StakeView.readStake (x : StakeView) (stakeInfo : StakeInfo) : StakeView :=
  if stakeInfo.isZero then { x with stakesRead := x.stakesRead ++ [stakeInfo] }
  else
    { isStakeLocked := stakeInfo.withdrawBlock = 0
      stakeRequired := { x.stakeRequired with currentValue := stakeInfo.stake }
      stakesRead := x.stakesRead ++ [stakeInfo] }

/-- The stake is one the hub answered with in the round. -/
def Round.Answers (round : Round) (stakeInfo : StakeInfo) : Prop :=
  ∃ n, (round.moments n).getStakeInfo = .ok stakeInfo

/-- From `x` to `y` some stakes were read. -/
def StakeView.Reads (round : Round) (x y : StakeView) : Prop :=
  ∃ stakes : List StakeInfo, (∀ it ∈ stakes, round.Answers it) ∧ y = stakes.foldl readStake x

/-- From `x` to `y` some stakes were read, and at least one. -/
def StakeView.ReadsSome (round : Round) (x y : StakeView) : Prop :=
  ∃ stakes : List StakeInfo, stakes ≠ [] ∧ (∀ it ∈ stakes, round.Answers it) ∧
    y = stakes.foldl readStake x

namespace StakeView

variable {round : Round} {x y z : StakeView} {stakeInfo : StakeInfo}

theorem Reads.refl (round : Round) (x : StakeView) : x.Reads round x :=
  ⟨[], fun _ h => absurd h List.not_mem_nil, rfl⟩

theorem Reads.trans (hxy : x.Reads round y) (hyz : y.Reads round z) : x.Reads round z := by
  obtain ⟨stakes, hstakes, rfl⟩ := hxy
  obtain ⟨others, hothers, rfl⟩ := hyz
  refine ⟨stakes ++ others, fun it hit => ?_, List.foldl_append.symm⟩
  exact (List.mem_append.mp hit).elim (hstakes it) (hothers it)

theorem ReadsSome.reads (h : x.ReadsSome round y) : x.Reads round y := by
  obtain ⟨stakes, -, hstakes, rfl⟩ := h
  exact ⟨stakes, hstakes, rfl⟩

theorem ReadsSome.trans (hxy : x.ReadsSome round y) (hyz : y.Reads round z) :
    x.ReadsSome round z := by
  obtain ⟨stakes, hne, hstakes, rfl⟩ := hxy
  obtain ⟨others, hothers, rfl⟩ := hyz
  refine ⟨stakes ++ others, List.append_ne_nil_of_left_ne_nil hne _, fun it hit => ?_,
    List.foldl_append.symm⟩
  exact (List.mem_append.mp hit).elim (hstakes it) (hothers it)

theorem Reads.some (hxy : x.Reads round y) (hyz : y.ReadsSome round z) : x.ReadsSome round z := by
  obtain ⟨stakes, hstakes, rfl⟩ := hxy
  obtain ⟨others, hne, hothers, rfl⟩ := hyz
  refine ⟨stakes ++ others, List.append_ne_nil_of_right_ne_nil _ hne, fun it hit => ?_,
    List.foldl_append.symm⟩
  exact (List.mem_append.mp hit).elim (hstakes it) (hothers it)

theorem readsSome_readStake (h : round.Answers stakeInfo) :
    x.ReadsSome round (x.readStake stakeInfo) := by
  refine ⟨[stakeInfo], List.cons_ne_nil _ _, fun it hit => ?_, rfl⟩
  rw [List.mem_singleton.mp hit]
  exact h

theorem readsSome_zero (h : round.Answers stakeInfo) (hzero : stakeInfo.stake = 0) :
    x.ReadsSome round { x with stakesRead := x.stakesRead ++ [stakeInfo] } := by
  have hread := readsSome_readStake (x := x) h
  rwa [readStake, if_pos (StakeInfo.isZero_iff.mpr hzero)] at hread

theorem readsSome_other (h : round.Answers stakeInfo) (hstake : stakeInfo.stake ≠ 0) :
    x.ReadsSome round
      { isStakeLocked := stakeInfo.withdrawBlock = 0
        stakeRequired := { x.stakeRequired with currentValue := stakeInfo.stake }
        stakesRead := x.stakesRead ++ [stakeInfo] } := by
  have hread := readsSome_readStake (x := x) h
  rwa [readStake, if_neg fun hzero => hstake (StakeInfo.isZero_iff.mp hzero)] at hread

end StakeView

section Reads

variable {server : RelayServer} {round : Round} {x : StakeView}

theorem receive_answers :
    ⦃fun state => ⌜state.stakeView = x⌝⦄ receive server round (·.getStakeInfo)
    ⦃post⟨fun stakeInfo state => ⌜round.Answers stakeInfo ∧ state.stakeView = x⌝,
      fun _ state => ⌜state.stakeView = x⌝⟩⦄ := by
  mvcgen [-receive_keepsApart, -awaited_keepsApart, receive, awaited]
    with grind [Round.Answers, WorkerState.stakeView]

theorem noteStakeRead_stakeView {stakeInfo : StakeInfo} :
    ⦃fun state => ⌜state.stakeView = x⌝⦄ noteStakeRead stakeInfo
    ⦃post⟨fun _ state => ⌜state.stakeView = { x with stakesRead := x.stakesRead ++ [stakeInfo] }⌝,
      fun _ _ => ⌜False⌝⟩⦄ := by
  mvcgen [noteStakeRead] with grind [WorkerState.stakeView]

theorem setStake_stakeView {stakeInfo : StakeInfo} :
    ⦃fun state => ⌜state.stakeView = x⌝⦄ updateRegistrationManager (.setStake stakeInfo)
    ⦃post⟨fun _ state => ⌜state.stakeView = { x with
        isStakeLocked := stakeInfo.withdrawBlock = 0
        stakeRequired := { x.stakeRequired with currentValue := stakeInfo.stake } }⌝,
      fun _ _ => ⌜False⌝⟩⦄ := by
  mvcgen [updateRegistrationManager] with grind [WorkerState.stakeView,
    RegistrationManager.setStake]

@[local spec] theorem refreshStake_reads :
    ⦃fun state => ⌜state.stakeView = x⌝⦄ refreshStake server round
    ⦃post⟨fun _ state => ⌜x.ReadsSome round state.stakeView⌝,
      fun _ state => ⌜x.Reads round state.stakeView⌝⟩⦄ := by
  mvcgen [-receive_keepsApart, refreshStake, receive_answers, noteStakeRead_stakeView,
    setStake_stakeView] with grind [StakeView.readsSome_zero, StakeView.readsSome_other,
      StakeView.Reads.refl]

@[local spec] theorem updateRegistrationManager_keepsStake
    {update : RegistrationManager → RegistrationManager}
    (h : ∀ manager, (update manager).isStakeLocked = manager.isStakeLocked ∧
      (update manager).stakeRequired = manager.stakeRequired) :
    Keeps (fun state => state.stakeView = x) (updateRegistrationManager update) := by
  mvcgen [updateRegistrationManager] with grind [WorkerState.stakeView]

@[local spec] theorem handleStakeEvent_reads {currentBlock : ℕ} {eventData : TypedEvent} :
    ⦃fun state => ⌜state.stakeView = x⌝⦄ handleStakeEvent server round currentBlock eventData
    ⦃post⟨fun _ state => ⌜x.Reads round state.stakeView ∧
        (eventData.event ∈ stakeEvents → x.ReadsSome round state.stakeView)⌝,
      fun _ state => ⌜x.Reads round state.stakeView⌝⟩⦄ := by
  mvcgen [handleStakeEvent, noteActed, handleStakeWithdrawnEvent]
    with grind [WorkerState.stakeView, stakeEvents, StakeView.ReadsSome.reads,
      StakeView.Reads.refl]

/-- Each stake event is an occasion to read the stake. -/
@[local spec] theorem handleStakeEvents_reads {currentBlock : ℕ} (events : List TypedEvent) :
    ⦃fun state => ⌜state.stakeView = x⌝⦄
    handleEach (handleStakeEvent server round currentBlock) events
    ⦃post⟨fun _ state => ⌜x.Reads round state.stakeView ∧
        ((∃ log ∈ events, log.event ∈ stakeEvents) → x.ReadsSome round state.stakeView)⌝,
      fun _ state => ⌜x.Reads round state.stakeView⌝⟩⦄ := by
  induction events generalizing x with
  | nil =>
      mvcgen [handleEach]
      grind [StakeView.Reads.refl]
  | cons eventData events ih =>
      mvcgen [handleEach, ih]
        with grind [StakeView.Reads.trans, StakeView.ReadsSome.trans, StakeView.Reads.some]

theorem handlePastEvents_reads {hubEvents : List TypedEvent} {lastScannedBlock currentBlock : ℕ}
    {forceRegistration : Bool} :
    ⦃fun state => ⌜state.stakeView = x⌝⦄
    handlePastEvents server round hubEvents lastScannedBlock currentBlock forceRegistration
    ⦃post⟨fun _ state => ⌜∃ events, getPastEventsForHub server.dependencies.config
        server.relayHubAddress round.stakeScan server.managerAddress (.since lastScannedBlock)
        stakeEvents = .ok events ∧ x.Reads round state.stakeView ∧
          ((∃ log ∈ events, log.event ∈ stakeEvents) → x.ReadsSome round state.stakeView)⌝,
      fun _ state => ⌜x.Reads round state.stakeView⌝⟩⦄ := by
  mvcgen [handlePastEvents, noteHanded, fetchStakeEvents, noteStakeScan,
    extractDuePendingEvents] with grind [WorkerState.stakeView, StakeView.Reads.refl]

end Reads

/-- A manager once it is initialized. -/
def RegistrationManager.initialized (config : BlockchainConfig)
    (lastWorkerAddedTransaction : Option TypedEvent) : RegistrationManager :=
  { RegistrationManager.constructed config with
    isInitialized := true
    lastWorkerAddedTransaction }

/-- A call of `handlePastEvents`, with the rest of the state it is made in. By then
the events of so many changes of the stake are delivered, and the hub has gone
through so many when the call ends. -/
structure StakeCall where
  worker : WorkerState
  round : Round
  hubEventsSinceLastScan : List TypedEvent
  lastScannedBlock : ℕ
  currentBlock : ℕ
  forceRegistration : Bool
  delivered : ℕ
  version : ℕ

/-- The manager between two calls, with the stakes it read. The events of a call that
throws are delivered again. -/
structure StakeRun where
  registrationManager : RegistrationManager
  stakesRead : List StakeInfo
  delivered : ℕ
  version : ℕ

def StakeRun.initialized (server : RelayServer) (lastWorkerAddedTransaction : Option TypedEvent) :
    StakeRun where
  registrationManager := .initialized server.dependencies.config lastWorkerAddedTransaction
  stakesRead := []
  delivered := 0
  version := 0

def StakeCall.start (s : StakeRun) (call : StakeCall) : WorkerState :=
  { call.worker with
    registrationManager := s.registrationManager
    stakesRead := s.stakesRead }

def StakeCall.program (server : RelayServer) (call : StakeCall) : RoundM (List Hash) :=
  handlePastEvents server call.round call.hubEventsSinceLastScan call.lastScannedBlock
    call.currentBlock call.forceRegistration

def StakeRun.called (server : RelayServer) (s : StakeRun) (call : StakeCall) : StakeRun :=
  let worker := Keeping.final (call.program server) (call.start s)
  { registrationManager := worker.registrationManager
    stakesRead := worker.stakesRead
    delivered := if returns (call.program server) (call.start s) then call.delivered else s.delivered
    version := call.version }

def stakeStep (server : RelayServer) (s : StakeRun) (call : StakeCall) : Option StakeRun :=
  some (s.called server call)

/-- The stake is read from the hub once the events are, and each change emits an event. -/
structure StakeCall.Follows (server : RelayServer) (hub : ℕ → StakeInfo) (s : StakeRun)
    (call : StakeCall) : Prop where
  delivered : s.delivered ≤ call.delivered
  version : s.version ≤ call.version
  answers : ∀ stakeInfo, call.round.Answers stakeInfo →
    Between hub call.delivered call.version stakeInfo
  emits : s.delivered < call.delivered → ∀ events,
    getPastEventsForHub server.dependencies.config server.relayHubAddress call.round.stakeScan
      server.managerAddress (.since call.lastScannedBlock) stakeEvents = .ok events →
        ∃ log ∈ events, log.event ∈ stakeEvents

/-- The last stake that was not zero. -/
def lastStake (stakesRead : List StakeInfo) : Option StakeInfo :=
  kept StakeInfo.isZero none stakesRead

/-- Where the call reads that there is no stake, the last stake it read was unlocked
or less than the minimum. -/
def UnlockedBeforeZero (server : RelayServer) (s : StakeRun) (call : StakeCall) : Prop :=
  skipsUnclaimed StakeInfo.isZero (·.isSufficient server.dependencies.config.managerMinStake)
    (lastStake s.stakesRead)
    ((s.called server call).stakesRead.drop s.stakesRead.length) = true

instance (server : RelayServer) (s : StakeRun) (call : StakeCall) :
    Decidable (UnlockedBeforeZero server s call) :=
  inferInstanceAs (Decidable (_ = true))

/-- The manager shows the last stake it read that was not zero. -/
structure StakeView.Shows (managerMinStake : ℤ) (x : StakeView) (last : Option StakeInfo) :
    Prop where
  isStakeLocked : x.isStakeLocked = last.any fun it => it.withdrawBlock = 0
  stakeRequired : x.stakeRequired = ⟨last.elim 0 fun it => it.stake, managerMinStake⟩

theorem StakeView.Shows.foldl {managerMinStake : ℤ} {x : StakeView} {last : Option StakeInfo}
    (h : x.Shows managerMinStake last) (stakes : List StakeInfo) :
    (stakes.foldl readStake x).Shows managerMinStake (kept StakeInfo.isZero last stakes) := by
  induction stakes generalizing x last with
  | nil => exact h
  | cons stakeInfo stakes ih =>
      apply ih
      unfold readStake Readings.next
      split
      · exact ⟨h.isStakeLocked, h.stakeRequired⟩
      · exact ⟨rfl, by rw [h.stakeRequired]; rfl⟩

theorem StakeView.stakesRead_foldl (x : StakeView) (stakes : List StakeInfo) :
    (stakes.foldl readStake x).stakesRead = x.stakesRead ++ stakes := by
  induction stakes generalizing x with
  | nil => exact (List.append_nil _).symm
  | cons stakeInfo stakes ih =>
      have hread : (x.readStake stakeInfo).stakesRead = x.stakesRead ++ [stakeInfo] := by
        unfold readStake
        split <;> rfl
      rw [List.foldl_cons, ih, hread, List.append_assoc, List.singleton_append]

def StakeRun.stakeView (s : StakeRun) : StakeView where
  isStakeLocked := s.registrationManager.isStakeLocked
  stakeRequired := s.registrationManager.stakeRequired
  stakesRead := s.stakesRead

/-- The manager shows the last stake it read, and a sufficient one is not out of date. -/
structure StakeRun.Mirrored (server : RelayServer) (hub : ℕ → StakeInfo) (s : StakeRun) :
    Prop where
  shows : s.stakeView.Shows server.dependencies.config.managerMinStake (lastStake s.stakesRead)
  mirrors : Mirrors hub (·.isSufficient server.dependencies.config.managerMinStake) s.delivered
    s.version (lastStake s.stakesRead)

section Run

variable {server : RelayServer} {hub : ℕ → StakeInfo} {s : StakeRun} {call : StakeCall}

/-- What a call reads of the stake: something, if the events it is given are new. -/
theorem called_reads (hfollows : call.Follows server hub s) :
    ∃ stakes : List StakeInfo, (∀ it ∈ stakes, call.round.Answers it) ∧
      (s.called server call).stakeView = stakes.foldl StakeView.readStake s.stakeView ∧
      (s.delivered < (s.called server call).delivered → stakes ≠ []) := by
  cases hreturns : returns (call.program server) (call.start s) with
  | false =>
      have hdelivered : (s.called server call).delivered = s.delivered := by
        simp [StakeRun.called, hreturns]
      obtain ⟨stakes, hstakes, hview⟩ := final_of_throws handlePastEvents_reads rfl hreturns
      exact ⟨stakes, hstakes, hview, fun hlt => absurd hdelivered hlt.ne'⟩
  | true =>
      have hdelivered : (s.called server call).delivered = call.delivered := by
        simp [StakeRun.called, hreturns]
      obtain ⟨events, hevents, hreads, hreadsSome⟩ :=
        final_of_returns handlePastEvents_reads rfl hreturns
      by_cases hnew : s.delivered < call.delivered
      · obtain ⟨stakes, hne, hstakes, hview⟩ := hreadsSome (hfollows.emits hnew events hevents)
        exact ⟨stakes, hstakes, hview, fun _ => hne⟩
      · obtain ⟨stakes, hstakes, hview⟩ := hreads
        exact ⟨stakes, hstakes, hview, fun hlt => absurd (hdelivered ▸ hlt) hnew⟩

theorem delivered_called_le {n : ℕ} (hs : s.delivered ≤ n) (hcall : call.delivered ≤ n) :
    (s.called server call).delivered ≤ n := by
  simp only [StakeRun.called]
  split
  · exact hcall
  · exact hs

theorem mirrored_called (h : s.Mirrored server hub) (hfollows : call.Follows server hub s)
    (hunlocked : UnlockedBeforeZero server s call) : (s.called server call).Mirrored server hub := by
  obtain ⟨stakes, hstakes, hview, hsome⟩ := called_reads hfollows
  have hread : (s.called server call).stakesRead = s.stakesRead ++ stakes := by
    have hread := congrArg StakeView.stakesRead hview
    rwa [StakeView.stakesRead_foldl] at hread
  have hlast : lastStake (s.called server call).stakesRead =
      kept StakeInfo.isZero (lastStake s.stakesRead) stakes := by
    rw [hread, lastStake, kept_append, lastStake]
  have hnew : (s.called server call).stakesRead.drop s.stakesRead.length = stakes := by
    rw [hread, List.drop_left]
  constructor
  · rw [hview, hlast]
    exact h.shows.foldl stakes
  · rw [hlast]
    refine h.mirrors.read (hnew ▸ hunlocked) (fun stakeInfo hmem => ?_) hfollows.version hsome
    exact (hfollows.answers stakeInfo (hstakes stakeInfo hmem)).mono
      (delivered_called_le hfollows.delivered le_rfl) le_rfl

theorem mirrored_initialized (lastWorkerAddedTransaction : Option TypedEvent) :
    (StakeRun.initialized server lastWorkerAddedTransaction).Mirrored server hub where
  shows := ⟨rfl, rfl⟩
  mirrors _ hlast := nomatch hlast

/-- A manager that is registered shows a sufficient stake. -/
theorem StakeView.Shows.sufficient {managerMinStake : ℤ} {last : Option StakeInfo}
    (h : s.stakeView.Shows managerMinStake last)
    (hregistered : s.registrationManager.isRegistered server = true) :
    ∃ stakeInfo, last = some stakeInfo ∧ stakeInfo.isSufficient managerMinStake = true := by
  obtain ⟨hstake, -⟩ := Bool.and_eq_true_iff.mp hregistered
  obtain ⟨hsatisfied, hlocked⟩ := Bool.and_eq_true_iff.mp hstake
  have hany := h.isStakeLocked.symm.trans hlocked
  have hamount : s.registrationManager.stakeRequired = _ := h.stakeRequired
  rw [hamount, AmountRequired.isSatisfied, decide_eq_true_eq] at hsatisfied
  cases last with
  | none => cases hany
  | some stakeInfo =>
      refine ⟨stakeInfo, rfl, ?_⟩
      exact Bool.and_eq_true_iff.mpr ⟨hany, decide_eq_true hsatisfied⟩

/-- Once the events of all changes are delivered, a manager that is registered has on
the hub a stake that is sufficient and locked: after calls that read no stake of zero
while they show a sufficient one. -/
theorem registered_stake_on_hub {lastWorkerAddedTransaction : Option TypedEvent}
    {calls : List StakeCall}
    (hfollows : Along (stakeStep server) (fun s call => call.Follows server hub s)
      (.initialized server lastWorkerAddedTransaction) calls)
    (hunlocked : Along (stakeStep server) (UnlockedBeforeZero server)
      (.initialized server lastWorkerAddedTransaction) calls)
    (hrun : run (stakeStep server) (.initialized server lastWorkerAddedTransaction) calls = some s)
    (hdelivered : s.delivered = s.version)
    (hregistered : s.registrationManager.isRegistered server = true) :
    server.dependencies.config.managerMinStake ≤ (hub s.version).stake ∧
      (hub s.version).withdrawBlock = 0 := by
  have hmirrored : s.Mirrored server hub :=
    invariant_of_along (fun s call s' h hallowed hstep =>
      Option.some.inj hstep ▸ mirrored_called h hallowed.1 hallowed.2)
      (mirrored_initialized lastWorkerAddedTransaction) (hfollows.and hunlocked) hrun
  obtain ⟨stakeInfo, hlast, hsufficient⟩ := hmirrored.shows.sufficient hregistered
  have hmirrors := hmirrored.mirrors
  rw [hdelivered] at hmirrors
  obtain rfl := hmirrors.eq_source hlast hsufficient
  rw [StakeInfo.isSufficient, Bool.and_eq_true, decide_eq_true_eq, decide_eq_true_eq] at hsufficient
  exact ⟨hsufficient.2, hsufficient.1⟩

end Run

/-- The owner stakes in block 3, unlocks the stake in block 7 and withdraws it in block 9. -/
def withdrawnChain : Chain where
  logs n :=
    if n = 3 then [sampleStakeAdded]
    else if n = 7 then [{ sampleStakeUnlocked with withdrawBlock := 9 }]
    else if n = 9 then [{ sampleStakeUnlocked with event := .stakeWithdrawn, blockNumber := 9 }]
    else []
  blockNumber_eq _ _ h :=
    blockNumber_of_mem_ite h rfl fun h =>
      blockNumber_of_mem_ite h rfl fun h =>
        blockNumber_of_mem_ite h rfl fun h => absurd h List.not_mem_nil

/-- The stake on the hub after each of its changes. -/
def sampleStakes : ℕ → StakeInfo
  | 0 => ⟨0, 0, sampleWorker⟩
  | 1 => ⟨5, 0, sampleWorker⟩
  | 2 => ⟨5, 9, sampleWorker⟩
  | _ => ⟨0, 0, sampleWorker⟩

/-- A call that is given the events up to the given change, when the node has got to
the given block and nothing changes after that. -/
def sampleStakeCall (lastScannedBlock currentBlock version : ℕ) : StakeCall where
  worker := .constructed sampleDependencies.config TxStore.empty
  round := { sampleRound (nodeAt withdrawnChain currentBlock) with
    blockNumber := currentBlock
    moments := fun _ => { sampleMoment with
      getStakeInfo := .ok (sampleStakes version)
      getRelayInfo := .ok ⟨true, sampleManager, true, sampleStakingServer.url⟩ } }
  hubEventsSinceLastScan := []
  lastScannedBlock
  currentBlock
  forceRegistration := false
  delivered := version
  version

def stakeEventsAt (call : StakeCall) : Except String (List TypedEvent) :=
  getPastEventsForHub sampleDependencies.config sampleHub call.round.stakeScan sampleManager
    (.since call.lastScannedBlock) stakeEvents

theorem sampleStakeCall_follows {s : StakeRun} {lastScannedBlock currentBlock version : ℕ}
    (hdelivered : s.delivered ≤ version) (hversion : s.version ≤ version)
    (hemits : (stakeEventsAt (sampleStakeCall lastScannedBlock currentBlock version)).toOption.all
      (·.any fun it => it.event ∈ stakeEvents) = true) :
    (sampleStakeCall lastScannedBlock currentBlock version).Follows sampleStakingServer
      sampleStakes s where
  delivered := hdelivered
  version := hversion
  answers stakeInfo hanswers := by
    obtain ⟨n, hanswer⟩ := hanswers
    exact ⟨version, le_rfl, le_rfl, (Except.ok.inj hanswer).symm⟩
  emits _ events hevents := by
    have hevents : stakeEventsAt _ = .ok events := hevents
    rw [hevents] at hemits
    obtain ⟨log, hlog, hevent⟩ := List.any_eq_true.mp hemits
    exact ⟨log, hlog, of_decide_eq_true hevent⟩

/-- The manager after calls. -/
def afterStakeCalls (calls : List StakeCall) : StakeRun :=
  calls.foldl (·.called sampleStakingServer ·) (.initialized sampleStakingServer none)

theorem run_stakeStep (calls : List StakeCall) :
    run (stakeStep sampleStakingServer) (.initialized sampleStakingServer none) calls =
      some (afterStakeCalls calls) :=
  run_of_total (fun _ _ => rfl) _ calls

theorem registered_stake_on_hub_staked :
    sampleStakingServer.dependencies.config.managerMinStake ≤ (sampleStakes 1).stake ∧
      (sampleStakes 1).withdrawBlock = 0 :=
  @registered_stake_on_hub sampleStakingServer sampleStakes
    (afterStakeCalls [sampleStakeCall 1 6 1]) none [sampleStakeCall 1 6 1]
    ⟨sampleStakeCall_follows (by decide) (by decide) (by decide +kernel), fun _ _ => trivial⟩
    (by decide +kernel) (run_stakeStep _) (by decide +kernel) (by decide +kernel)

/-- The unlock and the withdrawal are in one batch: both events have the manager read
that there is no stake, so it goes on showing the stake that was locked. -/
theorem registered_without_stake :
    ¬ ∀ (server : RelayServer) (hub : ℕ → StakeInfo) (s : StakeRun)
        (lastWorkerAddedTransaction : Option TypedEvent) (calls : List StakeCall),
      0 < server.dependencies.config.managerMinStake →
      Along (stakeStep server) (fun s call => call.Follows server hub s)
        (.initialized server lastWorkerAddedTransaction) calls →
      run (stakeStep server) (.initialized server lastWorkerAddedTransaction) calls = some s →
      s.delivered = s.version → s.registrationManager.isRegistered server = true →
      server.dependencies.config.managerMinStake ≤ (hub s.version).stake ∧
        (hub s.version).withdrawBlock = 0 := by
  intro h
  have hfollows : Along (stakeStep sampleStakingServer)
      (fun s call => call.Follows sampleStakingServer sampleStakes s)
      (.initialized sampleStakingServer none) [sampleStakeCall 1 6 1, sampleStakeCall 6 10 3] := by
    refine ⟨sampleStakeCall_follows (by decide) (by decide) (by decide +kernel), ?_⟩
    rintro s hstep
    obtain rfl := Option.some.inj hstep
    refine ⟨sampleStakeCall_follows ?_ (by decide : (1 : ℕ) ≤ 3) (by decide +kernel),
      fun _ _ => trivial⟩
    exact delivered_called_le (by decide) (by decide : (1 : ℕ) ≤ 3)
  have hstake := h sampleStakingServer sampleStakes
    (afterStakeCalls [sampleStakeCall 1 6 1, sampleStakeCall 6 10 3]) none _ (by decide) hfollows
    (run_stakeStep _) (by decide +kernel) (by decide +kernel)
  exact absurd hstake.1 (by decide)

end RifRelayServer
