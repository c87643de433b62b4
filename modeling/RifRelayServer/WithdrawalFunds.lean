import RifRelayServer.DeferredUnlocks
import Mathlib

/-!
# What the withdrawals of a call commit

Each withdrawal commits the whole balance of an account, its transfer's cost included.
The node's balances do not know of the transactions under way: a call that withdraws
from an account twice commits its balance twice.
-/

namespace RifRelayServer

open Std.Do Keeping

set_option mvcgen.warning false

/-- The value of the transaction and the most that it can cost. -/
def SendTransactionDetails.committed (details : SendTransactionDetails) : ℤ :=
  details.value.getD 0 + (details.gasLimit : ℤ) * (details.gasPrice.getD 0 : ℕ)

def WithdrawalReading.isAffordable (reading : WithdrawalReading) : Bool :=
  minTxGasCost * reading.gasPrice ≤ reading.balance

namespace Withdrawals

/-- Every reading is of a gas price of the node and of the account's balance, and each one
that covers the cost of a transfer has been committed whole. -/
structure Committed (round : Round) (balances : Address → ℕ) (withdrawals : Withdrawals) :
    Prop where
  created : withdrawals.created.map (fun details => (details.signer, details.committed)) =
    (withdrawals.readings.filter (·.isAffordable)).map
      fun reading => (reading.signer, (reading.balance : ℤ))
  read : ∀ reading ∈ withdrawals.readings, reading.balance = balances reading.signer ∧
    ∃ n, (round.moments n).provider.getGasPrice = .ok reading.gasPrice

variable {round : Round} {balances : Address → ℕ} {withdrawals : Withdrawals}

theorem committed_empty : Committed round balances empty where
  created := rfl
  read := by simp [empty]

variable {signer owner : Address} {gasPrice balance currentBlock : ℕ}

theorem Committed.decline (h : Committed round balances withdrawals)
    (hbalance : balance = balances signer)
    (hprice : ∃ n, (round.moments n).provider.getGasPrice = .ok gasPrice)
    (hcost : balance < minTxGasCost * gasPrice) :
    Committed round balances { withdrawals with
      readings := withdrawals.readings ++ [⟨signer, gasPrice, balance⟩] } where
  created := by
    have hpoor : WithdrawalReading.isAffordable ⟨signer, gasPrice, balance⟩ = false :=
      decide_eq_false (not_le.mpr hcost)
    rw [List.filter_append, List.filter_singleton, hpoor]
    simpa using h.created
  read := List.forall_mem_append.mpr ⟨h.read, by simpa using ⟨hbalance, hprice⟩⟩

theorem Committed.transfer (h : Committed round balances withdrawals)
    (hbalance : balance = balances signer)
    (hprice : ∃ n, (round.moments n).provider.getGasPrice = .ok gasPrice)
    (hcost : ¬ balance < minTxGasCost * gasPrice) :
    Committed round balances { withdrawals with
      readings := withdrawals.readings ++ [⟨signer, gasPrice, balance⟩]
      created := withdrawals.created ++ [{
        signer
        serverAction := .valueTransfer
        method := none
        destination := owner
        value := some ((balance : ℤ) - (minTxGasCost * gasPrice : ℕ))
        gasLimit := minTxGasCost
        gasPrice := some gasPrice
        creationBlockNumber := currentBlock }] } where
  created := by
    have hrich : WithdrawalReading.isAffordable ⟨signer, gasPrice, balance⟩ = true :=
      decide_eq_true (not_lt.mp hcost)
    rw [List.map_append, h.created, List.filter_append, List.filter_singleton, hrich]
    simp [SendTransactionDetails.committed]
  read := List.forall_mem_append.mpr ⟨h.read, by simpa using ⟨hbalance, hprice⟩⟩

/-- What was created for an account commits in all. -/
def committedOf (withdrawals : Withdrawals) (signer : Address) : ℤ :=
  ((withdrawals.created.filter (·.signer = signer)).map (·.committed)).sum

def readingsOf (withdrawals : Withdrawals) (signer : Address) : List WithdrawalReading :=
  withdrawals.readings.filter (·.signer = signer)

def affordableOf (withdrawals : Withdrawals) (signer : Address) : List WithdrawalReading :=
  (withdrawals.readingsOf signer).filter (·.isAffordable)

theorem Committed.committedOf_eq (h : Committed round balances withdrawals) (signer : Address) :
    withdrawals.committedOf signer =
      (withdrawals.affordableOf signer).length * (balances signer : ℤ) := by
  have hpairs := congrArg
    (fun pairs : List (Address × ℤ) => ((pairs.filter (·.1 = signer)).map Prod.snd).sum) h.created
  simp only [List.filter_map, List.map_map, Function.comp_def, List.filter_filter] at hpairs
  have hbalance : ∀ reading ∈ withdrawals.affordableOf signer,
      (reading.balance : ℤ) = balances signer := by
    intro reading hmem
    obtain ⟨hreading, hsigner⟩ := List.mem_filter.mp (List.mem_of_mem_filter hmem)
    rw [(h.read reading hreading).1, of_decide_eq_true hsigner]
  have hswap : (withdrawals.readings.filter fun reading =>
      decide (reading.signer = signer) && reading.isAffordable) =
      withdrawals.affordableOf signer := by
    rw [affordableOf, readingsOf, List.filter_filter]
    exact List.filter_congr fun reading _ => Bool.and_comm _ _
  rw [committedOf, hpairs, hswap, List.map_congr_left hbalance, List.map_const', List.sum_replicate,
    nsmul_eq_mul]

theorem Committed.of_mem_affordableOf (h : Committed round balances withdrawals)
    {reading : WithdrawalReading} (hreading : reading ∈ withdrawals.affordableOf signer) :
    (∃ n, (round.moments n).provider.getGasPrice = .ok reading.gasPrice) ∧
      minTxGasCost * reading.gasPrice ≤ balances signer := by
  obtain ⟨hread, haffordable⟩ := List.mem_filter.mp hreading
  obtain ⟨hmem, hsigner⟩ := List.mem_filter.mp hread
  obtain ⟨hbalance, hprice⟩ := h.read reading hmem
  rw [of_decide_eq_true hsigner] at hbalance
  exact ⟨hprice, hbalance ▸ of_decide_eq_true haffordable⟩

end Withdrawals

/-- What the node answers of balances is the same throughout the round. -/
def Round.Balanced (round : Round) (balances : Address → ℕ) : Prop :=
  ∀ n signer balance, (round.moments n).getBalance signer = .ok balance → balance = balances signer

/-- The program commits what it reads, no more and no less. -/
abbrev KeepsCommitted {α : Type} (round : Round) (balances : Address → ℕ) (program : RoundM α) :
    Prop :=
  Keeps (fun state => state.withdrawals.Committed round balances) program

section Committed

variable {server : RelayServer} {round : Round} {balances : Address → ℕ} {x : WorkerState}

theorem receive_answered {α : Type} {answer : Moment → Except String α} :
    ⦃fun state => ⌜state.apart = x⌝⦄ receive server round answer
    ⦃post⟨fun a state => ⌜state.apart = x ∧ ∃ n, answer (round.moments n) = .ok a⌝,
      fun _ state => ⌜state.apart = x⌝⟩⦄ := by
  mvcgen [-receive_keepsApart, -awaited_keepsApart, receive, awaited] with grind [WorkerState.apart]

theorem sendEthBalanceToOwner_committed (hbalanced : round.Balanced balances) {signer : Address}
    {currentBlock : ℕ} :
    KeepsCommitted round balances (sendEthBalanceToOwner server round signer currentBlock) := by
  mvcgen [-sendEthBalanceToOwner_keeps, -noteWithdrawals_keeps, -receive_keepsApart,
    receive_answered, sendEthBalanceToOwner, noteWithdrawals]
    with grind [Round.Balanced, Withdrawals.Committed.decline, Withdrawals.Committed.transfer]

theorem withdrawAllFunds_committed (hbalanced : round.Balanced balances) {withdrawManager : Bool}
    {currentBlock : ℕ} :
    KeepsCommitted round balances (withdrawAllFunds server round withdrawManager currentBlock) := by
  mvcgen [-withdrawAllFunds_keeps, -sendEthBalanceToOwner_keeps, withdrawAllFunds,
    sendWorkersEthBalancesToOwner, sendManagerEthBalanceToOwner, sendEthBalanceToOwner_committed]

theorem refreshStake_committed : KeepsCommitted round balances (refreshStake server round) := by
  mvcgen [refreshStake, noteStakeRead, updateRegistrationManager] with grind

theorem handleStakeEvent_committed (hbalanced : round.Balanced balances) {currentBlock : ℕ}
    {eventData : TypedEvent} :
    KeepsCommitted round balances (handleStakeEvent server round currentBlock eventData) := by
  mvcgen [-withdrawAllFunds_keeps, handleStakeEvent, noteActed, updateRegistrationManager,
    handleStakeWithdrawnEvent, withdrawAllFunds_committed, refreshStake_committed]

theorem handleDelayedEvent_committed (hbalanced : round.Balanced balances) {currentBlock : ℕ}
    {eventData : TypedEvent} :
    KeepsCommitted round balances (handleDelayedEvent server round currentBlock eventData) := by
  mvcgen [-handleDelayedEvent_keeps, -withdrawAllFunds_keeps, -noteWithdrawals_keeps,
    handleDelayedEvent, noteWithdrawals, handleStakeUnlockedEvent, withdrawAllFunds_committed]
    with grind [Withdrawals.Committed]

theorem handlePastEvents_committed (hbalanced : round.Balanced balances)
    {hubEventsSinceLastScan : List TypedEvent} {lastScannedBlock currentBlock : ℕ}
    {forceRegistration : Bool} :
    KeepsCommitted round balances (handlePastEvents server round hubEventsSinceLastScan lastScannedBlock
      currentBlock forceRegistration) := by
  have hstake : ∀ events, KeepsCommitted round balances
      (handleEach (handleStakeEvent server round currentBlock) events) :=
    keeps_handleEach fun _ => handleStakeEvent_committed hbalanced
  have hdelayed : ∀ events, KeepsCommitted round balances
      (handleEach (handleDelayedEvent server round currentBlock) events) :=
    keeps_handleEach fun _ => handleDelayedEvent_committed hbalanced
  mvcgen [-handleDelayedEvents_keeps, handlePastEvents, noteHanded, fetchStakeEvents, noteStakeScan,
    updateRegistrationManager, extractDuePendingEvents, hstake, hdelayed] with grind

end Committed

/-- How many of the withdrawals of `withdrawAllFunds` are from the account. -/
def RelayServer.withdrawalsFrom (server : RelayServer) (signer : Address)
    (withdrawManager : Bool) : ℕ :=
  (if signer = server.workerAddress then 1 else 0) +
    if withdrawManager = true ∧ signer = server.managerAddress then 1 else 0

/-- How many withdrawals from the account a stake event of the batch brings about. -/
def RelayServer.triggeredBy (server : RelayServer) (signer : Address) (currentBlock : ℕ)
    (eventData : TypedEvent) : ℕ :=
  match eventData.event with
  | .stakeUnlocked =>
      if eventData.withdrawBlock ≤ currentBlock then server.withdrawalsFrom signer false else 0
  | .stakeWithdrawn => server.withdrawalsFrom signer true
  | _ => 0

def DelayedEvent.isDueUnlock (currentBlock : ℕ) (event : DelayedEvent) : Bool :=
  event.block ≤ currentBlock && event.eventData.event = .stakeUnlocked

/-- The state has read the account, or may still, `total` times at most: `rest` times
besides the unlocks in the queue. -/
def WorkerState.Within (server : RelayServer) (signer : Address) (currentBlock total rest : ℕ)
    (state : WorkerState) : Prop :=
  (state.withdrawals.readingsOf signer).length +
    state.registrationManager.delayedEvents.countP (·.isDueUnlock currentBlock) *
      server.withdrawalsFrom signer false + rest ≤ total

section Within

variable {server : RelayServer} {round : Round} {signer : Address} {currentBlock total rest : ℕ}
  {x : WorkerState}

theorem WorkerState.Within.mono {state : WorkerState} {fewer : ℕ}
    (h : state.Within server signer currentBlock total rest) (hle : fewer ≤ rest) :
    state.Within server signer currentBlock total fewer :=
  (Nat.add_le_add_left hle _).trans h

theorem sendEthBalanceToOwner_within {account : Address} :
    ⦃fun state => ⌜state.Within server signer currentBlock total
      (rest + if signer = account then 1 else 0)⌝⦄
    sendEthBalanceToOwner server round account currentBlock
    ⦃post⟨fun _ state => ⌜state.Within server signer currentBlock total rest⌝,
      fun _ state => ⌜state.Within server signer currentBlock total rest⌝⟩⦄ := by
  mvcgen [-sendEthBalanceToOwner_keeps, -noteWithdrawals_keeps, sendEthBalanceToOwner,
    noteWithdrawals] with grind [WorkerState.Within, Withdrawals.readingsOf]

theorem withdrawAllFunds_within {withdrawManager : Bool} :
    ⦃fun state => ⌜state.Within server signer currentBlock total
      (rest + server.withdrawalsFrom signer withdrawManager)⌝⦄
    withdrawAllFunds server round withdrawManager currentBlock
    ⦃post⟨fun _ state => ⌜state.Within server signer currentBlock total rest⌝,
      fun _ state => ⌜state.Within server signer currentBlock total rest⌝⟩⦄ := by
  have hworker := @sendEthBalanceToOwner_within server round signer currentBlock total
    (rest + if withdrawManager = true ∧ signer = server.managerAddress then 1 else 0)
    server.workerAddress
  have hmanager := @sendEthBalanceToOwner_within server round signer currentBlock total rest
    server.managerAddress
  mvcgen [-withdrawAllFunds_keeps, -sendEthBalanceToOwner_keeps, withdrawAllFunds,
    sendWorkersEthBalancesToOwner, sendManagerEthBalanceToOwner, hworker, hmanager]
    with grind [RelayServer.withdrawalsFrom, WorkerState.Within]

theorem refreshStake_within :
    Keeps (fun state => state.Within server signer currentBlock total rest)
      (refreshStake server round) := by
  mvcgen [refreshStake, noteStakeRead, updateRegistrationManager]
    with grind [WorkerState.Within, RegistrationManager.setStake]

theorem RelayServer.triggeredBy_withdrawn {eventData : TypedEvent}
    (h : eventData.event = .stakeWithdrawn) :
    server.triggeredBy signer currentBlock eventData = server.withdrawalsFrom signer true := by
  simp [triggeredBy, h]

/-- A delayed unlock is accounted for in the queue. -/
theorem WorkerState.Within.defer {state : WorkerState} {eventData : TypedEvent}
    (h : state.Within server signer currentBlock total
      (rest + server.triggeredBy signer currentBlock eventData))
    (hevent : eventData.event = .stakeUnlocked) :
    WorkerState.Within server signer currentBlock total rest { state with
      registrationManager := { state.registrationManager with
        delayedEvents := state.registrationManager.delayedEvents ++
          [⟨eventData.withdrawBlock, eventData⟩] }
      acted := state.acted ++ [eventData] } := by
  unfold Within at h ⊢
  by_cases hdue : eventData.withdrawBlock ≤ currentBlock
  · simp only [RelayServer.triggeredBy, hevent, if_pos hdue] at h
    simp only [List.countP_append, List.countP_singleton, DelayedEvent.isDueUnlock, hdue, hevent,
      decide_true, Bool.and_self, if_true, add_mul]
    simp only [DelayedEvent.isDueUnlock] at h
    omega
  · simp only [RelayServer.triggeredBy, hevent, if_neg hdue] at h
    simp only [List.countP_append, List.countP_singleton, DelayedEvent.isDueUnlock, hdue,
      decide_false, Bool.false_and, Bool.false_eq_true, if_false, add_zero]
    simp only [DelayedEvent.isDueUnlock] at h
    omega

theorem handleStakeEvent_within {eventData : TypedEvent} :
    ⦃fun state => ⌜state.Within server signer currentBlock total
      (rest + server.triggeredBy signer currentBlock eventData)⌝⦄
    handleStakeEvent server round currentBlock eventData
    ⦃post⟨fun _ state => ⌜state.Within server signer currentBlock total rest⌝,
      fun _ state => ⌜state.Within server signer currentBlock total rest⌝⟩⦄ := by
  have hrefresh := @refreshStake_within server round signer currentBlock total
    (rest + server.triggeredBy signer currentBlock eventData)
  have hwithdraw := @withdrawAllFunds_within server round signer currentBlock total rest true
  mvcgen [-withdrawAllFunds_keeps, handleStakeEvent, noteActed, updateRegistrationManager,
    handleStakeWithdrawnEvent, hrefresh, hwithdraw]
    with grind [WorkerState.Within, RelayServer.triggeredBy_withdrawn, → WorkerState.Within.defer]

theorem handleStakeEvents_within (events : List TypedEvent) :
    ⦃fun state => ⌜state.Within server signer currentBlock total
      ((events.map (server.triggeredBy signer currentBlock)).sum)⌝⦄
    handleEach (handleStakeEvent server round currentBlock) events
    ⦃post⟨fun _ state => ⌜state.Within server signer currentBlock total 0⌝,
      fun _ state => ⌜state.Within server signer currentBlock total 0⌝⟩⦄ := by
  induction events with
  | nil => mvcgen [handleEach]
  | cons eventData events ih =>
      have hhead := @handleStakeEvent_within server round signer currentBlock total
        ((events.map (server.triggeredBy signer currentBlock)).sum) eventData
      mvcgen [handleEach, hhead, ih] with grind [WorkerState.Within.mono]

theorem countP_dueUnlocks (delayedEvents : List DelayedEvent) :
    ((delayedEvents.filter fun event => event.block ≤ currentBlock).map (·.eventData)).countP
        (·.event = .stakeUnlocked) =
      delayedEvents.countP (·.isDueUnlock currentBlock) := by
  rw [List.countP_map, List.countP_filter]
  apply List.countP_congr
  intro event _
  simp [DelayedEvent.isDueUnlock, and_comm]

theorem countP_notYetDue (delayedEvents : List DelayedEvent) :
    (delayedEvents.filter fun event => currentBlock < event.block).countP
      (·.isDueUnlock currentBlock) = 0 := by
  rw [List.countP_eq_zero]
  intro event hevent hdue
  have hlater := of_decide_eq_true (List.mem_filter.mp hevent).2
  rw [DelayedEvent.isDueUnlock, Bool.and_eq_true, decide_eq_true_iff] at hdue
  exact hlater.not_ge hdue.1

/-- The unlocks that are due are taken out of the queue to be acted on. -/
theorem extractDuePendingEvents_within :
    ⦃fun state => ⌜state.Within server signer currentBlock total 0⌝⦄
    extractDuePendingEvents currentBlock
    ⦃post⟨fun dueEvents state => ⌜state.Within server signer currentBlock total
        (dueEvents.countP (·.event = .stakeUnlocked) * server.withdrawalsFrom signer false)⌝,
      fun _ _ => ⌜False⌝⟩⦄ := by
  mvcgen [extractDuePendingEvents, updateRegistrationManager]
  next h _ _ =>
    simp only [WorkerState.Within] at h ⊢
    rw [countP_dueUnlocks, countP_notYetDue, Nat.zero_mul, Nat.add_zero]
    exact h

/-- How many withdrawals from the account a delayed event brings about. -/
def RelayServer.dueTriggers (server : RelayServer) (signer : Address) (events : List TypedEvent) :
    ℕ :=
  events.countP (·.event = .stakeUnlocked) * server.withdrawalsFrom signer false

theorem RelayServer.dueTriggers_cons {eventData : TypedEvent} {events : List TypedEvent} :
    server.dueTriggers signer (eventData :: events) =
      server.dueTriggers signer events +
        if eventData.event = .stakeUnlocked then server.withdrawalsFrom signer false else 0 := by
  rw [dueTriggers, dueTriggers, List.countP_cons, add_mul]
  by_cases hevent : eventData.event = .stakeUnlocked <;> simp [hevent]

theorem handleDelayedEvent_within {eventData : TypedEvent} :
    ⦃fun state => ⌜state.Within server signer currentBlock total (rest +
      if eventData.event = .stakeUnlocked then server.withdrawalsFrom signer false else 0)⌝⦄
    handleDelayedEvent server round currentBlock eventData
    ⦃post⟨fun _ state => ⌜state.Within server signer currentBlock total rest⌝,
      fun _ state => ⌜state.Within server signer currentBlock total rest⌝⟩⦄ := by
  have hwithdraw := @withdrawAllFunds_within server round signer currentBlock total rest false
  mvcgen [-handleDelayedEvent_keeps, -withdrawAllFunds_keeps, -noteWithdrawals_keeps,
    handleDelayedEvent, noteWithdrawals, handleStakeUnlockedEvent, hwithdraw]
    with grind [WorkerState.Within, Withdrawals.readingsOf]

theorem handleDelayedEvents_within (events : List TypedEvent) :
    ⦃fun state => ⌜state.Within server signer currentBlock total
      (server.dueTriggers signer events)⌝⦄
    handleEach (handleDelayedEvent server round currentBlock) events
    ⦃post⟨fun _ state => ⌜state.Within server signer currentBlock total 0⌝,
      fun _ state => ⌜state.Within server signer currentBlock total 0⌝⟩⦄ := by
  induction events with
  | nil =>
      mvcgen [-handleDelayedEvents_keeps, handleEach]
      next h => simpa [RelayServer.dueTriggers] using h
  | cons eventData events ih =>
      have hhead := @handleDelayedEvent_within server round signer currentBlock total
        (server.dueTriggers signer events) eventData
      mvcgen [-handleDelayedEvents_keeps, -handleDelayedEvent_keeps, handleEach, hhead, ih]
        with grind [WorkerState.Within.mono, RelayServer.dueTriggers_cons]

/-- The stake events that a call gets. -/
def stakeBatch (server : RelayServer) (round : Round) (lastScannedBlock : ℕ) : List TypedEvent :=
  (getPastEventsForHub server.dependencies.config server.relayHubAddress round.stakeScan
    server.managerAddress (.since lastScannedBlock) stakeEvents).toOption.getD []

theorem fetchStakeEvents_within {lastScannedBlock : ℕ} :
    ⦃fun state => ⌜state.Within server signer currentBlock total rest⌝⦄
    fetchStakeEvents server round (.since lastScannedBlock)
    ⦃post⟨fun events state => ⌜events = stakeBatch server round lastScannedBlock ∧
        state.Within server signer currentBlock total rest⌝,
      fun _ state => ⌜state.Within server signer currentBlock total rest⌝⟩⦄ := by
  mvcgen [fetchStakeEvents, noteStakeScan, noteHanded]
    with grind [WorkerState.Within, stakeBatch, Except.toOption]

theorem handlePastEvents_within {hubEventsSinceLastScan : List TypedEvent} {lastScannedBlock : ℕ}
    {forceRegistration : Bool} :
    ⦃fun state => ⌜state.Within server signer currentBlock total
      (((stakeBatch server round lastScannedBlock).map (server.triggeredBy signer currentBlock)).sum)⌝⦄
    handlePastEvents server round hubEventsSinceLastScan lastScannedBlock currentBlock
      forceRegistration
    ⦃post⟨fun _ state => ⌜state.Within server signer currentBlock total 0⌝,
      fun _ state => ⌜state.Within server signer currentBlock total 0⌝⟩⦄ := by
  have hfetch := @fetchStakeEvents_within server round signer currentBlock total
    (((stakeBatch server round lastScannedBlock).map (server.triggeredBy signer currentBlock)).sum)
    lastScannedBlock
  have hstake := @handleStakeEvents_within server round signer currentBlock total
  have hextract := @extractDuePendingEvents_within server signer currentBlock total
  have hdelayed := @handleDelayedEvents_within server round signer currentBlock total
  mvcgen [-handleDelayedEvents_keeps, handlePastEvents, noteHanded, updateRegistrationManager,
    hfetch, hstake, hextract, hdelayed]
    with grind [WorkerState.Within, RelayServer.dueTriggers, WorkerState.Within.mono]

end Within

namespace PastEventsCall

/-- What the call does of withdrawals. -/
def withdrawals (server : RelayServer) (call : PastEventsCall) : Withdrawals :=
  (final (call.program server) { call.worker with withdrawals := .empty }).withdrawals

/-- How many withdrawals from the account the stake events of the call and the unlocks in
the queue bring about. -/
def triggers (server : RelayServer) (call : PastEventsCall) (signer : Address) : ℕ :=
  ((stakeBatch server call.round call.lastScannedBlock).map
      (server.triggeredBy signer call.currentBlock)).sum +
    call.worker.registrationManager.delayedEvents.countP (·.isDueUnlock call.currentBlock) *
      server.withdrawalsFrom signer false

variable {server : RelayServer} {call : PastEventsCall} {balances : Address → ℕ}

theorem withdrawals_committed (hbalanced : call.round.Balanced balances) :
    (call.withdrawals server).Committed call.round balances :=
  (handlePastEvents_committed hbalanced).final Withdrawals.committed_empty

theorem length_readingsOf_le (signer : Address) :
    ((call.withdrawals server).readingsOf signer).length ≤ call.triggers server signer := by
  have hstart : WorkerState.Within server signer call.currentBlock (call.triggers server signer)
      ((stakeBatch server call.round call.lastScannedBlock).map
        (server.triggeredBy signer call.currentBlock)).sum
      { call.worker with withdrawals := .empty } := by
    simp [WorkerState.Within, triggers, Withdrawals.readingsOf, Withdrawals.empty, add_comm]
  have hwithin : WorkerState.Within server signer call.currentBlock (call.triggers server signer) 0
      (final (call.program server) { call.worker with withdrawals := .empty }) :=
    final_post handlePastEvents_within hstart
  exact (Nat.le_add_right _ _).trans ((Nat.le_add_right _ _).trans hwithin)

end PastEventsCall

/-- The withdrawals of a call commit no more than the balance of an account exactly when
the account is empty or at most one of them is answered a gas price at which the balance
pays for a transfer. There are no more of them than withdrawn stakes in the batch and, for
the worker, unlocks that are due. -/
theorem withdrawals_covered_iff {server : RelayServer} {call : PastEventsCall}
    {balances : Address → ℕ} (hbalanced : call.round.Balanced balances) (signer : Address) :
    ((call.withdrawals server).committedOf signer ≤ balances signer ↔
      balances signer = 0 ∨ ((call.withdrawals server).affordableOf signer).length ≤ 1) ∧
      (∀ reading ∈ (call.withdrawals server).affordableOf signer,
        (∃ n, (call.round.moments n).provider.getGasPrice = .ok reading.gasPrice) ∧
          minTxGasCost * reading.gasPrice ≤ balances signer) ∧
      ((call.withdrawals server).affordableOf signer).length ≤ call.triggers server signer := by
  refine ⟨?_, fun reading hreading =>
      (PastEventsCall.withdrawals_committed hbalanced).of_mem_affordableOf hreading,
    (List.length_filter_le _ _).trans (call.length_readingsOf_le signer)⟩
  rw [(PastEventsCall.withdrawals_committed hbalanced).committedOf_eq signer]
  rcases Nat.eq_zero_or_pos (balances signer) with hzero | hpos
  · simp [hzero]
  · have hpos' : (0 : ℤ) < balances signer := by exact_mod_cast hpos
    rw [mul_le_iff_le_one_left hpos', or_iff_right hpos.ne']
    exact_mod_cast Iff.rfl

def sampleBalances (signer : Address) : ℕ := if signer = sampleWorker then 1000000 else 0

/-- An unlock in the queue is due at the block of the call. -/
def sampleWithdrawalCall (events : List TypedEvent) : PastEventsCall :=
  let call := sampleDeferralCall events (.ok 10) 1000
  { call with
    worker := { call.worker with
      registrationManager := { call.worker.registrationManager with
        delayedEvents := [⟨1000, sampleStakeUnlocked⟩] } }
    round := { call.round with
      moments := fun n => { call.round.moments n with
        getBalance := fun signer => .ok (sampleBalances signer) } } }

theorem balanced_sampleWithdrawalCall (events : List TypedEvent) :
    (sampleWithdrawalCall events).round.Balanced sampleBalances :=
  fun _ _ _ h => (Except.ok.inj h).symm

theorem withdrawals_covered_due_unlock_iff :
    (((sampleWithdrawalCall []).withdrawals sampleStakingServer).committedOf sampleWorker ≤
        sampleBalances sampleWorker ↔
      sampleBalances sampleWorker = 0 ∨
        (((sampleWithdrawalCall []).withdrawals sampleStakingServer).affordableOf
          sampleWorker).length ≤ 1) ∧
      (∀ reading ∈ ((sampleWithdrawalCall []).withdrawals sampleStakingServer).affordableOf
          sampleWorker,
        (∃ n, ((sampleWithdrawalCall []).round.moments n).provider.getGasPrice =
            .ok reading.gasPrice) ∧
          minTxGasCost * reading.gasPrice ≤ sampleBalances sampleWorker) ∧
      (((sampleWithdrawalCall []).withdrawals sampleStakingServer).affordableOf
          sampleWorker).length ≤
        (sampleWithdrawalCall []).triggers sampleStakingServer sampleWorker :=
  withdrawals_covered_iff (balanced_sampleWithdrawalCall []) sampleWorker

/-- The owner withdraws the stake in the block in which its unlock is due. -/
def sampleStakeWithdrawn : TypedEvent :=
  { sampleStakeUnlocked with event := .stakeWithdrawn, blockNumber := 1000 }

theorem balance_committed_twice :
    ¬ ∀ (server : RelayServer) (call : PastEventsCall) (balances : Address → ℕ),
      call.round.Balanced balances →
      ∀ signer ∈ [server.workerAddress, server.managerAddress],
        (call.withdrawals server).committedOf signer ≤ balances signer := by
  intro h
  have hcovered := h sampleStakingServer (sampleWithdrawalCall [sampleStakeWithdrawn])
    sampleBalances (balanced_sampleWithdrawalCall _) sampleWorker (by decide)
  exact absurd hcovered (by decide +kernel)

end RifRelayServer
