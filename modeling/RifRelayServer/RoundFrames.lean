import RifRelayServer.Rounds
import RifRelayServer.Lib.Keeping
import Mathlib

/-!
# What a round leaves alone

Most steps of a round work on the transactions under way only. Whatever they
are answered, and wherever they fail, the rest of the state stays as it is.
-/

namespace RifRelayServer

open Std.Do Keeping

set_option mvcgen.warning false

/-- All of the state but the transactions under way and the count of answers. -/
def WorkerState.apart (state : WorkerState) : WorkerState :=
  { state with transactionManager := .initial, received := 0 }

/-- The program works on the transactions under way only. -/
abbrev KeepsApart {α : Type} (x : WorkerState) (program : RoundM α) : Prop :=
  Keeps (fun state => state.apart = x) program

@[grind →] theorem WorkerState.eq_of_apart {s t : WorkerState} (h : s.apart = t.apart) :
    s.initialized = t.initialized ∧ s.scan = t.scan ∧ s.ready = t.ready ∧
      s.lastSuccessfulRounds = t.lastSuccessfulRounds ∧ s.gasPrice = t.gasPrice ∧
      s.alerted = t.alerted ∧ s.alertedBlock = t.alertedBlock ∧
      s.workerBalanceRequired = t.workerBalanceRequired ∧
      s.registrationManager = t.registrationManager ∧ s.acted = t.acted ∧
      s.stakesRead = t.stakesRead ∧ s.withdrawals = t.withdrawals := by
  simp only [apart, WorkerState.mk.injEq] at h
  simp only [h, and_self]

/-- All of that but what is noted of withdrawals. -/
def WorkerState.besideFunds (state : WorkerState) : WorkerState :=
  { state.apart with withdrawals := .empty }

/-- The program works on the transactions under way, and notes withdrawals. -/
abbrev KeepsBesideFunds {α : Type} (x : WorkerState) (program : RoundM α) : Prop :=
  Keeps (fun state => state.besideFunds = x) program

@[grind →] theorem WorkerState.eq_of_besideFunds {s t : WorkerState}
    (h : s.besideFunds = t.besideFunds) :
    s.initialized = t.initialized ∧ s.scan = t.scan ∧ s.ready = t.ready ∧
      s.lastSuccessfulRounds = t.lastSuccessfulRounds ∧ s.gasPrice = t.gasPrice ∧
      s.alerted = t.alerted ∧ s.alertedBlock = t.alertedBlock ∧
      s.workerBalanceRequired = t.workerBalanceRequired ∧
      s.registrationManager = t.registrationManager ∧ s.acted = t.acted ∧
      s.stakesRead = t.stakesRead := by
  simp only [besideFunds, apart, WorkerState.mk.injEq] at h
  simp only [h, and_self]

theorem WorkerState.besideFunds_of_apart {s t : WorkerState} (h : s.apart = t.apart) :
    s.besideFunds = t.besideFunds := by
  rw [besideFunds, besideFunds, h]

section KeepsApart

variable {server : RelayServer} {round : Round} {x : WorkerState}

@[spec] theorem awaited_keepsApart {α : Type} {answer : Except String α} :
    KeepsApart x (awaited answer) := by
  mvcgen [awaited]

@[spec] theorem receive_keepsApart {α : Type} {answer : Moment → Except String α} :
    KeepsApart x (receive server round answer) := by
  mvcgen [receive]

@[spec] theorem focusManager_keepsApart {α : Type} (program : ManagerM α) :
    KeepsApart x (focus WorkerState.transactionManager
      (fun transactionManager state => { state with transactionManager }) program) := by
  apply keeps_focus
  intro s t hs
  exact hs

@[spec] theorem callManager_keepsApart {α : Type} {program : Provider → ManagerM α} :
    KeepsApart x (callManager server round program) := by
  mvcgen [callManager] with grind

@[spec] theorem findActionPending_keepsApart {serverAction : ServerAction}
    {destination : Option Address} :
    KeepsApart x (findActionPending server round serverAction destination) := by
  mvcgen [findActionPending] with grind

@[spec] theorem scanLogs_spec {provider : LogProvider} {options : PastEventOptions}
    {names : List ManagerEvent} :
    ⦃fun state => ⌜state.apart = x⌝⦄ scanLogs server provider options names
    ⦃post⟨fun events state => ⌜getPastEventsForHub server.dependencies.config
        server.relayHubAddress provider server.managerAddress options names = .ok events ∧
        state.apart = x⌝,
      fun _ state => ⌜state.apart = x⌝⟩⦄ := by
  mvcgen [scanLogs, RifRelayServer.awaited]

@[spec] theorem noteWithdrawals_keeps {note : Withdrawals → Withdrawals} :
    KeepsBesideFunds x (noteWithdrawals note) := by
  mvcgen [noteWithdrawals]

@[spec] theorem sendEthBalanceToOwner_keeps {signer : Address} {currentBlock : ℕ} :
    KeepsBesideFunds x (sendEthBalanceToOwner server round signer currentBlock) := by
  mvcgen [sendEthBalanceToOwner] with grind [WorkerState.besideFunds_of_apart]

@[spec] theorem withdrawAllFunds_keeps {withdrawManager : Bool} {currentBlock : ℕ} :
    KeepsBesideFunds x (withdrawAllFunds server round withdrawManager currentBlock) := by
  mvcgen [withdrawAllFunds, sendWorkersEthBalancesToOwner, sendManagerEthBalanceToOwner] with grind

@[spec] theorem handleDelayedEvent_keeps {currentBlock : ℕ} {eventData : TypedEvent} :
    KeepsBesideFunds x (handleDelayedEvent server round currentBlock eventData) := by
  mvcgen [handleDelayedEvent, handleStakeUnlockedEvent] with grind

/-- A loop over events keeps what its body keeps. -/
theorem keeps_handleEach {I : WorkerState → Prop} {handle : TypedEvent → RoundM (List Hash)}
    (hhandle : ∀ eventData, Keeps I (handle eventData)) (events : List TypedEvent) :
    Keeps I (handleEach handle events) := by
  induction events with
  | nil => mvcgen [handleEach]
  | cons eventData events ih => mvcgen [handleEach, hhandle, ih]

@[spec] theorem handleDelayedEvents_keeps {currentBlock : ℕ} (events : List TypedEvent) :
    KeepsBesideFunds x (handleEach (handleDelayedEvent server round currentBlock) events) :=
  keeps_handleEach (fun _ => handleDelayedEvent_keeps) events

@[spec] theorem addRelayWorker_keepsApart {currentBlock : ℕ} :
    KeepsApart x (addRelayWorker server round currentBlock) := by
  mvcgen [addRelayWorker] with grind

@[spec] theorem attemptAddRelayWorker_keepsApart {currentBlock : ℕ} :
    KeepsApart x (attemptAddRelayWorker server round currentBlock) := by
  mvcgen [attemptAddRelayWorker] with grind

@[spec] theorem attemptRegistration_keepsApart {currentBlock : ℕ} :
    KeepsApart x (attemptRegistration server round currentBlock) := by
  mvcgen [attemptRegistration] with grind

@[spec] theorem registerIfNeeded_keepsApart {currentBlock : ℕ} {forceRegistration : Bool} :
    KeepsApart x (registerIfNeeded server round currentBlock forceRegistration) := by
  mvcgen [registerIfNeeded] with grind

@[spec] theorem shouldRegisterAgain_keepsApart {currentBlock : ℕ} :
    KeepsApart x (shouldRegisterAgain server round currentBlock) := by
  mvcgen [shouldRegisterAgain] with grind

@[spec] theorem boostStuckPendingTransactions_keepsApart {blockNumber : ℕ} :
    KeepsApart x (boostStuckPendingTransactions server round blockNumber) := by
  mvcgen [boostStuckPendingTransactions] with grind

end KeepsApart

def anyReverted (events : List TypedEvent) : Bool :=
  events.any fun it => it.event = .transactionRelayedButRevertedByRecipient

theorem anyReverted_sortLatestFirst (events : List TypedEvent) :
    anyReverted (sortLatestFirst events) = anyReverted events :=
  (List.perm_insertionSort _ events).any_eq

/-- The hub events of a round change the alerted state only. -/
theorem foldl_handlePastHubEvent (currentBlockNumber : ℕ) (events : List TypedEvent)
    (state : WorkerState) :
    events.foldl (·.handlePastHubEvent currentBlockNumber) state =
      if anyReverted events then { state with alerted := true, alertedBlock := currentBlockNumber }
      else state := by
  induction events generalizing state with
  | nil => rfl
  | cons event events ih =>
      rw [List.foldl_cons, ih]
      by_cases hevent : event.event = .transactionRelayedButRevertedByRecipient
      · simp [anyReverted, WorkerState.handlePastHubEvent, hevent]
      · have hstays : state.handlePastHubEvent currentBlockNumber event = state := by
          unfold WorkerState.handlePastHubEvent
          split
          next h => exact absurd h hevent
          · rfl
        simp [anyReverted, hstays, hevent]

/-- The logs, the stake events acted on, what the worker needs and the alert. -/
structure RoundView where
  scan : ScanState
  acted : List TypedEvent
  requiredValue : ℤ
  alerted : Bool
  alertedBlock : ℕ

def WorkerState.roundView (state : WorkerState) : RoundView where
  scan := state.scan
  acted := state.acted
  requiredValue := state.workerBalanceRequired.requiredValue
  alerted := state.alerted
  alertedBlock := state.alertedBlock

@[grind →] theorem WorkerState.eq_of_roundView {s t : WorkerState}
    (h : s.roundView = t.roundView) :
    s.scan = t.scan ∧ s.acted = t.acted ∧
      s.workerBalanceRequired.requiredValue = t.workerBalanceRequired.requiredValue ∧
      s.alerted = t.alerted ∧ s.alertedBlock = t.alertedBlock := by
  simpa only [roundView, RoundView.mk.injEq] using h

/-- The program reads no logs, acts on no stake event and does not alert. -/
abbrev KeepsRoundView {α : Type} (x : RoundView) (program : RoundM α) : Prop :=
  Keeps (fun state => state.roundView = x) program

/-- All of that but what was acted on. -/
def WorkerState.besideActed (state : WorkerState) : RoundView := { state.roundView with acted := [] }

@[grind →] theorem WorkerState.eq_of_besideActed {s t : WorkerState}
    (h : s.besideActed = t.besideActed) :
    s.scan = t.scan ∧ s.workerBalanceRequired.requiredValue = t.workerBalanceRequired.requiredValue ∧
      s.alerted = t.alerted ∧ s.alertedBlock = t.alertedBlock := by
  simpa only [besideActed, roundView, RoundView.mk.injEq, true_and] using h

/-- All of that but the alert. -/
def WorkerState.besideAlert (state : WorkerState) : RoundView :=
  { state.roundView with
    alerted := false
    alertedBlock := 0 }

@[grind →] theorem WorkerState.eq_of_besideAlert {s t : WorkerState}
    (h : s.besideAlert = t.besideAlert) :
    s.scan = t.scan ∧ s.acted = t.acted ∧
      s.workerBalanceRequired.requiredValue = t.workerBalanceRequired.requiredValue := by
  simpa only [besideAlert, roundView, RoundView.mk.injEq, and_true] using h

section KeepsRoundView

variable {server : RelayServer} {round : Round} {x : RoundView}

theorem refreshStake_keepsRoundView : KeepsRoundView x (refreshStake server round) := by
  mvcgen [refreshStake, noteStakeRead, updateRegistrationManager] with grind [WorkerState.roundView]

theorem refreshGasPrice_keepsRoundView : KeepsRoundView x (refreshGasPrice server round) := by
  mvcgen [refreshGasPrice] with grind [WorkerState.roundView]

theorem refreshBalance_keepsRoundView : KeepsRoundView x (refreshBalance server round) := by
  mvcgen [refreshBalance, updateRegistrationManager] with grind [WorkerState.roundView]

theorem replenishStrategy_keepsRoundView {currentBlock : ℕ} :
    KeepsRoundView x (replenishStrategy server round currentBlock) := by
  mvcgen [replenishStrategy, setWorkerBalance] with grind [WorkerState.roundView]

theorem init_keepsRoundView : KeepsRoundView x (init server round) := by
  mvcgen [init, initRegistrationManager, queryLatestWorkerAddedEvent, updateRegistrationManager]
    with grind [WorkerState.roundView]

theorem extractDuePendingEvents_keepsRoundView {currentBlock : ℕ} :
    KeepsRoundView x (extractDuePendingEvents currentBlock) := by
  mvcgen [extractDuePendingEvents, updateRegistrationManager]

theorem updateLatestTxBlockNumber_sorts {events : List TypedEvent} :
    ⦃fun state => ⌜state.roundView = x⌝⦄ updateLatestTxBlockNumber server round events
    ⦃post⟨fun sorted state => ⌜sorted = sortLatestFirst events ∧ state.roundView = x⌝,
      fun _ state => ⌜state.roundView = x⌝⟩⦄ := by
  mvcgen [updateLatestTxBlockNumber, queryLatestActiveEvent] with grind [WorkerState.roundView]

theorem handleStakeEvent_keepsBesideActed {currentBlock : ℕ} {eventData : TypedEvent} :
    Keeps (fun state => state.besideActed = x)
      (handleStakeEvent server round currentBlock eventData) := by
  mvcgen [handleStakeEvent, noteActed, handleStakeWithdrawnEvent, updateRegistrationManager,
    refreshStake_keepsRoundView] with grind [WorkerState.besideActed, WorkerState.roundView]

theorem handleStakeEvents_keepBesideActed {currentBlock : ℕ} (events : List TypedEvent) :
    Keeps (fun state => state.besideActed = x)
      (handleEach (handleStakeEvent server round currentBlock) events) :=
  keeps_handleEach (fun _ => handleStakeEvent_keepsBesideActed) events

theorem finishRound_keepsBesideAlert {currentBlockNumber : ℕ} {hubEvents : List TypedEvent}
    {transactionHashes : List Hash} :
    Keeps (fun state => state.besideAlert = x)
      (finishRound server round currentBlockNumber hubEvents transactionHashes) := by
  mvcgen [finishRound, setReadyState, handlePastHubEvents, leaveAlertedState,
    replenishStrategy_keepsRoundView]
    with grind [foldl_handlePastHubEvent, WorkerState.besideAlert, WorkerState.roundView]

/-- Nothing but a tick reads logs, acts on stake events or alerts. -/
theorem roundView_of_workerStep {state state' : WorkerState} {event : WorkerEvent}
    (hstep : workerStep server state event = some state') (hevent : ∀ round, event ≠ .tick round) :
    state'.roundView = state.roundView := by
  obtain rfl := Option.some.inj hstep
  cases event with
  | init round =>
      have hkeeps : KeepsRoundView state.roundView
          (do startRound; RifRelayServer.init server round) := by
        mvcgen [startRound, init_keepsRoundView]
      exact hkeeps.final rfl
  | tick round => exact absurd rfl (hevent round)
  | blockUnavailable => rfl
  | timedOut => rfl
  | managerCall call => rfl

end KeepsRoundView

end RifRelayServer
