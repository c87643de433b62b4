import RifRelayServer.Ticks

/-!
# What the parts of a round leave alone

Most of a round concerns the store and the calls under way. It spares the fields
that the semaphore, the cursor and the readiness of the server rest on.
-/

namespace RifRelayServer.Ticks

open Async Async.Program

section Spares

variable {ρ : Type} {part : TickState → ρ} {α : Type}

theorem spares_ofExcept (answer : Except String α) : (ofExcept answer).Spares part := by
  cases answer with
  | ok a => exact spares_pure a
  | error e => exact spares_fail e

theorem spares_receive (question : Question) : (receive question).Spares part :=
  (spares_ask question).bind spares_ofExcept

theorem spares_updateRelay {update : Relay → Relay}
    (h : ∀ s : TickState, part (s.updated update) = part s) :
    (updateRelay update).Spares part :=
  spares_modify h

theorem spares_forEach {body : α → TickM Unit} (h : ∀ item, (body item).Spares part)
    (items : List α) : (forEach body items).Spares part := by
  induction items with
  | nil => exact spares_pure ()
  | cons item items ih => exact (h item).bind fun _ => ih

end Spares

section Relay

variable (server : RelayServer)

theorem spares_setTxStore (txStore : TxStore) : (setTxStore txStore).Spares TickState.relay :=
  spares_modify fun _ => rfl

theorem spares_findActionPending (serverAction : ServerAction) :
    (findActionPending serverAction).Spares TickState.relay :=
  (spares_receive _).bind fun _ => spares_get.bind fun _ => spares_pure _

theorem spares_startCall (call : Call) : (startCall call).Spares TickState.relay :=
  spares_modify fun _ => rfl

theorem spares_callAndWait (task : Task) : (callAndWait server task).Spares TickState.relay :=
  spares_get.bind fun _ => (spares_startCall _).bind fun _ => (spares_receive _).bind fun _ =>
    spares_get.bind fun _ => spares_ofExcept _

theorem spares_sendEthBalanceToOwner (signer : Address) (currentBlock : ℕ) :
    (sendEthBalanceToOwner server signer currentBlock).Spares TickState.relay := by
  apply (spares_receive _).bind
  intro withdrawal
  cases withdrawal with
  | none => exact spares_pure ()
  | some withdrawal => exact spares_callAndWait server _

theorem spares_withdrawAllFunds (withdrawManager : Bool) (currentBlock : ℕ) :
    (withdrawAllFunds server withdrawManager currentBlock).Spares TickState.relay := by
  apply (spares_sendEthBalanceToOwner server _ currentBlock).bind
  intro _
  split
  · exact spares_sendEthBalanceToOwner server _ currentBlock
  · exact spares_pure ()

theorem spares_handleStakeEvent (currentBlock : ℕ) (event : ManagerEvent) :
    (handleStakeEvent server currentBlock event).Spares TickState.relay := by
  apply (spares_receive _).bind
  intro _
  split
  · exact spares_withdrawAllFunds server true currentBlock
  · exact spares_pure ()

theorem spares_sendRegistration (serverAction : ServerAction) (currentBlock : ℕ) :
    (sendRegistration server serverAction currentBlock).Spares TickState.relay :=
  (spares_receive _).bind fun _ => spares_callAndWait server _

theorem spares_attemptRegistration (view : RegistrationView) (currentBlock : ℕ) :
    (attemptRegistration server view currentBlock).Spares TickState.relay := by
  unfold attemptRegistration
  split
  · exact spares_pure ()
  · apply (spares_findActionPending _).bind
    intro addWorkersPending
    split
    · exact (spares_sendRegistration server _ currentBlock).bind fun _ =>
        spares_sendRegistration server _ currentBlock
    · exact spares_sendRegistration server _ currentBlock

theorem spares_handlePastEvents (currentBlock : ℕ) (forceRegistration : Bool) :
    (handlePastEvents server currentBlock forceRegistration).Spares TickState.relay := by
  refine (spares_receive _).bind fun decodedEvents =>
    (spares_forEach (spares_handleStakeEvent server currentBlock) decodedEvents).bind fun _ =>
    (spares_receive _).bind fun view =>
    (spares_forEach (fun _ => spares_withdrawAllFunds server false currentBlock) _).bind fun _ =>
    (spares_findActionPending _).bind fun isRegistrationPending => ?_
  split
  · exact (spares_attemptRegistration server view currentBlock).bind fun _ => spares_pure view
  · exact spares_pure view

theorem spares_storeTx (tx : StoredTransaction) : (storeTx tx).Spares TickState.relay :=
  (spares_receive _).bind fun _ => spares_get.bind fun _ =>
    (spares_ofExcept _).bind fun _ => spares_setTxStore _

theorem spares_recheckTransaction (blockNumber : ℕ) (transaction : StoredTransaction) :
    (recheckTransaction server blockNumber transaction).Spares TickState.relay := by
  unfold recheckTransaction
  split
  · exact spares_pure ()
  · apply (spares_receive _).bind
    intro receipt
    split
    · exact spares_pure ()
    · split
      · exact spares_pure ()
      · dsimp only
        split
        · exact spares_storeTx _
        · exact (spares_receive _).bind fun _ => spares_get.bind fun _ => spares_setTxStore _

theorem spares_removeConfirmedTransactions (blockNumber : ℕ) :
    (removeConfirmedTransactions server blockNumber).Spares TickState.relay :=
  (spares_receive _).bind fun _ => spares_get.bind fun _ =>
    spares_forEach (spares_recheckTransaction server blockNumber) _

theorem spares_resendTransaction (currentBlock newGasPrice : ℕ) (tx : StoredTransaction) :
    (resendTransaction server currentBlock newGasPrice tx).Spares TickState.relay := by
  refine (spares_receive _).bind fun _ => (spares_ofExcept _).bind fun signedTransaction =>
    (spares_storeTx _).bind fun _ => (spares_ofExcept _).bind fun _ =>
    (spares_receive _).bind fun _ => (spares_receive _).bind fun hash => ?_
  split
  · exact spares_fail _
  · exact spares_pure ()

theorem spares_boostUnderpricedPendingTransactionsForSigner (signer : Address)
    (currentBlockHeight : ℕ) :
    (boostUnderpricedPendingTransactionsForSigner server signer currentBlockHeight).Spares
      TickState.relay := by
  refine (spares_receive _).bind fun _ => spares_get.bind fun s => ?_
  dsimp only
  split
  · exact spares_pure ()
  · apply (spares_receive _).bind
    intro nonce
    split
    · exact spares_pure ()
    · exact spares_forEach (spares_resendTransaction server currentBlockHeight _) _

theorem spares_boostStuckPendingTransactions (blockNumber : ℕ) :
    (boostStuckPendingTransactions server blockNumber).Spares TickState.relay :=
  (spares_boostUnderpricedPendingTransactionsForSigner server _ blockNumber).bind fun _ =>
    spares_boostUnderpricedPendingTransactionsForSigner server _ blockNumber

theorem spares_isActivityPending : isActivityPending.Spares TickState.relay := by
  apply (spares_findActionPending _).bind
  intro isRelayPending
  split
  · exact spares_pure true
  · exact spares_findActionPending _

theorem spares_shouldRegisterAgain (currentBlock : ℕ) :
    (shouldRegisterAgain server currentBlock).Spares TickState.relay := by
  apply spares_isActivityPending.bind
  intro isPendingActivityTransaction
  dsimp only
  split
  · exact spares_pure false
  · exact spares_get.bind fun _ => spares_pure _

end Relay

section Fields

variable {ρ : Type} {part : TickState → ρ}

theorem spares_updateLatestTxBlockNumber
    (hevent : ∀ s event, part (s.updated fun relay => { relay with
      lastMinedActiveTransaction := event }) = part s) (eventsSinceLastScan : List TypedEvent) :
    (updateLatestTxBlockNumber eventsSinceLastScan).Spares part := by
  have hquery : (do
      let s ← get
      if s.relay.lastMinedActiveTransaction.isNone then
        let events ← receive .activeEvents
        updateRelay fun relay => { relay with
          lastMinedActiveTransaction := getLatestEventData events } : TickM Unit).Spares part := by
    apply spares_get.bind
    intro s
    split
    · exact (spares_receive _).bind fun _ => spares_updateRelay fun _ => hevent _ _
    · exact spares_pure ()
  unfold updateLatestTxBlockNumber
  dsimp only
  split
  · exact (spares_updateRelay fun _ => hevent _ _).bind fun _ => hquery
  · exact hquery

theorem part_handlePastHubEvents
    (halert : ∀ s alerted block, part (s.updated fun relay => { relay with
      alerted := alerted, alertedBlock := block }) = part s)
    (currentBlockNumber : ℕ) (hubEvents : List TypedEvent) (s : TickState) :
    part (s.updated fun relay =>
      hubEvents.foldl (Relay.handlePastHubEvent currentBlockNumber) relay) = part s := by
  induction hubEvents generalizing s with
  | nil => rfl
  | cons event hubEvents ih =>
      refine (ih (s.updated fun relay => relay.handlePastHubEvent currentBlockNumber event)).trans ?_
      unfold Relay.handlePastHubEvent
      split
      · exact halert s true currentBlockNumber
      · rfl

theorem spares_handlePastHubEvents
    (halert : ∀ s alerted block, part (s.updated fun relay => { relay with
      alerted := alerted, alertedBlock := block }) = part s)
    (currentBlockNumber : ℕ) (hubEvents : List TypedEvent) :
    (handlePastHubEvents currentBlockNumber hubEvents).Spares part :=
  spares_updateRelay fun s => part_handlePastHubEvents halert currentBlockNumber hubEvents s

theorem spares_leaveAlertedState (server : RelayServer)
    (halert : ∀ s alerted block, part (s.updated fun relay => { relay with
      alerted := alerted, alertedBlock := block }) = part s) (currentBlockNumber : ℕ) :
    (leaveAlertedState server currentBlockNumber).Spares part := by
  apply spares_updateRelay
  intro s
  unfold TickState.updated
  dsimp only
  split
  · exact halert s false s.relay.alertedBlock
  · rfl

theorem spares_init
    (hinitialized : ∀ s, part (s.updated fun relay => { relay with initialized := true }) = part s) :
    Ticks.init.Spares part := by
  apply spares_get.bind
  intro s
  split
  · exact spares_fail _
  · exact (spares_receive _).bind fun _ => spares_updateRelay fun _ => hinitialized _

theorem spares_setReadyState
    (hready : ∀ s isReady, part (s.updated fun relay => { relay with ready := isReady }) = part s)
    (isReady : Bool) : (setReadyState isReady).Spares part :=
  spares_updateRelay fun s => hready s isReady

theorem spares_refreshGasPrice
    (hgasPrice : ∀ s gasPrice,
      part (s.updated fun relay => { relay with gasPrice := gasPrice }) = part s) :
    refreshGasPrice.Spares part := by
  refine (spares_receive _).bind fun gasPrice =>
    (spares_updateRelay fun _ => hgasPrice _ _).bind fun _ => ?_
  split
  · exact spares_fail _
  · exact spares_pure ()

theorem spares_validateInput (request : HttpEnvelopingRequest) :
    (validateInput request).Spares part := by
  apply spares_get.bind
  intro s
  dsimp only
  split
  · exact spares_fail _
  · exact spares_receive _

theorem spares_slowDown
    (hdelayed : ∀ (s : TickState) (delay : List ℕ → List ℕ), part (s.updated fun relay => { relay with
      delayed := delay relay.delayed }) = part s) (id : ℕ) :
    (slowDown id).Spares part := by
  apply spares_get.bind
  intro s
  split
  · exact (spares_updateRelay fun s => hdelayed s (id :: ·)).bind fun _ => (spares_ask _).bind fun _ =>
      spares_updateRelay fun s => hdelayed s (·.erase id)
  · exact spares_pure ()

end Fields

section RelayFields

variable {ρ : Type} {part : Relay → ρ} (server : RelayServer)

theorem spares_handleEventsSinceLastScan
    (hevent : ∀ relay event, part { relay with lastMinedActiveTransaction := event } = part relay)
    (currentBlockNumber : ℕ) :
    (handleEventsSinceLastScan server currentBlockNumber).Spares fun s => part s.relay :=
  (spares_receive _).bind fun hubEvents =>
    (spares_updateLatestTxBlockNumber (fun _ _ => hevent _ _) hubEvents).bind fun _ =>
    ((spares_shouldRegisterAgain server currentBlockNumber).comp part).bind fun _ =>
    ((spares_handlePastEvents server currentBlockNumber _).comp part).bind fun _ =>
    ((spares_removeConfirmedTransactions server currentBlockNumber).comp part).bind fun _ =>
    ((spares_boostStuckPendingTransactions server currentBlockNumber).comp part).bind fun _ =>
    spares_pure _

theorem spares_finishRound
    (hready : ∀ relay isReady, part { relay with ready := isReady } = part relay)
    (halert : ∀ relay alerted block,
      part { relay with alerted := alerted, alertedBlock := block } = part relay)
    (currentBlockNumber : ℕ) (hubEvents : List TypedEvent) (isRegistered : Bool) :
    (finishRound server currentBlockNumber hubEvents isRegistered).Spares
      fun s => part s.relay := by
  have hset : ∀ isReady, (setReadyState isReady).Spares fun s => part s.relay :=
    spares_setReadyState fun _ _ => hready _ _
  unfold finishRound
  split
  · exact (hset false).bind fun _ => spares_pure ()
  · refine (spares_handlePastHubEvents (fun _ _ _ => halert _ _ _) _ _).bind fun _ =>
      ((spares_callAndWait server _).comp part).bind fun _ =>
      (spares_receive _).bind fun workerBalance => ?_
    split
    · exact (hset false).bind fun _ => spares_pure ()
    · exact (hset true).bind fun _ =>
        spares_leaveAlertedState server (fun _ _ _ => halert _ _ _) _

theorem spares_createRelayTransaction
    (hdelayed : ∀ relay delayed, part { relay with delayed := delayed } = part relay)
    (haccepted : ∀ relay accepted, part { relay with accepted := accepted } = part relay)
    (id : ℕ) (request : HttpEnvelopingRequest) :
    (createRelayTransaction server id request).Spares fun s => part s.relay := by
  apply spares_get.bind
  intro s
  split
  · exact spares_fail _
  · exact (spares_slowDown (fun _ _ => hdelayed _ _) id).bind fun _ =>
      (spares_validateInput request).bind fun _ =>
      (spares_updateRelay fun _ => haccepted _ _).bind fun _ => (spares_startCall _).comp part

end RelayFields

end RifRelayServer.Ticks
