import RifRelayServer.RegistrationsInFlight
import RifRelayServer.StakeView

/-!
# When the server registers

A server that is started on a store without a registration, and whose other calls send none,
sends no registration before the hub has shown it a locked stake that is large enough. Once
it has read such a stake and a balance that is large enough, the server is registered or has
a registration under way whenever it has handled the past events.
-/

namespace RifRelayServer

open Std.Do Keeping Runs

set_option mvcgen.warning false

def TxStore.Unregistering (txStore : TxStore) : Prop :=
  ∀ tx ∈ txStore, tx.serverAction.isRegistration = false

theorem TxStore.Unregistering.putTx {txStore txStore' : TxStore} {tx : StoredTransaction}
    {updateExisting : Bool} (h : txStore.Unregistering)
    (hput : RifRelayServer.putTx txStore tx updateExisting = .ok txStore')
    (htx : tx.serverAction.isRegistration = false) : txStore'.Unregistering := by
  intro it hit
  rcases (mem_of_putTx hput it).mp hit with ⟨hold, -⟩ | rfl
  · exact h it hold
  · exact htx

section Manager

variable {dependencies : ServerDependencies} {provider : Provider}

abbrev KeepsUnregistering {α : Type} (program : ManagerM α) : Prop :=
  Keeps (fun manager => manager.txStore.Unregistering) program

theorem pollNonce_unregistering {signer : Address} :
    KeepsUnregistering (pollNonce provider signer) := by
  mvcgen [pollNonce, await]

theorem signTransaction_unregistering {keyManager : KeyManager} {address : Address}
    {utx : PopulatedTransaction} :
    KeepsUnregistering (signTransaction dependencies keyManager address utx) := by
  mvcgen [signTransaction, await]

theorem broadcastTransaction_unregistering {details : SignedTransactionDetails} {txId : Hash} :
    KeepsUnregistering (broadcastTransaction provider details txId) := by
  mvcgen [broadcastTransaction, await]

theorem storeTx_unregistering {tx : StoredTransaction} {updateExisting : Bool}
    (htx : tx.serverAction.isRegistration = false) :
    KeepsUnregistering (storeTx tx updateExisting) := by
  mvcgen [storeTx, await]
  next h _ hput => exact h.putTx hput htx

theorem sendTransaction_unregistering {details : SendTransactionDetails}
    (haction : details.serverAction.isRegistration = false) :
    KeepsUnregistering (sendTransaction dependencies provider details) := by
  mvcgen [sendTransaction, await, pollNonce_unregistering, signTransaction_unregistering,
    storeTx_unregistering, broadcastTransaction_unregistering]

theorem resendTransaction_unregistering {tx : StoredTransaction} {currentBlock newGasPrice : ℕ}
    (htx : tx.serverAction.isRegistration = false) :
    KeepsUnregistering (resendTransaction dependencies provider tx currentBlock newGasPrice) := by
  mvcgen [resendTransaction, updateTransactionWithAttempt, await, signTransaction_unregistering,
    storeTx_unregistering, broadcastTransaction_unregistering]

theorem boost_unregistering {signer : Address} {currentBlockHeight : ℕ} :
    KeepsUnregistering (boostUnderpricedPendingTransactionsForSigner dependencies provider signer
      currentBlockHeight) := by
  have hloop : ∀ newGasPrice txs, (∀ tx ∈ txs, tx.serverAction.isRegistration = false) →
      KeepsUnregistering
        (resendTransactions dependencies provider currentBlockHeight newGasPrice txs) :=
    fun newGasPrice txs htxs =>
      keeps_resendTransactions txs fun tx htx => resendTransaction_unregistering (htxs tx htx)
  mvcgen [boostUnderpricedPendingTransactionsForSigner, await, hloop]
  next h _ _ _ heq _ _ _ _ =>
    intro tx htx
    exact h tx (mem_getAllBySigner.mp (heq ▸ List.mem_of_mem_filter htx)).1

theorem resendStoredTransaction_unregistering {signer : Address}
    {nonce currentBlock newGasPrice : ℕ} :
    KeepsUnregistering
      (resendStoredTransaction dependencies provider signer nonce currentBlock newGasPrice) := by
  mvcgen [resendStoredTransaction, resendTransaction_unregistering]
  next h tx hfind => exact h tx (TxStore.find?_eq_some_iff.mp hfind).1

theorem recheckTransaction_unregistering {blockNumber : ℕ} {tx : StoredTransaction}
    (htx : tx.serverAction.isRegistration = false) :
    KeepsUnregistering (recheckTransaction dependencies provider blockNumber tx) := by
  mvcgen [recheckTransaction, updateTransactionWithMinedBlock, await, storeTx_unregistering]
  next h _ _ _ _ _ _ _ _ _ => exact fun it hit => h it (mem_removeTxsUntilNonce.mp hit).1

theorem removeConfirmedTransactions_unregistering {blockNumber : ℕ} :
    KeepsUnregistering (removeConfirmedTransactions dependencies provider blockNumber) := by
  have hloop : ∀ txs, (∀ tx ∈ txs, tx.serverAction.isRegistration = false) →
      KeepsUnregistering (recheckTransactions dependencies provider blockNumber txs) :=
    fun txs htxs =>
      keeps_recheckTransactions txs fun tx htx => recheckTransaction_unregistering (htxs tx htx)
  mvcgen [removeConfirmedTransactions, hloop]
  next h => exact fun tx htx => h tx (mem_getAll.mp htx)

end Manager

def ManagerCall.isRegistration : ManagerCall → Bool
  | .sendTransaction _ details => details.serverAction.isRegistration
  | _ => false

theorem ManagerCall.keeps_unregistering {dependencies : ServerDependencies} {call : ManagerCall}
    (hcall : call.isRegistration = false) : KeepsUnregistering (call.program dependencies) := by
  cases call with
  | sendTransaction provider details => exact (sendTransaction_unregistering hcall).ignore
  | pollNonce provider signer => exact pollNonce_unregistering.ignore
  | resendTransaction provider signer nonce currentBlock newGasPrice =>
      exact resendStoredTransaction_unregistering
  | boostUnderpricedPendingTransactionsForSigner provider signer currentBlockHeight =>
      exact boost_unregistering.ignore
  | removeConfirmedTransactions provider blockNumber =>
      exact removeConfirmedTransactions_unregistering

theorem runCalls_unregistering {dependencies : ServerDependencies} {calls : List ManagerCall}
    {manager : TransactionManager} (hcalls : ∀ call ∈ calls, call.isRegistration = false)
    (h : manager.txStore.Unregistering) :
    (runCalls dependencies calls manager).txStore.Unregistering := by
  refine keeps_finalAll (I := fun it : TransactionManager => it.txStore.Unregistering) ?_ h
  intro program hprogram
  obtain ⟨call, hcall, rfl⟩ := List.mem_map.mp hprogram
  exact ManagerCall.keeps_unregistering (hcalls call hcall)

/-- The hub has shown a stake that is large enough and not unlocked. -/
def StakeView.ShownSufficient (server : RelayServer) (x : StakeView) : Prop :=
  ∃ stakeInfo ∈ x.stakesRead, stakeInfo.isSufficient server.dependencies.config.managerMinStake

/-- As far as the manager knows there is no stake to register with. -/
structure StakeView.Unstaked (server : RelayServer) (x : StakeView) : Prop where
  requiredValue : x.stakeRequired.requiredValue = server.dependencies.config.managerMinStake
  not_satisfied : x.isStakeLocked = true → x.stakeRequired.isSatisfied = false

theorem StakeView.Unstaked.readStake {server : RelayServer} {x : StakeView}
    (h : x.Unstaked server) {stakeInfo : StakeInfo}
    (hsufficient : ¬stakeInfo.isSufficient server.dependencies.config.managerMinStake = true) :
    (x.readStake stakeInfo).Unstaked server := by
  unfold StakeView.readStake
  split
  · exact ⟨h.requiredValue, h.not_satisfied⟩
  · refine ⟨h.requiredValue, fun hlocked => ?_⟩
    rw [StakeInfo.isSufficient, Bool.and_eq_true, not_and, decide_eq_true_eq] at hsufficient
    rw [decide_eq_true_eq] at hsufficient
    rw [AmountRequired.isSatisfied, h.requiredValue]
    exact decide_eq_false (hsufficient (of_decide_eq_true hlocked))

/-- Until a sufficient stake has been shown, no registration has been sent. -/
def WorkerState.Gated (server : RelayServer) (state : WorkerState) : Prop :=
  state.stakeView.ShownSufficient server ∨
    state.stakeView.Unstaked server ∧ state.transactionManager.txStore.Unregistering

/-- No other call of the transaction manager that comes meanwhile sends a registration. -/
def Round.OthersDoNotRegister (round : Round) : Prop :=
  ∀ n, ∀ call ∈ (round.moments n).otherCalls, call.isRegistration = false

section Gated

variable {server : RelayServer} {round : Round} {s t : WorkerState}

abbrev KeepsGated {α : Type} (server : RelayServer) (program : RoundM α) : Prop :=
  Keeps (fun state => state.Gated server) program

theorem WorkerState.Gated.of_store (h : s.Gated server) (hview : t.stakeView = s.stakeView)
    (hstore : s.transactionManager.txStore.Unregistering →
      t.transactionManager.txStore.Unregistering) : t.Gated server := by
  rw [Gated, hview]
  exact h.imp_right fun ⟨hunstaked, hbefore⟩ => ⟨hunstaked, hstore hbefore⟩

/-- A stake that the manager reads is none to register with, or it has been shown. -/
theorem WorkerState.Gated.readStake (h : s.Gated server) (stakeInfo : StakeInfo)
    (hview : t.stakeView = s.stakeView.readStake stakeInfo)
    (htxStore : t.transactionManager.txStore = s.transactionManager.txStore) : t.Gated server := by
  have hread : t.stakeView.stakesRead = s.stakeView.stakesRead ++ [stakeInfo] := by
    have hread := congrArg StakeView.stakesRead hview
    rwa [StakeView.readStake, apply_ite StakeView.stakesRead, ite_self] at hread
  rcases h with ⟨shown, hmem, hshown⟩ | ⟨hunstaked, hstore⟩
  · refine .inl ⟨shown, ?_, hshown⟩
    exact hread ▸ List.mem_append_left _ hmem
  · by_cases hsufficient : stakeInfo.isSufficient server.dependencies.config.managerMinStake = true
    · refine .inl ⟨stakeInfo, ?_, hsufficient⟩
      exact hread ▸ List.mem_append_right _ List.mem_cons_self
    · refine .inr ⟨?_, htxStore ▸ hstore⟩
      rw [hview]
      exact hunstaked.readStake hsufficient

theorem StakeView.ShownSufficient.of_apart (h : s.stakeView.ShownSufficient server)
    (hapart : t.apart = s.apart) : t.stakeView.ShownSufficient server := by
  have hread : t.apart.stakesRead = s.apart.stakesRead := congrArg WorkerState.stakesRead hapart
  obtain ⟨shown, hmem, hshown⟩ := h
  refine ⟨shown, ?_, hshown⟩
  change shown ∈ t.apart.stakesRead
  rw [hread]
  exact hmem

theorem handlePastHubEvents_gated {currentBlockNumber : ℕ} {hubEvents : List TypedEvent} :
    KeepsGated server (handlePastHubEvents currentBlockNumber hubEvents) := by
  mvcgen [handlePastHubEvents]
  next state h _ =>
    change (hubEvents.foldl (·.handlePastHubEvent currentBlockNumber) state).Gated server
    rw [foldl_handlePastHubEvent]
    split <;> exact h

theorem leaveAlertedState_gated {currentBlockNumber : ℕ} :
    KeepsGated server (leaveAlertedState server currentBlockNumber) := by
  mvcgen [leaveAlertedState]
  next h _ =>
    change WorkerState.Gated server (ite _ _ _)
    split <;> exact h

theorem updateRegistrationManager_gated {update : RegistrationManager → RegistrationManager}
    (h : ∀ manager, (update manager).isStakeLocked = manager.isStakeLocked ∧
      (update manager).stakeRequired = manager.stakeRequired) :
    KeepsGated server (updateRegistrationManager update) := by
  mvcgen [updateRegistrationManager]
  next state hs _ =>
    obtain ⟨hlocked, hrequired⟩ := h state.registrationManager
    refine hs.of_store ?_ id
    rw [WorkerState.stakeView, hlocked, hrequired]
    rfl

theorem RegistrationManager.constructed_unstaked (stakesRead : List StakeInfo) :
    StakeView.Unstaked server
      ⟨(constructed server.dependencies.config).isStakeLocked,
        (constructed server.dependencies.config).stakeRequired, stakesRead⟩ where
  requiredValue := rfl
  not_satisfied hlocked := absurd hlocked Bool.false_ne_true

theorem constructed_gated :
    KeepsGated server
      (updateRegistrationManager fun _ => .constructed server.dependencies.config) := by
  mvcgen [updateRegistrationManager]
  next h _ =>
    exact h.imp id fun h => ⟨RegistrationManager.constructed_unstaked _, h.2⟩

theorem awaited_gated {α : Type} {answer : Except String α} :
    KeepsGated server (RifRelayServer.awaited answer) := by
  mvcgen [-awaited_keepsApart, RifRelayServer.awaited]

theorem scanLogs_gated {provider : LogProvider} {options : PastEventOptions}
    {names : List ManagerEvent} : KeepsGated server (scanLogs server provider options names) :=
  awaited_gated

theorem focusManager_gated {α : Type} {program : ManagerM α} (h : KeepsUnregistering program) :
    KeepsGated server (focus WorkerState.transactionManager
      (fun transactionManager state => { state with transactionManager }) program) := by
  intro s hs
  have hfinal : s.transactionManager.txStore.Unregistering →
      (Keeping.final program s.transactionManager).txStore.Unregistering := fun hs => h.final hs
  simp only [wp, PredTrans.apply, EStateM.run, focus]
  unfold Keeping.final at hfinal
  cases hrun : program s.transactionManager with
  | ok a manager =>
      rw [hrun] at hfinal
      exact hs.of_store rfl hfinal
  | error e manager =>
      rw [hrun] at hfinal
      exact hs.of_store rfl hfinal

theorem not_prerequisites (h : s.stakeView.Unstaked server) :
    (s.registrationManager.isStakeLocked && s.registrationManager.stakeRequired.isSatisfied) =
      false := by
  cases hlocked : s.registrationManager.isStakeLocked with
  | false => rfl
  | true => exact h.not_satisfied hlocked

/-- A registration is attempted with a stake to register with only. -/
theorem attemptRegistration_gated {currentBlock : ℕ} :
    KeepsGated server (attemptRegistration server round currentBlock) := by
  intro s hs
  rcases hs with hshown | ⟨hunstaked, hstore⟩
  · have hkeeps : KeepsApart s.apart (attemptRegistration server round currentBlock) :=
      attemptRegistration_keepsApart
    have hapart := hkeeps s rfl
    simp only [wp, PredTrans.apply, EStateM.run] at hapart ⊢
    cases hrun : attemptRegistration server round currentBlock s with
    | ok transactionHashes t =>
        rw [hrun] at hapart
        exact .inl (hshown.of_apart hapart)
    | error e t =>
        rw [hrun] at hapart
        exact .inl (hshown.of_apart hapart)
  · have hrun : attemptRegistration server round currentBlock s = .ok [] s := by
      rw [attemptRegistration]
      simp only [bind, EStateM.bind, get, getThe, MonadStateOf.get, EStateM.get,
        not_prerequisites hunstaked, Bool.false_and, Bool.not_false, if_true]
      rfl
    simp only [wp, PredTrans.apply, EStateM.run, hrun]
    exact .inr ⟨hunstaked, hstore⟩

end Gated

section Awaits

variable {server : RelayServer} {round : Round} (hothers : round.OthersDoNotRegister)

include hothers

theorem receive_gated {α : Type} (answer : Moment → Except String α) :
    KeepsGated server (receive server round answer) := by
  mvcgen [-receive_keepsApart, -awaited_keepsApart, receive, awaited_gated]
  next h _ =>
    refine h.of_store rfl fun hstore => ?_
    exact runCalls_unregistering (hothers _) hstore

theorem callManager_gated {α : Type} {program : Provider → ManagerM α}
    (h : ∀ provider, KeepsUnregistering (program provider)) :
    KeepsGated server (callManager server round program) := by
  have hreceive : KeepsGated server (receive server round fun moment => .ok moment.provider) :=
    receive_gated hothers _
  have hfocus : ∀ provider, KeepsGated server (focus WorkerState.transactionManager
      (fun transactionManager state => { state with transactionManager }) (program provider)) :=
    fun provider => focusManager_gated (h provider)
  mvcgen [-receive_keepsApart, -focusManager_keepsApart, -callManager_keepsApart, callManager,
    hreceive, hfocus]

theorem sendTransaction_gated (details : SendTransactionDetails)
    (haction : details.serverAction.isRegistration = false) :
    KeepsGated server
      (callManager server round (sendTransaction server.dependencies · details)) :=
  callManager_gated hothers fun _ => sendTransaction_unregistering haction

theorem findActionPending_gated (serverAction : ServerAction) (destination : Option Address) :
    KeepsGated server (findActionPending server round serverAction destination) := by
  have hreceive : KeepsGated server (receive server round (·.asyncFind)) :=
    receive_gated hothers _
  mvcgen [-receive_keepsApart, -findActionPending_keepsApart, findActionPending, hreceive]

theorem refreshStake_gated : KeepsGated server (refreshStake server round) := by
  have hreceive : KeepsGated server (receive server round (·.getStakeInfo)) :=
    receive_gated hothers _
  mvcgen [-receive_keepsApart, refreshStake, hreceive, noteStakeRead, updateRegistrationManager]
  next stakeInfo _ h _ hzero =>
    refine h.readStake stakeInfo ?_ rfl
    rw [StakeView.readStake, if_pos (StakeInfo.isZero_iff.mpr hzero)]
    rfl
  next stakeInfo _ h _ hstake _ =>
    refine h.readStake stakeInfo ?_ rfl
    rw [StakeView.readStake, if_neg fun hzero => hstake (StakeInfo.isZero_iff.mp hzero)]
    rfl

theorem sendEthBalanceToOwner_gated (signer : Address) (currentBlock : ℕ) :
    KeepsGated server (sendEthBalanceToOwner server round signer currentBlock) := by
  have hprice : KeepsGated server (receive server round (·.provider.getGasPrice)) :=
    receive_gated hothers _
  have hbalance : KeepsGated server (receive server round (·.getBalance signer)) :=
    receive_gated hothers _
  have hsend : ∀ details : SendTransactionDetails, details.serverAction.isRegistration = false →
      KeepsGated server
        (callManager server round (sendTransaction server.dependencies · details)) :=
    sendTransaction_gated hothers
  mvcgen [-receive_keepsApart, -callManager_keepsApart, -sendEthBalanceToOwner_keeps,
    -noteWithdrawals_keeps, sendEthBalanceToOwner, hprice, hbalance, hsend, noteWithdrawals]

theorem withdrawAllFunds_gated (withdrawManager : Bool) (currentBlock : ℕ) :
    KeepsGated server (withdrawAllFunds server round withdrawManager currentBlock) := by
  have hsend : ∀ signer, KeepsGated server
      (sendEthBalanceToOwner server round signer currentBlock) :=
    fun signer => sendEthBalanceToOwner_gated hothers signer currentBlock
  mvcgen [-sendEthBalanceToOwner_keeps, -withdrawAllFunds_keeps, withdrawAllFunds,
    sendWorkersEthBalancesToOwner, sendManagerEthBalanceToOwner, hsend]

theorem handleStakeEvent_gated (currentBlock : ℕ) (eventData : TypedEvent) :
    KeepsGated server (handleStakeEvent server round currentBlock eventData) := by
  have hrefresh : KeepsGated server (refreshStake server round) := refreshStake_gated hothers
  have hwithdraw : KeepsGated server (withdrawAllFunds server round true currentBlock) :=
    withdrawAllFunds_gated hothers true currentBlock
  mvcgen [-withdrawAllFunds_keeps, handleStakeEvent, noteActed, handleStakeWithdrawnEvent,
    hrefresh, hwithdraw, updateRegistrationManager_gated]

theorem handleDelayedEvent_gated (currentBlock : ℕ) (eventData : TypedEvent) :
    KeepsGated server (handleDelayedEvent server round currentBlock eventData) := by
  have hwithdraw : KeepsGated server (withdrawAllFunds server round false currentBlock) :=
    withdrawAllFunds_gated hothers false currentBlock
  mvcgen [-withdrawAllFunds_keeps, -handleDelayedEvent_keeps, -noteWithdrawals_keeps,
    handleDelayedEvent, handleStakeUnlockedEvent, noteWithdrawals, hwithdraw]

theorem registerIfNeeded_gated (currentBlock : ℕ) (forceRegistration : Bool) :
    KeepsGated server (registerIfNeeded server round currentBlock forceRegistration) := by
  have hpending : KeepsGated server (findActionPending server round .registerServer none) :=
    findActionPending_gated hothers _ _
  mvcgen [-findActionPending_keepsApart, -attemptRegistration_keepsApart,
    -registerIfNeeded_keepsApart, registerIfNeeded, hpending, attemptRegistration_gated]

theorem handlePastEvents_gated (hubEvents : List TypedEvent) (lastScannedBlock currentBlock : ℕ)
    (forceRegistration : Bool) :
    KeepsGated server (handlePastEvents server round hubEvents lastScannedBlock currentBlock
      forceRegistration) := by
  have hstake : ∀ events, KeepsGated server
      (handleEach (handleStakeEvent server round currentBlock) events) :=
    keeps_handleEach (handleStakeEvent_gated hothers currentBlock)
  have hdelayed : ∀ events, KeepsGated server
      (handleEach (handleDelayedEvent server round currentBlock) events) :=
    keeps_handleEach (handleDelayedEvent_gated hothers currentBlock)
  have hrelay : KeepsGated server (receive server round (·.getRelayInfo)) :=
    receive_gated hothers _
  have hregister : KeepsGated server
      (registerIfNeeded server round currentBlock forceRegistration) :=
    registerIfNeeded_gated hothers currentBlock forceRegistration
  mvcgen [-receive_keepsApart, -registerIfNeeded_keepsApart, -handleDelayedEvents_keeps,
    -scanLogs_spec, handlePastEvents, noteHanded, fetchStakeEvents, noteStakeScan, scanLogs_gated,
    extractDuePendingEvents, hstake, hdelayed, hrelay, hregister, updateRegistrationManager_gated]
  all_goals simp

theorem init_gated : KeepsGated server (init server round) := by
  have hcode : KeepsGated server (receive server round (·.getCode)) := receive_gated hothers _
  have hmanager : KeepsGated server (initRegistrationManager server round) := by
    mvcgen [-scanLogs_spec, initRegistrationManager, queryLatestWorkerAddedEvent, scanLogs_gated,
      updateRegistrationManager_gated]
    all_goals simp
  have hnetwork : KeepsGated server (receive server round (·.getNetwork)) :=
    receive_gated hothers _
  mvcgen [-receive_keepsApart, init, hcode, constructed_gated, hmanager, hnetwork]

theorem shouldRegisterAgain_gated (currentBlock : ℕ) :
    KeepsGated server (shouldRegisterAgain server round currentBlock) := by
  have hpending : ∀ serverAction, KeepsGated server
      (findActionPending server round serverAction none) :=
    fun serverAction => findActionPending_gated hothers serverAction none
  mvcgen [-findActionPending_keepsApart, -shouldRegisterAgain_keepsApart, shouldRegisterAgain,
    hpending]

theorem boostStuckPendingTransactions_gated (blockNumber : ℕ) :
    KeepsGated server (boostStuckPendingTransactions server round blockNumber) := by
  have hboost : ∀ signer, KeepsGated server (callManager server round
      (boostUnderpricedPendingTransactionsForSigner server.dependencies · signer blockNumber)) :=
    fun _ => callManager_gated hothers fun _ => boost_unregistering
  mvcgen [-callManager_keepsApart, -boostStuckPendingTransactions_keepsApart,
    boostStuckPendingTransactions, hboost]

theorem replenishStrategy_gated (currentBlock : ℕ) :
    KeepsGated server (replenishStrategy server round currentBlock) := by
  have hbalance : ∀ address, KeepsGated server (receive server round (·.getBalance address)) :=
    fun _ => receive_gated hothers _
  have hpending : KeepsGated server
      (findActionPending server round .valueTransfer (some server.workerAddress)) :=
    findActionPending_gated hothers _ _
  have hsend : ∀ refill, KeepsGated server (callManager server round
      (sendTransaction server.dependencies · (refillDetails server refill currentBlock))) :=
    fun refill => sendTransaction_gated hothers _ rfl
  mvcgen [-receive_keepsApart, -findActionPending_keepsApart, -callManager_keepsApart,
    replenishStrategy, hbalance, hpending, hsend, setWorkerBalance]

theorem finishRound_gated (currentBlockNumber : ℕ) (hubEvents : List TypedEvent)
    (transactionHashes : List Hash) :
    KeepsGated server
      (finishRound server round currentBlockNumber hubEvents transactionHashes) := by
  have hreplenish : KeepsGated server (replenishStrategy server round currentBlockNumber) :=
    replenishStrategy_gated hothers currentBlockNumber
  have hbalance : KeepsGated server (receive server round (·.getBalance server.workerAddress)) :=
    receive_gated hothers _
  mvcgen [-receive_keepsApart, finishRound, setReadyState, handlePastHubEvents_gated, hreplenish,
    hbalance, leaveAlertedState_gated]

theorem handleChanges_gated (currentBlockNumber : ℕ) :
    KeepsGated server (handleChanges server round currentBlockNumber) := by
  have hagain : KeepsGated server (shouldRegisterAgain server round currentBlockNumber) :=
    shouldRegisterAgain_gated hothers currentBlockNumber
  have hpast : ∀ hubEvents lastScannedBlock forceRegistration, KeepsGated server
      (handlePastEvents server round hubEvents lastScannedBlock currentBlockNumber
        forceRegistration) :=
    fun hubEvents lastScannedBlock => handlePastEvents_gated hothers hubEvents lastScannedBlock _
  have hremove : KeepsGated server (callManager server round
      (removeConfirmedTransactions server.dependencies · currentBlockNumber)) :=
    callManager_gated hothers fun _ => removeConfirmedTransactions_unregistering
  have hboost : KeepsGated server (boostStuckPendingTransactions server round currentBlockNumber) :=
    boostStuckPendingTransactions_gated hothers currentBlockNumber
  have hfinish : ∀ hubEvents transactionHashes, KeepsGated server
      (finishRound server round currentBlockNumber hubEvents transactionHashes) :=
    finishRound_gated hothers currentBlockNumber
  mvcgen [-callManager_keepsApart, -scanLogs_spec, -shouldRegisterAgain_keepsApart,
    -boostStuckPendingTransactions_keepsApart, handleChanges, getAllHubEventsSinceLastScan,
    noteHubScan, updateLatestTxBlockNumber, queryLatestActiveEvent, scanLogs_gated, hagain, hpast,
    hremove, hboost, moveCursor, hfinish]

theorem worker_gated : KeepsGated server (worker server round) := by
  have hinit : KeepsGated server (init server round) := init_gated hothers
  have hprice : KeepsGated server (receive server round (·.provider.getGasPrice)) :=
    receive_gated hothers _
  have hbalance : KeepsGated server (receive server round (·.getBalance server.managerAddress)) :=
    receive_gated hothers _
  have hchanges : KeepsGated server (handleChanges server round round.blockNumber) :=
    handleChanges_gated hothers round.blockNumber
  mvcgen [-receive_keepsApart, worker, hinit, refreshGasPrice, hprice, refreshBalance, hbalance,
    updateRegistrationManager, setReadyState, hchanges]

theorem intervalHandler_gated : KeepsGated server (intervalHandler server round) := by
  have hworker : KeepsGated server (worker server round) := worker_gated hothers
  mvcgen [intervalHandler, startRound, workerSemaphore, hworker]

end Awaits

/-- The calls that come with the event send no registration. -/
def WorkerEvent.OthersDoNotRegister : WorkerEvent → Prop
  | .init round | .tick round => round.OthersDoNotRegister
  | .managerCall call => call.isRegistration = false
  | .blockUnavailable | .timedOut => True

section Run

variable {server : RelayServer} {state state' : WorkerState} {event : WorkerEvent}

theorem gated_of_workerStep (h : state.Gated server) (hothers : event.OthersDoNotRegister)
    (hstep : workerStep server state event = some state') : state'.Gated server := by
  obtain rfl := Option.some.inj hstep
  cases event with
  | init round =>
      have hinit : KeepsGated server (RifRelayServer.init server round) := init_gated hothers
      have hkeeps : KeepsGated server (do startRound; RifRelayServer.init server round) := by
        mvcgen [startRound, hinit]
      exact hkeeps.final h
  | tick round => exact (intervalHandler_gated hothers).final h
  | blockUnavailable => exact h
  | timedOut => exact h
  | managerCall call =>
      refine h.of_store rfl fun hstore => ?_
      exact runCalls_unregistering (List.forall_mem_singleton.mpr hothers) hstore

/-- However rounds fail and other calls that send no registration come between, none is in the
store that held none at first before the hub has shown a stake that is large enough and not
unlocked. -/
theorem registration_after_stake {txStore : TxStore} {events : List WorkerEvent}
    (hrun : run (workerStep server) (.constructed server.dependencies.config txStore) events =
      some state)
    (hstart : txStore.Unregistering) (hothers : ∀ event ∈ events, event.OthersDoNotRegister)
    {tx : StoredTransaction} (htx : tx ∈ state.transactionManager.txStore)
    (hregistration : tx.serverAction.isRegistration = true) :
    ∃ stakeInfo ∈ state.stakesRead,
      server.dependencies.config.managerMinStake ≤ stakeInfo.stake ∧
        stakeInfo.withdrawBlock = 0 := by
  have hgated : state.Gated server := by
    have hallowed : Along (workerStep server) (fun _ event => event.OthersDoNotRegister)
        (.constructed server.dependencies.config txStore) events :=
      along_of_forall fun event hevent _ => hothers event hevent
    exact invariant_of_along (fun _ _ _ h hevent hstep => gated_of_workerStep h hevent hstep)
      (.inr ⟨RegistrationManager.constructed_unstaked [], hstart⟩) hallowed hrun
  rcases hgated with ⟨stakeInfo, hread, hsufficient⟩ | ⟨-, hunregistering⟩
  · rw [StakeInfo.isSufficient, Bool.and_eq_true, decide_eq_true_eq, decide_eq_true_eq]
      at hsufficient
    exact ⟨stakeInfo, hread, hsufficient.2, hsufficient.1⟩
  · exact absurd hregistration (Bool.eq_false_iff.mp (hunregistering tx htx))

theorem registration_after_stake_answering :
    (stateAfterTick answering).transactionManager.txStore.entries.map (·.serverAction) =
        [.addWorker, .registerServer] ∧
      ∀ tx ∈ (stateAfterTick answering).transactionManager.txStore,
        tx.serverAction.isRegistration = true →
          ∃ stakeInfo ∈ (stateAfterTick answering).stakesRead,
            sampleStakingServer.dependencies.config.managerMinStake ≤ stakeInfo.stake ∧
              stakeInfo.withdrawBlock = 0 := by
  refine ⟨by decide +kernel, fun tx htx hregistration => ?_⟩
  refine @registration_after_stake sampleStakingServer _ TxStore.empty
    [.tick (sampleRound answering)] rfl (fun _ h => absurd h (TxStore.not_mem_empty _)) ?_ tx htx
    hregistration
  exact List.forall_mem_singleton.mpr fun _ _ h => absurd h List.not_mem_nil

end Run

section UnderWay

variable {server : RelayServer} {round : Round} {x : WorkerState}

theorem isActionPending_of_mem {txStore : TxStore} {tx : StoredTransaction} (hmem : tx ∈ txStore)
    (hunmined : tx.minedBlockNumber = none) :
    isActionPending txStore tx.serverAction none = true := by
  refine List.any_eq_true.mpr ⟨tx, mem_getAll.mpr hmem, ?_⟩
  simp [hunmined]

theorem Sends.isActionPending {dependencies : ServerDependencies} {provider : Provider}
    {details : SendTransactionDetails} {manager manager' : TransactionManager}
    {result : SignedTransactionDetails} {price count : ℕ} {hash : Hash}
    (h : Sends dependencies provider details manager result manager' price count hash) :
    isActionPending manager'.txStore details.serverAction none = true :=
  isActionPending_of_mem ((mem_of_putTx h.stored _).mpr (.inr rfl)) rfl

theorem focusManager_sends {provider : Provider} {details : SendTransactionDetails} :
    ⦃fun state => ⌜state.apart = x⌝⦄
    focus WorkerState.transactionManager
      (fun transactionManager state => { state with transactionManager })
      (sendTransaction server.dependencies provider details)
    ⦃post⟨fun _ state => ⌜state.apart = x ∧
        isActionPending state.transactionManager.txStore details.serverAction none = true⌝,
      fun _ _ => ⌜True⌝⟩⦄ := by
  intro s hs
  have hsends := sendTransaction_sends server.dependencies provider details s.transactionManager
    s.transactionManager rfl
  simp only [wp, PredTrans.apply, EStateM.run, focus] at hsends ⊢
  cases hrun : sendTransaction server.dependencies provider details s.transactionManager with
  | ok result manager =>
      rw [hrun] at hsends
      obtain ⟨price, count, hash, h⟩ := hsends
      exact ⟨hs, h.isActionPending⟩
  | error e manager => trivial

theorem callManager_isActionPending {details : SendTransactionDetails} :
    ⦃fun state => ⌜state.apart = x⌝⦄
    callManager server round (sendTransaction server.dependencies · details)
    ⦃post⟨fun _ state => ⌜state.apart = x ∧
        isActionPending state.transactionManager.txStore details.serverAction none = true⌝,
      fun _ _ => ⌜True⌝⟩⦄ := by
  have hfocus := fun provider => @focusManager_sends server x provider details
  mvcgen [-callManager_keepsApart, -focusManager_keepsApart, callManager, hfocus]
  next h _ _ hreceived => exact hreceived.trans h

/-- What a manager has to see before it registers. -/
def RegistrationManager.allPrerequisitesOk (manager : RegistrationManager) : Bool :=
  manager.isStakeLocked && manager.stakeRequired.isSatisfied && manager.balanceRequired.isSatisfied

/-- The server is registered, or a registration waits to be mined, or it cannot register. -/
def WorkerState.RegistersIfItCan (server : RelayServer) (state : WorkerState) : Prop :=
  state.registrationManager.allPrerequisitesOk = true →
    server.isRegistrationValid state.registrationManager.relayData = true ∨
      isActionPending state.transactionManager.txStore .registerServer none = true

theorem attemptRegistration_registers {currentBlock : ℕ} :
    ⦃fun state => ⌜state.apart = x⌝⦄ attemptRegistration server round currentBlock
    ⦃post⟨fun _ state => ⌜state.RegistersIfItCan server⌝, fun _ _ => ⌜True⌝⟩⦄ := by
  have hsend := fun details => @callManager_isActionPending server round x details
  mvcgen [-callManager_keepsApart, -attemptRegistration_keepsApart, attemptRegistration, hsend]
    with grind [WorkerState.RegistersIfItCan, RegistrationManager.allPrerequisitesOk]

theorem findActionPending_answers {serverAction : ServerAction} {destination : Option Address} :
    ⦃fun state => ⌜state.apart = x⌝⦄ findActionPending server round serverAction destination
    ⦃post⟨fun found state => ⌜state.apart = x ∧
        found = isActionPending state.transactionManager.txStore serverAction destination⌝,
      fun _ _ => ⌜True⌝⟩⦄ := by
  mvcgen [-findActionPending_keepsApart, findActionPending] with grind

theorem registerIfNeeded_registers {currentBlock : ℕ} {forceRegistration : Bool} :
    ⦃fun state => ⌜state.apart = x⌝⦄
    registerIfNeeded server round currentBlock forceRegistration
    ⦃post⟨fun _ state => ⌜state.RegistersIfItCan server⌝, fun _ _ => ⌜True⌝⟩⦄ := by
  have hpending := @findActionPending_answers server round x .registerServer none
  have hattempt := @attemptRegistration_registers server round x currentBlock
  mvcgen [-findActionPending_keepsApart, -attemptRegistration_keepsApart,
    -registerIfNeeded_keepsApart, registerIfNeeded, hpending, hattempt]
    with grind [WorkerState.RegistersIfItCan]

theorem keeps_true {α : Type} (program : RoundM α) : Keeps (fun _ => True) program := by
  intro s _
  simp only [wp, PredTrans.apply, EStateM.run]
  cases program s <;> trivial

theorem handlePastEvents_registers {hubEvents : List TypedEvent}
    {lastScannedBlock currentBlock : ℕ} {forceRegistration : Bool} :
    ⦃fun _ => ⌜True⌝⦄
    handlePastEvents server round hubEvents lastScannedBlock currentBlock forceRegistration
    ⦃post⟨fun _ state => ⌜state.RegistersIfItCan server⌝, fun _ _ => ⌜True⌝⟩⦄ := by
  have hstake := fun events =>
    keeps_true (handleEach (handleStakeEvent server round currentBlock) events)
  have hregister := fun x =>
    @registerIfNeeded_registers server round x currentBlock forceRegistration
  mvcgen [-registerIfNeeded_keepsApart, handlePastEvents, noteHanded, fetchStakeEvents,
    noteStakeScan, extractDuePendingEvents, updateRegistrationManager, hstake, hregister]

/-- A server that has handled the past events, and whose manager has read the stake and the
balance to register, is registered or has a registration under way: whatever the round was
answered before, and whatever other calls came between. -/
theorem registered_or_under_way {hubEvents : List TypedEvent} {lastScannedBlock currentBlock : ℕ}
    {forceRegistration : Bool} {state state' : WorkerState}
    (hreturns : returns (handlePastEvents server round hubEvents lastScannedBlock currentBlock
      forceRegistration) state = true)
    (hstate' : state' = Keeping.final (handlePastEvents server round hubEvents lastScannedBlock
      currentBlock forceRegistration) state)
    (hprerequisites : state'.registrationManager.allPrerequisitesOk = true) :
    server.isRegistrationValid state'.registrationManager.relayData = true ∨
      isActionPending state'.transactionManager.txStore .registerServer none = true := by
  subst hstate'
  exact final_of_returns handlePastEvents_registers trivial hreturns hprerequisites

end UnderWay

/-- What `handlePastEvents` makes of the stake after a round that has read no logs. -/
def stateAfterStake : WorkerState :=
  Keeping.final (handlePastEvents sampleStakingServer (sampleRound answering) [] 0 7 false)
    (stateAfterTick failing)

theorem registered_or_under_way_answering :
    sampleStakingServer.isRegistrationValid stateAfterStake.registrationManager.relayData = true ∨
      isActionPending stateAfterStake.transactionManager.txStore .registerServer none = true :=
  registered_or_under_way (by decide +kernel) rfl (by decide +kernel)

end RifRelayServer
