import RifRelayServer.Ticks
import RifRelayServer.Lib.Executions
import RifRelayServer.RoundFrames

/-!
# What a round is told, a tick can be told

The worker's rounds and the system in which ticks overlap follow the same server:
one with all that the registration manager knows of the hub, the other with all that
may go on meanwhile. When nothing else goes on, a tick can be told what a round is
told, and the parts of both that send, look after the store and read the logs leave
the same behind.
-/

namespace RifRelayServer.Ticks

open Async Runs

/-- A call that is under way is answered. -/
def Outside.isAnswer : Outside → Bool
  | resume _ _ => true
  | _ => false

/-- The ticks alone: from outside come only the answers to their calls. -/
def loneSystem (server : RelayServer) : System TickState String Question.Answer Job Outside :=
  (system server).restrict Outside.isAnswer

/-- The states agree on all that both follow; the semaphore is taken or not. -/
structure Related (server : RelayServer) (taken : Bool) (w : WorkerState) (s : TickState) :
    Prop where
  workerSemaphoreOn : s.relay.workerSemaphoreOn = taken
  initialized : s.relay.initialized = w.initialized
  lastScannedBlock : s.relay.lastScannedBlock = w.scan.lastScannedBlock
  lastRefreshBlock : s.relay.lastRefreshBlock = w.lastRefreshBlock
  ready : s.relay.ready = w.ready
  lastSuccessfulRounds : s.relay.lastSuccessfulRounds = w.lastSuccessfulRounds
  gasPrice : s.relay.gasPrice = w.gasPrice
  alerted : s.relay.alerted = w.alerted
  alertedBlock : s.relay.alertedBlock = w.alertedBlock
  lastMinedActiveTransaction :
    s.relay.lastMinedActiveTransaction = w.lastMinedActiveTransaction
  txStore : s.calls.shared.txStore = w.transactionManager.txStore
  nonces : s.calls.shared.nonces = w.transactionManager.nonces
  nonceMutex : s.calls.shared.nonceMutex = none
  workerBalance : s.calls.shared.workerBalance = w.workerBalanceRequired.currentValue
  workerMinBalance :
    w.workerBalanceRequired.requiredValue = server.dependencies.config.workerMinBalance
  managerMinBalance : w.registrationManager.balanceRequired.requiredValue =
    server.dependencies.config.managerMinBalance
  isInitialized : w.initialized = true → w.registrationManager.isInitialized = true

/-- No other call of the transaction manager comes in the round. -/
def Lone (round : Round) : Prop := ∀ n, (round.moments n).otherCalls = []

section Sends

variable {dependencies : ServerDependencies} {id : CallId} {details : SendTransactionDetails}
  {shared : Shared} {balance : ℤ} {α : Type} {manager : TransactionManager} {e : String}

/-- What a call leaves of what is shared. -/
structure Leaves (balance : ℤ) (manager : TransactionManager) (shared : Shared) : Prop where
  txStore : shared.txStore = manager.txStore
  nonces : shared.nonces = manager.nonces
  nonceMutex : shared.nonceMutex = none
  workerBalance : shared.workerBalance = balance

/-- A call of `sendTransaction` that is alone can be answered so that it ends as the program does. -/
abbrev SendFollows (dependencies : ServerDependencies) (id : CallId)
    (details : SendTransactionDetails) (balance : ℤ) (concrete : ManagerM α)
    (manager : TransactionManager) (shared : Shared) (point : SendPoint) : Prop :=
  Follows (SendPoint.step dependencies id details)
    (fun outcome manager state => sendOutcome? state.2 = some outcome ∧
      Leaves balance manager state.1) concrete manager (shared, point)

theorem await_error : RifRelayServer.await (.error e : Except String α) manager = .error e manager :=
  rfl

theorem storeTx_of_ok {tx : StoredTransaction} {updateExisting : Bool} {txStore : TxStore}
    (hput : putTx manager.txStore tx updateExisting = .ok txStore) :
    RifRelayServer.storeTx tx updateExisting manager = .ok () { manager with txStore } := by
  change (RifRelayServer.await (putTx manager.txStore tx updateExisting) >>= fun txStore =>
    set { manager with txStore }) manager = _
  rw [hput]
  rfl

theorem storeTx_of_error {tx : StoredTransaction} {updateExisting : Bool}
    (hput : putTx manager.txStore tx updateExisting = .error e) :
    RifRelayServer.storeTx tx updateExisting manager = .error e manager := by
  change (RifRelayServer.await (putTx manager.txStore tx updateExisting) >>= fun txStore =>
    set { manager with txStore }) manager = _
  rw [hput]
  rfl

theorem follows_broadcastTransaction {provider : Provider}
    {signedTransaction : SignedTransactionDetails} {txId : Hash}
    (hleaves : Leaves balance manager shared) :
    SendFollows dependencies id details balance
      (broadcastTransaction provider signedTransaction txId) manager
      shared (.broadcasting signedTransaction txId) := by
  unfold broadcastTransaction
  cases hhash : provider.sendTransaction signedTransaction.signedTx with
  | error e => exact .step (.broadcast (.error e)) rfl (.failed rfl ⟨rfl, hleaves⟩)
  | ok hash =>
      have hsent : Leaves balance
          { manager with broadcast := manager.broadcast ++ [signedTransaction.signedTx] } shared :=
        ⟨hleaves.1, hleaves.2, hleaves.3, hleaves.4⟩
      refine .left_ok rfl (.left_ok rfl ?_)
      by_cases hmismatch : toLowerCase hash ≠ toLowerCase txId
      · simp only [if_pos hmismatch]
        exact .step (.broadcast (.ok hash)) (if_pos hmismatch) (.of_error rfl ⟨rfl, hsent⟩)
      · simp only [if_neg hmismatch]
        exact .step (.broadcast (.ok hash)) (if_neg hmismatch) (.of_ok rfl ⟨rfl, hsent⟩)

theorem follows_storeAndBroadcast {provider : Provider}
    {signedTransaction : SignedTransactionDetails} {storedTx : StoredTransaction}
    (htxStore : shared.txStore = manager.txStore) (hnonces : shared.nonces = manager.nonces)
    (hbalance : shared.workerBalance = balance) :
    SendFollows dependencies id details balance
      (RifRelayServer.storeTx storedTx false >>= fun _ =>
        broadcastTransaction provider signedTransaction storedTx.txId) manager
      shared (.storing signedTransaction storedTx) := by
  cases hput : putTx manager.txStore storedTx false with
  | error e =>
      have hthrown : (SendPoint.storing signedTransaction storedTx).resume dependencies id details
          shared (.stored none) = some (shared.released, .thrown e) := by
        simp only [SendPoint.resume, unlessFailing, htxStore, hput]
      exact .step (.stored none) hthrown
        (.failed (storeTx_of_error hput) ⟨rfl, htxStore, hnonces, rfl, hbalance⟩)
  | ok txStore =>
      have hstored : (SendPoint.storing signedTransaction storedTx).resume dependencies id details
          shared (.stored none) = some ({ shared.released with
            txStore, sent := shared.sent ++ [signedTransaction.signedTx] },
              .broadcasting signedTransaction storedTx.txId) := by
        simp only [SendPoint.resume, unlessFailing, htxStore, hput]
      refine .left_ok (storeTx_of_ok hput) (.step (.stored none) hstored ?_)
      exact follows_broadcastTransaction ⟨rfl, hnonces, rfl, hbalance⟩

/-- What is left of `sendTransaction` once the nonce is polled. -/
def signAndSend (dependencies : ServerDependencies) (provider : Provider)
    (details : SendTransactionDetails) (price nonce : ℕ) : ManagerM SignedTransactionDetails := do
  let txToSign := details.txToSign price nonce
  let signedTransaction ← signTransaction dependencies (dependencies.keyManagerOf details.signer)
    details.signer txToSign
  let storedTx := details.storedTx txToSign signedTransaction.txHash
  modify fun manager => { manager with
    nonces := Function.update manager.nonces details.signer (manager.nonces details.signer + 1) }
  RifRelayServer.storeTx storedTx false
  broadcastTransaction provider signedTransaction storedTx.txId

theorem follows_signAndSend {provider : Provider} {price nonce : ℕ}
    (htxStore : shared.txStore = manager.txStore) (hnonces : shared.nonces = manager.nonces)
    (hbalance : shared.workerBalance = balance) :
    SendFollows dependencies id details balance
      (signAndSend dependencies provider details price nonce) manager shared (.signing price nonce) := by
  unfold signAndSend
  cases hsigned : dependencies.signatureOf (dependencies.keyManagerOf details.signer) details.signer
      (details.txToSign price nonce) with
  | error e =>
      have hthrown : (SendPoint.signing price nonce).resume dependencies id details shared
          (.signature none) = some (shared.released, .thrown e) := by
        simp only [SendPoint.resume, unlessFailing, hsigned]
      refine .step (.signature none) hthrown (.failed ?_ ⟨rfl, htxStore, hnonces, rfl, hbalance⟩)
      unfold signTransaction
      rw [hsigned, Keeping.bind_of_error await_error]
  | ok signedTransaction =>
      have hrun : signTransaction dependencies (dependencies.keyManagerOf details.signer)
          details.signer (details.txToSign price nonce) manager = .ok signedTransaction
            { manager with signed := manager.signed ++ [signedTransaction.signedTx] } := by
        unfold signTransaction
        rw [hsigned]
        rfl
      have hcounted : (SendPoint.signing price nonce).resume dependencies id details shared
          (.signature none) = some (shared.counted details.signer, .storing signedTransaction
            (details.storedTx (details.txToSign price nonce) signedTransaction.txHash)) := by
        simp only [SendPoint.resume, unlessFailing, hsigned]
      refine .left_ok hrun (.left_ok rfl (.step (.signature none) hcounted ?_))
      exact follows_storeAndBroadcast htxStore (by simp only [Shared.counted, hnonces]) hbalance

theorem follows_sendTransaction {provider : Provider} (hleaves : Leaves balance manager shared) :
    SendFollows dependencies id details balance (sendTransaction dependencies provider details)
      manager shared .gasPrice := by
  unfold sendTransaction
  cases hprice : provider.getGasPrice with
  | error e => exact .step (.gasPrice (.error e)) rfl (.failed rfl ⟨rfl, hleaves⟩)
  | ok price =>
      have hacquired : (SendPoint.mutex price).resume dependencies id details shared .acquired =
          some ({ shared with nonceMutex := some id }, .polling price) := by
        simp only [SendPoint.resume, hleaves.nonceMutex, if_true]
      refine .left_ok rfl (.step (.gasPrice (.ok price)) rfl (.step .acquired hacquired ?_))
      cases hcount : provider.getPendingTransactionCount details.signer with
      | error e =>
          refine .step (.transactionCount (.error e)) rfl
            (.failed ?_ ⟨rfl, hleaves.1, hleaves.2, rfl, hleaves.4⟩)
          unfold pollNonce
          rw [hcount, Keeping.bind_of_error await_error]
      | ok count =>
          have hpolled : pollNonce provider details.signer manager =
              .ok (resolveNonce manager.nonces details.signer count).1
                { manager with nonces := (resolveNonce manager.nonces details.signer count).2 } := by
            unfold pollNonce
            rw [hcount]
            rfl
          refine .left_ok hpolled (.step (.transactionCount (.ok count)) rfl ?_)
          rw [hleaves.nonces]
          exact follows_signAndSend hleaves.txStore (by simp only [Shared.polled])
            hleaves.workerBalance

end Sends

section Waits

variable {server : RelayServer} {taken : Bool} {round : Round} {w : WorkerState} {s : TickState}
  {α β : Type}

/-- The round counts the answer. -/
def counted (w : WorkerState) : WorkerState := { w with received := w.received + 1 }

theorem receive_of_ok (hlone : Lone round) {answer : Moment → Except String α} {a : α}
    (h : answer (round.moments w.received) = .ok a) :
    RifRelayServer.receive server round answer w = .ok a (counted w) := by
  have hcalls : runCalls server.dependencies (round.moments w.received).otherCalls
      w.transactionManager = w.transactionManager := by
    rw [hlone]
    rfl
  change RifRelayServer.awaited (answer (round.moments w.received)) { w with
    received := w.received + 1
    transactionManager := runCalls server.dependencies (round.moments w.received).otherCalls
      w.transactionManager } = _
  rw [hcalls, h]
  rfl

theorem receive_of_error (hlone : Lone round) {answer : Moment → Except String α} {e : String}
    (h : answer (round.moments w.received) = .error e) :
    RifRelayServer.receive server round answer w = .error e (counted w) := by
  have hcalls : runCalls server.dependencies (round.moments w.received).otherCalls
      w.transactionManager = w.transactionManager := by
    rw [hlone]
    rfl
  change RifRelayServer.awaited (answer (round.moments w.received)) { w with
    received := w.received + 1
    transactionManager := runCalls server.dependencies (round.moments w.received).otherCalls
      w.transactionManager } = _
  rw [hcalls, h]
  rfl

theorem Related.counted (h : Related server taken w s) : Related server taken (counted w) s :=
  { h with }

theorem ends_receive_after {question : Question} {events : List Outside} {t : TickState}
    (houtside : run (loneSystem server).outside s events = some t) (answer : question.Answer)
    (henabled : isEnabled t question = true) :
    Ends (loneSystem server) (receive question) s answer t := by
  have hasked : Ends (loneSystem server) (Program.ask question : TickM question.Answer) s
      (.ok answer) t := Ends.ask answer houtside henabled
  cases answer with
  | ok value => exact hasked.bind (.done value t)
  | error e => exact hasked.bind (.fail e t)

theorem ends_receive (question : Question) (answer : question.Answer)
    (henabled : isEnabled s question = true) :
    Ends (loneSystem server) (receive question) s answer s := by
  have houtside : run (loneSystem server).outside s ([] : List Outside) = some s := rfl
  exact ends_receive_after houtside answer henabled

/-- An answer of the round is an answer of the tick. -/
theorem matches_receive (hlone : Lone round) (hR : Related server taken w s)
    (question : Question) (henabled : isEnabled s question = true)
    (answer : Moment → Except String α) (value : α → question.Value) :
    Matches (loneSystem server) (Related server taken) (fun a w' b => b = value a ∧ w' = counted w)
      (RifRelayServer.receive server round answer) w (receive question) s := by
  cases h : answer (round.moments w.received) with
  | ok a =>
      exact .of_ok (receive_of_ok hlone h) (ends_receive _ (.ok (value a)) henabled) hR.counted
        ⟨rfl, rfl⟩
  | error e =>
      exact .of_error (receive_of_error hlone h) (ends_receive _ (.error e) henabled) hR.counted

theorem run_outside {events : List Outside} {calls : ServerState}
    (hanswers : ∀ event ∈ events, event.isAnswer = true)
    (hrun : run (RifRelayServer.step server) s.calls (events.map (·.event)) = some calls) :
    run (loneSystem server).outside s events = some { s with calls } := by
  induction events generalizing s with
  | nil =>
      obtain rfl := Option.some.inj hrun
      rfl
  | cons event events ih =>
      obtain ⟨hanswer, hothers⟩ := List.forall_mem_cons.mp hanswers
      obtain ⟨next, hnext, hrest⟩ := run_cons_eq_some_iff.mp hrun
      refine run_cons_eq_some_iff.mpr ⟨{ s with calls := next }, ?_, ih hothers hrest⟩
      simp only [loneSystem, System.restrict, system, hanswer, if_true, hnext, Option.map_some]

/-- A call alone, from one answer to the next. -/
def callStep (server : RelayServer) (id : CallId) (state : Shared × Call)
    (answer : RifRelayServer.Answer) : Option (Shared × Call) :=
  state.2.resume server id state.1 answer

theorem run_callStep {id : CallId} {call call' : Call} {answers : List RifRelayServer.Answer}
    {calls : ServerState} {shared : Shared} (hcall : calls.calls[id]? = some call)
    (hrun : run (callStep server id) (calls.shared, call) answers = some (shared, call')) :
    run (RifRelayServer.step server) calls (answers.map (.resume id)) =
      some ⟨shared, calls.calls.set id call'⟩ := by
  induction answers generalizing calls call with
  | nil =>
      obtain ⟨rfl, rfl⟩ := Prod.ext_iff.mp (Option.some.inj hrun)
      obtain ⟨hlt, rfl⟩ := List.getElem?_eq_some_iff.mp hcall
      rw [List.set_getElem_self]
      rfl
  | cons answer answers ih =>
      obtain ⟨⟨shared₁, next⟩, hnext, hrest⟩ := run_cons_eq_some_iff.mp hrun
      have hlt : id < calls.calls.length := (List.getElem?_eq_some_iff.mp hcall).1
      refine run_cons_eq_some_iff.mpr ⟨⟨shared₁, calls.calls.set id next⟩, ?_, ?_⟩
      · rw [callStep] at hnext
        simp only [RifRelayServer.step, hcall, Option.bind_eq_bind, Option.bind_some, hnext]
        rfl
      · rw [ih (List.getElem?_set_self hlt) hrest, List.set_set]

/-- A call that is waited for can be answered first. -/
theorem ends_callAndWait {task : Task} {answers : List RifRelayServer.Answer} {shared : Shared}
    {call : Call} {outcome : Except String Unit}
    (hrun : run (callStep server s.calls.calls.length) (s.calls.shared, task.started server) answers =
      some (shared, call)) (houtcome : Ticks.outcome? call = some outcome) :
    ∃ t, Ends (loneSystem server) (callAndWait server task) s outcome t ∧ t.relay = s.relay ∧
      t.calls.shared = shared := by
  have hcall : (s.called (task.started server)).calls.calls[s.calls.calls.length]? =
      some (task.started server) := List.getElem?_concat_length
  have hlast : s.calls.calls.length < (s.called (task.started server)).calls.calls.length := by
    simp [TickState.called]
  let calls : ServerState :=
    ⟨shared, (s.called (task.started server)).calls.calls.set s.calls.calls.length call⟩
  have hevents : answers.map (RifRelayServer.Event.resume s.calls.calls.length) =
      (answers.map (Outside.resume s.calls.calls.length)).map Outside.event := by
    rw [List.map_map]
    rfl
  have hcalls := run_callStep hcall hrun
  rw [hevents] at hcalls
  have hended : ServerState.outcome? calls s.calls.calls.length = some outcome := by
    rw [ServerState.outcome?, List.getElem?_set_self hlast]
    exact houtcome
  have henabled : isEnabled { s with calls } (.call s.calls.calls.length) = true := by
    simp only [isEnabled, hended, Option.isSome_some]
  have hanswered : Ends (loneSystem server) (receive (.call s.calls.calls.length))
      (s.called (task.started server)) (.ok ()) { s with calls } :=
    ends_receive_after (run_outside (List.forall_mem_map.mpr fun _ _ => rfl) hcalls) _ henabled
  refine ⟨{ s with calls }, Ends.get.bind ((Ends.modify _).bind (hanswered.bind (Ends.get.bind ?_))),
    rfl, rfl⟩
  rw [hended, Option.getD_some]
  cases outcome with
  | ok a => exact .done () _
  | error e => exact .fail e _

/-- What the call does alone is what the tick waits for. -/
theorem matches_callAndWait {ω : Type} {R : ω → TickState → Prop} {task : Task}
    {concrete : EStateM String ω α} {w : ω}
    (h : Follows (callStep server s.calls.calls.length) (fun outcome w' state =>
      Ticks.outcome? state.2 = some outcome ∧
        ∀ t : TickState, t.relay = s.relay → t.calls.shared = state.1 → R w' t) concrete w
      (s.calls.shared, task.started server)) :
    Matches (loneSystem server) R (fun _ _ _ => True) concrete w (callAndWait server task) s := by
  unfold Follows at h
  cases hconcrete : concrete w with
  | ok a w' =>
      rw [hconcrete] at h
      obtain ⟨answers, state, hrun, houtcome, hR⟩ := h
      obtain ⟨t, hends, hrelay, hshared⟩ := ends_callAndWait hrun houtcome
      exact .of_ok hconcrete hends (hR t hrelay hshared) trivial
  | error e w' =>
      rw [hconcrete] at h
      obtain ⟨answers, state, hrun, houtcome, hR⟩ := h
      obtain ⟨t, hends, hrelay, hshared⟩ := ends_callAndWait hrun houtcome
      exact .of_error hconcrete hends (hR t hrelay hshared)

theorem Related.leaves {manager : TransactionManager} {t : TickState}
    (h : Related server taken w s) (hrelay : t.relay = s.relay)
    (hleaves : Leaves w.workerBalanceRequired.currentValue manager t.calls.shared) :
    Related server taken { w with transactionManager := manager } t where
  workerSemaphoreOn := hrelay ▸ h.workerSemaphoreOn
  initialized := hrelay ▸ h.initialized
  lastScannedBlock := hrelay ▸ h.lastScannedBlock
  lastRefreshBlock := hrelay ▸ h.lastRefreshBlock
  ready := hrelay ▸ h.ready
  lastSuccessfulRounds := hrelay ▸ h.lastSuccessfulRounds
  gasPrice := hrelay ▸ h.gasPrice
  alerted := hrelay ▸ h.alerted
  alertedBlock := hrelay ▸ h.alertedBlock
  lastMinedActiveTransaction := hrelay ▸ h.lastMinedActiveTransaction
  txStore := hleaves.txStore
  nonces := hleaves.nonces
  nonceMutex := hleaves.nonceMutex
  workerBalance := hleaves.workerBalance
  workerMinBalance := h.workerMinBalance
  managerMinBalance := h.managerMinBalance
  isInitialized := h.isInitialized

theorem Related.shared (h : Related server taken w s) :
    Leaves w.workerBalanceRequired.currentValue w.transactionManager s.calls.shared :=
  ⟨h.txStore, h.nonces, h.nonceMutex, h.workerBalance⟩

/-- What a round has the transaction manager do is matched if it is on the manager. -/
theorem matches_callManager (hlone : Lone round) {concrete : Provider → ManagerM α}
    {program : TickM β} (h : Matches (loneSystem server)
      (fun manager => Related server taken { w with transactionManager := manager })
      (fun _ _ _ => True) (concrete (round.moments w.received).provider) w.transactionManager program s) :
    Matches (loneSystem server) (Related server taken) (fun _ w' _ => w'.apart = w.apart)
      (callManager server round concrete) w program s := by
  refine .left_ok (receive_of_ok hlone rfl) (.focus ?_)
  exact h.imp (fun manager t hrelated => hrelated.counted) fun _ _ _ _ => rfl

/-- A transaction that the round sends is sent by a call that the tick waits for. -/
theorem matches_sendTransaction (hlone : Lone round) (hR : Related server taken w s)
    (details : SendTransactionDetails) :
    Matches (loneSystem server) (Related server taken) (fun _ w' _ => w'.apart = w.apart)
      (callManager server round (sendTransaction server.dependencies · details)) w
      (callAndWait server (.sendTransaction details)) s := by
  refine matches_callManager hlone (matches_callAndWait ?_)
  have hstep : ∀ state answer, callStep server s.calls.calls.length
      (Prod.map id (Call.sendTransaction details) state) answer =
        (SendPoint.step server.dependencies s.calls.calls.length details state answer).map
          (Prod.map id (Call.sendTransaction details)) := fun _ _ => rfl
  refine Follows.within hstep ?_ rfl (follows_sendTransaction hR.shared)
  rintro outcome manager ⟨shared, point⟩ ⟨hpoint, hleaves⟩
  exact ⟨hpoint, fun t hrelay hshared => hR.leaves hrelay (hshared ▸ hleaves)⟩

end Waits

section Store

variable {server : RelayServer} {taken : Bool} {w : WorkerState} {s : TickState}
  {manager : TransactionManager} {provider : Provider} {α : Type}

/-- The round's transaction manager and the state of the tick. -/
abbrev ManagerRelated (server : RelayServer) (taken : Bool) (w : WorkerState)
    (manager : TransactionManager) : TickState → Prop :=
  Related server taken { w with transactionManager := manager }

theorem matches_await (hR : ManagerRelated server taken w manager s) (question : Question)
    (henabled : isEnabled s question = true) (answer : Except String α)
    (value : α → question.Value) :
    Matches (loneSystem server) (ManagerRelated server taken w)
      (fun a manager' b => b = value a ∧ manager' = manager) (RifRelayServer.await answer) manager
      (receive question) s := by
  cases answer with
  | ok a => exact .of_ok rfl (ends_receive _ (.ok (value a)) henabled) hR ⟨rfl, rfl⟩
  | error e => exact .of_error rfl (ends_receive _ (.error e) henabled) hR

theorem matches_ofExcept (hR : ManagerRelated server taken w manager s) (answer : Except String α) :
    Matches (loneSystem server) (ManagerRelated server taken w)
      (fun a manager' b => b = a ∧ manager' = manager) (RifRelayServer.await answer) manager
      (ofExcept answer) s := by
  cases answer with
  | ok a => exact .of_ok rfl (.done a s) hR ⟨rfl, rfl⟩
  | error e => exact .of_error rfl (.fail e s) hR

theorem ends_setTxStore (txStore : TxStore) :
    Ends (loneSystem server) (setTxStore txStore) s (.ok ()) (s.stored txStore) := .modify _

theorem matches_storeTx (hR : ManagerRelated server taken w manager s) (tx : StoredTransaction) :
    Matches (loneSystem server) (ManagerRelated server taken w) (fun _ _ _ => True)
      (RifRelayServer.storeTx tx true) manager (storeTx tx) s := by
  have hstore : s.txStore = manager.txStore := hR.txStore
  unfold storeTx
  refine .right (ends_receive .stored (.ok ()) rfl) (.right_get ?_)
  rw [hstore]
  cases hput : putTx manager.txStore tx true with
  | ok txStore =>
      exact .of_ok (storeTx_of_ok hput) (ends_setTxStore txStore) { hR with txStore := rfl } trivial
  | error e => exact .of_error (storeTx_of_error hput) (Ends.fail e s).bind_error hR

theorem matches_recheckTransaction (hR : ManagerRelated server taken w manager s)
    {blockNumber : ℕ} (transaction : StoredTransaction) :
    Matches (loneSystem server) (ManagerRelated server taken w) (fun _ _ _ => True)
      (RifRelayServer.recheckTransaction server.dependencies provider blockNumber transaction)
      manager (recheckTransaction server blockNumber transaction) s := by
  unfold RifRelayServer.recheckTransaction recheckTransaction
  split
  · exact .pure hR trivial
  · refine .bind (matches_await hR (.transaction transaction.txId) rfl _ id) ?_
    rintro _ manager receipt t hanswered ⟨rfl, rfl⟩
    cases receipt with
    | none => exact .pure hanswered trivial
    | some receipt =>
        cases hblock : receipt.blockNumber with
        | none =>
            simp only [hblock]
            exact .pure hanswered trivial
        | some minedBlockNumber =>
            simp only [hblock]
            split
            · exact matches_storeTx hanswered _
            · have hstore : t.txStore = manager.txStore := hanswered.txStore
              refine .right (ends_receive .stored (.ok ()) rfl) (.right_get ?_)
              rw [hstore]
              exact .of_ok rfl (ends_setTxStore _) { hanswered with txStore := rfl } trivial

theorem matches_removeConfirmedTransactions (hR : ManagerRelated server taken w manager s)
    {blockNumber : ℕ} :
    Matches (loneSystem server) (ManagerRelated server taken w) (fun _ _ _ => True)
      (RifRelayServer.removeConfirmedTransactions server.dependencies provider blockNumber) manager
      (removeConfirmedTransactions server blockNumber) s := by
  have hloop : ∀ txs manager t, ManagerRelated server taken w manager t →
      Matches (loneSystem server) (ManagerRelated server taken w) (fun _ _ _ => True)
        (recheckTransactions server.dependencies provider blockNumber txs) manager
        (forEach (recheckTransaction server blockNumber) txs) t := by
    intro txs
    induction txs with
    | nil => exact fun manager t hR => .pure hR trivial
    | cons tx txs ih =>
        exact fun manager t hR => .bind (matches_recheckTransaction hR tx)
          fun _ manager' _ t' hR _ => ih manager' t' hR
  have hstore : s.txStore = manager.txStore := hR.txStore
  refine .left_get (.right (ends_receive .asyncFind (.ok ()) rfl) (.right_get ?_))
  rw [hstore]
  exact hloop _ manager s hR

theorem matches_broadcastTransaction (hR : ManagerRelated server taken w manager s)
    {signedTransaction : SignedTransactionDetails} :
    Matches (loneSystem server) (ManagerRelated server taken w) (fun _ _ _ => True)
      (broadcastTransaction provider signedTransaction signedTransaction.txHash) manager
      (receive .broadcast >>= fun hash =>
        if toLowerCase hash ≠ toLowerCase signedTransaction.txHash then
          .fail (txHashMismatch hash signedTransaction.txHash)
        else pure ()) s := by
  refine .bind (matches_await hR .broadcast rfl _ id) ?_
  rintro _ manager hash t hanswered ⟨rfl, rfl⟩
  have hsent : ManagerRelated server taken w
      { manager with broadcast := manager.broadcast ++ [signedTransaction.signedTx] } t :=
    { hanswered with }
  refine .left_modify ?_
  by_cases hmismatch : toLowerCase hash ≠ toLowerCase signedTransaction.txHash
  · simp only [if_pos hmismatch]
    exact .of_error rfl (.fail _ t) hsent
  · simp only [if_neg hmismatch]
    exact .pure hsent trivial

theorem matches_resendTransaction (hR : ManagerRelated server taken w manager s)
    {currentBlock newGasPrice : ℕ} (tx : StoredTransaction) :
    Matches (loneSystem server) (ManagerRelated server taken w) (fun _ _ _ => True)
      (RifRelayServer.resendTransaction server.dependencies provider tx currentBlock newGasPrice)
      manager (resendTransaction server currentBlock newGasPrice tx) s := by
  unfold RifRelayServer.resendTransaction resendTransaction
  refine .right (ends_receive .signature (.ok ()) rfl) ?_
  dsimp only
  cases hsigned : server.dependencies.signatureOf (server.dependencies.keyManagerOf tx.fromAddress)
      tx.fromAddress (tx.txToResend newGasPrice) with
  | error e =>
      refine .of_error (Keeping.bind_of_error ?_) (Ends.fail e s).bind_error hR
      unfold signTransaction
      rw [hsigned, Keeping.bind_of_error await_error]
  | ok signedTransaction =>
      have hrun : signTransaction server.dependencies (server.dependencies.keyManagerOf tx.fromAddress)
          tx.fromAddress (tx.txToResend newGasPrice) manager = .ok signedTransaction
            { manager with signed := manager.signed ++ [signedTransaction.signedTx] } := by
        unfold signTransaction
        rw [hsigned]
        rfl
      have hsent : ManagerRelated server taken w
          { manager with signed := manager.signed ++ [signedTransaction.signedTx] } s := { hR with }
      refine .left_ok hrun (.right (.done signedTransaction s) ?_)
      let storedTx := tx.withAttempt signedTransaction.txHash (tx.txToResend newGasPrice) currentBlock
      have hupdate : Matches (loneSystem server) (ManagerRelated server taken w)
          (fun stored _ _ => stored = storedTx)
          (updateTransactionWithAttempt signedTransaction.txHash (tx.txToResend newGasPrice) tx
            currentBlock) { manager with signed := manager.signed ++ [signedTransaction.signedTx] }
          (storeTx storedTx) s := (matches_storeTx hsent _).left_pure fun _ _ _ _ => rfl
      refine .bind hupdate ?_
      rintro _ manager _ t hstored rfl
      refine .bind (matches_ofExcept hstored _) ?_
      rintro _ manager _ t hlogged ⟨rfl, rfl⟩
      refine .bind (matches_await hlogged .transactionCount rfl _ id) ?_
      rintro _ manager _ u hcounted ⟨rfl, rfl⟩
      exact matches_broadcastTransaction hcounted

theorem matches_boost (hR : ManagerRelated server taken w manager s) {signer : Address}
    {currentBlockHeight : ℕ} :
    Matches (loneSystem server) (ManagerRelated server taken w) (fun _ _ _ => True)
      (RifRelayServer.boostUnderpricedPendingTransactionsForSigner server.dependencies provider signer
        currentBlockHeight) manager
      (boostUnderpricedPendingTransactionsForSigner server signer currentBlockHeight) s := by
  have hloop : ∀ newGasPrice txs manager t, ManagerRelated server taken w manager t →
      Matches (loneSystem server) (ManagerRelated server taken w) (fun _ _ _ => True)
        (resendTransactions server.dependencies provider currentBlockHeight newGasPrice txs) manager
        (forEach (resendTransaction server currentBlockHeight newGasPrice) txs) t := by
    intro newGasPrice txs
    induction txs with
    | nil => exact fun manager t hR => .pure hR trivial
    | cons tx txs ih =>
        exact fun manager t hR => .bind (matches_resendTransaction hR tx)
          fun _ manager' _ t' hR _ => (ih manager' t' hR).left_pure fun _ _ _ h => h
  have hstore : s.txStore = manager.txStore := hR.txStore
  refine .left_get (.right (ends_receive .asyncFind (.ok ()) rfl) (.right_get ?_))
  rw [hstore]
  dsimp only
  cases htxs : getAllBySigner manager.txStore signer with
  | nil => exact .pure hR trivial
  | cons oldestPendingTx txs =>
      refine .bind (matches_await hR .transactionCount rfl _ id) ?_
      rintro _ manager nonce t hcounted ⟨rfl, rfl⟩
      split
      · exact .pure hcounted trivial
      · exact hloop _ _ manager t hcounted

end Store

section Scans

variable {server : RelayServer} {taken : Bool} {round : Round} {w : WorkerState} {s : TickState}

/-- What the registration manager knows is left as it is. -/
structure SameManager (w w' : WorkerState) : Prop where
  initialized : w'.initialized = w.initialized
  registrationManager : w'.registrationManager = w.registrationManager

theorem SameManager.refl (w : WorkerState) : SameManager w w := ⟨rfl, rfl⟩

theorem SameManager.trans {w w' w'' : WorkerState} (h : SameManager w w') (h' : SameManager w' w'') :
    SameManager w w'' :=
  ⟨h'.1.trans h.1, h'.2.trans h.2⟩

theorem SameManager.of_apart {w w' : WorkerState} (h : w'.apart = w.apart) : SameManager w w' :=
  ⟨(WorkerState.eq_of_apart h).1, (WorkerState.eq_of_apart h).2.2.2.2.2.2.2.2.1⟩

theorem matches_findActionPending (hlone : Lone round) (hR : Related server taken w s)
    (serverAction : ServerAction) :
    Matches (loneSystem server) (Related server taken) (fun found w' b => b = found ∧ SameManager w w')
      (RifRelayServer.findActionPending server round serverAction none) w
      (findActionPending serverAction) s := by
  refine .bind (matches_receive hlone hR .asyncFind rfl _ id) ?_
  rintro _ _ _ t hR ⟨-, rfl⟩
  refine .left_get (.right_get ?_)
  have hstore : t.txStore = w.transactionManager.txStore := hR.txStore
  rw [hstore]
  exact .pure hR ⟨rfl, rfl, rfl⟩

theorem matches_scanLogs (hR : Related server taken w s) (question : Question)
    (henabled : isEnabled s question = true) {provider : LogProvider} {options : PastEventOptions}
    {names : List ManagerEvent} (value : List TypedEvent → question.Value) :
    Matches (loneSystem server) (Related server taken) (fun events w' b => b = value events ∧ w' = w)
      (scanLogs server provider options names) w (receive question) s := by
  unfold scanLogs
  cases getPastEventsForHub server.dependencies.config server.relayHubAddress provider
      server.managerAddress options names with
  | ok events => exact .of_ok rfl (ends_receive question (.ok (value events)) henabled) hR ⟨rfl, rfl⟩
  | error e => exact .of_error rfl (ends_receive question (.error e) henabled) hR

theorem matches_getAllHubEventsSinceLastScan (hR : Related server taken w s) :
    Matches (loneSystem server) (Related server taken) (fun events w' b => b = events ∧ SameManager w w')
      (getAllHubEventsSinceLastScan server round) w (receive .hubEvents) s := by
  refine .left_get ((matches_scanLogs hR .hubEvents rfl id).left_after ?_)
  rintro events _ b t hscanned ⟨rfl, rfl⟩
  exact ⟨_, _, rfl, { hscanned with }, rfl, rfl, rfl⟩

theorem matches_queryLatestActiveEvent (hR : Related server taken w s) (sorted : List TypedEvent) :
    Matches (loneSystem server) (Related server taken)
      (fun events w' _ => events = sorted ∧ SameManager w w')
      (do
        let state ← get
        if state.lastMinedActiveTransaction.isNone then
          let lastMinedActiveTransaction ← queryLatestActiveEvent server round
          modify fun state => { state with lastMinedActiveTransaction }
        return sorted) w
      (do
        let s ← get
        if s.relay.lastMinedActiveTransaction.isNone then
          let events ← receive .activeEvents
          updateRelay fun relay => { relay with
            lastMinedActiveTransaction := getLatestEventData events }) s := by
  refine .left_get (.right_get ?_)
  rw [hR.lastMinedActiveTransaction]
  dsimp only
  split
  · have hquery : Matches (loneSystem server) (Related server taken)
        (fun latest w' events => latest = getLatestEventData events ∧ w' = w)
        (queryLatestActiveEvent server round) w (receive .activeEvents) s := by
      refine (matches_scanLogs hR .activeEvents rfl id).left_pure ?_
      rintro events w' b ⟨rfl, rfl⟩
      exact ⟨rfl, rfl⟩
    refine .bind hquery ?_
    rintro _ w events t hscanned ⟨rfl, rfl⟩
    exact .of_ok rfl (.modify _) { hscanned with lastMinedActiveTransaction := rfl } ⟨rfl, rfl, rfl⟩
  · exact .of_ok rfl (.done () s) hR ⟨rfl, rfl, rfl⟩

theorem matches_updateLatestTxBlockNumber (hR : Related server taken w s) (events : List TypedEvent) :
    Matches (loneSystem server) (Related server taken)
      (fun sorted w' _ => sorted = sortLatestFirst events ∧ SameManager w w')
      (RifRelayServer.updateLatestTxBlockNumber server round events) w
      (updateLatestTxBlockNumber events) s := by
  unfold RifRelayServer.updateLatestTxBlockNumber updateLatestTxBlockNumber
  dsimp only
  split
  · refine .left_modify (.right_modify ?_)
    have hnoted : Related server taken
        { w with lastMinedActiveTransaction := getLatestEventData events }
        (s.updated fun relay => { relay with
          lastMinedActiveTransaction := getLatestEventData events }) :=
      { hR with lastMinedActiveTransaction := rfl }
    exact (matches_queryLatestActiveEvent hnoted _).imp (fun _ _ h => h)
      fun _ _ _ h => ⟨h.1, h.2.1, h.2.2⟩
  · exact matches_queryLatestActiveEvent hR _

end Scans

end RifRelayServer.Ticks
