import RifRelayServer.TransactionManager
import RifRelayServer.Lib.Runs
import Mathlib

/-!
# Calls in progress

The server has many calls under way at once. A call runs alone from one await
to the next, and at an await any other call may go on. A step starts a call,
gives one call the answer it waits for, or is a write of a worker's round to the
store. Every interleaving of the calls is a run of these steps.
-/

namespace RifRelayServer

structure RelayServer where
  dependencies : ServerDependencies
  customReplenish : Bool
  relayHubAddress : Address := "0x0000000000000000000000000000000000000000"
  url : String := "http://127.0.0.1"

def RelayServer.managerAddress (server : RelayServer) : Address :=
  server.dependencies.managerKeyManager.addresses.headD ""

def RelayServer.workerAddress (server : RelayServer) : Address :=
  server.dependencies.workersKeyManager.addresses.headD ""

abbrev CallId := ℕ

/-- What the calls share, with what `sendTransaction` has signed and stored so
far and the pending counts that the node has reported. -/
structure Shared where
  nonces : Address → ℕ
  nonceMutex : Option CallId
  txStore : TxStore
  workerBalance : ℤ
  sent : List SignedTransaction
  reported : List (Address × ℕ)

/-- The answer a call waits for. Any of them may be a failure. -/
inductive Answer
  | gasPrice (answer : Except String ℕ)
  | acquired
  | transactionCount (answer : Except String ℕ)
  | signature (failure : Option String)
  | stored (failure : Option String)
  | broadcast (answer : Except String Hash)
  | validated (answer : Except String Unit)
  | prepared (method : Except String String) (gasLimit currentBlock : ℕ)
  | balance (answer : Except String ℕ)
  | pendingAction (failure : Option String)

def unlessFailing {α : Type} (failure : Option String) (answer : Except String α) :
    Except String α :=
  match failure with
  | some e => .error e
  | none => answer

def Shared.polled (shared : Shared) (signer : Address) (count : ℕ) : Shared :=
  { shared with
    nonces := (resolveNonce shared.nonces signer count).2
    reported := shared.reported ++ [(signer, count)] }

def Shared.released (shared : Shared) : Shared := { shared with nonceMutex := none }

def Shared.counted (shared : Shared) (signer : Address) : Shared :=
  { shared with nonces := Function.update shared.nonces signer (shared.nonces signer + 1) }

/-- Where `sendTransaction` waits, with what it has computed so far. -/
inductive SendPoint
  | gasPrice
  | mutex (providerGasPrice : ℕ)
  | polling (providerGasPrice : ℕ)
  | signing (providerGasPrice nonce : ℕ)
  | storing (signedTransaction : SignedTransactionDetails) (storedTx : StoredTransaction)
  | broadcasting (signedTransaction : SignedTransactionDetails) (txId : Hash)
  | returned (signedTransaction : SignedTransactionDetails)
  | thrown (error : String)

def SendPoint.holdsMutex : SendPoint → Bool
  | polling _ | signing _ _ | storing _ _ => true
  | _ => false

def SendPoint.resume (dependencies : ServerDependencies) (id : CallId)
    (details : SendTransactionDetails) (shared : Shared) :
    SendPoint → Answer → Option (Shared × SendPoint)
  | gasPrice, .gasPrice (.error e) => some (shared, thrown e)
  | gasPrice, .gasPrice (.ok price) => some (shared, mutex price)
  | mutex price, .acquired =>
      if shared.nonceMutex = none then some ({ shared with nonceMutex := some id }, polling price)
      else none
  | polling _, .transactionCount (.error e) => some (shared.released, thrown e)
  | polling price, .transactionCount (.ok count) =>
      some (shared.polled details.signer count,
        signing price (resolveNonce shared.nonces details.signer count).1)
  | signing price nonce, .signature failure =>
      let txToSign := details.txToSign price nonce
      match unlessFailing failure (dependencies.signatureOf (dependencies.keyManagerOf details.signer)
          details.signer txToSign) with
      | .error e => some (shared.released, thrown e)
      | .ok signedTransaction => some (shared.counted details.signer,
          storing signedTransaction (details.storedTx txToSign signedTransaction.txHash))
  | storing signedTransaction storedTx, .stored failure =>
      match unlessFailing failure (putTx shared.txStore storedTx false) with
      | .error e => some (shared.released, thrown e)
      | .ok txStore => some ({ shared.released with
            txStore, sent := shared.sent ++ [signedTransaction.signedTx] },
          broadcasting signedTransaction storedTx.txId)
  | broadcasting _ _, .broadcast (.error e) => some (shared, thrown e)
  | broadcasting signedTransaction txId, .broadcast (.ok hash) =>
      if toLowerCase hash ≠ toLowerCase txId then some (shared, thrown (txHashMismatch hash txId))
      else some (shared, returned signedTransaction)
  | _, _ => none

/-- Where `createRelayTransaction` waits. Before its nonce check it validates the
request; after it, it asks the verifier, estimates and populates. -/
inductive RelayPoint
  | validating
  | polling
  | preparing
  | sending (details : SendTransactionDetails) (point : SendPoint)
  | thrown (error : String)

inductive ReplenishPoint
  | readingManagerBalance
  | readingWorkerBalance (managerBalance : ℤ)
  | checkingPending (managerBalance : ℤ) (mustReplenishWorker : Bool)
  | sending (details : SendTransactionDetails) (point : SendPoint)
  | finished
  | thrown (error : String)

/-- A call that was started. A poll has no answer while it waits. -/
inductive Call
  | sendTransaction (details : SendTransactionDetails) (point : SendPoint)
  | pollNonce (signer : Address) (answer : Option (Except String ℕ))
  | validateMaxNonce (relayMaxNonce : JsNumber) (answer : Option (Except String Unit))
  | createRelayTransaction (request : HttpEnvelopingRequest) (point : RelayPoint)
  | replenishStrategy (currentBlock : ℕ) (point : ReplenishPoint)

/-- The message without the bound, of which only the number is modelled. -/
def unacceptableRelayMaxNonce (nonce : ℕ) : String :=
  "Unacceptable relayMaxNonce. current nonce: " ++ toString nonce

def checkMaxNonce (relayMaxNonce : JsNumber) (nonce : ℕ) : Except String Unit :=
  if relayMaxNonce.isExceededBy nonce then .error (unacceptableRelayMaxNonce nonce) else .ok ()

def relayCallDetails (server : RelayServer) (request : HttpEnvelopingRequest) (method : String)
    (gasLimit currentBlock : ℕ) : SendTransactionDetails where
  signer := server.workerAddress
  serverAction := .relayCall
  method := some method
  destination := request.metadata.relayHubAddress
  gasLimit := gasLimit
  gasPrice := some request.relayRequest.relayData.gasPrice
  creationBlockNumber := currentBlock

def RelayPoint.resume (server : RelayServer) (id : CallId) (request : HttpEnvelopingRequest)
    (shared : Shared) : RelayPoint → Answer → Option (Shared × RelayPoint)
  | validating, .validated (.error e) => some (shared, thrown e)
  | validating, .validated (.ok ()) => some (shared, polling)
  | polling, .transactionCount (.error e) => some (shared, thrown e)
  | polling, .transactionCount (.ok count) =>
      let nonce := (resolveNonce shared.nonces server.workerAddress count).1
      match checkMaxNonce request.metadata.relayMaxNonce nonce with
      | .error e => some (shared.polled server.workerAddress count, thrown e)
      | .ok () => some (shared.polled server.workerAddress count, preparing)
  | preparing, .prepared (.error e) _ _ => some (shared, thrown e)
  | preparing, .prepared (.ok method) gasLimit currentBlock =>
      some (shared, sending (relayCallDetails server request method gasLimit currentBlock) .gasPrice)
  | sending details point, answer =>
      (point.resume server.dependencies id details shared answer).map fun (shared, point) =>
        (shared, sending details point)
  | _, _ => none

def minTxGasCost : ℕ := 21000

def refillDetails (server : RelayServer) (refill : ℤ) (currentBlock : ℕ) :
    SendTransactionDetails where
  signer := server.managerAddress
  serverAction := .valueTransfer
  method := none
  destination := server.workerAddress
  value := some refill
  gasLimit := minTxGasCost
  creationBlockNumber := currentBlock

def noCustomReplenish : String :=
  "No custom replenish function found, to remove this error please add the custom replenish " ++
    "implementation here deleting this line."

/-- `defaultReplenishFunction`. The worker's balance is shared by its executions:
the refill is computed from the balance read last by any of them. -/
def ReplenishPoint.resume (server : RelayServer) (id : CallId) (currentBlock : ℕ)
    (shared : Shared) : ReplenishPoint → Answer → Option (Shared × ReplenishPoint)
  | readingManagerBalance, .balance (.error e) => some (shared, thrown e)
  | readingManagerBalance, .balance (.ok balance) => some (shared, readingWorkerBalance balance)
  | readingWorkerBalance _, .balance (.error e) => some (shared, thrown e)
  | readingWorkerBalance managerBalance, .balance (.ok balance) =>
      let config := server.dependencies.config
      let shared := { shared with workerBalance := balance }
      let isSatisfied : Bool := config.workerMinBalance ≤ balance
      if config.managerTargetBalance < managerBalance ∧ isSatisfied = true then
        some (shared, finished)
      else some (shared, checkingPending managerBalance !isSatisfied)
  | checkingPending _ _, .pendingAction (some e) => some (shared, thrown e)
  | checkingPending managerBalance mustReplenishWorker, .pendingAction none =>
      let config := server.dependencies.config
      let isReplenishPendingForWorker :=
        isActionPending shared.txStore .valueTransfer (some server.workerAddress)
      if mustReplenishWorker = true ∧ isReplenishPendingForWorker = false then
        let refill := config.workerTargetBalance - shared.workerBalance
        if refill < managerBalance - config.managerMinBalance then
          some (shared, sending (refillDetails server refill currentBlock) .gasPrice)
        else some (shared, finished)
      else some (shared, finished)
  | sending details point, answer =>
      (point.resume server.dependencies id details shared answer).map fun (shared, point) =>
        (shared, sending details point)
  | _, _ => none

def Call.resume (server : RelayServer) (id : CallId) (shared : Shared) :
    Call → Answer → Option (Shared × Call)
  | .sendTransaction details point, answer =>
      (point.resume server.dependencies id details shared answer).map fun (shared, point) =>
        (shared, .sendTransaction details point)
  | .pollNonce signer none, .transactionCount (.error e) =>
      some (shared, .pollNonce signer (some (.error e)))
  | .pollNonce signer none, .transactionCount (.ok count) =>
      some (shared.polled signer count,
        .pollNonce signer (some (.ok (resolveNonce shared.nonces signer count).1)))
  | .validateMaxNonce relayMaxNonce none, .transactionCount (.error e) =>
      some (shared, .validateMaxNonce relayMaxNonce (some (.error e)))
  | .validateMaxNonce relayMaxNonce none, .transactionCount (.ok count) =>
      let nonce := (resolveNonce shared.nonces server.workerAddress count).1
      some (shared.polled server.workerAddress count,
        .validateMaxNonce relayMaxNonce (some (checkMaxNonce relayMaxNonce nonce)))
  | .createRelayTransaction request point, answer =>
      (point.resume server id request shared answer).map fun (shared, point) =>
        (shared, .createRelayTransaction request point)
  | .replenishStrategy currentBlock point, answer =>
      (point.resume server id currentBlock shared answer).map fun (shared, point) =>
        (shared, .replenishStrategy currentBlock point)
  | _, _ => none

/-- What can be called: by a request, by a round, or by the event that follows a
relayed transaction. -/
inductive Task
  | sendTransaction (details : SendTransactionDetails)
  | pollNonce (signer : Address)
  | validateMaxNonce (relayMaxNonce : JsNumber)
  | createRelayTransaction (request : HttpEnvelopingRequest)
  | replenishStrategy (currentBlock : ℕ)

def Task.started (server : RelayServer) : Task → Call
  | sendTransaction details => .sendTransaction details .gasPrice
  | pollNonce signer => .pollNonce signer none
  | validateMaxNonce relayMaxNonce => .validateMaxNonce relayMaxNonce none
  | createRelayTransaction request => .createRelayTransaction request .validating
  | replenishStrategy currentBlock =>
      .replenishStrategy currentBlock
        (if server.customReplenish then .thrown noCustomReplenish else .readingManagerBalance)

/-- A write of a round to the store. Rounds do not overlap, and only a round removes or
changes entries, so the entry that it has read is still there when it writes it back, and
the same but for what it changes. -/
inductive RoundWrite
  | removed (signer : Address) (nonce : ℕ)
  | mined (key : NonceSigner) (minedBlockNumber : ℕ)
  | attempted (key : NonceSigner) (txId : Hash) (newGasPrice currentBlock : ℕ)

def RoundWrite.apply (store : TxStore) : RoundWrite → Except String TxStore
  | removed signer nonce => .ok (removeTxsUntilNonce store signer nonce)
  | mined key minedBlockNumber =>
      match store.find? key with
      | none => .ok store
      | some tx => putTx store { tx with minedBlockNumber := some minedBlockNumber } true
  | attempted key txId newGasPrice currentBlock =>
      match store.find? key with
      | none => .ok store
      | some tx => putTx store (tx.withAttempt txId (tx.txToResend newGasPrice) currentBlock) true

/-- A round removes entries, leaves the store as it is, or puts an entry again that is mined
or boosted. -/
theorem RoundWrite.apply_cases {store store' : TxStore} {write : RoundWrite}
    (h : write.apply store = .ok store') :
    (∃ signer nonce, store' = removeTxsUntilNonce store signer nonce) ∨ store' = store ∨
      ∃ old ∈ store, ∃ tx, putTx store tx true = .ok store' ∧
        ((∃ minedBlockNumber, tx = { old with minedBlockNumber := some minedBlockNumber }) ∨
          ∃ txId newGasPrice currentBlock,
            tx = old.withAttempt txId (old.txToResend newGasPrice) currentBlock) := by
  cases write with
  | removed signer nonce => exact Or.inl ⟨signer, nonce, (Except.ok.inj h).symm⟩
  | mined key minedBlockNumber =>
      dsimp only [apply] at h
      split at h
      · exact Or.inr (Or.inl (Except.ok.inj h).symm)
      next old hfind =>
        exact Or.inr (Or.inr ⟨old, (TxStore.find?_eq_some_iff.mp hfind).1, _, h, Or.inl ⟨_, rfl⟩⟩)
  | attempted key txId newGasPrice currentBlock =>
      dsimp only [apply] at h
      split at h
      · exact Or.inr (Or.inl (Except.ok.inj h).symm)
      next old hfind =>
        exact Or.inr (Or.inr ⟨old, (TxStore.find?_eq_some_iff.mp hfind).1, _, h,
          Or.inr ⟨_, _, _, rfl⟩⟩)

structure ServerState where
  shared : Shared
  calls : List Call

inductive Event
  | start (task : Task)
  | resume (id : CallId) (answer : Answer)
  | write (write : RoundWrite)

def step (server : RelayServer) (state : ServerState) : Event → Option ServerState
  | .start task => some { state with calls := state.calls ++ [task.started server] }
  | .resume id answer => do
      let call ← state.calls[id]?
      let (shared, call) ← call.resume server id state.shared answer
      return { shared, calls := state.calls.set id call }
  | .write write =>
      match write.apply state.shared.txStore with
      | .error _ => none
      | .ok txStore => some { state with shared := { state.shared with txStore } }

/-- A process that has just started, on the store it finds on disk. -/
def ServerState.initial (txStore : TxStore) : ServerState where
  shared := ⟨fun _ => 0, none, txStore, 0, [], []⟩
  calls := []

theorem getElem?_started {calls : List Call} {call it : Call} {id : CallId}
    (h : (calls ++ [call])[id]? = some it) : calls[id]? = some it ∨ it = call := by
  rcases lt_or_ge id calls.length with hlt | hge
  · rw [List.getElem?_append_left hlt] at h
    exact Or.inl h
  · rw [List.getElem?_append_right hge] at h
    exact Or.inr (List.mem_singleton.mp (List.mem_of_getElem? h))

theorem getElem?_resumed {calls : List Call} {call call' it : Call} {id other : CallId}
    (hcall : calls[id]? = some call) (h : (calls.set id call')[other]? = some it) :
    other = id ∧ it = call' ∨ other ≠ id ∧ calls[other]? = some it := by
  rcases eq_or_ne other id with rfl | hne
  · rw [List.getElem?_set_self (List.getElem?_eq_some_iff.mp hcall).1] at h
    exact Or.inl ⟨rfl, (Option.some.inj h).symm⟩
  · rw [List.getElem?_set_ne hne.symm] at h
    exact Or.inr ⟨hne, h⟩

inductive SendStep (dependencies : ServerDependencies) (id : CallId)
    (details : SendTransactionDetails) (shared : Shared) :
    SendPoint → Answer → Shared → SendPoint → Prop
  | priced (price : ℕ) :
      SendStep dependencies id details shared .gasPrice (.gasPrice (.ok price)) shared (.mutex price)
  | acquired {price : ℕ} (hfree : shared.nonceMutex = none) :
      SendStep dependencies id details shared (.mutex price) .acquired
        { shared with nonceMutex := some id } (.polling price)
  | polled {price : ℕ} (count : ℕ) :
      SendStep dependencies id details shared (.polling price) (.transactionCount (.ok count))
        (shared.polled details.signer count)
        (.signing price (resolveNonce shared.nonces details.signer count).1)
  | signed {price nonce : ℕ} {signedTransaction : SignedTransactionDetails}
      (h : dependencies.signatureOf (dependencies.keyManagerOf details.signer) details.signer
        (details.txToSign price nonce) = .ok signedTransaction) :
      SendStep dependencies id details shared (.signing price nonce) (.signature none)
        (shared.counted details.signer) (.storing signedTransaction
          (details.storedTx (details.txToSign price nonce) signedTransaction.txHash))
  | stored {signedTransaction : SignedTransactionDetails} {storedTx : StoredTransaction}
      {txStore : TxStore} (h : putTx shared.txStore storedTx false = .ok txStore) :
      SendStep dependencies id details shared (.storing signedTransaction storedTx) (.stored none)
        { shared.released with txStore, sent := shared.sent ++ [signedTransaction.signedTx] }
        (.broadcasting signedTransaction storedTx.txId)
  | released {point : SendPoint} {answer : Answer} (e : String) (h : point.holdsMutex = true) :
      SendStep dependencies id details shared point answer shared.released (.thrown e)
  | failed {point : SendPoint} {answer : Answer} (e : String) (h : point.holdsMutex = false) :
      SendStep dependencies id details shared point answer shared (.thrown e)
  | accepted {signedTransaction : SignedTransactionDetails} {txId hash : Hash} :
      SendStep dependencies id details shared (.broadcasting signedTransaction txId)
        (.broadcast (.ok hash)) shared (.returned signedTransaction)

theorem SendPoint.resume_cases {dependencies : ServerDependencies} {id : CallId}
    {details : SendTransactionDetails} {shared shared' : Shared} {point point' : SendPoint}
    {answer : Answer}
    (h : point.resume dependencies id details shared answer = some (shared', point')) :
    SendStep dependencies id details shared point answer shared' point' := by
  unfold SendPoint.resume at h
  split at h
  next e =>
    cases h
    exact .failed e rfl
  next price =>
    cases h
    exact .priced price
  next price =>
    split at h
    next hfree =>
      cases h
      exact .acquired hfree
    · cases h
  next price e =>
    cases h
    exact .released e rfl
  next price count =>
    cases h
    exact .polled count
  next price nonce failure =>
    cases failure with
    | some e =>
        cases h
        exact .released e rfl
    | none =>
        dsimp only [unlessFailing] at h
        split at h
        next e _ =>
          cases h
          exact .released e rfl
        next signedTransaction hsignature =>
          cases h
          exact .signed hsignature
  next signedTransaction storedTx failure =>
    cases failure with
    | some e =>
        cases h
        exact .released e rfl
    | none =>
        dsimp only [unlessFailing] at h
        split at h
        next e _ =>
          cases h
          exact .released e rfl
        next txStore hput =>
          cases h
          exact .stored hput
  next e =>
    cases h
    exact .failed e rfl
  next signedTransaction txId hash =>
    split at h
    · cases h
      exact .failed _ rfl
    · cases h
      exact .accepted
  · cases h

inductive RelayStep (server : RelayServer) (id : CallId) (request : HttpEnvelopingRequest)
    (shared : Shared) : RelayPoint → Answer → Shared → RelayPoint → Prop
  | validated : RelayStep server id request shared .validating (.validated (.ok ())) shared .polling
  | polled (count : ℕ)
      (h : request.metadata.relayMaxNonce.isExceededBy
        (resolveNonce shared.nonces server.workerAddress count).1 = false) :
      RelayStep server id request shared .polling (.transactionCount (.ok count))
        (shared.polled server.workerAddress count) .preparing
  | refused (count : ℕ) (e : String) :
      RelayStep server id request shared .polling (.transactionCount (.ok count))
        (shared.polled server.workerAddress count) (.thrown e)
  | prepared (method : String) (gasLimit currentBlock : ℕ) :
      RelayStep server id request shared .preparing (.prepared (.ok method) gasLimit currentBlock)
        shared (.sending (relayCallDetails server request method gasLimit currentBlock) .gasPrice)
  | sends {details : SendTransactionDetails} {point point' : SendPoint} {answer : Answer}
      {shared' : Shared}
      (h : point.resume server.dependencies id details shared answer = some (shared', point')) :
      RelayStep server id request shared (.sending details point) answer shared'
        (.sending details point')
  | failed {point : RelayPoint} {answer : Answer} (e : String)
      (h : ∀ details sendPoint, point ≠ .sending details sendPoint) :
      RelayStep server id request shared point answer shared (.thrown e)

theorem RelayPoint.resume_cases {server : RelayServer} {id : CallId}
    {request : HttpEnvelopingRequest} {shared shared' : Shared} {point point' : RelayPoint}
    {answer : Answer} (h : point.resume server id request shared answer = some (shared', point')) :
    RelayStep server id request shared point answer shared' point' := by
  unfold RelayPoint.resume at h
  split at h
  next e =>
    cases h
    exact .failed e (by simp)
  · cases h
    exact .validated
  next e =>
    cases h
    exact .failed e (by simp)
  next count =>
    dsimp only [checkMaxNonce] at h
    split at h
    next e _ =>
      cases h
      exact .refused count e
    next hok =>
      cases h
      refine .polled count ?_
      by_contra hexceeded
      simp [hexceeded] at hok
  next e _ _ =>
    cases h
    exact .failed e (by simp)
  next method gasLimit currentBlock =>
    cases h
    exact .prepared method gasLimit currentBlock
  next details sendPoint answer _ =>
    obtain ⟨⟨sharedSent, pointSent⟩, hsend, heq⟩ := Option.map_eq_some_iff.mp h
    cases heq
    exact .sends hsend
  · cases h

inductive ReplenishStep (server : RelayServer) (id : CallId) (currentBlock : ℕ)
    (shared : Shared) : ReplenishPoint → Answer → Shared → ReplenishPoint → Prop
  | managerBalance (balance : ℕ) :
      ReplenishStep server id currentBlock shared .readingManagerBalance (.balance (.ok balance))
        shared (.readingWorkerBalance balance)
  | satisfied {managerBalance : ℤ} (balance : ℕ) :
      ReplenishStep server id currentBlock shared (.readingWorkerBalance managerBalance)
        (.balance (.ok balance)) { shared with workerBalance := balance } .finished
  | workerBalance {managerBalance : ℤ} (balance : ℕ) :
      ReplenishStep server id currentBlock shared (.readingWorkerBalance managerBalance)
        (.balance (.ok balance)) { shared with workerBalance := balance }
        (.checkingPending managerBalance
          !decide (server.dependencies.config.workerMinBalance ≤ (balance : ℤ)))
  | decided {managerBalance refill : ℤ}
      (hnone : isActionPending shared.txStore .valueTransfer (some server.workerAddress) = false)
      (hrefill : refill = server.dependencies.config.workerTargetBalance - shared.workerBalance)
      (hfunds : refill < managerBalance - server.dependencies.config.managerMinBalance) :
      ReplenishStep server id currentBlock shared (.checkingPending managerBalance true)
        (.pendingAction none) shared (.sending (refillDetails server refill currentBlock) .gasPrice)
  | declined {managerBalance : ℤ} {mustReplenishWorker : Bool} :
      ReplenishStep server id currentBlock shared
        (.checkingPending managerBalance mustReplenishWorker) (.pendingAction none) shared .finished
  | sends {details : SendTransactionDetails} {point point' : SendPoint} {answer : Answer}
      {shared' : Shared}
      (h : point.resume server.dependencies id details shared answer = some (shared', point')) :
      ReplenishStep server id currentBlock shared (.sending details point) answer shared'
        (.sending details point')
  | failed {point : ReplenishPoint} {answer : Answer} (e : String)
      (h : ∀ details sendPoint, point ≠ .sending details sendPoint) :
      ReplenishStep server id currentBlock shared point answer shared (.thrown e)

theorem ReplenishPoint.resume_cases {server : RelayServer} {id : CallId} {currentBlock : ℕ}
    {shared shared' : Shared} {point point' : ReplenishPoint} {answer : Answer}
    (h : point.resume server id currentBlock shared answer = some (shared', point')) :
    ReplenishStep server id currentBlock shared point answer shared' point' := by
  unfold ReplenishPoint.resume at h
  split at h
  next e =>
    cases h
    exact .failed e (by simp)
  next balance =>
    cases h
    exact .managerBalance balance
  next e =>
    cases h
    exact .failed e (by simp)
  next balance =>
    dsimp only at h
    split at h
    · cases h
      exact .satisfied balance
    · cases h
      exact .workerBalance balance
  next e =>
    cases h
    exact .failed e (by simp)
  next managerBalance mustReplenishWorker =>
    dsimp only at h
    split at h
    next hrefill =>
      obtain ⟨rfl, hnone⟩ := hrefill
      split at h
      next hfunds =>
        cases h
        exact .decided hnone rfl hfunds
      · cases h
        exact .declined
    · cases h
      exact .declined
  next details sendPoint answer _ =>
    obtain ⟨⟨sharedSent, pointSent⟩, hsend, heq⟩ := Option.map_eq_some_iff.mp h
    cases heq
    exact .sends hsend
  · cases h

inductive CallStep (server : RelayServer) (id : CallId) (shared : Shared) :
    Call → Answer → Shared → Call → Prop
  | sendTransaction {details : SendTransactionDetails} {point point' : SendPoint} {answer : Answer}
      {shared' : Shared}
      (h : point.resume server.dependencies id details shared answer = some (shared', point')) :
      CallStep server id shared (.sendTransaction details point) answer shared'
        (.sendTransaction details point')
  | pollNonce {signer : Address} (count : ℕ) :
      CallStep server id shared (.pollNonce signer none) (.transactionCount (.ok count))
        (shared.polled signer count)
        (.pollNonce signer (some (.ok (resolveNonce shared.nonces signer count).1)))
  | pollNonceFailed {signer : Address} (e : String) :
      CallStep server id shared (.pollNonce signer none) (.transactionCount (.error e)) shared
        (.pollNonce signer (some (.error e)))
  | validateMaxNonce {relayMaxNonce : JsNumber} (count : ℕ) :
      CallStep server id shared (.validateMaxNonce relayMaxNonce none)
        (.transactionCount (.ok count)) (shared.polled server.workerAddress count)
        (.validateMaxNonce relayMaxNonce (some (checkMaxNonce relayMaxNonce
          (resolveNonce shared.nonces server.workerAddress count).1)))
  | validateMaxNonceFailed {relayMaxNonce : JsNumber} (e : String) :
      CallStep server id shared (.validateMaxNonce relayMaxNonce none)
        (.transactionCount (.error e)) shared
        (.validateMaxNonce relayMaxNonce (some (.error e)))
  | createRelayTransaction {request : HttpEnvelopingRequest} {point point' : RelayPoint}
      {answer : Answer} {shared' : Shared}
      (h : RelayStep server id request shared point answer shared' point') :
      CallStep server id shared (.createRelayTransaction request point) answer shared'
        (.createRelayTransaction request point')
  | replenishStrategy {currentBlock : ℕ} {point point' : ReplenishPoint} {answer : Answer}
      {shared' : Shared}
      (h : ReplenishStep server id currentBlock shared point answer shared' point') :
      CallStep server id shared (.replenishStrategy currentBlock point) answer shared'
        (.replenishStrategy currentBlock point')

theorem Call.resume_cases {server : RelayServer} {id : CallId} {shared shared' : Shared}
    {call call' : Call} {answer : Answer}
    (h : call.resume server id shared answer = some (shared', call')) :
    CallStep server id shared call answer shared' call' := by
  unfold Call.resume at h
  split at h
  next details point answer =>
    obtain ⟨⟨sharedSent, pointSent⟩, hsend, heq⟩ := Option.map_eq_some_iff.mp h
    cases heq
    exact .sendTransaction hsend
  next e =>
    cases h
    exact .pollNonceFailed e
  next count =>
    cases h
    exact .pollNonce count
  next e =>
    cases h
    exact .validateMaxNonceFailed e
  next count =>
    cases h
    exact .validateMaxNonce count
  next request point answer =>
    obtain ⟨⟨sharedSent, pointSent⟩, hrelay, heq⟩ := Option.map_eq_some_iff.mp h
    cases heq
    exact .createRelayTransaction (RelayPoint.resume_cases hrelay)
  next currentBlock point answer =>
    obtain ⟨⟨sharedSent, pointSent⟩, hreplenish, heq⟩ := Option.map_eq_some_iff.mp h
    cases heq
    exact .replenishStrategy (ReplenishPoint.resume_cases hreplenish)
  · cases h

inductive Step (server : RelayServer) (state : ServerState) : Event → ServerState → Prop
  | start (task : Task) :
      Step server state (.start task)
        { state with calls := state.calls ++ [task.started server] }
  | resume {id : CallId} {answer : Answer} {call call' : Call} {shared : Shared}
      (hcall : state.calls[id]? = some call)
      (h : CallStep server id state.shared call answer shared call') :
      Step server state (.resume id answer) ⟨shared, state.calls.set id call'⟩
  | write {write : RoundWrite} {txStore : TxStore}
      (h : write.apply state.shared.txStore = .ok txStore) :
      Step server state (.write write) { state with shared := { state.shared with txStore } }

theorem step_cases {server : RelayServer} {state state' : ServerState} {event : Event}
    (h : step server state event = some state') : Step server state event state' := by
  cases event with
  | start task =>
      cases h
      exact .start task
  | resume id answer =>
      obtain ⟨call, hcall, h⟩ := Option.bind_eq_some_iff.mp h
      obtain ⟨⟨shared, call'⟩, hresume, h⟩ := Option.bind_eq_some_iff.mp h
      cases h
      exact .resume hcall (Call.resume_cases hresume)
  | write write =>
      dsimp only [step] at h
      split at h
      · cases h
      next txStore happly =>
        cases h
        exact .write happly

section Alone

open Std.Do Keeping

set_option mvcgen.warning false

def loneAnswers (provider : Provider) (details : SendTransactionDetails)
    (result : SignedTransactionDetails) : List Answer :=
  [.gasPrice provider.getGasPrice, .acquired,
    .transactionCount (provider.getPendingTransactionCount details.signer), .signature none,
    .stored none, .broadcast (provider.sendTransaction result.signedTx)]

structure Sends (dependencies : ServerDependencies) (provider : Provider)
    (details : SendTransactionDetails) (manager : TransactionManager)
    (result : SignedTransactionDetails) (manager' : TransactionManager) (price count : ℕ)
    (hash : Hash) : Prop where
  getGasPrice : provider.getGasPrice = .ok price
  getPendingTransactionCount : provider.getPendingTransactionCount details.signer = .ok count
  signature : dependencies.signatureOf (dependencies.keyManagerOf details.signer) details.signer
    (details.txToSign price (resolveNonce manager.nonces details.signer count).1) = .ok result
  stored : putTx manager.txStore (details.storedTx
    (details.txToSign price (resolveNonce manager.nonces details.signer count).1) result.txHash)
    false = .ok manager'.txStore
  nonces : manager'.nonces = Function.update (resolveNonce manager.nonces details.signer count).2
    details.signer ((resolveNonce manager.nonces details.signer count).2 details.signer + 1)
  broadcast : provider.sendTransaction result.signedTx = .ok hash
  sameHash : toLowerCase hash = toLowerCase result.txHash

theorem sendTransaction_sends (dependencies : ServerDependencies) (provider : Provider)
    (details : SendTransactionDetails) (manager : TransactionManager) :
    ⦃fun m => ⌜m = manager⌝⦄ sendTransaction dependencies provider details
    ⦃post⟨fun result m => ⌜∃ price count hash,
        Sends dependencies provider details manager result m price count hash⌝,
      fun _ _ => ⌜True⌝⟩⦄ := by
  mvcgen [sendTransaction, await, pollNonce, signTransaction, storeTx, broadcastTransaction]
  next m hm price hprice count hcount txToSign signed hsigned _ storedTx _ store hput hash hhash _ _ hsame =>
    subst hm
    exact ⟨price, count, hash, hprice, hcount, hsigned, hput, rfl, hhash, not_not.mp hsame⟩

def SendPoint.step (dependencies : ServerDependencies) (id : CallId)
    (details : SendTransactionDetails) (state : Shared × SendPoint) (answer : Answer) :
    Option (Shared × SendPoint) :=
  state.2.resume dependencies id details state.1 answer

theorem run_resume {server : RelayServer} {id : CallId} {details : SendTransactionDetails}
    {answers : List Answer} {state : ServerState} {point point' : SendPoint} {shared' : Shared}
    (hcall : state.calls[id]? = some (.sendTransaction details point))
    (hrun : Runs.run (SendPoint.step server.dependencies id details) (state.shared, point) answers =
      some (shared', point')) :
    Runs.run (step server) state (answers.map (.resume id)) =
      some ⟨shared', state.calls.set id (.sendTransaction details point')⟩ := by
  induction answers generalizing state point with
  | nil =>
      obtain ⟨rfl, rfl⟩ := Prod.ext_iff.mp (Option.some.inj hrun)
      obtain ⟨hlt, hget⟩ := List.getElem?_eq_some_iff.mp hcall
      simp [← hget]
  | cons answer answers ih =>
      obtain ⟨⟨shared, next⟩, hstep, hrest⟩ := Runs.run_cons_eq_some_iff.mp hrun
      have hlt : id < state.calls.length := (List.getElem?_eq_some_iff.mp hcall).1
      refine Runs.run_cons_eq_some_iff.mpr
        ⟨⟨shared, state.calls.set id (.sendTransaction details next)⟩, ?_, ?_⟩
      · simp only [SendPoint.step] at hstep
        simp [RifRelayServer.step, hcall, Call.resume, hstep]
      · rw [ih (by simp [hlt]) hrest, List.set_set]

/-- A call that runs alone does what `sendTransaction` does as one program. -/
theorem lone_sendTransaction {server : RelayServer} {provider : Provider}
    {details : SendTransactionDetails} {manager manager' : TransactionManager}
    {result : SignedTransactionDetails}
    (hsend : sendTransaction server.dependencies provider details manager = .ok result manager')
    {state : ServerState} {id : CallId} (hnonces : state.shared.nonces = manager.nonces)
    (htxStore : state.shared.txStore = manager.txStore)
    (hfree : state.shared.nonceMutex = none)
    (hcall : state.calls[id]? = some (.sendTransaction details .gasPrice)) :
    ∃ shared, Runs.run (step server) state
        ((loneAnswers provider details result).map (.resume id)) =
          some ⟨shared, state.calls.set id (.sendTransaction details (.returned result))⟩ ∧
      shared.nonces = manager'.nonces ∧ shared.txStore = manager'.txStore ∧
      shared.nonceMutex = none := by
  obtain ⟨price, count, hash, h⟩ :=
    post_of_ok (sendTransaction_sends server.dependencies provider details manager) rfl hsend
  refine ⟨{ state.shared with
    nonces := manager'.nonces
    nonceMutex := none
    txStore := manager'.txStore
    sent := state.shared.sent ++ [result.signedTx]
    reported := state.shared.reported ++ [(details.signer, count)] }, run_resume hcall ?_, rfl, rfl, rfl⟩
  have htxId : ∀ utx, (details.storedTx utx result.txHash).txId = result.txHash := fun _ => rfl
  simp [loneAnswers, Runs.run, SendPoint.step, SendPoint.resume, h.getGasPrice, hfree,
    h.getPendingTransactionCount, unlessFailing, hnonces, h.signature, Shared.polled,
    Shared.counted, Shared.released, htxStore, h.stored, h.broadcast, htxId, h.sameHash, h.nonces]

end Alone

end RifRelayServer
