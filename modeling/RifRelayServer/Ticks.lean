import RifRelayServer.Lib.Async
import RifRelayServer.Rounds

/-!
# Ticks that overlap

The timer starts a tick again and again, whether or not the one before is done.
Between two awaits a tick runs alone; at an await other ticks, relay requests and
calls of the transaction manager go on. What the registration manager knows of the
hub is not followed here: what it decides comes with the answers.
-/

namespace RifRelayServer.Ticks

open Async

/-- All that the account can pay to the owner. -/
structure Withdrawal where
  owner : Address
  value : ℤ
  gasPrice : ℕ

/-- What the registration manager concludes once it has handled the events and
read its data from the hub. -/
structure RegistrationView where
  dueEvents : ℕ
  isRegistrationCorrect : Bool
  allPrerequisitesOk : Bool
  workersAdded : Bool
  isRegistered : Bool

/-- What a tick or a request waits for. -/
inductive Question
  | latestBlockOrTimeout
  | latestBlock
  | handlers
  | init
  | gasPrice
  | balance
  | hubEvents
  | activeEvents
  | asyncFind
  | stakeEvents
  | stakeInfo
  | withdrawal (signer : Address)
  | registrationView
  | populated
  | transaction (txId : Hash)
  | transactionCount
  | signature
  | stored
  | broadcast
  | call (id : CallId)
  | sleep
  | requestChecks
  deriving DecidableEq

@[reducible] def Question.Value : Question → Type
  | latestBlockOrTimeout => Option ℕ
  | latestBlock | gasPrice | balance | transactionCount => ℕ
  | hubEvents | activeEvents => List TypedEvent
  | stakeEvents => List ManagerEvent
  | withdrawal _ => Option Withdrawal
  | registrationView => RegistrationView
  | populated => String × ℕ
  | transaction _ => Option TransactionResponse
  | broadcast => Hash
  | handlers | init | asyncFind | stakeInfo | signature | stored | call _ | sleep |
    requestChecks => Unit

/-- Any answer may be a failure. -/
@[reducible] def Question.Answer (question : Question) : Type := Except String question.Value

/-- How a round ended. One that threw is noted with the success counter it left. -/
inductive RoundOutcome
  | completed
  | threw (lastSuccessfulRounds : ℕ)
  deriving DecidableEq

/-- The server's own fields. `active` lists the executions of `_worker` whose
outcome is not handled yet, `scannedBlocks` the updates of the cursor, `rounds` the
rounds that ended, `delayed` the requests that the alerted state holds back, and
`accepted` those that passed `validateInput`. -/
structure Relay where
  initialized : Bool
  lastScannedBlock : ℕ
  lastRefreshBlock : ℕ
  ready : Bool
  lastSuccessfulRounds : ℕ
  workerSemaphoreOn : Bool
  gasPrice : ℕ
  alerted : Bool
  alertedBlock : ℕ
  lastMinedActiveTransaction : Option TypedEvent
  active : List ℕ
  scannedBlocks : List ℕ
  rounds : List RoundOutcome
  delayed : List ℕ
  accepted : List HttpEnvelopingRequest

structure TickState where
  relay : Relay
  calls : ServerState

abbrev TickM := Program TickState String Question.Answer

def TickState.initial (config : BlockchainConfig) (txStore : TxStore) : TickState where
  relay := {
    initialized := false
    lastScannedBlock := config.initialBlockToScan
    lastRefreshBlock := 0
    ready := false
    lastSuccessfulRounds := 2 ^ 53 - 1
    workerSemaphoreOn := false
    gasPrice := 0
    alerted := false
    alertedBlock := 0
    lastMinedActiveTransaction := none
    active := []
    scannedBlocks := []
    rounds := []
    delayed := []
    accepted := [] }
  calls := .initial txStore

def TickState.txStore (s : TickState) : TxStore := s.calls.shared.txStore

/-- How a call ended that a round waits for. -/
def sendOutcome? : SendPoint → Option (Except String Unit)
  | .returned _ => some (.ok ())
  | .thrown e => some (.error e)
  | _ => none

def outcome? : Call → Option (Except String Unit)
  | .sendTransaction _ point => sendOutcome? point
  | .replenishStrategy _ (.sending _ point) => sendOutcome? point
  | .replenishStrategy _ .finished => some (.ok ())
  | .replenishStrategy _ (.thrown e) => some (.error e)
  | _ => none

def ServerState.outcome? (calls : ServerState) (id : CallId) : Option (Except String Unit) :=
  calls.calls[id]?.bind Ticks.outcome?

/-- A call is waited for until it has ended; all else may be answered at any time. -/
def isEnabled (s : TickState) : Question → Bool
  | .call id => (ServerState.outcome? s.calls id).isSome
  | _ => true

def ofExcept {α : Type} : Except String α → TickM α
  | .ok a => pure a
  | .error e => .fail e

def receive (question : Question) : TickM question.Value := do
  let answer ← Program.ask question
  ofExcept answer

def TickState.updated (update : Relay → Relay) (s : TickState) : TickState :=
  { s with relay := update s.relay }

def updateRelay (update : Relay → Relay) : TickM Unit := modify (TickState.updated update)

def TickState.stored (txStore : TxStore) (s : TickState) : TickState :=
  { s with calls := { s.calls with shared := { s.calls.shared with txStore } } }

def setTxStore (txStore : TxStore) : TickM Unit := modify (TickState.stored txStore)

def TickState.called (call : Call) (s : TickState) : TickState :=
  { s with calls := { s.calls with calls := s.calls.calls ++ [call] } }

def startCall (call : Call) : TickM Unit := modify (TickState.called call)

def findActionPending (serverAction : ServerAction) : TickM Bool := do
  receive .asyncFind
  let s ← get
  return isActionPending s.txStore serverAction none

/-- The body of a loop for each item in turn. -/
def forEach {α : Type} (body : α → TickM Unit) : List α → TickM Unit
  | [] => return
  | item :: items => do
      body item
      forEach body items

section Rounds

variable (server : RelayServer)

def callAndWait (task : Task) : TickM Unit := do
  let s ← get
  startCall (task.started server)
  receive (.call s.calls.calls.length)
  let ended ← get
  ofExcept ((ServerState.outcome? ended.calls s.calls.calls.length).getD (.ok ()))

def sendEthBalanceToOwner (signer : Address) (currentBlock : ℕ) : TickM Unit := do
  match ← receive (.withdrawal signer) with
  | none => return
  | some withdrawal => callAndWait server (.sendTransaction {
      signer
      serverAction := .valueTransfer
      method := none
      destination := withdrawal.owner
      value := some withdrawal.value
      gasLimit := minTxGasCost
      gasPrice := some withdrawal.gasPrice
      creationBlockNumber := currentBlock })

def withdrawAllFunds (withdrawManager : Bool) (currentBlock : ℕ) : TickM Unit := do
  sendEthBalanceToOwner server server.workerAddress currentBlock
  if withdrawManager then sendEthBalanceToOwner server server.managerAddress currentBlock
  else return

/-- The body of the loop over the stake events. -/
def handleStakeEvent (currentBlock : ℕ) (event : ManagerEvent) : TickM Unit := do
  receive .stakeInfo
  if event = .stakeWithdrawn then withdrawAllFunds server true currentBlock else return

def registrationDetails (serverAction : ServerAction) (method : String) (gasLimit currentBlock : ℕ) :
    SendTransactionDetails where
  signer := server.managerAddress
  serverAction := serverAction
  method := some method
  destination := server.relayHubAddress
  gasLimit := gasLimit
  creationBlockNumber := currentBlock

def sendRegistration (serverAction : ServerAction) (currentBlock : ℕ) : TickM Unit := do
  let (method, gasLimit) ← receive .populated
  callAndWait server (.sendTransaction
    (registrationDetails server serverAction method gasLimit currentBlock))

def addRelayWorker (currentBlock : ℕ) : TickM Unit :=
  sendRegistration server .addWorker currentBlock

def attemptRegistration (view : RegistrationView) (currentBlock : ℕ) : TickM Unit := do
  if !view.allPrerequisitesOk then return
  let addWorkersPending ← findActionPending .addWorker
  if !(view.workersAdded || addWorkersPending) then addRelayWorker server currentBlock
  sendRegistration server .registerServer currentBlock

def handlePastEvents (currentBlock : ℕ) (forceRegistration : Bool) : TickM RegistrationView := do
  let decodedEvents ← receive .stakeEvents
  forEach (handleStakeEvent server currentBlock) decodedEvents
  let view ← receive .registrationView
  forEach (fun _ => withdrawAllFunds server false currentBlock) (List.range view.dueEvents)
  let isRegistrationPending ← findActionPending .registerServer
  if !(isRegistrationPending || view.isRegistrationCorrect) || forceRegistration then
    attemptRegistration server view currentBlock
  return view

def storeTx (tx : StoredTransaction) : TickM Unit := do
  receive .stored
  let s ← get
  let txStore ← ofExcept (putTx s.txStore tx true)
  setTxStore txStore

/-- The body of the loop of `removeConfirmedTransactions`, on an entry as it was
when the loop began. -/
def recheckTransaction (blockNumber : ℕ) (transaction : StoredTransaction) : TickM Unit := do
  if !shouldRecheck server.dependencies.config blockNumber transaction then return
  match ← receive (.transaction transaction.txId) with
  | none => return
  | some receipt =>
      match receipt.blockNumber with
      | none => return
      | some minedBlockNumber =>
          let confirmations := (blockNumber : ℤ) - minedBlockNumber
          if some minedBlockNumber ≠ transaction.minedBlockNumber ∧
              confirmations < server.dependencies.config.confirmationsNeeded then
            storeTx { transaction with minedBlockNumber := some minedBlockNumber }
          else do
            receive .stored
            let s ← get
            setTxStore (removeTxsUntilNonce s.txStore receipt.fromAddress receipt.nonce)

def removeConfirmedTransactions (blockNumber : ℕ) : TickM Unit := do
  receive .asyncFind
  let s ← get
  forEach (recheckTransaction server blockNumber) (getAll s.txStore)

def resendTransaction (currentBlock newGasPrice : ℕ) (tx : StoredTransaction) : TickM Unit := do
  let txToSign := tx.txToResend newGasPrice
  receive .signature
  let signedTransaction ← ofExcept (server.dependencies.signatureOf
    (server.dependencies.keyManagerOf tx.fromAddress) tx.fromAddress txToSign)
  storeTx (tx.withAttempt signedTransaction.txHash txToSign currentBlock)
  ofExcept (printBoostedTransactionLog tx.gasPrice)
  let _ ← receive .transactionCount
  let hash ← receive .broadcast
  if toLowerCase hash ≠ toLowerCase signedTransaction.txHash then
    .fail (txHashMismatch hash signedTransaction.txHash)

def boostUnderpricedPendingTransactionsForSigner (signer : Address) (currentBlockHeight : ℕ) :
    TickM Unit := do
  receive .asyncFind
  let s ← get
  let sortedTxs := getAllBySigner s.txStore signer
  match sortedTxs with
  | [] => return
  | oldestPendingTx :: _ => do
      let nonce ← receive .transactionCount
      if isAwaited server.dependencies.config oldestPendingTx nonce currentBlockHeight then return
      let (newGasPrice, _) := resolveNewGasPrice server.dependencies.config oldestPendingTx.gasPrice
      forEach (resendTransaction server currentBlockHeight newGasPrice)
        (sortedTxs.filter fun it => it.gasPrice.any (· < newGasPrice))

def boostStuckPendingTransactions (blockNumber : ℕ) : TickM Unit := do
  boostUnderpricedPendingTransactionsForSigner server server.managerAddress blockNumber
  boostUnderpricedPendingTransactionsForSigner server server.workerAddress blockNumber

def Relay.isReady (relay : Relay) : Bool :=
  if (relay.lastSuccessfulRounds : ℤ) < server.dependencies.config.successfulRoundsForReady then
    false
  else relay.ready

def Relay.shouldRefreshState (relay : Relay) (currentBlock : ℕ) : Bool :=
  server.dependencies.config.refreshStateTimeoutBlocks ≤
      (currentBlock : ℤ) - relay.lastRefreshBlock || !relay.isReady server

def setReadyState (isReady : Bool) : TickM Unit :=
  updateRelay fun relay => { relay with ready := isReady }

def refreshGasPrice : TickM Unit := do
  let gasPrice ← receive .gasPrice
  updateRelay fun relay => { relay with gasPrice }
  if gasPrice = 0 then .fail couldNotGetGasPrice

def updateLatestTxBlockNumber (eventsSinceLastScan : List TypedEvent) : TickM Unit := do
  let latestTransactionSinceLastScan := getLatestEventData eventsSinceLastScan
  if latestTransactionSinceLastScan.isSome then
    updateRelay fun relay => { relay with
      lastMinedActiveTransaction := latestTransactionSinceLastScan }
  let s ← get
  if s.relay.lastMinedActiveTransaction.isNone then
    let events ← receive .activeEvents
    updateRelay fun relay => { relay with lastMinedActiveTransaction := getLatestEventData events }

def Relay.latestTxBlockNumber (relay : Relay) : ℤ :=
  relay.lastMinedActiveTransaction.elim (-1) fun it => it.blockNumber

def isActivityPending : TickM Bool := do
  let isRelayPending ← findActionPending .relayCall
  if isRelayPending then return true else findActionPending .registerServer

def shouldRegisterAgain (currentBlock : ℕ) : TickM Bool := do
  let isPendingActivityTransaction ← isActivityPending
  let registrationBlockRate := server.dependencies.config.registrationBlockRate
  if registrationBlockRate = 0 ∨ isPendingActivityTransaction = true then return false
  let s ← get
  return registrationBlockRate ≤ currentBlock - s.relay.latestTxBlockNumber

/-- The body of the loop of `handlePastHubEvents`. -/
def Relay.handlePastHubEvent (currentBlockNumber : ℕ) (relay : Relay) (event : TypedEvent) : Relay :=
  match event.event with
  | .transactionRelayedButRevertedByRecipient =>
      { relay with alerted := true, alertedBlock := currentBlockNumber }
  | _ => relay

def handlePastHubEvents (currentBlockNumber : ℕ) (hubEvents : List TypedEvent) : TickM Unit :=
  updateRelay fun relay => hubEvents.foldl (Relay.handlePastHubEvent currentBlockNumber) relay

def leaveAlertedState (currentBlockNumber : ℕ) : TickM Unit :=
  updateRelay fun relay =>
    if relay.alerted ∧
        relay.alertedBlock + server.dependencies.config.alertedBlockDelay < currentBlockNumber then
      { relay with alerted := false }
    else relay

def Relay.scanned (currentBlockNumber : ℕ) (relay : Relay) : Relay := { relay with
  lastScannedBlock := currentBlockNumber
  scannedBlocks := relay.scannedBlocks ++ [currentBlockNumber] }

def moveCursor (currentBlockNumber : ℕ) : TickM Unit :=
  updateRelay (Relay.scanned currentBlockNumber)

/-- What is left of `handleChanges` once the cursor has moved. -/
def finishRound (currentBlockNumber : ℕ) (hubEvents : List TypedEvent) (isRegistered : Bool) :
    TickM Unit := do
  if !isRegistered then
    setReadyState false
    return
  handlePastHubEvents currentBlockNumber hubEvents
  callAndWait server (.replenishStrategy currentBlockNumber)
  let workerBalance ← receive .balance
  if (workerBalance : ℤ) < server.dependencies.config.workerMinBalance then
    setReadyState false
    return
  setReadyState true
  leaveAlertedState server currentBlockNumber

/-- The part of `handleChanges` before the cursor moves. -/
def handleEventsSinceLastScan (currentBlockNumber : ℕ) : TickM (List TypedEvent × Bool) := do
  let hubEvents ← receive .hubEvents
  updateLatestTxBlockNumber hubEvents
  let forceRegistration ← shouldRegisterAgain server currentBlockNumber
  let view ← handlePastEvents server currentBlockNumber forceRegistration
  removeConfirmedTransactions server currentBlockNumber
  boostStuckPendingTransactions server currentBlockNumber
  return (hubEvents, view.isRegistered)

def handleChanges (currentBlockNumber : ℕ) : TickM Unit := do
  let (hubEvents, isRegistered) ← handleEventsSinceLastScan server currentBlockNumber
  moveCursor currentBlockNumber
  finishRound server currentBlockNumber hubEvents isRegistered

def init : TickM Unit := do
  let s ← get
  if s.relay.initialized then .fail initAlreadyCalled
  receive .init
  updateRelay fun relay => { relay with initialized := true }

def refreshAndHandleChanges (blockNumber : ℕ) : TickM Unit := do
  updateRelay fun relay => { relay with lastRefreshBlock := blockNumber }
  refreshGasPrice
  let managerBalance ← receive .balance
  if (managerBalance : ℤ) < server.dependencies.config.managerMinBalance then setReadyState false
  else handleChanges server blockNumber

/-- What is left of `worker` once the server is initialized. -/
def scanBlock (blockNumber : ℕ) : TickM Unit := do
  let s ← get
  if blockNumber ≤ s.relay.lastScannedBlock then .fail attemptToScanOlderBlock
  else if s.relay.shouldRefreshState server blockNumber then
    refreshAndHandleChanges server blockNumber
  else return

def worker (blockNumber : ℕ) : TickM Unit := do
  let s ← get
  if !s.relay.initialized then init
  scanBlock server blockNumber

def Relay.acquired (id : ℕ) (relay : Relay) : Relay :=
  { relay with workerSemaphoreOn := true, active := id :: relay.active }

def Relay.released (id : ℕ) (relay : Relay) : Relay :=
  { relay with workerSemaphoreOn := false, active := relay.active.erase id }

def Relay.completed (relay : Relay) : Relay := { relay with
  lastSuccessfulRounds := nextSuccessfulRound relay.lastSuccessfulRounds
  rounds := relay.rounds ++ [.completed] }

def Relay.threw (relay : Relay) : Relay :=
  { relay with rounds := relay.rounds ++ [.threw relay.lastSuccessfulRounds] }

/-- The handlers of the worker's promise: a success is counted, a failure is not;
the semaphore is released after both. -/
def handleOutcome (id : ℕ) : Except String Unit → TickM Unit
  | .ok () => do
      let _ ← Program.ask Question.handlers
      updateRelay Relay.completed
      let _ ← Program.ask Question.handlers
      updateRelay (Relay.released id)
  | .error e => do
      updateRelay Relay.threw
      let _ ← Program.ask Question.handlers
      updateRelay (Relay.released id)
      .fail e

def workerSemaphore (id blockNumber : ℕ) : TickM Unit := do
  let s ← get
  if s.relay.workerSemaphoreOn then return
  updateRelay (Relay.acquired id)
  let outcome ← (worker server blockNumber).attempt
  handleOutcome id outcome

def Relay.reset (relay : Relay) : Relay := { relay with lastSuccessfulRounds := 0 }

def resetSuccessfulRounds : TickM Unit := updateRelay Relay.reset

/-- The timer of a tick runs until its block is fetched; there is none in the
development mode. -/
def latestBlock : TickM (Except String ℕ) := do
  let answer : Except String (Option ℕ) ← Program.ask Question.latestBlockOrTimeout
  match answer with
  | .error e => return .error e
  | .ok (some blockNumber) => return .ok blockNumber
  | .ok none => do
      resetSuccessfulRounds
      Program.ask Question.latestBlock

/-- A failure of the round is not caught here: only that of the block is. -/
def intervalHandler (id : ℕ) : TickM Unit := do
  match ← latestBlock with
  | .error e => do
      resetSuccessfulRounds
      .fail e
  | .ok blockNumber => do
      let s ← get
      if s.relay.lastScannedBlock < blockNumber then workerSemaphore server id blockNumber

def relayNotReady : String := "relay not ready"

def unacceptableGasPrice (serverGasPrice requestGasPrice : ℕ) : String :=
  "Unacceptable gasPrice: relayServer's gasPrice:" ++ toString serverGasPrice ++
    " request's gasPrice: " ++ toString requestGasPrice

/-- The checks that depend on the request and the clock alone are answered last. -/
def validateInput (request : HttpEnvelopingRequest) : TickM Unit := do
  let s ← get
  let gasPrice := request.relayRequest.relayData.gasPrice
  if gasPrice < s.relay.gasPrice then .fail (unacceptableGasPrice s.relay.gasPrice gasPrice)
  receive .requestChecks

/-- The alerted state slows the traffic down. -/
def slowDown (id : ℕ) : TickM Unit := do
  let s ← get
  if s.relay.alerted then
    updateRelay fun relay => { relay with delayed := id :: relay.delayed }
    let _ ← Program.ask .sleep
    updateRelay fun relay => { relay with delayed := relay.delayed.erase id }

/-- What comes after the checks made here goes on as a call of its own. -/
def createRelayTransaction (id : ℕ) (request : HttpEnvelopingRequest) : TickM Unit := do
  let s ← get
  if !s.relay.isReady server then .fail relayNotReady
  slowDown id
  validateInput request
  updateRelay fun relay => { relay with accepted := relay.accepted ++ [request] }
  startCall (.createRelayTransaction request .polling)

end Rounds

inductive Job
  | init
  | tick
  | relayRequest (request : HttpEnvelopingRequest)

def Job.program (server : RelayServer) : Job → ℕ → TickM Unit
  | init, _ => Ticks.init
  | tick, id => intervalHandler server id
  | relayRequest request, id => createRelayTransaction server id request

/-- What else goes on: the checks and polls of other requests, the refill after a
relayed transaction, and the turns of calls. -/
inductive Outside
  | validateMaxNonce (relayMaxNonce : JsNumber)
  | pollNonce (signer : Address)
  | replenishStrategy (currentBlock : ℕ)
  | resume (id : CallId) (answer : RifRelayServer.Answer)

def Outside.event : Outside → RifRelayServer.Event
  | validateMaxNonce relayMaxNonce => .start (.validateMaxNonce relayMaxNonce)
  | pollNonce signer => .start (.pollNonce signer)
  | replenishStrategy currentBlock => .start (.replenishStrategy currentBlock)
  | resume id answer => .resume id answer

def system (server : RelayServer) : System TickState String Question.Answer Job Outside where
  program := Job.program server
  outside s event :=
    (RifRelayServer.step server s.calls event.event).map fun calls => { s with calls }
  enabled := isEnabled

abbrev Ticking := Async.State TickState String Question.Answer

abbrev TickEvent := Async.Event Job Question.Answer Outside

abbrev tickStep (server : RelayServer) : Ticking → TickEvent → Option Ticking :=
  Async.step (system server)

/-- A process that has just started, on the store it finds on disk. -/
def launched (server : RelayServer) (txStore : TxStore) : Ticking :=
  ⟨.initial server.dependencies.config txStore, []⟩

end RifRelayServer.Ticks
