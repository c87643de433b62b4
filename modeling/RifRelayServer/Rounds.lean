import RifRelayServer.Registration
import RifRelayServer.Lib.Runs

/-!
# The rounds of the worker

At each tick the worker may go through a round: it reads the logs since the last
scanned block, lets the registration manager handle them, looks after the
transactions under way and moves the cursor. A round may end at any step.
-/

namespace RifRelayServer

/-- The counter is a number of the language, exact up to `2 ^ 53`. -/
def nextSuccessfulRound (lastSuccessfulRounds : ℕ) : ℕ := min (lastSuccessfulRounds + 1) (2 ^ 53)

def WorkerState.constructed (config : BlockchainConfig) (txStore : TxStore) : WorkerState where
  initialized := false
  scan := ⟨config.initialBlockToScan, [], [], [], [], [], []⟩
  lastRefreshBlock := 0
  ready := false
  lastSuccessfulRounds := 2 ^ 53 - 1
  gasPrice := 0
  alerted := false
  alertedBlock := 0
  lastMinedActiveTransaction := none
  workerBalanceRequired := ⟨0, config.workerMinBalance⟩
  registrationManager := .constructed config
  transactionManager := { TransactionManager.initial with txStore }
  received := 0
  acted := []
  stakesRead := []
  withdrawals := .empty

def noRelayHubDeployed (relayHubAddress : Address) : String :=
  "No RelayHub deployed at address " ++ relayHubAddress ++ "."

def initAlreadyCalled : String := "_init was already called"

def attemptToScanOlderBlock : String := "Attempt to scan older block, aborting"

def couldNotGetGasPrice : String := "Could not get gasPrice from node"

def isContractDeployed (code : String) : Bool := code ≠ "0x" && code ≠ "0x00"

section Rounds

variable (server : RelayServer) (round : Round)

def init : RoundM Unit := do
  let state ← get
  if state.initialized then throw initAlreadyCalled
  let code ← receive server round (·.getCode)
  -- the process exits here
  if !isContractDeployed code then throw (noRelayHubDeployed server.relayHubAddress)
  updateRegistrationManager fun _ => .constructed server.dependencies.config
  initRegistrationManager server round
  receive server round (·.getNetwork)
  modify fun state => { state with initialized := true }

def WorkerState.isReady (state : WorkerState) : Bool :=
  if (state.lastSuccessfulRounds : ℤ) < server.dependencies.config.successfulRoundsForReady then
    false
  else state.ready

def setReadyState (isReady : Bool) : RoundM Unit :=
  modify fun state => { state with ready := isReady }

def WorkerState.shouldRefreshState (state : WorkerState) (currentBlock : ℕ) : Bool :=
  server.dependencies.config.refreshStateTimeoutBlocks ≤
      (currentBlock : ℤ) - state.lastRefreshBlock ||
    !state.isReady server

def refreshGasPrice : RoundM Unit := do
  let gasPrice ← receive server round (·.provider.getGasPrice)
  modify fun state => { state with gasPrice }
  if gasPrice = 0 then throw couldNotGetGasPrice

def noteHubScan (queries requests : List Filter) (events : List TypedEvent) : RoundM Unit :=
  modify fun state => { state with
    scan := { state.scan with
      hubQueries := state.scan.hubQueries ++ queries
      hubRequests := state.scan.hubRequests ++ requests
      hubEvents := state.scan.hubEvents ++ events } }

def getAllHubEventsSinceLastScan : RoundM (List TypedEvent) := do
  let state ← get
  let options := PastEventOptions.since state.scan.lastScannedBlock
  let events ← scanLogs server round.hubScan options defaultManagerEvents
  noteHubScan (server.queries round.hubScan options defaultManagerEvents)
    (answeredRequests server.dependencies.config server.relayHubAddress round.hubScan
      server.managerAddress options defaultManagerEvents) events
  return events

def queryLatestActiveEvent : RoundM (Option TypedEvent) := do
  let events ← scanLogs server round.activeScan
    { fromBlock := some (server.dependencies.config.initialBlockToScan : ℤ), toBlock := none }
    defaultManagerEvents
  return getLatestEventData events

/-- The events are sorted in place: they are returned as the caller finds them. -/
def updateLatestTxBlockNumber (eventsSinceLastScan : List TypedEvent) :
    RoundM (List TypedEvent) := do
  let latestTransactionSinceLastScan := getLatestEventData eventsSinceLastScan
  if latestTransactionSinceLastScan.isSome then
    modify fun state => { state with
      lastMinedActiveTransaction := latestTransactionSinceLastScan }
  let state ← get
  if state.lastMinedActiveTransaction.isNone then
    let lastMinedActiveTransaction ← queryLatestActiveEvent server round
    modify fun state => { state with lastMinedActiveTransaction }
  return sortLatestFirst eventsSinceLastScan

def WorkerState.latestTxBlockNumber (state : WorkerState) : ℤ :=
  state.lastMinedActiveTransaction.elim (-1) fun it => it.blockNumber

def shouldRegisterAgain (currentBlock : ℕ) : RoundM Bool := do
  let isRelayPending ← findActionPending server round .relayCall none
  let isPendingActivityTransaction ←
    if isRelayPending then pure true else findActionPending server round .registerServer none
  let registrationBlockRate := server.dependencies.config.registrationBlockRate
  if registrationBlockRate = 0 ∨ isPendingActivityTransaction = true then return false
  let state ← get
  return registrationBlockRate ≤ currentBlock - state.latestTxBlockNumber

def boostStuckPendingTransactions (blockNumber : ℕ) : RoundM Unit := do
  let _ ← callManager server round (boostUnderpricedPendingTransactionsForSigner
    server.dependencies · server.managerAddress blockNumber)
  let _ ← callManager server round (boostUnderpricedPendingTransactionsForSigner
    server.dependencies · server.workerAddress blockNumber)

/-- The body of the loop of `handlePastHubEvents`. -/
def WorkerState.handlePastHubEvent (currentBlockNumber : ℕ) (state : WorkerState)
    (event : TypedEvent) : WorkerState :=
  match event.event with
  | .transactionRelayedButRevertedByRecipient =>
      { state with alerted := true, alertedBlock := currentBlockNumber }
  | _ => state

def handlePastHubEvents (currentBlockNumber : ℕ) (hubEventsSinceLastScan : List TypedEvent) :
    RoundM Unit :=
  modify fun state => hubEventsSinceLastScan.foldl (·.handlePastHubEvent currentBlockNumber) state

def setWorkerBalance (workerBalance : ℕ) : RoundM Unit :=
  modify fun state => { state with
    workerBalanceRequired := { state.workerBalanceRequired with currentValue := workerBalance } }

def replenishStrategy (currentBlock : ℕ) : RoundM (List Hash) := do
  if server.customReplenish then throw noCustomReplenish
  let config := server.dependencies.config
  let managerBalance ← receive server round (·.getBalance server.managerAddress)
  let workerBalance ← receive server round (·.getBalance server.workerAddress)
  setWorkerBalance workerBalance
  let state ← get
  let isSatisfied := state.workerBalanceRequired.isSatisfied
  if config.managerTargetBalance < managerBalance ∧ isSatisfied = true then return []
  let isReplenishPendingForWorker ←
    findActionPending server round .valueTransfer (some server.workerAddress)
  if isSatisfied = false ∧ isReplenishPendingForWorker = false then
    let state ← get
    let refill := config.workerTargetBalance - state.workerBalanceRequired.currentValue
    if refill < managerBalance - config.managerMinBalance then
      let sent ← callManager server round
        (sendTransaction server.dependencies · (refillDetails server refill currentBlock))
      return [sent.txHash]
    else return []
  else return []

def leaveAlertedState (currentBlockNumber : ℕ) : RoundM Unit :=
  modify fun state =>
    if state.alerted ∧
        state.alertedBlock + server.dependencies.config.alertedBlockDelay < currentBlockNumber then
      { state with alerted := false }
    else state

/-- What is left of `handleChanges` once the cursor has moved. -/
def finishRound (currentBlockNumber : ℕ) (hubEventsSinceLastScan : List TypedEvent)
    (transactionHashes : List Hash) : RoundM (List Hash) := do
  let state ← get
  if !state.registrationManager.isRegistered server then
    setReadyState false
    return transactionHashes
  handlePastHubEvents currentBlockNumber hubEventsSinceLastScan
  let replenishHashes ← replenishStrategy server round currentBlockNumber
  let workerBalance ← receive server round (·.getBalance server.workerAddress)
  if (workerBalance : ℤ) < server.dependencies.config.workerMinBalance then
    setReadyState false
    return transactionHashes ++ replenishHashes
  setReadyState true
  leaveAlertedState server currentBlockNumber
  return transactionHashes ++ replenishHashes

def moveCursor (currentBlockNumber : ℕ) : RoundM Unit :=
  modify fun state => { state with
    scan := { state.scan with lastScannedBlock := currentBlockNumber } }

def handleChanges (currentBlockNumber : ℕ) : RoundM (List Hash) := do
  let hubEvents ← getAllHubEventsSinceLastScan server round
  let hubEventsSinceLastScan ← updateLatestTxBlockNumber server round hubEvents
  let forceRegistration ← shouldRegisterAgain server round currentBlockNumber
  let state ← get
  let transactionHashes ← handlePastEvents server round hubEventsSinceLastScan
    state.scan.lastScannedBlock currentBlockNumber forceRegistration
  callManager server round (removeConfirmedTransactions server.dependencies · currentBlockNumber)
  boostStuckPendingTransactions server round currentBlockNumber
  moveCursor currentBlockNumber
  finishRound server round currentBlockNumber hubEventsSinceLastScan transactionHashes

def worker : RoundM (List Hash) := do
  let state ← get
  if !state.initialized then init server round
  let state ← get
  if round.blockNumber ≤ state.scan.lastScannedBlock then throw attemptToScanOlderBlock
  if !state.shouldRefreshState server round.blockNumber then return []
  modify fun state => { state with lastRefreshBlock := round.blockNumber }
  refreshGasPrice server round
  refreshBalance server round
  let state ← get
  if !state.registrationManager.balanceRequired.isSatisfied then
    setReadyState false
    return []
  handleChanges server round round.blockNumber

def workerSemaphore : RoundM Unit := do
  let _ ← worker server round
  modify fun state => { state with
    lastSuccessfulRounds := nextSuccessfulRound state.lastSuccessfulRounds }

def startRound : RoundM Unit := modify fun state => { state with received := 0 }

/-- A tick with the latest block. It starts a round only if the block is new. -/
def intervalHandler : RoundM Unit := do
  startRound
  let state ← get
  if state.scan.lastScannedBlock < round.blockNumber then workerSemaphore server round

def resetSuccessfulRounds : RoundM Unit :=
  modify fun state => { state with lastSuccessfulRounds := 0 }

end Rounds

/-- What happens to the worker. A tick that finds a round under way is skipped
and is not among these. -/
inductive WorkerEvent
  | init (round : Round)
  | tick (round : Round)
  | blockUnavailable
  | timedOut
  | managerCall (call : ManagerCall)

def WorkerEvent.program (server : RelayServer) : WorkerEvent → RoundM Unit
  | init round => do
      startRound
      RifRelayServer.init server round
  | tick round => intervalHandler server round
  | blockUnavailable | timedOut => resetSuccessfulRounds
  | managerCall call => modify fun state => { state with
      transactionManager := runCalls server.dependencies [call] state.transactionManager }

/-- A step always ends, with or without an error. -/
def workerStep (server : RelayServer) (state : WorkerState) (event : WorkerEvent) :
    Option WorkerState :=
  some (Keeping.final (event.program server) state)

end RifRelayServer
