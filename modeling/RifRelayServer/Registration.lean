import RifRelayServer.Calls
import RifRelayServer.LogScan

/-!
# The registration of the server on the hub

The registration manager follows the stake of the server's manager, registers
the server when it has to, and sends its funds to the owner once the stake is
gone. It works within the rounds of the worker. What a round waits for is
answered moment by moment, and other calls of the transaction manager may come
before each answer.
-/

namespace RifRelayServer

structure AmountRequired where
  currentValue : ℤ
  requiredValue : ℤ

def AmountRequired.isSatisfied (amount : AmountRequired) : Bool :=
  amount.requiredValue ≤ amount.currentValue

structure RelayManagerData where
  currentlyStaked : Bool
  manager : Address
  registered : Bool
  url : String

structure StakeInfo where
  stake : ℕ
  withdrawBlock : ℕ
  owner : Address

structure DelayedEvent where
  block : ℕ
  eventData : TypedEvent

structure RegistrationManager where
  balanceRequired : AmountRequired
  stakeRequired : AmountRequired
  isStakeLocked : Bool
  isInitialized : Bool
  ownerAddress : Option Address
  relayData : Option RelayManagerData
  lastWorkerAddedTransaction : Option TypedEvent
  delayedEvents : List DelayedEvent

def RegistrationManager.constructed (config : BlockchainConfig) : RegistrationManager where
  balanceRequired := ⟨0, config.managerMinBalance⟩
  stakeRequired := ⟨0, config.managerMinStake⟩
  isStakeLocked := false
  isInitialized := false
  ownerAddress := none
  relayData := none
  lastWorkerAddedTransaction := none
  delayedEvents := []

/-- How far the logs are scanned, with what the rounds have got from them: the
events given to `handlePastEvents` or fetched there, the hub events returned to
the rounds, the requests for either that were answered, and all that the scans that
were completed made. -/
structure ScanState where
  lastScannedBlock : ℕ
  handed : List TypedEvent
  hubEvents : List TypedEvent
  hubRequests : List Filter
  stakeRequests : List Filter
  hubQueries : List Filter
  stakeQueries : List Filter

/-- What a withdrawal was decided on. -/
structure WithdrawalReading where
  signer : Address
  gasPrice : ℕ
  balance : ℕ

/-- What was done of withdrawals: the delayed events acted on, each with the block,
and those whose withdrawal returned; what was read for an account, and what was
given to `sendTransaction` for it. -/
structure Withdrawals where
  started : List (TypedEvent × ℕ)
  completed : List TypedEvent
  readings : List WithdrawalReading
  created : List SendTransactionDetails

def Withdrawals.empty : Withdrawals := ⟨[], [], [], []⟩

/-- What the rounds of the worker read and write. `received` counts the answers
to the round under way; `acted` lists the stake events whose delay was recorded
or that had the funds withdrawn, and `stakesRead` the answers to `refreshStake`. -/
structure WorkerState where
  initialized : Bool
  scan : ScanState
  lastRefreshBlock : ℕ
  ready : Bool
  lastSuccessfulRounds : ℕ
  gasPrice : ℕ
  alerted : Bool
  alertedBlock : ℕ
  lastMinedActiveTransaction : Option TypedEvent
  workerBalanceRequired : AmountRequired
  registrationManager : RegistrationManager
  transactionManager : TransactionManager
  received : ℕ
  acted : List TypedEvent
  stakesRead : List StakeInfo
  withdrawals : Withdrawals

/-- What a round may be answered at one moment, and the other calls of the
transaction manager that come before it is. -/
structure Moment where
  provider : Provider
  getBalance : Address → Except String ℕ
  getStakeInfo : Except String StakeInfo
  getRelayInfo : Except String RelayManagerData
  populateTransaction : Except String String
  estimateGas : Except String ℕ
  getCode : Except String String
  getNetwork : Except String Unit
  asyncFind : Except String Unit
  otherCalls : List ManagerCall

/-- A round at a block, with the answers to its four scans and to all else. -/
structure Round where
  blockNumber : ℕ
  workersAddedScan : LogProvider
  hubScan : LogProvider
  activeScan : LogProvider
  stakeScan : LogProvider
  moments : ℕ → Moment

abbrev RoundM := EStateM String WorkerState

def awaited {α : Type} (answer : Except String α) : RoundM α :=
  match answer with
  | .ok a => pure a
  | .error e => throw e

def sortLatestFirst (events : List TypedEvent) : List TypedEvent :=
  events.insertionSort fun a b =>
    if a.blockNumber = b.blockNumber then b.transactionIndex ≤ a.transactionIndex
    else b.blockNumber ≤ a.blockNumber

def getLatestEventData (events : List TypedEvent) : Option TypedEvent :=
  (sortLatestFirst events).head?

def isSecondEventLater (a b : TypedEvent) : Bool :=
  if a.blockNumber = b.blockNumber then a.transactionIndex < b.transactionIndex
  else a.blockNumber < b.blockNumber

def RelayServer.isRegistrationValid (server : RelayServer) (relayData : Option RelayManagerData) :
    Bool :=
  relayData.any fun it => isSameAddress it.manager server.managerAddress && it.url = server.url

def attemptEstimateGas (config : BlockchainConfig) (estimateGas : Except String ℕ) : ℕ :=
  match estimateGas with
  | .ok estimate => (HalfUp.toInt (config.estimateGasFactor * (estimate : ℕ))).toNat
  | .error _ => config.defaultGasLimit

def registrationManagerNotInitialized : String := "RegistrationManager not initialized"

section Registration

variable (server : RelayServer) (round : Round)

def receive {α : Type} (answer : Moment → Except String α) : RoundM α := do
  let state ← get
  let moment := round.moments state.received
  set { state with
    received := state.received + 1
    transactionManager :=
      runCalls server.dependencies moment.otherCalls state.transactionManager }
  awaited (answer moment)

def callManager {α : Type} (program : Provider → ManagerM α) : RoundM α := do
  let provider ← receive server round fun moment => .ok moment.provider
  Keeping.focus WorkerState.transactionManager
    (fun transactionManager state => { state with transactionManager }) (program provider)

def findActionPending (serverAction : ServerAction) (destination : Option Address) :
    RoundM Bool := do
  receive server round (·.asyncFind)
  let state ← get
  return isActionPending state.transactionManager.txStore serverAction destination

def updateRegistrationManager (update : RegistrationManager → RegistrationManager) : RoundM Unit :=
  modify fun state => { state with registrationManager := update state.registrationManager }

def scanLogs (provider : LogProvider) (options : PastEventOptions) (names : List ManagerEvent) :
    RoundM (List TypedEvent) :=
  awaited (getPastEventsForHub server.dependencies.config server.relayHubAddress provider
    server.managerAddress options names)

def RegistrationManager.setBalance (currentBalance : ℕ) (manager : RegistrationManager) :
    RegistrationManager :=
  { manager with balanceRequired := { manager.balanceRequired with currentValue := currentBalance } }

/-- The owner is set the first time there is a stake. -/
def RegistrationManager.setStake (stakeInfo : StakeInfo) (manager : RegistrationManager) :
    RegistrationManager :=
  { manager with
    isStakeLocked := stakeInfo.withdrawBlock = 0
    stakeRequired := { manager.stakeRequired with currentValue := stakeInfo.stake }
    ownerAddress := some (manager.ownerAddress.getD stakeInfo.owner) }

def refreshBalance : RoundM Unit := do
  let currentBalance ← receive server round (·.getBalance server.managerAddress)
  updateRegistrationManager (.setBalance currentBalance)

def noteStakeRead (stakeInfo : StakeInfo) : RoundM Unit :=
  modify fun state => { state with stakesRead := state.stakesRead ++ [stakeInfo] }

def refreshStake : RoundM Unit := do
  let stakeInfo ← receive server round (·.getStakeInfo)
  noteStakeRead stakeInfo
  if stakeInfo.stake = 0 then return
  updateRegistrationManager (.setStake stakeInfo)

def queryLatestWorkerAddedEvent : RoundM (Option TypedEvent) := do
  let workersAddedEvents ← scanLogs server round.workersAddedScan
    { fromBlock := some (server.dependencies.config.initialBlockToScan : ℤ), toBlock := none }
    [.relayWorkersAdded]
  return getLatestEventData workersAddedEvents

def initRegistrationManager : RoundM Unit := do
  let state ← get
  if state.registrationManager.lastWorkerAddedTransaction.isNone then
    let lastWorkerAddedTransaction ← queryLatestWorkerAddedEvent server round
    updateRegistrationManager fun it => { it with lastWorkerAddedTransaction }
  updateRegistrationManager fun it => { it with isInitialized := true }

def noteWithdrawals (note : Withdrawals → Withdrawals) : RoundM Unit :=
  modify fun state => { state with withdrawals := note state.withdrawals }

/-- All the balance of the account but what its transfer costs goes to the owner. -/
def sendEthBalanceToOwner (signer : Address) (currentBlock : ℕ) : RoundM (List Hash) := do
  let state ← get
  match state.registrationManager.ownerAddress with
  | none => return []
  | some owner =>
      let gasPrice ← receive server round (·.provider.getGasPrice)
      let txCost := minTxGasCost * gasPrice
      let balance ← receive server round (·.getBalance signer)
      noteWithdrawals fun it => { it with readings := it.readings ++ [⟨signer, gasPrice, balance⟩] }
      if balance < txCost then return []
      let details : SendTransactionDetails := {
        signer
        serverAction := .valueTransfer
        method := none
        destination := owner
        value := some ((balance : ℤ) - txCost)
        gasLimit := minTxGasCost
        gasPrice := some gasPrice
        creationBlockNumber := currentBlock }
      noteWithdrawals fun it => { it with created := it.created ++ [details] }
      let sent ← callManager server round (sendTransaction server.dependencies · details)
      return [sent.txHash]

def sendWorkersEthBalancesToOwner (currentBlock : ℕ) : RoundM (List Hash) :=
  sendEthBalanceToOwner server round server.workerAddress currentBlock

def sendManagerEthBalanceToOwner (currentBlock : ℕ) : RoundM (List Hash) :=
  sendEthBalanceToOwner server round server.managerAddress currentBlock

def withdrawAllFunds (withdrawManager : Bool) (currentBlock : ℕ) : RoundM (List Hash) := do
  let workerHashes ← sendWorkersEthBalancesToOwner server round currentBlock
  if withdrawManager then
    let managerHashes ← sendManagerEthBalanceToOwner server round currentBlock
    return workerHashes ++ managerHashes
  else return workerHashes

def handleStakeWithdrawnEvent (currentBlock : ℕ) : RoundM (List Hash) :=
  withdrawAllFunds server round true currentBlock

def handleStakeUnlockedEvent (currentBlock : ℕ) : RoundM (List Hash) :=
  withdrawAllFunds server round false currentBlock

def noteActed (eventData : TypedEvent) : RoundM Unit :=
  modify fun state => { state with acted := state.acted ++ [eventData] }

/-- The body of the loop over the stake events. `toNumber` takes the numbers of all blocks. -/
def handleStakeEvent (currentBlock : ℕ) (eventData : TypedEvent) : RoundM (List Hash) := do
  match eventData.event with
  | .stakeAdded =>
      refreshStake server round
      return []
  | .stakeUnlocked =>
      refreshStake server round
      updateRegistrationManager fun it => { it with
        delayedEvents := it.delayedEvents ++ [⟨eventData.withdrawBlock, eventData⟩] }
      noteActed eventData
      return []
  | .stakeWithdrawn =>
      refreshStake server round
      noteActed eventData
      handleStakeWithdrawnEvent server round currentBlock
  | _ => return []

/-- The body of the loop over the delayed events that are due. -/
def handleDelayedEvent (currentBlock : ℕ) (eventData : TypedEvent) : RoundM (List Hash) :=
  match eventData.event with
  | .stakeUnlocked => do
      noteWithdrawals fun it => { it with started := it.started ++ [(eventData, currentBlock)] }
      let transactionHashes ← handleStakeUnlockedEvent server round currentBlock
      noteWithdrawals fun it => { it with completed := it.completed ++ [eventData] }
      return transactionHashes
  | _ => return []

def handleEach (handle : TypedEvent → RoundM (List Hash)) : List TypedEvent → RoundM (List Hash)
  | [] => return []
  | eventData :: events => do
      let transactionHashes ← handle eventData
      let others ← handleEach handle events
      return transactionHashes ++ others

def extractDuePendingEvents (currentBlock : ℕ) : RoundM (List TypedEvent) := do
  let state ← get
  let delayedEvents := state.registrationManager.delayedEvents
  updateRegistrationManager fun it => { it with
    delayedEvents := delayedEvents.filter fun event => currentBlock < event.block }
  return (delayedEvents.filter fun event => event.block ≤ currentBlock).map (·.eventData)

/-- The body of the loop over the hub events. -/
def latestWorkerAdded (last : Option TypedEvent) (eventData : TypedEvent) : Option TypedEvent :=
  if eventData.event = .relayWorkersAdded ∧ last.all (isSecondEventLater · eventData) = true then
    some eventData
  else last

def addRelayWorker (currentBlock : ℕ) : RoundM Hash := do
  let addRelayWorkerMethod ← receive server round (·.populateTransaction)
  let gasLimit ← receive server round fun moment =>
    .ok (attemptEstimateGas server.dependencies.config moment.estimateGas)
  let details : SendTransactionDetails := {
    signer := server.managerAddress
    gasLimit
    serverAction := .addWorker
    method := some addRelayWorkerMethod
    destination := server.relayHubAddress
    creationBlockNumber := currentBlock }
  let sent ← callManager server round (sendTransaction server.dependencies · details)
  return sent.txHash

def RegistrationManager.isWorkerValid (manager : RegistrationManager) : Bool :=
  manager.lastWorkerAddedTransaction.any fun it => it.event = .relayWorkersAdded

def attemptAddRelayWorker (currentBlock : ℕ) : RoundM (List Hash) := do
  let state ← get
  let workersAdded := state.registrationManager.isWorkerValid
  let addWorkersPending ← findActionPending server round .addWorker none
  if workersAdded || addWorkersPending then return []
  let txHash ← addRelayWorker server round currentBlock
  return [txHash]

def attemptRegistration (currentBlock : ℕ) : RoundM (List Hash) := do
  let state ← get
  let manager := state.registrationManager
  let allPrerequisitesOk := manager.isStakeLocked && manager.stakeRequired.isSatisfied &&
    manager.balanceRequired.isSatisfied
  if !allPrerequisitesOk then return []
  let transactions ← attemptAddRelayWorker server round currentBlock
  let registerMethod ← receive server round (·.populateTransaction)
  let gasLimit ← receive server round fun moment =>
    .ok (attemptEstimateGas server.dependencies.config moment.estimateGas)
  let details : SendTransactionDetails := {
    serverAction := .registerServer
    gasLimit
    signer := server.managerAddress
    method := some registerMethod
    destination := server.relayHubAddress
    creationBlockNumber := currentBlock }
  let sent ← callManager server round (sendTransaction server.dependencies · details)
  return transactions ++ [sent.txHash]

def stakeEvents : List ManagerEvent := [.stakeAdded, .stakeUnlocked, .stakeWithdrawn]

/-- The events are noted as handed over when they are. -/
def noteHanded (events : List TypedEvent) : RoundM Unit :=
  modify fun state => { state with
    scan := { state.scan with handed := state.scan.handed ++ events } }

/-- All the requests of a scan, answered or not. -/
def RelayServer.queries (server : RelayServer) (provider : LogProvider)
    (options : PastEventOptions) (names : List ManagerEvent) : List Filter :=
  (getLogFilters server.dependencies.config server.relayHubAddress provider
    server.managerAddress options names).toOption.getD []

def noteStakeScan (queries requests : List Filter) : RoundM Unit :=
  modify fun state => { state with
    scan := { state.scan with
      stakeQueries := state.scan.stakeQueries ++ queries
      stakeRequests := state.scan.stakeRequests ++ requests } }

def fetchStakeEvents (options : PastEventOptions) : RoundM (List TypedEvent) := do
  let decodedEvents ← scanLogs server round.stakeScan options stakeEvents
  noteStakeScan (server.queries round.stakeScan options stakeEvents)
    (answeredRequests server.dependencies.config server.relayHubAddress round.stakeScan
      server.managerAddress options stakeEvents)
  noteHanded decodedEvents
  return decodedEvents

def registerIfNeeded (currentBlock : ℕ) (forceRegistration : Bool) : RoundM (List Hash) := do
  let state ← get
  let isRegistrationCorrect := server.isRegistrationValid state.registrationManager.relayData
  let isRegistrationPending ← findActionPending server round .registerServer none
  if !(isRegistrationPending || isRegistrationCorrect) || forceRegistration then
    attemptRegistration server round currentBlock
  else return []

def handlePastEvents (hubEventsSinceLastScan : List TypedEvent) (lastScannedBlock currentBlock : ℕ)
    (forceRegistration : Bool) : RoundM (List Hash) := do
  noteHanded hubEventsSinceLastScan
  let state ← get
  if !state.registrationManager.isInitialized then throw registrationManagerNotInitialized
  let decodedEvents ← fetchStakeEvents server round (.since lastScannedBlock)
  let stakeHashes ← handleEach (handleStakeEvent server round currentBlock) decodedEvents
  let relayData ← receive server round (·.getRelayInfo)
  updateRegistrationManager fun it => { it with
    relayData := some relayData
    lastWorkerAddedTransaction :=
      hubEventsSinceLastScan.foldl latestWorkerAdded it.lastWorkerAddedTransaction }
  let dueEvents ← extractDuePendingEvents currentBlock
  let delayedHashes ← handleEach (handleDelayedEvent server round currentBlock) dueEvents
  let registrationHashes ← registerIfNeeded server round currentBlock forceRegistration
  return stakeHashes ++ delayedHashes ++ registrationHashes

def RegistrationManager.isRegistered (manager : RegistrationManager) : Bool :=
  manager.stakeRequired.isSatisfied && manager.isStakeLocked &&
    server.isRegistrationValid manager.relayData

end Registration

end RifRelayServer
