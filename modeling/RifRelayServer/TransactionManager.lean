import RifRelayServer.StoredTransactions
import RifRelayServer.Lib.Rounding
import RifRelayServer.Lib.Keeping
import Mathlib

/-!
# The transaction manager

Transactions are numbered, signed, recorded and broadcast by one object. Its
methods run here one at a time, each against the answers a node gives during
that call; a method that throws keeps what it had changed. The manager also
keeps a record of every transaction it signed and of those it broadcast.
-/

namespace RifRelayServer

structure BlockchainConfig where
  confirmationsNeeded : ℤ
  pendingTransactionTimeoutBlocks : ℤ
  retryGasPriceFactor : ℚ
  maxGasPrice : ℕ
  managerTargetBalance : ℤ
  managerMinBalance : ℤ
  workerTargetBalance : ℤ
  workerMinBalance : ℤ
  managerMinStake : ℤ := 1
  alertedBlockDelay : ℤ := 0
  registrationBlockRate : ℤ := 0
  refreshStateTimeoutBlocks : ℤ := 5
  successfulRoundsForReady : ℤ := 3
  defaultGasLimit : ℕ := 500000
  estimateGasFactor : ℚ := 6 / 5
  initialBlockToScan : ℕ := 1
  maxBlockRange : ℤ := 1000

structure SignedTransaction where
  fromAddress : Address
  toAddress : Option Address
  data : String
  value : ℕ
  gasLimit : ℕ
  gasPrice : ℕ
  nonce : ℕ
  deriving DecidableEq

/-- The payload a wallet signs: an absent number is zero, absent data is empty. -/
def SignedTransaction.ofPopulated (signer : Address) (utx : PopulatedTransaction) :
    SignedTransaction where
  fromAddress := signer
  toAddress := utx.toAddress
  data := utx.data.getD "0x"
  value := (utx.value.getD 0).toNat
  gasLimit := utx.gasLimit.getD 0
  gasPrice := utx.gasPrice.getD 0
  nonce := utx.nonce.getD 0

structure SignedTransactionDetails where
  txHash : Hash
  signedTx : SignedTransaction

structure KeyManager where
  addresses : List Address

def KeyManager.isSigner (keyManager : KeyManager) (signer : Address) : Bool :=
  keyManager.addresses.contains signer

/-- What the manager is constructed with. A wallet refuses a malformed
destination or malformed data. -/
structure ServerDependencies where
  managerKeyManager : KeyManager
  workersKeyManager : KeyManager
  walletRefuses : Option Address → Option String → Option String
  keccak256 : SignedTransaction → Hash
  config : BlockchainConfig

structure TransactionResponse where
  fromAddress : Address
  nonce : ℕ
  blockNumber : Option ℕ

structure Provider where
  getGasPrice : Except String ℕ
  getTransactionCount : Address → Except String ℕ
  getPendingTransactionCount : Address → Except String ℕ
  getTransaction : Hash → Except String (Option TransactionResponse)
  sendTransaction : SignedTransaction → Except String Hash

structure TransactionManager where
  nonces : Address → ℕ
  txStore : TxStore
  signed : List SignedTransaction
  broadcast : List SignedTransaction

abbrev ManagerM := EStateM String TransactionManager

def await {α : Type} (answer : Except String α) : ManagerM α :=
  match answer with
  | .ok a => pure a
  | .error e => throw e

structure SendTransactionDetails where
  signer : Address
  serverAction : ServerAction
  method : Option String
  destination : Address
  value : Option ℤ := none
  gasLimit : ℕ
  gasPrice : Option ℕ := none
  creationBlockNumber : ℕ

def SendTransactionDetails.txToSign (details : SendTransactionDetails)
    (providerGasPrice nonce : ℕ) : PopulatedTransaction where
  toAddress := some details.destination
  data := details.method
  value := some (details.value.getD 0)
  gasLimit := some details.gasLimit
  gasPrice := some (details.gasPrice.getD providerGasPrice)
  nonce := some nonce

def SendTransactionDetails.storedTx (details : SendTransactionDetails)
    (txToSign : PopulatedTransaction) (txHash : Hash) : StoredTransaction :=
  createStoredTransaction txToSign {
    txId := txHash
    fromAddress := details.signer
    attempts := 1
    serverAction := details.serverAction
    creationBlockNumber := details.creationBlockNumber }

def resolveNonce (nonces : Address → ℕ) (signer : Address) (pending : ℕ) :
    ℕ × (Address → ℕ) :=
  if pending < nonces signer then (nonces signer, nonces)
  else (pending, Function.update nonces signer pending)

def pollNonce (provider : Provider) (signer : Address) : ManagerM ℕ := do
  let nonce ← await (provider.getPendingTransactionCount signer)
  let manager ← get
  let (nonce, nonces) := resolveNonce manager.nonces signer nonce
  set { manager with nonces }
  return nonce

def storeTx (tx : StoredTransaction) (updateExisting : Bool) : ManagerM Unit := do
  let manager ← get
  let txStore ← await (putTx manager.txStore tx updateExisting)
  set { manager with txStore }

def notManaged (address : Address) : String :=
  "Can't sign: signer=" ++ address ++ " is not managed"

def invalidArrayifyValue : String := "invalid arrayify value"

/-- What the key manager answers; a wallet cannot serialize a negative value. -/
def ServerDependencies.signatureOf (dependencies : ServerDependencies) (keyManager : KeyManager)
    (address : Address) (utx : PopulatedTransaction) : Except String SignedTransactionDetails :=
  if !keyManager.isSigner address then .error (notManaged address)
  else if utx.value.any (· < 0) then .error invalidArrayifyValue
  else
    match dependencies.walletRefuses utx.toAddress utx.data with
    | some e => .error e
    | none =>
        let signedTx := SignedTransaction.ofPopulated address utx
        .ok { txHash := dependencies.keccak256 signedTx, signedTx }

def signTransaction (dependencies : ServerDependencies) (keyManager : KeyManager)
    (address : Address) (utx : PopulatedTransaction) : ManagerM SignedTransactionDetails := do
  let signedTransaction ← await (dependencies.signatureOf keyManager address utx)
  modify fun manager => { manager with signed := manager.signed ++ [signedTransaction.signedTx] }
  return signedTransaction

def ServerDependencies.keyManagerOf (dependencies : ServerDependencies) (signer : Address) :
    KeyManager :=
  if dependencies.managerKeyManager.isSigner signer then dependencies.managerKeyManager
  else dependencies.workersKeyManager

def txHashMismatch (receiptHash txId : Hash) : String :=
  "txhash mismatch: from receipt: " ++ receiptHash ++ " from txstore:" ++ txId

def broadcastTransaction (provider : Provider) (signedTransaction : SignedTransactionDetails)
    (txId : Hash) : ManagerM SignedTransactionDetails := do
  let hash ← await (provider.sendTransaction signedTransaction.signedTx)
  modify fun manager =>
    { manager with broadcast := manager.broadcast ++ [signedTransaction.signedTx] }
  if toLowerCase hash ≠ toLowerCase txId then throw (txHashMismatch hash txId)
  return signedTransaction

def sendTransaction (dependencies : ServerDependencies) (provider : Provider)
    (details : SendTransactionDetails) : ManagerM SignedTransactionDetails := do
  let providerGasPrice ← await provider.getGasPrice
  let nonce ← pollNonce provider details.signer
  let txToSign := details.txToSign providerGasPrice nonce
  let signedTransaction ← signTransaction dependencies (dependencies.keyManagerOf details.signer)
    details.signer txToSign
  let storedTx := details.storedTx txToSign signedTransaction.txHash
  modify fun manager => { manager with
    nonces := Function.update manager.nonces details.signer (manager.nonces details.signer + 1) }
  storeTx storedTx false
  broadcastTransaction provider signedTransaction storedTx.txId

def updateTransactionWithMinedBlock (tx : StoredTransaction) (minedBlockNumber : ℕ) :
    ManagerM Unit :=
  storeTx { tx with minedBlockNumber := some minedBlockNumber } true

/-- What a boost of the entry signs: the record has no value. -/
def StoredTransaction.txToResend (tx : StoredTransaction) (newGasPrice : ℕ) :
    PopulatedTransaction where
  toAddress := tx.toAddress
  gasLimit := tx.gasLimit
  gasPrice := some newGasPrice
  data := tx.data
  nonce := tx.nonce
  value := none

def StoredTransaction.withAttempt (tx : StoredTransaction) (txId : Hash)
    (txToSign : PopulatedTransaction) (currentBlock : ℕ) : StoredTransaction :=
  createStoredTransaction txToSign {
    txId
    attempts := tx.attempts + 1
    boostBlockNumber := some currentBlock
    fromAddress := tx.fromAddress
    serverAction := tx.serverAction
    creationBlockNumber := tx.creationBlockNumber
    minedBlockNumber := tx.minedBlockNumber }

def updateTransactionWithAttempt (txId : Hash) (txToSign : PopulatedTransaction)
    (tx : StoredTransaction) (currentBlock : ℕ) : ManagerM StoredTransaction := do
  let storedTx := tx.withAttempt txId txToSign currentBlock
  storeTx storedTx true
  return storedTx

def numericOverflow : String := "overflow"

def invalidBigNumberString : String := "invalid BigNumber string"

/-- The log of a boost has the old price as a number, and `BigNumber.from` refuses numbers
from `Number.MAX_SAFE_INTEGER` on, and `NaN`. No price below that bound rounds up to it. -/
def printBoostedTransactionLog (gasPrice : Option ℕ) : Except String Unit :=
  match gasPrice with
  | none => .error invalidBigNumberString
  | some gasPrice => if maxSafeInteger ≤ gasPrice then .error numericOverflow else .ok ()

/-- The boost is logged once its record is written. -/
def resendTransaction (dependencies : ServerDependencies) (provider : Provider)
    (tx : StoredTransaction) (currentBlock : ℕ) (newGasPrice : ℕ) :
    ManagerM SignedTransactionDetails := do
  let txToSign := tx.txToResend newGasPrice
  let signedTransaction ← signTransaction dependencies (dependencies.keyManagerOf tx.fromAddress)
    tx.fromAddress txToSign
  let storedTx ← updateTransactionWithAttempt signedTransaction.txHash txToSign tx currentBlock
  await (printBoostedTransactionLog tx.gasPrice)
  let _ ← await (provider.getTransactionCount tx.fromAddress)
  broadcastTransaction provider signedTransaction storedTx.txId

def resolveNewGasPrice (config : BlockchainConfig) (oldGasPrice : Option ℕ) : ℕ × Bool :=
  let newGasPrice := (HalfUp.toInt (config.retryGasPriceFactor * (oldGasPrice.getD 0 : ℕ))).toNat
  if config.maxGasPrice < newGasPrice then (config.maxGasPrice, true) else (newGasPrice, false)

def isAwaited (config : BlockchainConfig) (oldestPendingTx : StoredTransaction) (nonce : ℕ)
    (currentBlockHeight : ℕ) : Bool :=
  oldestPendingTx.nonce.any (fun oldest => oldest ≠ 0 && oldest < nonce) ||
    decide ((currentBlockHeight : ℤ) -
        (oldestPendingTx.boostBlockNumber.getD oldestPendingTx.creationBlockNumber : ℕ) <
      config.pendingTransactionTimeoutBlocks)

def resendTransactions (dependencies : ServerDependencies) (provider : Provider)
    (currentBlock : ℕ) (newGasPrice : ℕ) :
    List StoredTransaction → ManagerM (List (Hash × SignedTransactionDetails))
  | [] => return []
  | transaction :: transactions => do
      let boosted ← resendTransaction dependencies provider transaction currentBlock newGasPrice
      let others ← resendTransactions dependencies provider currentBlock newGasPrice transactions
      return (transaction.txId, boosted) :: others

def boostUnderpricedPendingTransactionsForSigner (dependencies : ServerDependencies)
    (provider : Provider) (signer : Address) (currentBlockHeight : ℕ) :
    ManagerM (List (Hash × SignedTransactionDetails)) := do
  let manager ← get
  let sortedTxs := getAllBySigner manager.txStore signer
  match sortedTxs with
  | [] => return []
  | oldestPendingTx :: _ =>
      let nonce ← await (provider.getTransactionCount signer)
      if isAwaited dependencies.config oldestPendingTx nonce currentBlockHeight then return []
      let (newGasPrice, _) := resolveNewGasPrice dependencies.config oldestPendingTx.gasPrice
      let underpricedTransactions := sortedTxs.filter fun it => it.gasPrice.any (· < newGasPrice)
      resendTransactions dependencies provider currentBlockHeight newGasPrice
        underpricedTransactions

def shouldRecheck (config : BlockchainConfig) (blockNumber : ℕ) (transaction : StoredTransaction) :
    Bool :=
  transaction.minedBlockNumber.all fun mined =>
    config.confirmationsNeeded ≤ (blockNumber : ℤ) - mined

/-- The body of the loop of `removeConfirmedTransactions`. -/
def recheckTransaction (dependencies : ServerDependencies) (provider : Provider)
    (blockNumber : ℕ) (transaction : StoredTransaction) : ManagerM Unit := do
  if !shouldRecheck dependencies.config blockNumber transaction then return
  match ← await (provider.getTransaction transaction.txId) with
  | none => return
  | some receipt =>
      match receipt.blockNumber with
      | none => return
      | some minedBlockNumber =>
          let confirmations := (blockNumber : ℤ) - minedBlockNumber
          if some minedBlockNumber ≠ transaction.minedBlockNumber ∧
              confirmations < dependencies.config.confirmationsNeeded then
            updateTransactionWithMinedBlock transaction minedBlockNumber
          else
            modify fun manager => { manager with
              txStore := removeTxsUntilNonce manager.txStore receipt.fromAddress receipt.nonce }

def recheckTransactions (dependencies : ServerDependencies) (provider : Provider)
    (blockNumber : ℕ) : List StoredTransaction → ManagerM Unit
  | [] => return
  | transaction :: transactions => do
      recheckTransaction dependencies provider blockNumber transaction
      recheckTransactions dependencies provider blockNumber transactions

def removeConfirmedTransactions (dependencies : ServerDependencies) (provider : Provider)
    (blockNumber : ℕ) : ManagerM Unit := do
  let manager ← get
  recheckTransactions dependencies provider blockNumber (getAll manager.txStore)

theorem ServerDependencies.signatureOf_eq_ok_iff {dependencies : ServerDependencies}
    {keyManager : KeyManager} {address : Address} {utx : PopulatedTransaction}
    {details : SignedTransactionDetails} :
    dependencies.signatureOf keyManager address utx = .ok details ↔
      keyManager.isSigner address = true ∧ utx.value.any (· < 0) = false ∧
        dependencies.walletRefuses utx.toAddress utx.data = none ∧
        details = ⟨dependencies.keccak256 (.ofPopulated address utx), .ofPopulated address utx⟩ := by
  unfold signatureOf
  cases hmanaged : keyManager.isSigner address <;>
    cases hvalue : utx.value.any (· < 0) <;>
      cases hrefuses : dependencies.walletRefuses utx.toAddress utx.data <;>
        simp [eq_comm]

def TransactionManager.initial : TransactionManager := ⟨fun _ => 0, TxStore.empty, [], []⟩

/-- A call of the manager from outside, with the answers it gets. A stored
transaction is resent by its key. -/
inductive ManagerCall
  | sendTransaction (provider : Provider) (details : SendTransactionDetails)
  | pollNonce (provider : Provider) (signer : Address)
  | resendTransaction (provider : Provider) (signer : Address) (nonce : ℕ) (currentBlock : ℕ)
      (newGasPrice : ℕ)
  | boostUnderpricedPendingTransactionsForSigner (provider : Provider) (signer : Address)
      (currentBlockHeight : ℕ)
  | removeConfirmedTransactions (provider : Provider) (blockNumber : ℕ)

def resendStoredTransaction (dependencies : ServerDependencies) (provider : Provider)
    (signer : Address) (nonce : ℕ) (currentBlock : ℕ) (newGasPrice : ℕ) : ManagerM Unit := do
  let manager ← get
  match manager.txStore.find? (some nonce, toLowerCase signer) with
  | none => return
  | some tx =>
      let _ ← resendTransaction dependencies provider tx currentBlock newGasPrice
      return

def ManagerCall.program (dependencies : ServerDependencies) : ManagerCall → ManagerM Unit
  | .sendTransaction provider details =>
      Keeping.ignore (RifRelayServer.sendTransaction dependencies provider details)
  | .pollNonce provider signer => Keeping.ignore (RifRelayServer.pollNonce provider signer)
  | .resendTransaction provider signer nonce currentBlock newGasPrice =>
      resendStoredTransaction dependencies provider signer nonce currentBlock newGasPrice
  | .boostUnderpricedPendingTransactionsForSigner provider signer currentBlockHeight =>
      Keeping.ignore (RifRelayServer.boostUnderpricedPendingTransactionsForSigner dependencies provider
        signer currentBlockHeight)
  | .removeConfirmedTransactions provider blockNumber =>
      RifRelayServer.removeConfirmedTransactions dependencies provider blockNumber

/-- The manager after calls made one after another, each returning or throwing. -/
def runCalls (dependencies : ServerDependencies) (calls : List ManagerCall)
    (manager : TransactionManager) : TransactionManager :=
  Keeping.finalAll (calls.map (·.program dependencies)) manager

end RifRelayServer
