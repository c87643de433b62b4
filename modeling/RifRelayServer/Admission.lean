import RifRelayServer.Calls
import RifRelayServer.Expiration
import RifRelayServer.PaymentBounds
import RifRelayServer.TrustedVerifiers

/-!
# Admission of a request

What `createRelayTransaction` asks of a request before it sends a transaction for it. It
reads the gas price of the server in one place and polls a nonce; all that comes after
the poll rests on what other services answer to this request alone.
-/

namespace RifRelayServer

/-- A request with the fields that only admission reads. A relay request has a gas, a deploy
request an index in its place. -/
structure EnvelopingTransaction extends HttpEnvelopingRequest where
  isDeployRequest : Bool
  gas : BigNumberJs
  validUntilTime : JsNumber
  feesReceiver : Address
  callForwarder : Address
  callVerifier : Address

structure InternalCall where
  caller : Address
  toAddress : Address
  gasPrice : ℕ
  data : String

/-- What other services answer to one request. -/
structure RelayWorld where
  client : RelayClient
  services : Services
  connect : Address → Bool → Except String Unit
  verifyRelayedCall : Address → EnvelopingTransaction → Except String Unit
  estimateInternalCallGas : InternalCall → Except String ℕ
  populateTransaction : EnvelopingTransaction → Except String String
  maxPossibleGasVerification : String → ℕ → ℤ → Address → Except String ℕ
  getBlockNumber : Except String ℕ

structure AdmittingServer extends RelayServer where
  client : RelayClient
  appConfig : AppConfig
  contracts : ContractsConfig
  requestMinValidSeconds : ℚ≥0
  texts : ExponentTexts

namespace AdmittingServer

def feesReceiver (server : AdmittingServer) : Address :=
  if server.contracts.feesReceiver = addressZero then server.workerAddress
  else server.contracts.feesReceiver

def trustedVerifiers (server : AdmittingServer) : List Address :=
  initTrustedVerifiers server.contracts

end AdmittingServer

def relayNotReady : String := "relay not ready"

def wrongHubAddress (relayHubAddress relayHubAddressFromRequest : Address) : String :=
  "Wrong hub address.\nRelay server's hub address: " ++ relayHubAddress ++
    ", request's hub address: " ++ relayHubAddressFromRequest ++ "\n"

def wrongFeesReceiver (feesReceiver : Address) : String :=
  "Wrong fees receiver address: " ++ feesReceiver ++ "\n"

def unacceptableGasPrice (serverGasPrice gasPrice : ℕ) : String :=
  "Unacceptable gasPrice: relayServer's gasPrice:" ++ toString serverGasPrice ++
    " request's gasPrice: " ++ toString gasPrice

def unacceptableSignature : String :=
  "Unacceptable signature: it must be required and provided by the client"

/-- The checks of `validateInput` up to its await. -/
def validateInput (server : AdmittingServer) (gasPrice : ℕ)
    (envelopingRequest : EnvelopingTransaction) : Except String Unit :=
  let relayHubAddressFromRequest := envelopingRequest.metadata.relayHubAddress
  let feesReceiver := envelopingRequest.feesReceiver
  let gasPriceFromRequest := envelopingRequest.relayRequest.relayData.gasPrice
  if toLowerCase relayHubAddressFromRequest ≠ toLowerCase server.relayHubAddress then
    .error (wrongHubAddress server.relayHubAddress relayHubAddressFromRequest)
  else if toLowerCase feesReceiver ≠ toLowerCase server.feesReceiver then
    .error (wrongFeesReceiver feesReceiver)
  else if gasPriceFromRequest < gasPrice then
    .error (unacceptableGasPrice gasPrice gasPriceFromRequest)
  else .ok ()

/-- The checks of `validateInput` from the clock on. -/
def validateInputAt (server : AdmittingServer) (now : ℕ)
    (envelopingRequest : EnvelopingTransaction) : Except String Unit := do
  let signature := envelopingRequest.metadata.signature
  validateExpirationTime server.texts server.requestMinValidSeconds now
    envelopingRequest.validUntilTime
  if signature = server.client.serverSignatureRequired || server.client.isDataEmpty signature then
    throw unacceptableSignature

def invalidVerifier : String := "Invalid verifier"

def includes (text part : String) : Bool := part.toList <:+: text.toList

/-- The message of an error that connecting to a verifier throws. -/
def unknownVerifier (verifier : Address) (message : String) : String :=
  if includes message "Returned values aren't valid, did it run Out of Gas?" then
    "incompatible verifier contract: " ++ verifier
  else if includes message "no code at address" then
    "'non-existent verifier contract: " ++ verifier
  else "unknown verifier error: " ++ message

def verificationFailed (message : String) : String :=
  "Verification by verifier failed: " ++ message

def validateRequestWithVerifier (server : AdmittingServer) (world : RelayWorld)
    (envelopingTransaction : EnvelopingTransaction) : Except String Unit := do
  let verifier := envelopingTransaction.callVerifier
  if !isTrustedVerifier server.trustedVerifiers verifier then throw invalidVerifier
  (world.connect verifier envelopingTransaction.isDeployRequest).mapError (unknownVerifier verifier)
  (world.verifyRelayedCall server.workerAddress envelopingTransaction).mapError verificationFailed

/-- `MAX_ESTIMATED_GAS_DEVIATION`. -/
def maxEstimatedGasDeviation : ℚ := 1 / 5

def gasDeviates : String :=
  "Request payload's gas parameters deviate too much fom the estimated gas for this transaction"

def internalCall (envelopingTransaction : EnvelopingTransaction) : InternalCall where
  caller := envelopingTransaction.callForwarder
  toAddress := envelopingTransaction.relayRequest.request.toAddress
  gasPrice := envelopingTransaction.relayRequest.relayData.gasPrice
  data := envelopingTransaction.relayRequest.request.data

def validateIfGasAmountIsAcceptable (world : RelayWorld)
    (envelopingTransaction : EnvelopingTransaction) : Except String Unit :=
  if envelopingTransaction.isDeployRequest then .ok ()
  else do
    let estimatedDestinationGasCost ←
      world.estimateInternalCallGas (internalCall envelopingTransaction)
    let bigGasFromRequestMaxAgreed :=
      (BigNumberJs.finite (1 + maxEstimatedGasDeviation)).multipliedBy envelopingTransaction.gas
    let gasFromRequestMaxAgreed ← bigGasFromRequestMaxAgreed.toBigNumber
    if gasFromRequestMaxAgreed < estimatedDestinationGasCost then throw gasDeviates

structure RelayCall where
  method : String
  gasLimit : ℕ
  currentBlock : ℕ
  deriving DecidableEq

/-- From the nonce check of `createRelayTransaction` to its call of `sendTransaction`. -/
def prepareRelayCall (server : AdmittingServer) (world : RelayWorld)
    (envelopingTransaction : EnvelopingTransaction) : Except String RelayCall := do
  validateRequestWithVerifier server world envelopingTransaction
  validateIfGasAmountIsAcceptable world envelopingTransaction
  let { maxPossibleGas, maxPossibleGasWithFee } ← getMaxPossibleGas world.services world.client
    server.appConfig envelopingTransaction.toHttpEnvelopingRequest
  validateIfTokenAmountIsAcceptable world.services maxPossibleGasWithFee
    envelopingTransaction.toHttpEnvelopingRequest server.appConfig
  let method ← world.populateTransaction envelopingTransaction
  let gasLimit ← world.maxPossibleGasVerification method
    envelopingTransaction.relayRequest.relayData.gasPrice maxPossibleGas server.workerAddress
  let currentBlock ← world.getBlockNumber
  return { method, gasLimit, currentBlock }

section Checks

variable {server : AdmittingServer} {world : RelayWorld} {tx : EnvelopingTransaction}

/-- The request is for this server: its hub, its receiver of fees, and its gas price. -/
structure Addressed (server : AdmittingServer) (gasPrice : ℕ) (tx : EnvelopingTransaction) :
    Prop where
  hub : toLowerCase tx.metadata.relayHubAddress = toLowerCase server.relayHubAddress
  receiver : toLowerCase tx.feesReceiver = toLowerCase server.feesReceiver
  price : gasPrice ≤ tx.gasPrice

theorem addressed_of_validateInput {gasPrice : ℕ}
    (h : validateInput server gasPrice tx = .ok ()) : Addressed server gasPrice tx := by
  unfold validateInput at h
  dsimp only at h
  split at h
  · cases h
  next hhub =>
    split at h
    · cases h
    next hreceiver =>
      split at h
      · cases h
      next hprice => exact ⟨not_not.mp hhub, not_not.mp hreceiver, not_lt.mp hprice⟩

/-- The request is valid for long enough, and signed. -/
structure InTime (server : AdmittingServer) (now : ℕ) (tx : EnvelopingTransaction) : Prop where
  valid : validateExpirationTime server.texts server.requestMinValidSeconds now
    tx.validUntilTime = .ok ()
  client_signed : tx.metadata.signature ≠ server.client.serverSignatureRequired
  signed : server.client.isDataEmpty tx.metadata.signature = false

theorem inTime_of_validateInputAt {now : ℕ} (h : validateInputAt server now tx = .ok ()) :
    InTime server now tx := by
  obtain ⟨_, hvalid, h⟩ := Failure.bind_eq_ok_iff.mp h
  split at h
  · cases h
  next hsigned =>
    rw [Bool.or_eq_true, decide_eq_true_eq, not_or, Bool.not_eq_true] at hsigned
    exact ⟨hvalid, hsigned.1, hsigned.2⟩

theorem eq_ok_of_mapError {α : Type} {answer : Except String α} {message : String → String}
    {a : α} (h : answer.mapError message = .ok a) : answer = .ok a := by
  cases answer with
  | ok b => exact h
  | error e => cases h

theorem isTrustedVerifier_iff {verifier : Address} :
    isTrustedVerifier server.trustedVerifiers verifier = true ↔ server.contracts.Names verifier :=
  List.contains_iff_mem.trans mem_initTrustedVerifiers

theorem verified_of_validateRequestWithVerifier
    (h : validateRequestWithVerifier server world tx = .ok ()) :
    server.contracts.Names tx.callVerifier ∧
      world.verifyRelayedCall server.workerAddress tx = .ok () := by
  unfold validateRequestWithVerifier at h
  dsimp only at h
  split at h
  · cases h
  next htrusted =>
    obtain ⟨-, -, h⟩ := Failure.bind_eq_ok_iff.mp h
    rw [Bool.not_eq_true, Bool.not_eq_false'] at htrusted
    exact ⟨isTrustedVerifier_iff.mp htrusted, eq_ok_of_mapError h⟩

theorem finite_of_agreed {gas : BigNumberJs} {agreed : ℤ}
    (h : ((BigNumberJs.finite (1 + maxEstimatedGasDeviation)).multipliedBy gas).toBigNumber =
      .ok agreed) :
    ∃ g, gas = .finite g ∧ agreed = HalfUp.toInt ((1 + maxEstimatedGasDeviation) * g) := by
  cases gas with
  | finite g => exact ⟨g, rfl, (Except.ok.inj h).symm⟩
  | infinite negative =>
      rw [BigNumberJs.multipliedBy, if_neg (by norm_num [maxEstimatedGasDeviation])] at h
      cases h
  | nan => cases h

theorem gas_le_of_validateIfGasAmountIsAcceptable
    (h : validateIfGasAmountIsAcceptable world tx = .ok ())
    (hrelay : tx.isDeployRequest = false) :
    ∃ cost gas, world.estimateInternalCallGas (internalCall tx) = .ok cost ∧
      tx.gas = .finite gas ∧ (cost : ℚ) ≤ (1 + maxEstimatedGasDeviation) * gas + 1 / 2 := by
  rw [validateIfGasAmountIsAcceptable, if_neg (by simp [hrelay])] at h
  obtain ⟨cost, hcost, h⟩ := Failure.bind_eq_ok_iff.mp h
  obtain ⟨agreed, hagreed, h⟩ := Failure.bind_eq_ok_iff.mp h
  split at h
  · cases h
  next hle =>
    obtain ⟨gas, hgas, rfl⟩ := finite_of_agreed hagreed
    refine ⟨cost, gas, hcost, hgas, ?_⟩
    have hround := (abs_le.mp (HalfUp.abs_toInt_sub_le ((1 + maxEstimatedGasDeviation) * gas))).2
    have hcost : (cost : ℚ) ≤ HalfUp.toInt ((1 + maxEstimatedGasDeviation) * gas) := by
      exact_mod_cast not_lt.mp hle
    linarith

/-- What the server has checked and computed when it goes on to send a transaction. -/
structure Prepared (server : AdmittingServer) (world : RelayWorld) (tx : EnvelopingTransaction)
    (call : RelayCall) (maxGas : MaxPossibleGas) : Prop where
  trusted : server.contracts.Names tx.callVerifier
  verified : world.verifyRelayedCall server.workerAddress tx = .ok ()
  gas_le : tx.isDeployRequest = false →
    ∃ cost gas, world.estimateInternalCallGas (internalCall tx) = .ok cost ∧
      tx.gas = .finite gas ∧ (cost : ℚ) ≤ (1 + maxEstimatedGasDeviation) * gas + 1 / 2
  maxGas_eq : getMaxPossibleGas world.services world.client server.appConfig
    tx.toHttpEnvelopingRequest = .ok maxGas
  accepts : Accepts world.services server.appConfig maxGas.maxPossibleGasWithFee
    tx.toHttpEnvelopingRequest
  method_eq : world.populateTransaction tx = .ok call.method
  gasLimit_eq : world.maxPossibleGasVerification call.method tx.gasPrice maxGas.maxPossibleGas
    server.workerAddress = .ok call.gasLimit
  currentBlock_eq : world.getBlockNumber = .ok call.currentBlock

theorem prepared_of_prepareRelayCall {call : RelayCall}
    (h : prepareRelayCall server world tx = .ok call) :
    ∃ maxGas, Prepared server world tx call maxGas := by
  obtain ⟨_, hverifier, h⟩ := Failure.bind_eq_ok_iff.mp h
  obtain ⟨_, hgas, h⟩ := Failure.bind_eq_ok_iff.mp h
  obtain ⟨maxGas, hmaxGas, h⟩ := Failure.bind_eq_ok_iff.mp h
  obtain ⟨_, haccepts, h⟩ := Failure.bind_eq_ok_iff.mp h
  obtain ⟨method, hmethod, h⟩ := Failure.bind_eq_ok_iff.mp h
  obtain ⟨gasLimit, hgasLimit, h⟩ := Failure.bind_eq_ok_iff.mp h
  obtain ⟨currentBlock, hblock, h⟩ := Failure.bind_eq_ok_iff.mp h
  obtain rfl := Except.ok.inj h
  obtain ⟨htrusted, hverified⟩ := verified_of_validateRequestWithVerifier hverifier
  exact ⟨maxGas, htrusted, hverified, gas_le_of_validateIfGasAmountIsAcceptable hgas, hmaxGas,
    haccepts, hmethod, hgasLimit, hblock⟩

end Checks

end RifRelayServer
