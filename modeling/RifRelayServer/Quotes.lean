import RifRelayServer.Lib.Failure
import RifRelayServer.Fees

/-!
# Quotes and the gas a request has to pay for

`estimateMaxPossibleGas` answers a client what a request will cost, in gas, in
tokens and in native wei. `getMaxPossibleGas` computes the same gas when the
request is executed, and `validateIfTokenAmountIsAcceptable` compares it with
the tokens the request offers.
-/

namespace RifRelayServer

structure RelayClient where
  serverSignatureRequired : String
  isDataEmpty : String → Bool
  validateInputTypes : HttpEnvelopingRequest → Except String Unit
  estimateRelayMaxPossibleGas : HttpEnvelopingRequest → Except String ℕ
  estimateRelayMaxPossibleGasNoSignature : EnvelopingRequest → Bool → Except String ℕ
  standardMaxPossibleGasEstimation : HttpEnvelopingRequest → Except String ℕ

structure RelayEstimation where
  gasPrice : ℕ
  estimation : ℤ
  requiredTokenAmount : ℤ
  requiredNativeAmount : ℤ
  exchangeRate : BigNumberJs

structure MaxPossibleGas where
  maxPossibleGas : ℤ
  maxPossibleGasWithFee : ℤ
  deriving DecidableEq

def insufficientTokenAmount : String :=
  "User agreed to spend lower than what the transaction may require"

/-- What `convertGasToTokenAndNative` answers, in the shape of the estimation it
is copied into. -/
def convertGasToTokenAndNative (services : Services) (relayRequest : EnvelopingRequest)
    (initialEstimation : ℤ) : Except String RelayEstimation := do
  let gasPrice := relayRequest.relayData.gasPrice
  let tokenContractAddress := relayRequest.request.tokenContract
  let initialEstimationInNative := initialEstimation * gasPrice
  if tokenContractAddress = addressZero then
    return {
      gasPrice
      estimation := initialEstimation
      requiredTokenAmount := initialEstimationInNative
      requiredNativeAmount := initialEstimationInNative
      exchangeRate := .finite 1 }
  else
    let token ← lookUpToken services tokenContractAddress
    let valueInToken ← convertGasToToken initialEstimation token gasPrice
    let valueInNative ← convertGasToNative initialEstimation gasPrice
    return {
      gasPrice
      estimation := initialEstimation
      requiredTokenAmount := valueInToken
      requiredNativeAmount := valueInNative
      exchangeRate := token.xRate.getD (.finite 0) }

/-- The gas before fees in `estimateMaxPossibleGas`. -/
def RelayClient.initialGasEstimation (client : RelayClient)
    (envelopingRequest : HttpEnvelopingRequest) : Except String ℕ :=
  let signature := envelopingRequest.metadata.signature
  if signature = client.serverSignatureRequired || client.isDataEmpty signature then
    client.estimateRelayMaxPossibleGasNoSignature envelopingRequest.relayRequest
      envelopingRequest.metadata.isCustom
  else client.estimateRelayMaxPossibleGas envelopingRequest

def estimateMaxPossibleGas (services : Services) (client : RelayClient) (appConfig : AppConfig)
    (envelopingRequest : HttpEnvelopingRequest) : Except String RelayEstimation := do
  client.validateInputTypes envelopingRequest
  let relayRequest := envelopingRequest.relayRequest
  let initialGasEstimation ← client.initialGasEstimation envelopingRequest
  let fee ← calculateFee services relayRequest initialGasEstimation appConfig
  let maxPossibleGas ← (fee.plus (.finite initialGasEstimation)).toBigNumber
  convertGasToTokenAndNative services relayRequest maxPossibleGas

def getMaxPossibleGas (services : Services) (client : RelayClient) (appConfig : AppConfig)
    (envelopingTransaction : HttpEnvelopingRequest) : Except String MaxPossibleGas := do
  let initialGasEstimation ← client.standardMaxPossibleGasEstimation envelopingTransaction
  let fee ← calculateFee services envelopingTransaction.relayRequest initialGasEstimation appConfig
  let feeInGas ← fee.toBigNumber
  return {
    maxPossibleGas := initialGasEstimation
    maxPossibleGasWithFee := initialGasEstimation + feeInGas }

def validateIfTokenAmountIsAcceptable (services : Services) (maxPossibleGas : ℤ)
    (envelopingTransaction : HttpEnvelopingRequest) (appConfig : AppConfig) :
    Except String Unit :=
  if isSponsorshipAllowed envelopingTransaction.relayRequest appConfig then .ok ()
  else do
    let request := envelopingTransaction.relayRequest.request
    let tokenAmountInGas ← convertTokenToGas services (.finite request.tokenAmount)
      request.tokenContract envelopingTransaction.relayRequest.relayData.gasPrice
    if tokenAmountInGas.isGreaterThanOrEqualTo (.finite maxPossibleGas) then return ()
    else throw insufficientTokenAmount

/-- The request with the quoted amount, under the metadata it is sent with. -/
def resubmit (envelopingRequest : HttpEnvelopingRequest) (tokenAmount : ℤ)
    (metadata : EnvelopingMetadata) : HttpEnvelopingRequest where
  relayRequest :=
    { envelopingRequest.relayRequest with
      request := { envelopingRequest.relayRequest.request with tokenAmount } }
  metadata := metadata

theorem calculateFee_resubmit (services : Services) (envelopingRequest : HttpEnvelopingRequest)
    (tokenAmount : ℤ) (metadata : EnvelopingMetadata) (gas : ℕ) (appConfig : AppConfig) :
    calculateFee services (resubmit envelopingRequest tokenAmount metadata).relayRequest gas
        appConfig =
      calculateFee services envelopingRequest.relayRequest gas appConfig :=
  rfl

end RifRelayServer
