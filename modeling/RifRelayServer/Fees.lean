import RifRelayServer.Requests

/-!
# Sponsorship and fees

The fee of a request is a fixed part in dollars plus either a fraction of the
amount it transfers or a fraction of its gas. Which of the two applies is read
off the function selector, and the amount off the rest of the calldata.
-/

namespace RifRelayServer

def transferHash : String := "a9059cbb"

def transferFromHash : String := "23b872dd"

def indexWhereValueStartsOnTransfer : ℕ := 74

def indexWhereValueStartsOnTransferFrom : ℕ := 138

def usDollarSymbol : String := "USD"

def valueIndexInData (methodHash : List Char) : Option ℕ :=
  if methodHash = transferHash.toList then some indexWhereValueStartsOnTransfer
  else if methodHash = transferFromHash.toList then some indexWhereValueStartsOnTransferFrom
  else none

def getMethodHashFromData (data : String) : List Char := (data.toList.drop 2).take 8

def isTransferOrTransferFrom (data : String) : Bool :=
  (valueIndexInData (getMethodHashFromData data)).isSome

/-- `BigNumberJs('0x' + digits)`. The library reads the digits as they stand
and, when they hold no lower-case letter, once more in lower case, so digits of
mixed case are not a number. Calldata holds no fractional point. -/
def BigNumberJs.ofHexDigits (digits : List Char) : BigNumberJs :=
  if digits = [] then .nan
  else
    match Hexadecimal.value digits with
    | some n => .finite n
    | none =>
        if digits.map Char.toUpper = digits then
          match Hexadecimal.value (digits.map Char.toLower) with
          | some n => .finite n
          | none => .nan
        else .nan

/-- The amount `calculateFeeFromTransfer` charges for: everything from the
index of the selector to the end of the calldata. -/
def valueInDecimal (data : String) : BigNumberJs :=
  .ofHexDigits (data.toList.drop ((valueIndexInData (getMethodHashFromData data)).getD 0))

def isSponsorshipAllowed (envelopingRequest : EnvelopingRequest) (config : AppConfig) : Bool :=
  !config.disableSponsoredTx ||
    config.sponsoredDestinations.contains envelopingRequest.request.toAddress

def tokenAmountInNative (services : Services) (tokenAmount : BigNumberJs)
    (tokenContract : Address) : Except String BigNumberJs :=
  if tokenContract = addressZero then .ok tokenAmount
  else do
    let token ← lookUpToken services tokenContract
    return toNativeWeiFrom { token with amount := some tokenAmount }

def convertTokenToGas (services : Services) (tokenAmount : BigNumberJs) (tokenContract : Address)
    (gasPrice : ℕ) : Except String BigNumberJs := do
  let tokenAmountInNative ← tokenAmountInNative services tokenAmount tokenContract
  return tokenAmountInNative.dividedBy (.finite gasPrice)

def calculateFixedUsdFee (services : Services) (envelopingRequest : EnvelopingRequest)
    (fixedUsdFee : ℚ) : Except String BigNumberJs := do
  let tokenContract := envelopingRequest.request.tokenContract
  let tokenInstance := services.erc20 tokenContract
  let symbol := if tokenContract = addressZero then "RBTC" else callERC20Symbol tokenInstance
  let precision := if tokenContract = addressZero then 18 else callERC20Decimals tokenInstance
  let exchangeRate ← services.getExchangeRate usDollarSymbol symbol
  let fixedFeeInToken := toPrecision (exchangeRate.multipliedBy (.finite fixedUsdFee)) (.up precision)
  convertTokenToGas services fixedFeeInToken tokenContract envelopingRequest.relayData.gasPrice

def calculateFeeFromTransfer (services : Services) (data : String) (transferFeePercentage : ℚ)
    (envelopingRequest : EnvelopingRequest) : Except String BigNumberJs :=
  if isTransferOrTransferFrom data then
    let feeInToken := (valueInDecimal data).multipliedBy (.finite transferFeePercentage)
    convertTokenToGas services feeInToken envelopingRequest.request.tokenContract
      envelopingRequest.relayData.gasPrice
  else .ok (.finite 0)

def calculateFeeFromGas (maxPossibleGas : ℕ) (feePercentage : ℚ) : BigNumberJs :=
  .finite (HalfUp.toInt (maxPossibleGas * feePercentage))

def isConfigured (percentage : Option ℚ) : Bool := percentage.any (0 ≤ ·)

/-- The fixed part of the fee. A missing setting and a zero are both skipped. -/
def fixedFee (services : Services) (relayRequest : EnvelopingRequest) :
    Option ℚ → Except String BigNumberJs
  | none => .ok (.finite 0)
  | some fixedUsdFee =>
      if fixedUsdFee = 0 then .ok (.finite 0)
      else calculateFixedUsdFee services relayRequest fixedUsdFee

def calculateFee (services : Services) (relayRequest : EnvelopingRequest) (maxPossibleGas : ℕ)
    (appConfig : AppConfig) : Except String BigNumberJs :=
  if isSponsorshipAllowed relayRequest appConfig then .ok (.finite 0)
  else do
    let fixedFee ← fixedFee services relayRequest appConfig.fixedUsdFee
    let data := relayRequest.request.data
    if isConfigured appConfig.transferFeePercentage && isTransferOrTransferFrom data then
      let transferFee ← calculateFeeFromTransfer services data
        (appConfig.transferFeePercentage.getD 0) relayRequest
      return fixedFee.plus transferFee
    else
      let gasFeePercentage := appConfig.gasFeePercentage.getD 0
      if gasFeePercentage = 0 then return fixedFee
      else return fixedFee.plus (calculateFeeFromGas maxPossibleGas gasFeePercentage)

end RifRelayServer
