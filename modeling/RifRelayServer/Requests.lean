import RifRelayServer.Lib.Hexadecimal
import RifRelayServer.Conversions

/-!
# Requests, the app configuration and the services a request is priced with
-/

namespace RifRelayServer

abbrev Address := String

def addressZero : Address := "0x0000000000000000000000000000000000000000"

structure RelayRequestBody where
  toAddress : Address
  data : String
  tokenContract : Address
  tokenAmount : ℤ
  deriving DecidableEq

structure EnvelopingRequestData where
  gasPrice : ℕ
  deriving DecidableEq

structure EnvelopingRequest where
  request : RelayRequestBody
  relayData : EnvelopingRequestData
  deriving DecidableEq

structure EnvelopingMetadata where
  relayHubAddress : Address
  relayMaxNonce : JsNumber
  signature : String
  isCustom : Bool

structure HttpEnvelopingRequest where
  relayRequest : EnvelopingRequest
  metadata : EnvelopingMetadata

/-- The fee settings. The numbers are optional in the schema. -/
structure AppConfig where
  disableSponsoredTx : Bool
  sponsoredDestinations : List Address
  fixedUsdFee : Option ℚ
  transferFeePercentage : Option ℚ
  gasFeePercentage : Option ℚ

def errorGasFeePercentageNegative : String := "Param gasFeePercentage can not be a negative value"

def errorFixedUsdFeeNegative : String := "Param fixedUsdFee can not be a negative value"

/-- The conditional validations, made after the schema has typed the settings. -/
def verifyServerConfiguration (config : AppConfig) : Except String Unit :=
  if config.disableSponsoredTx then
    if config.gasFeePercentage.any (· < 0) then .error errorGasFeePercentageNegative
    else if config.fixedUsdFee.any (· < 0) then .error errorFixedUsdFeeNegative
    else .ok ()
  else .ok ()

structure ERC20 where
  name : Except String String
  symbol : Except String String
  decimals : Except String ℕ

structure Services where
  erc20 : Address → ERC20
  getExchangeRate : String → String → Except String BigNumberJs

def callERC20OptionalMethod {α : Type} (answer : Except String α) (defaultValue : α) : α :=
  match answer with
  | .ok value => value
  | .error _ => defaultValue

def callERC20Symbol (tokenInstance : ERC20) : String :=
  callERC20OptionalMethod tokenInstance.symbol "ERC20"

def callERC20Decimals (tokenInstance : ERC20) : ℕ :=
  callERC20OptionalMethod tokenInstance.decimals 18

def targetCurrency : String := "RBTC"

def getXRateFor (services : Services) (symbol : String) : Except String BigNumberJs :=
  services.getExchangeRate symbol targetCurrency

/-- The token with its rate, as both conversions look it up. Only the name of
the token and the rate are not optional. -/
def lookUpToken (services : Services) (tokenContract : Address) :
    Except String ExchangeToken := do
  let tokenInstance := services.erc20 tokenContract
  let symbol := callERC20Symbol tokenInstance
  let decimals := callERC20Decimals tokenInstance
  let name ← tokenInstance.name
  let xRate ← getXRateFor services symbol
  return { name, symbol, decimals, xRate := some xRate }

/-- Requests that are equal but for the letter case of hexadecimal digits in
the calldata and the destination. -/
structure SpelledAlike (r₁ r₂ : EnvelopingRequest) : Prop where
  toAddress :
    Hexadecimal.SameDigits r₁.request.toAddress.toList r₂.request.toAddress.toList
  data : Hexadecimal.SameDigits r₁.request.data.toList r₂.request.data.toList
  tokenContract : r₁.request.tokenContract = r₂.request.tokenContract
  tokenAmount : r₁.request.tokenAmount = r₂.request.tokenAmount
  relayData : r₁.relayData = r₂.relayData

end RifRelayServer
