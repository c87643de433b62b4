import RifRelayServer.Numbers
import Mathlib.Tactic.NormNum
import Mathlib.Tactic.Push

/-!
# Unit conversions

`toNativeWeiFrom` prices tokens in native wei and `convertGasToToken` quotes a
gas estimation in tokens. The two scale by powers of ten on their own, each
with the sign of its precision choosing between multiplying and dividing.
-/

namespace RifRelayServer

def rbtcChainDecimals : ℕ := 18

/-- A precision with its sign, as the number of zeroes to scale up or down by.
A negated zero is still negative for the library, so `down 0` is a value of its own. -/
inductive Precision
  | up (zeroes : ℕ)
  | down (zeroes : ℕ)
  deriving DecidableEq

def getPrecision (precision : ℕ) : ℤ := 10 ^ precision

def toPrecision (value : BigNumberJs) : Precision → BigNumberJs
  | .up zeroes => value.multipliedBy (.finite (getPrecision zeroes))
  | .down zeroes => value.dividedBy (.finite (getPrecision zeroes))

structure ExchangeToken where
  name : String
  symbol : String
  decimals : ℕ
  xRate : Option BigNumberJs := none
  amount : Option BigNumberJs := none

def isInvalidNumber (value : BigNumberJs) : Bool :=
  value.isNegative || value.isNaN || !value.isFinite

def toNativeWeiFrom (token : ExchangeToken) : BigNumberJs :=
  let bigAmount := token.amount.getD (.finite 0)
  let bigxRate := token.xRate.getD (.finite 0)
  if bigAmount.isZero || bigxRate.isZero then .finite 0
  else
    let amountAsFraction := toPrecision bigAmount (.down token.decimals)
    toPrecision (amountAsFraction.multipliedBy bigxRate) (.up rbtcChainDecimals)

/-- `RBTC_CHAIN_DECIMALS - decimals`. -/
def quotePrecision (decimals : ℕ) : Precision :=
  if decimals ≤ rbtcChainDecimals then .up (rbtcChainDecimals - decimals)
  else .down (decimals - rbtcChainDecimals)

def convertGasToToken (estimation : ℤ) (token : ExchangeToken) (gasPrice : ℤ) :
    Except String ℤ :=
  let bigEstimation := BigNumberJs.finite estimation
  let bigPrice := BigNumberJs.finite gasPrice
  let bigRate := token.xRate.getD (.finite 0)
  if isInvalidNumber bigEstimation || isInvalidNumber bigRate || isInvalidNumber bigPrice ||
      bigRate.isZero then .ok 0
  else
    let total := toPrecision (bigEstimation.multipliedBy bigPrice) (quotePrecision token.decimals)
    (total.dividedBy bigRate).toBigNumber

def convertGasToNative (estimation gasPrice : ℤ) : Except String ℤ :=
  let bigEstimation := BigNumberJs.finite estimation
  let bigPrice := BigNumberJs.finite gasPrice
  if isInvalidNumber bigEstimation || isInvalidNumber bigPrice then .ok 0
  else (bigEstimation.multipliedBy bigPrice).toBigNumber

@[simp] theorem getPrecision_cast (n : ℕ) : ((getPrecision n : ℤ) : ℚ) = 10 ^ n := by
  simp [getPrecision]

@[simp] theorem toPrecision_up (a : ℚ) (n : ℕ) :
    toPrecision (.finite a) (.up n) = .finite (a * 10 ^ n) := by
  simp [toPrecision]

@[simp] theorem toPrecision_down (a : ℚ) (n : ℕ) :
    toPrecision (.finite a) (.down n) = .finite (HalfUp.toPlaces 20 (a / 10 ^ n)) := by
  rw [toPrecision, getPrecision_cast, BigNumberJs.dividedBy_finite _ (by positivity)]
  rfl

@[simp] theorem isInvalidNumber_finite (a : ℚ) : isInvalidNumber (.finite a) = decide (a < 0) := by
  simp [isInvalidNumber, BigNumberJs.isNegative, BigNumberJs.isFinite]

end RifRelayServer
