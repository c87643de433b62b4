import RifRelayServer.Lib.Rounding
import Mathlib.Data.Rat.Floor

/-!
# The numbers of the language and of two libraries

Amounts pass through two libraries. An ethers `BigNumber` is an integer, `ℤ`. A
`BigNumberJs` is a decimal, an infinity or not a number; only its division
rounds, to 20 decimal places and half up. Signed zeros are not kept apart: the
one place where the sign of a zero matters is modelled at `toPrecision`.
-/

namespace RifRelayServer

inductive JsNumber
  | finite (value : ℚ)
  | infinite (negative : Bool)
  | nan
  deriving DecidableEq

/-- `Number.MAX_SAFE_INTEGER` -/
def maxSafeInteger : ℕ := 2 ^ 53 - 1

/-- `nonce > Number(relayMaxNonce)`. -/
def JsNumber.isExceededBy : JsNumber → ℕ → Bool
  | finite value, nonce => value < nonce
  | infinite negative, _ => negative
  | nan, _ => false

inductive BigNumberJs
  | finite (value : ℚ)
  | infinite (negative : Bool)
  | nan
  deriving DecidableEq

namespace BigNumberJs

/-- `DECIMAL_PLACES`, at its default. -/
def decimalPlaces : ℕ := 20

def isZero (x : BigNumberJs) : Bool := x = finite 0

def isNegative : BigNumberJs → Bool
  | finite a => a < 0
  | infinite negative => negative
  | nan => false

def isNaN (x : BigNumberJs) : Bool := x = nan

def isFinite : BigNumberJs → Bool
  | finite _ => true
  | _ => false

def plus : BigNumberJs → BigNumberJs → BigNumberJs
  | finite a, finite b => finite (a + b)
  | infinite s, finite _ => infinite s
  | finite _, infinite t => infinite t
  | infinite s, infinite t => if s = t then infinite s else nan
  | _, _ => nan

def multipliedBy : BigNumberJs → BigNumberJs → BigNumberJs
  | finite a, finite b => finite (a * b)
  | infinite s, finite b => if b = 0 then nan else infinite (s ^^ (b < 0))
  | finite a, infinite t => if a = 0 then nan else infinite ((a < 0) ^^ t)
  | infinite s, infinite t => infinite (s ^^ t)
  | _, _ => nan

def dividedBy : BigNumberJs → BigNumberJs → BigNumberJs
  | finite a, finite b =>
      if b = 0 then (if a = 0 then nan else infinite (a < 0))
      else finite (HalfUp.toPlaces decimalPlaces (a / b))
  | finite _, infinite _ => finite 0
  | infinite s, finite b => infinite (s ^^ (b < 0))
  | _, _ => nan

def isGreaterThanOrEqualTo : BigNumberJs → BigNumberJs → Bool
  | finite a, finite b => b ≤ a
  | infinite s, finite _ => !s
  | finite _, infinite t => t
  | infinite s, infinite t => !s || t
  | _, _ => false

/-- `BigNumber.from(x.toFixed(0))`: ethers refuses the texts `NaN` and `Infinity`. -/
def toBigNumber : BigNumberJs → Except String ℤ
  | finite a => .ok (HalfUp.toInt a)
  | _ => .error "invalid BigNumber string"

@[simp] theorem plus_finite (a b : ℚ) : (finite a).plus (finite b) = finite (a + b) := rfl

@[simp] theorem multipliedBy_finite (a b : ℚ) :
    (finite a).multipliedBy (finite b) = finite (a * b) := rfl

theorem dividedBy_finite (a : ℚ) {b : ℚ} (hb : b ≠ 0) :
    (finite a).dividedBy (finite b) = finite (HalfUp.toPlaces decimalPlaces (a / b)) :=
  if_neg hb

@[simp] theorem isZero_finite (a : ℚ) : (finite a).isZero = decide (a = 0) := by
  simp [isZero]

@[simp] theorem isNaN_finite (a : ℚ) : (finite a).isNaN = false := rfl

@[simp] theorem toBigNumber_finite (a : ℚ) :
    (finite a).toBigNumber = .ok (HalfUp.toInt a) := rfl

end BigNumberJs

end RifRelayServer
