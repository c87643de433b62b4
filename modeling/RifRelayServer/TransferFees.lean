import RifRelayServer.PaymentBounds
import RifRelayServer.TransferAmounts

/-!
# Transfer fees and the token that pays

A transfer moves units of the token that is called, and its fee is a fraction of them. The
conversion to gas takes them for units of the token that pays, with the decimals and the rate
of that one. This module says exactly which payments are charged the fraction all the same.
-/

namespace RifRelayServer

namespace Currency

/-- A token without value. Its conversions are zero before they look at the amount. -/
def isWorthless : Currency → Bool
  | native => false
  | token _ xRate => xRate = 0

/-- The gas that an amount pays for. -/
def gasWorth (currency : Currency) (gasPrice : ℕ) (amount : ℚ) : BigNumberJs :=
  (BigNumberJs.finite (currency.roundedValue amount)).dividedBy (.finite gasPrice)

variable {currency : Currency} {services : Services} {tokenContract : Address} {gasPrice : ℕ}

theorem gasWorth_of_pos (hprice : 0 < gasPrice) (amount : ℚ) :
    currency.gasWorth gasPrice amount =
      .finite (HalfUp.toPlaces 20 (currency.roundedValue amount / gasPrice)) := by
  have hp : (gasPrice : ℚ) ≠ 0 := by exact_mod_cast hprice.ne'
  exact BigNumberJs.dividedBy_finite _ hp

/-- The gas of a fraction is the fraction of the value over the price, up to the rounding. -/
theorem abs_gasWorth_sub_le (hrate : 0 ≤ currency.xRate) (hprice : 0 < gasPrice)
    {amount fraction gas : ℚ} (hgas : currency.gasWorth gasPrice (amount * fraction) = .finite gas) :
    |gas - fraction * currency.value amount / gasPrice| ≤
      1 / (2 * 10 ^ 20) + currency.xRate / (2 * 10 ^ 2) / gasPrice := by
  have hp : (0 : ℚ) < gasPrice := by exact_mod_cast hprice
  have hvalue : currency.value (amount * fraction) = fraction * currency.value amount := by
    cases currency with
    | native => exact mul_comm _ _
    | token decimals xRate =>
        simp only [value, exactPrice]
        ring
  rw [gasWorth_of_pos hprice] at hgas
  obtain rfl := BigNumberJs.finite.inj hgas
  have hrounded := HalfUp.abs_toPlaces_sub_le 20
    (currency.roundedValue (amount * fraction) / (gasPrice : ℚ))
  have htokens := div_le_div_of_nonneg_right
    (abs_roundedValue_sub_le hrate (amount * fraction)) hp.le
  rw [hvalue, ← abs_of_pos hp, ← abs_div, sub_div, abs_of_pos hp] at htokens
  calc
    |HalfUp.toPlaces 20 (currency.roundedValue (amount * fraction) / gasPrice) -
          fraction * currency.value amount / gasPrice| ≤
        |HalfUp.toPlaces 20 (currency.roundedValue (amount * fraction) / gasPrice) -
            currency.roundedValue (amount * fraction) / gasPrice| +
          |currency.roundedValue (amount * fraction) / gasPrice -
            fraction * currency.value amount / gasPrice| := abs_sub_le _ _ _
    _ ≤ 1 / (2 * 10 ^ 20) + currency.xRate / (2 * 10 ^ 2) / gasPrice := add_le_add hrounded htokens

theorem convertTokenToGas_finite (h : currency.IsOf services tokenContract) (amount : ℚ) :
    convertTokenToGas services (.finite amount) tokenContract gasPrice =
      .ok (currency.gasWorth gasPrice amount) := by
  rw [convertTokenToGas, tokenAmountInNative_eq h]
  rfl

theorem convertTokenToGas_nan (h : currency.IsOf services tokenContract) (amount : ℚ) :
    convertTokenToGas services .nan tokenContract gasPrice =
      .ok (if currency.isWorthless then currency.gasWorth gasPrice amount else .nan) := by
  cases currency with
  | native =>
      have hnative : tokenContract = addressZero := h
      rw [hnative, convertTokenToGas_addressZero, BigNumberJs.nan_dividedBy]
      rfl
  | token decimals xRate =>
      obtain ⟨hnative, -, token, htoken, rfl, hrate⟩ := h
      simp only [convertTokenToGas, tokenAmountInNative, if_neg hnative, htoken, Failure.ok_bind,
        Failure.pure_eq_ok]
      by_cases hzero : xRate = 0
      · simp [toNativeWeiFrom, hrate, hzero, isWorthless, gasWorth, roundedValue]
      · simp [toNativeWeiFrom, hrate, hzero, isWorthless, toPrecision, BigNumberJs.isZero]

end Currency

namespace EnvelopingRequest

def payingIn (envelopingRequest : EnvelopingRequest) (tokenContract : Address) :
    EnvelopingRequest :=
  { envelopingRequest with request := { envelopingRequest.request with tokenContract } }

variable (envelopingRequest : EnvelopingRequest) (tokenContract : Address)

@[simp] theorem data_payingIn :
    (envelopingRequest.payingIn tokenContract).request.data = envelopingRequest.request.data := rfl

@[simp] theorem tokenContract_payingIn :
    (envelopingRequest.payingIn tokenContract).request.tokenContract = tokenContract := rfl

@[simp] theorem relayData_payingIn :
    (envelopingRequest.payingIn tokenContract).relayData = envelopingRequest.relayData := rfl

end EnvelopingRequest

/-- The transfer fee, as `calculateFee` asks for it. -/
def transferFee (services : Services) (transferFeePercentage : ℚ)
    (envelopingRequest : EnvelopingRequest) : Except String BigNumberJs :=
  calculateFeeFromTransfer services envelopingRequest.request.data transferFeePercentage
    envelopingRequest

/-- The fraction of an amount, converted as units of the token that is called. -/
def calledTokenFee (services : Services) (amount : ℕ) (transferFeePercentage : ℚ)
    (envelopingRequest : EnvelopingRequest) : Except String BigNumberJs :=
  convertTokenToGas services
    ((BigNumberJs.finite amount).multipliedBy (.finite transferFeePercentage))
    envelopingRequest.request.toAddress envelopingRequest.relayData.gasPrice

/-- The fraction of what is read comes to the gas in the currency that pays. Digits of mixed case
are read as no number, which only a token without value turns into gas, and a selector that is
not recognised is charged nothing. -/
structure ComesTo (method : TransferMethod) (data : String) (bytes : List ℕ)
    (transferFeePercentage : ℚ) (gasPrice : ℕ) (payment : Currency) (gas : BigNumberJs) :
    Prop where
  read : isLowerSelector data = true →
    inOneCase (amountDigits data) = true ∨ payment.isWorthless = true →
    payment.gasWorth gasPrice (method.amountToEnd bytes * transferFeePercentage) = gas
  unread : isLowerSelector data = true → inOneCase (amountDigits data) = false →
    payment.isWorthless = false → gas = .nan
  free : isLowerSelector data = false → gas = .finite 0

section transferFee

variable {services : Services} {method : TransferMethod} {bytes : List ℕ}
  {envelopingRequest : EnvelopingRequest} {payment other called : Currency}
  {paymentToken otherToken : Address}

/-- One payment is charged exactly the gas that its currency comes to. -/
theorem transferFee_eq_iff (call : method.IsCalledBy envelopingRequest.request.data bytes)
    (hpayment : payment.IsOf services paymentToken) (transferFeePercentage : ℚ)
    (gas : BigNumberJs) :
    transferFee services transferFeePercentage (envelopingRequest.payingIn paymentToken) =
        .ok gas ↔
      ComesTo method envelopingRequest.request.data bytes transferFeePercentage
        envelopingRequest.relayData.gasPrice payment gas := by
  rw [transferFee, EnvelopingRequest.data_payingIn, calculateFeeFromTransfer,
    EnvelopingRequest.tokenContract_payingIn, EnvelopingRequest.relayData_payingIn]
  by_cases hlower : isLowerSelector envelopingRequest.request.data = true
  · rw [if_pos (call.isTransferOrTransferFrom_iff.mpr hlower), call.valueInDecimal_eq hlower]
    by_cases hcase : inOneCase (amountDigits envelopingRequest.request.data) = true
    · rw [if_pos hcase, BigNumberJs.multipliedBy_finite,
        Currency.convertTokenToGas_finite hpayment, Except.ok.injEq]
      constructor
      · intro h
        exact ⟨fun _ _ => h, by simp [hcase], by simp [hlower]⟩
      · exact fun h => h.read hlower (Or.inl hcase)
    · rw [if_neg hcase, BigNumberJs.nan_multipliedBy, Currency.convertTokenToGas_nan hpayment
        (method.amountToEnd bytes * transferFeePercentage), Except.ok.injEq]
      by_cases hworthless : payment.isWorthless = true
      · rw [if_pos hworthless]
        constructor
        · intro h
          exact ⟨fun _ _ => h, by simp [hworthless], by simp [hlower]⟩
        · exact fun h => h.read hlower (Or.inr hworthless)
      · rw [if_neg hworthless]
        constructor
        · intro h
          exact ⟨by simp [hcase, hworthless], fun _ _ _ => h.symm, by simp [hlower]⟩
        · exact fun h => (h.unread hlower (by simpa using hcase) (by simpa using hworthless)).symm
  · rw [if_neg fun hrec => hlower (call.isTransferOrTransferFrom_iff.mp hrec), Except.ok.injEq]
    constructor
    · intro h
      exact ⟨fun hl => absurd hl hlower, fun hl => absurd hl hlower, fun _ => h.symm⟩
    · exact fun h => (h.free (by simpa using hlower)).symm

/-- A payment in the currency of the called token comes to the fraction of the amount, when the
amount is what is read. -/
theorem comesTo_gasWorth {data : String} (hlower : isLowerSelector data = true)
    (hcase : inOneCase (amountDigits data) = true)
    (hread : method.amountToEnd bytes = method.amount bytes) (transferFeePercentage : ℚ)
    (gasPrice : ℕ) (currency : Currency) :
    ComesTo method data bytes transferFeePercentage gasPrice currency
      (currency.gasWorth gasPrice (method.amount bytes * transferFeePercentage)) where
  read _ _ := by rw [hread]
  unread _ hmixed := by simp [hcase] at hmixed
  free hupper := by simp [hlower] at hupper

/-- Two requests that differ in the payment token are charged the fraction of the transferred
amount of the called token exactly when, for each of them, the fraction of what is read, taken
for units of the payment token, comes to the same gas. -/
theorem transferFees_eq_calledTokenFee_iff
    (call : method.IsCalledBy envelopingRequest.request.data bytes)
    (hcalled : called.IsOf services envelopingRequest.request.toAddress)
    (hpayment : payment.IsOf services paymentToken) (hother : other.IsOf services otherToken)
    (transferFeePercentage : ℚ) :
    (transferFee services transferFeePercentage (envelopingRequest.payingIn paymentToken) =
          calledTokenFee services (method.amount bytes) transferFeePercentage envelopingRequest ∧
        transferFee services transferFeePercentage (envelopingRequest.payingIn otherToken) =
          calledTokenFee services (method.amount bytes) transferFeePercentage envelopingRequest) ↔
      ∀ currency ∈ [payment, other],
        ComesTo method envelopingRequest.request.data bytes transferFeePercentage
          envelopingRequest.relayData.gasPrice currency
          (called.gasWorth envelopingRequest.relayData.gasPrice
            (method.amount bytes * transferFeePercentage)) := by
  have hfee : calledTokenFee services (method.amount bytes) transferFeePercentage
      envelopingRequest = .ok (called.gasWorth envelopingRequest.relayData.gasPrice
        (method.amount bytes * transferFeePercentage)) :=
    Currency.convertTokenToGas_finite hcalled _
  rw [hfee, transferFee_eq_iff call hpayment, transferFee_eq_iff call hother,
    List.forall_mem_cons, List.forall_mem_singleton]

end transferFee

/-- Pays for a transfer of 1000 units. -/
def transferRequest : EnvelopingRequest := nativeRequest tokenAddress lowerCaseTransfer

def otherTokenAddress : Address := "0x19f64674d8a5b4e652319f5e239efd3bc969a1fe"

theorem isOf_rif {tokenContract : Address} (h : tokenContract ≠ addressZero) :
    (Currency.token 18 rifRate).IsOf rifServices tokenContract :=
  ⟨h, by norm_num [rifRate], rifExchangeToken, rfl, rfl, rfl⟩

theorem isCalledBy_transferRequest :
    TransferMethod.transfer.IsCalledBy transferRequest.request.data transferBytes :=
  ⟨by decide +kernel, rfl, by decide⟩

theorem comesTo_transferRequest (currency : Currency) :
    ComesTo .transfer transferRequest.request.data transferBytes (1 / 10) 1 currency
      (currency.gasWorth 1 (TransferMethod.transfer.amount transferBytes * (1 / 10 : ℚ))) :=
  comesTo_gasWorth (by decide +kernel) (by decide +kernel) (by decide) _ _ _

theorem rif_transferFees_eq_calledTokenFee :
    transferFee rifServices (1 / 10) (transferRequest.payingIn tokenAddress) =
        calledTokenFee rifServices (TransferMethod.transfer.amount transferBytes) (1 / 10)
          transferRequest ∧
      transferFee rifServices (1 / 10) (transferRequest.payingIn otherTokenAddress) =
        calledTokenFee rifServices (TransferMethod.transfer.amount transferBytes) (1 / 10)
          transferRequest := by
  apply (transferFees_eq_calledTokenFee_iff isCalledBy_transferRequest
    (isOf_rif (by decide +kernel)) (isOf_rif (by decide +kernel)) (isOf_rif (by decide +kernel))
    _).mpr
  intro currency hcurrency
  have heq : currency = .token 18 rifRate := by simpa using hcurrency
  rw [heq]
  exact comesTo_transferRequest _

/-- A transfer of 1000 units with a fee of 10% is charged 100 gas when the native token pays, and
the fraction is worth less than one. -/
theorem native_transferFee_of_units :
    ¬ ∀ (services : Services) (method : TransferMethod) (bytes : List ℕ)
        (envelopingRequest : EnvelopingRequest) (called payment other : Currency)
        (paymentToken otherToken : Address) (transferFeePercentage : ℚ),
      method.IsCalledBy envelopingRequest.request.data bytes →
      called.IsOf services envelopingRequest.request.toAddress →
      payment.IsOf services paymentToken → other.IsOf services otherToken →
      0 < envelopingRequest.relayData.gasPrice → 0 ≤ transferFeePercentage →
      transferFee services transferFeePercentage (envelopingRequest.payingIn paymentToken) =
          calledTokenFee services (method.amount bytes) transferFeePercentage envelopingRequest ∧
        transferFee services transferFeePercentage (envelopingRequest.payingIn otherToken) =
          calledTokenFee services (method.amount bytes) transferFeePercentage envelopingRequest := by
  intro h
  have hrif : (Currency.token 18 rifRate).IsOf rifServices transferRequest.request.toAddress :=
    isOf_rif (by decide +kernel)
  have hnative : Currency.native.IsOf rifServices addressZero := rfl
  have hfee := (h rifServices .transfer transferBytes transferRequest _ _ _ _ _ (1 / 10)
    isCalledBy_transferRequest hrif hnative hrif (by decide) (by norm_num)).1
  rw [calledTokenFee, BigNumberJs.multipliedBy_finite,
    Currency.convertTokenToGas_finite hrif] at hfee
  have hread : TransferMethod.transfer.amountToEnd transferBytes = 1000 := by decide
  have hamount : TransferMethod.transfer.amount transferBytes = 1000 := by decide
  have hprice : transferRequest.relayData.gasPrice = 1 := rfl
  have hcomes := (transferFee_eq_iff isCalledBy_transferRequest hnative _ _).mp hfee
  have hworth := hcomes.read (by decide +kernel) (Or.inl (by decide +kernel))
  rw [hread, hamount, hprice, Currency.gasWorth_of_pos Nat.one_pos,
    Currency.gasWorth_of_pos Nat.one_pos, BigNumberJs.finite.injEq] at hworth
  have hunits : HalfUp.toPlaces 20 (100 : ℚ) = 100 :=
    HalfUp.toPlaces_of_exact (100 * 10 ^ 20) (by norm_num)
  have htokens : HalfUp.toPlaces 20 (100 / 10 ^ 18 : ℚ) = 100 / 10 ^ 18 :=
    HalfUp.toPlaces_of_exact (100 * 10 ^ 2) (by norm_num)
  have hgas : HalfUp.toPlaces 20 (100 * rifRate) = 100 * rifRate :=
    HalfUp.toPlaces_of_exact 33234490731694800 (by norm_num [rifRate])
  have hdue : Currency.roundedValue (.token 18 rifRate) 100 = 100 * rifRate := by
    rw [Currency.roundedValue, htokens]
    ring
  have htenth : ((1000 : ℕ) : ℚ) * (1 / 10) = 100 := by norm_num
  rw [htenth, Nat.cast_one, div_one, div_one, Currency.roundedValue, hunits, hdue, hgas] at hworth
  norm_num [rifRate] at hworth

end RifRelayServer
