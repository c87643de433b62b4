import RifRelayServer.QuoteAcceptance

/-!
# What an accepted payment is worth

The check prices a payment with two rounded divisions. The first rounds tokens of more
than 20 decimals only, the second the gas that the payment is worth; neither is off by
more than half a unit of the 20th place.
-/

namespace RifRelayServer

/-- What a request pays in. -/
inductive Currency
  | native
  | token (decimals : ℕ) (xRate : ℚ)

namespace Currency

def xRate : Currency → ℚ
  | native => 0
  | token _ xRate => xRate

/-- The exact value of an amount in native wei. -/
def value : Currency → ℚ → ℚ
  | native, amount => amount
  | token decimals xRate, amount => exactPrice decimals xRate amount

/-- The value that `convertTokenToGas` goes on with. -/
def roundedValue : Currency → ℚ → ℚ
  | native, amount => amount
  | token decimals xRate, amount =>
      HalfUp.toPlaces 20 (amount / 10 ^ decimals) * xRate * 10 ^ 18

/-- The currency of a token contract, when it can be looked up. -/
def IsOf (services : Services) (tokenContract : Address) : Currency → Prop
  | native => tokenContract = addressZero
  | token decimals xRate => tokenContract ≠ addressZero ∧ 0 ≤ xRate ∧
      ∃ token, lookUpToken services tokenContract = .ok token ∧ token.decimals = decimals ∧
        token.xRate = some (.finite xRate)

variable {currency : Currency} {services : Services} {tokenContract : Address} {amount : ℚ}

theorem IsOf.xRate_nonneg (h : currency.IsOf services tokenContract) : 0 ≤ currency.xRate := by
  cases currency with
  | native => exact le_rfl
  | token decimals xRate => exact h.2.1

theorem roundedValue_nonneg (hrate : 0 ≤ currency.xRate) (hamount : 0 ≤ amount) :
    0 ≤ currency.roundedValue amount := by
  cases currency with
  | native => exact hamount
  | token decimals xRate =>
      have hrate : 0 ≤ xRate := hrate
      have htokens : 0 ≤ HalfUp.toPlaces 20 (amount / 10 ^ decimals) :=
        HalfUp.toPlaces_nonneg (by positivity)
      rw [roundedValue]
      positivity

theorem roundedValue_le_roundedValue {more : ℚ} (hrate : 0 ≤ currency.xRate)
    (hamount : 0 ≤ amount) (hmore : amount ≤ more) :
    currency.roundedValue amount ≤ currency.roundedValue more := by
  cases currency with
  | native => exact hmore
  | token decimals xRate =>
      have hrate : 0 ≤ xRate := hrate
      have htokens : HalfUp.toPlaces 20 (amount / 10 ^ decimals) ≤
          HalfUp.toPlaces 20 (more / 10 ^ decimals) :=
        HalfUp.toPlaces_le_toPlaces (by positivity)
          (div_le_div_of_nonneg_right hmore (by positivity))
      rw [roundedValue, roundedValue]
      gcongr

/-- The rounding of the tokens is scaled up to wei with them. -/
theorem abs_roundedValue_sub_le (hrate : 0 ≤ currency.xRate) (amount : ℚ) :
    |currency.roundedValue amount - currency.value amount| ≤ currency.xRate / (2 * 10 ^ 2) := by
  cases currency with
  | native => simp [roundedValue, value, xRate]
  | token decimals xRate =>
      have hrate : 0 ≤ xRate := hrate
      have hscale : 0 ≤ xRate * 10 ^ 18 := by positivity
      have hvalue : exactPrice decimals xRate amount =
          amount / 10 ^ decimals * (xRate * 10 ^ 18) := by
        rw [exactPrice, zpow_sub₀ (by norm_num : (10 : ℚ) ≠ 0)]
        norm_num
        ring
      have herror := mul_le_mul_of_nonneg_right
        (HalfUp.abs_toPlaces_sub_le 20 (amount / 10 ^ decimals)) hscale
      calc
        |roundedValue (token decimals xRate) amount - exactPrice decimals xRate amount| =
            |HalfUp.toPlaces 20 (amount / 10 ^ decimals) - amount / 10 ^ decimals| *
              (xRate * 10 ^ 18) := by
          rw [roundedValue, hvalue, mul_assoc, ← sub_mul, abs_mul, abs_of_nonneg hscale]
        _ ≤ 1 / (2 * 10 ^ 20) * (xRate * 10 ^ 18) := herror
        _ = xRate / (2 * 10 ^ 2) := by ring

theorem tokenAmountInNative_eq (h : currency.IsOf services tokenContract) (amount : ℚ) :
    tokenAmountInNative services (.finite amount) tokenContract =
      .ok (.finite (currency.roundedValue amount)) := by
  cases currency with
  | native => exact if_pos h
  | token decimals xRate =>
      obtain ⟨hnative, -, token, htoken, rfl, hrate⟩ := h
      exact tokenAmountInNative_token hnative htoken hrate amount

theorem convertTokenToGas_eq (h : currency.IsOf services tokenContract) {gasPrice : ℕ}
    (hprice : 0 < gasPrice) (amount : ℚ) :
    convertTokenToGas services (.finite amount) tokenContract gasPrice =
      .ok (.finite (HalfUp.toPlaces 20 (currency.roundedValue amount / gasPrice))) := by
  have hp : (gasPrice : ℚ) ≠ 0 := by exact_mod_cast hprice.ne'
  rw [convertTokenToGas, tokenAmountInNative_eq h, Failure.ok_bind,
    BigNumberJs.dividedBy_finite _ hp]
  rfl

end Currency

namespace HttpEnvelopingRequest

abbrev tokenContract (envelopingTransaction : HttpEnvelopingRequest) : Address :=
  envelopingTransaction.relayRequest.request.tokenContract

abbrev tokenAmount (envelopingTransaction : HttpEnvelopingRequest) : ℤ :=
  envelopingTransaction.relayRequest.request.tokenAmount

abbrev gasPrice (envelopingTransaction : HttpEnvelopingRequest) : ℕ :=
  envelopingTransaction.relayRequest.relayData.gasPrice

end HttpEnvelopingRequest

/-- The request is let through the check. -/
def Accepts (services : Services) (appConfig : AppConfig) (maxPossibleGas : ℤ)
    (envelopingTransaction : HttpEnvelopingRequest) : Prop :=
  validateIfTokenAmountIsAcceptable services maxPossibleGas envelopingTransaction appConfig = .ok ()

/-- The request pays in the currency for the gas that it takes. -/
structure Pays (services : Services) (appConfig : AppConfig) (currency : Currency)
    (envelopingTransaction : HttpEnvelopingRequest) : Prop where
  not_sponsored : isSponsorshipAllowed envelopingTransaction.relayRequest appConfig = false
  isOf : currency.IsOf services envelopingTransaction.tokenContract
  gasPrice_pos : 0 < envelopingTransaction.gasPrice
  tokenAmount_nonneg : 0 ≤ envelopingTransaction.tokenAmount

section Accepts

variable {services : Services} {appConfig : AppConfig} {currency : Currency}
  {envelopingTransaction : HttpEnvelopingRequest}

/-- A payment is accepted from half a unit of the 20th place below the gas on. -/
theorem Pays.accepts_iff (h : Pays services appConfig currency envelopingTransaction)
    (maxPossibleGas : ℤ) :
    Accepts services appConfig maxPossibleGas envelopingTransaction ↔
      maxPossibleGas * envelopingTransaction.gasPrice -
          envelopingTransaction.gasPrice / (2 * 10 ^ 20) ≤
        currency.roundedValue envelopingTransaction.tokenAmount := by
  have hp : (0 : ℚ) < envelopingTransaction.gasPrice := by exact_mod_cast h.gasPrice_pos
  have hvalue : 0 ≤ currency.roundedValue envelopingTransaction.tokenAmount :=
    Currency.roundedValue_nonneg h.isOf.xRate_nonneg (by exact_mod_cast h.tokenAmount_nonneg)
  have hworth := Currency.convertTokenToGas_eq h.isOf h.gasPrice_pos
    envelopingTransaction.tokenAmount
  have hreaches := HalfUp.intCast_le_toPlaces_iff (k := 20) (div_nonneg hvalue hp.le) maxPossibleGas
  have hcost : ((maxPossibleGas : ℚ) - 1 / (2 * 10 ^ 20)) * envelopingTransaction.gasPrice =
      maxPossibleGas * envelopingTransaction.gasPrice -
        envelopingTransaction.gasPrice / (2 * 10 ^ 20) := by ring
  rw [le_div_iff₀ hp, hcost] at hreaches
  rw [Accepts, validateIfTokenAmountIsAcceptable_eq_ok_iff h.not_sponsored, ← hreaches]
  constructor
  · rintro ⟨worth, hconverted, hle⟩
    obtain rfl := Except.ok.inj (hworth.symm.trans hconverted)
    exact of_decide_eq_true hle
  · exact fun hle => ⟨_, hworth, decide_eq_true hle⟩

/-- The request paying more still pays in the same currency. -/
theorem Pays.resubmit (h : Pays services appConfig currency envelopingTransaction)
    {tokenAmount : ℤ} (hmore : envelopingTransaction.tokenAmount ≤ tokenAmount)
    (metadata : EnvelopingMetadata) :
    Pays services appConfig currency (resubmit envelopingTransaction tokenAmount metadata) where
  not_sponsored := h.not_sponsored
  isOf := h.isOf
  gasPrice_pos := h.gasPrice_pos
  tokenAmount_nonneg := h.tokenAmount_nonneg.trans hmore

/-- What is accepted pays for the gas up to the rounding, and what pays for it with the
rounding on top is accepted. A larger payment is accepted as well, and so is less gas. -/
theorem payment_accepted_within_rounding
    (h : Pays services appConfig currency envelopingTransaction) (maxPossibleGas : ℤ) :
    (Accepts services appConfig maxPossibleGas envelopingTransaction →
      maxPossibleGas * envelopingTransaction.gasPrice - envelopingTransaction.gasPrice / 10 ^ 20 -
          currency.xRate / 10 ^ 2 ≤ currency.value envelopingTransaction.tokenAmount) ∧
      (maxPossibleGas * envelopingTransaction.gasPrice + currency.xRate / 10 ^ 2 ≤
          currency.value envelopingTransaction.tokenAmount →
        Accepts services appConfig maxPossibleGas envelopingTransaction) ∧
      (∀ tokenAmount metadata, envelopingTransaction.tokenAmount ≤ tokenAmount →
        Accepts services appConfig maxPossibleGas envelopingTransaction →
        Accepts services appConfig maxPossibleGas
          (resubmit envelopingTransaction tokenAmount metadata)) ∧
      ∀ less ≤ maxPossibleGas,
        Accepts services appConfig maxPossibleGas envelopingTransaction →
        Accepts services appConfig less envelopingTransaction := by
  have hp : (0 : ℚ) < envelopingTransaction.gasPrice := by exact_mod_cast h.gasPrice_pos
  have hrate := h.isOf.xRate_nonneg
  have hamount : (0 : ℚ) ≤ envelopingTransaction.tokenAmount := by
    exact_mod_cast h.tokenAmount_nonneg
  obtain ⟨hbelow, habove⟩ := abs_le.mp
    (Currency.abs_roundedValue_sub_le hrate (envelopingTransaction.tokenAmount : ℚ))
  have hhalf : currency.xRate / (2 * 10 ^ 2) ≤ currency.xRate / 10 ^ 2 := by
    gcongr
    norm_num
  have hgas : (envelopingTransaction.gasPrice : ℚ) / (2 * 10 ^ 20) ≤
      envelopingTransaction.gasPrice / 10 ^ 20 := by
    gcongr
    norm_num
  refine ⟨fun haccepts => ?_, fun hpays => ?_, fun tokenAmount metadata hmore haccepts => ?_,
    fun less hless haccepts => ?_⟩
  · have hreaches := (h.accepts_iff maxPossibleGas).mp haccepts
    linarith
  · apply (h.accepts_iff maxPossibleGas).mpr
    have hunit : (0 : ℚ) < envelopingTransaction.gasPrice / (2 * 10 ^ 20) := by positivity
    linarith
  · apply ((h.resubmit hmore metadata).accepts_iff maxPossibleGas).mpr
    exact ((h.accepts_iff maxPossibleGas).mp haccepts).trans
      (Currency.roundedValue_le_roundedValue hrate hamount (by exact_mod_cast hmore))
  · have hreaches := (h.accepts_iff maxPossibleGas).mp haccepts
    have hcost : (less : ℚ) * envelopingTransaction.gasPrice ≤
        maxPossibleGas * envelopingTransaction.gasPrice :=
      mul_le_mul_of_nonneg_right (by exact_mod_cast hless) hp.le
    exact (h.accepts_iff less).mpr (by linarith)

end Accepts

/-- A request that offers 2.618 RIF for its gas. -/
def rifPayment : HttpEnvelopingRequest :=
  resubmit rifRequest 2618000000000000000 (rifMetadata "0x02")

theorem pays_rifPayment : Pays rifServices chargingConfig (.token 18 rifRate) rifPayment where
  not_sponsored := rfl
  isOf := ⟨by decide, by norm_num [rifRate], rifExchangeToken, rfl, rfl, rfl⟩
  gasPrice_pos := by decide
  tokenAmount_nonneg := by decide

theorem rif_payment_accepted_within_rounding :
    (Accepts rifServices chargingConfig 145000 rifPayment →
      (145000 : ℤ) * rifPayment.gasPrice - rifPayment.gasPrice / 10 ^ 20 -
          (Currency.token 18 rifRate).xRate / 10 ^ 2 ≤
        (Currency.token 18 rifRate).value rifPayment.tokenAmount) ∧
      ((145000 : ℤ) * rifPayment.gasPrice + (Currency.token 18 rifRate).xRate / 10 ^ 2 ≤
          (Currency.token 18 rifRate).value rifPayment.tokenAmount →
        Accepts rifServices chargingConfig 145000 rifPayment) ∧
      (∀ tokenAmount metadata, rifPayment.tokenAmount ≤ tokenAmount →
        Accepts rifServices chargingConfig 145000 rifPayment →
        Accepts rifServices chargingConfig 145000 (resubmit rifPayment tokenAmount metadata)) ∧
      ∀ less ≤ (145000 : ℤ),
        Accepts rifServices chargingConfig 145000 rifPayment →
        Accepts rifServices chargingConfig less rifPayment :=
  payment_accepted_within_rounding pays_rifPayment 145000

end RifRelayServer
