import RifRelayServer.Quotes
import RifRelayServer.UnitRoundTrip

/-!
# Whether a quote is accepted

A quote is rounded to whole token units, and the tokens are rounded once more
when they are priced. This module says for which requests the quoted amount
still pays for the gas it was quoted for.
-/

namespace RifRelayServer

namespace BigNumberJs

/-- No negative decimal. Nothing is said of infinities. -/
def Nonneg (x : BigNumberJs) : Prop := ∀ a, x = finite a → 0 ≤ a

theorem nonneg_finite {a : ℚ} (ha : 0 ≤ a) : (finite a).Nonneg := by
  rintro b ⟨⟩
  exact ha

theorem Nonneg.plus {x y : BigNumberJs} (hx : x.Nonneg) (hy : y.Nonneg) : (x.plus y).Nonneg := by
  rintro c hc
  cases x with
  | finite a =>
      cases y with
      | finite b =>
          cases hc
          exact add_nonneg (hx a rfl) (hy b rfl)
      | infinite t => cases hc
      | nan => cases hc
  | infinite s =>
      cases y with
      | infinite t => rw [BigNumberJs.plus] at hc; split at hc <;> cases hc
      | finite b => cases hc
      | nan => cases hc
  | nan => cases y <;> cases hc

theorem Nonneg.multipliedBy {x y : BigNumberJs} (hx : x.Nonneg) (hy : y.Nonneg) :
    (x.multipliedBy y).Nonneg := by
  rintro c hc
  cases x with
  | finite a =>
      cases y with
      | finite b =>
          cases hc
          exact mul_nonneg (hx a rfl) (hy b rfl)
      | infinite t => rw [BigNumberJs.multipliedBy] at hc; split at hc <;> cases hc
      | nan => cases hc
  | infinite s =>
      cases y with
      | finite b => rw [BigNumberJs.multipliedBy] at hc; split at hc <;> cases hc
      | infinite t => cases hc
      | nan => cases hc
  | nan => cases y <;> cases hc

theorem Nonneg.multipliedBy_finite {x : BigNumberJs} (hx : x.Nonneg) {b : ℚ} (hb : 0 ≤ b) :
    (x.multipliedBy (finite b)).Nonneg :=
  hx.multipliedBy (nonneg_finite hb)

theorem Nonneg.dividedBy_finite {x : BigNumberJs} (hx : x.Nonneg) {b : ℚ} (hb : 0 ≤ b) :
    (x.dividedBy (finite b)).Nonneg := by
  rintro c hc
  cases x with
  | finite a =>
      by_cases hzero : b = 0
      · rw [dividedBy, if_pos hzero] at hc
        split at hc <;> cases hc
      · rw [BigNumberJs.dividedBy_finite a hzero] at hc
        cases hc
        exact HalfUp.toPlaces_nonneg (div_nonneg (hx a rfl) hb)
  | infinite s => cases hc
  | nan => cases hc

end BigNumberJs

theorem nonneg_toPrecision {x : BigNumberJs} (hx : x.Nonneg) (precision : Precision) :
    (toPrecision x precision).Nonneg := by
  cases precision with
  | up zeroes => exact hx.multipliedBy_finite (by rw [getPrecision_cast]; positivity)
  | down zeroes => exact hx.dividedBy_finite (by rw [getPrecision_cast]; positivity)

def PositiveRates (services : Services) : Prop :=
  ∀ symbol target rate, services.getExchangeRate symbol target = .ok rate →
    ∃ x : ℚ, 0 < x ∧ rate = .finite x

/-- The rates that are looked up are no negative decimals. -/
def NonnegRates (services : Services) : Prop :=
  ∀ symbol target rate, services.getExchangeRate symbol target = .ok rate → rate.Nonneg

theorem PositiveRates.nonneg {services : Services} (hrates : PositiveRates services) :
    NonnegRates services := by
  intro symbol target rate hrate
  obtain ⟨x, hx, rfl⟩ := hrates symbol target rate hrate
  exact BigNumberJs.nonneg_finite hx.le

theorem exists_rate_of_lookUpToken {services : Services} {tokenContract : Address}
    {token : ExchangeToken} (h : lookUpToken services tokenContract = .ok token) :
    ∃ rate, services.getExchangeRate (callERC20Symbol (services.erc20 tokenContract))
        targetCurrency = .ok rate ∧ token.xRate = some rate := by
  simp only [lookUpToken, Failure.bind_eq_ok_iff] at h
  obtain ⟨name, -, rate, hrate, htoken⟩ := h
  cases htoken
  exact ⟨rate, hrate, rfl⟩

theorem lookUpToken_rate {services : Services} (hrates : PositiveRates services)
    {tokenContract : Address} {token : ExchangeToken}
    (h : lookUpToken services tokenContract = .ok token) :
    ∃ x : ℚ, 0 < x ∧ token.xRate = some (.finite x) := by
  obtain ⟨rate, hrate, htoken⟩ := exists_rate_of_lookUpToken h
  obtain ⟨x, hx, rfl⟩ := hrates _ _ _ hrate
  exact ⟨x, hx, htoken⟩

theorem nonneg_toNativeWeiFrom {token : ExchangeToken} {amount rate : BigNumberJs}
    (hamount : amount.Nonneg) (hnonneg : rate.Nonneg) (hrate : token.xRate = some rate) :
    (toNativeWeiFrom { token with amount := some amount }).Nonneg := by
  simp only [toNativeWeiFrom, hrate, Option.getD_some]
  split
  · exact BigNumberJs.nonneg_finite le_rfl
  · exact nonneg_toPrecision ((nonneg_toPrecision hamount _).multipliedBy hnonneg) _

theorem nonneg_convertTokenToGas {services : Services} (hrates : NonnegRates services)
    {amount : BigNumberJs} (hamount : amount.Nonneg) {tokenContract : Address} {gasPrice : ℕ}
    {fee : BigNumberJs} (h : convertTokenToGas services amount tokenContract gasPrice = .ok fee) :
    fee.Nonneg := by
  obtain ⟨native, hnative, hfee⟩ := Failure.bind_eq_ok_iff.mp h
  cases hfee
  refine BigNumberJs.Nonneg.dividedBy_finite ?_ gasPrice.cast_nonneg
  unfold tokenAmountInNative at hnative
  split at hnative
  · cases hnative
    exact hamount
  · obtain ⟨token, htoken, hnative⟩ := Failure.bind_eq_ok_iff.mp hnative
    obtain ⟨rate, hlookup, hrate⟩ := exists_rate_of_lookUpToken htoken
    cases hnative
    exact nonneg_toNativeWeiFrom hamount (hrates _ _ _ hlookup) hrate

theorem nonneg_valueInDecimal (data : String) : (valueInDecimal data).Nonneg := by
  intro a ha
  unfold valueInDecimal BigNumberJs.ofHexDigits at ha
  split at ha
  · cases ha
  · split at ha
    · cases ha
      positivity
    · split at ha
      · split at ha
        · cases ha
          positivity
        · cases ha
      · cases ha

theorem verified_nonneg {appConfig : AppConfig}
    (hconfig : verifyServerConfiguration appConfig = .ok ())
    (hdisabled : appConfig.disableSponsoredTx = true) :
    0 ≤ appConfig.gasFeePercentage.getD 0 ∧ 0 ≤ appConfig.fixedUsdFee.getD 0 := by
  simp only [verifyServerConfiguration, hdisabled, if_true] at hconfig
  split at hconfig
  · cases hconfig
  next hgas =>
  split at hconfig
  · cases hconfig
  next hfixed =>
  constructor
  · cases hg : appConfig.gasFeePercentage <;> simp_all
  · cases hf : appConfig.fixedUsdFee <;> simp_all

theorem disabled_of_not_sponsored {relayRequest : EnvelopingRequest} {appConfig : AppConfig}
    (h : isSponsorshipAllowed relayRequest appConfig = false) :
    appConfig.disableSponsoredTx = true := by
  simp only [isSponsorshipAllowed, Bool.or_eq_false_iff, Bool.not_eq_false'] at h
  exact h.1

theorem nonneg_fixedFee {services : Services} (hrates : NonnegRates services)
    {relayRequest : EnvelopingRequest} {fixedUsdFee : Option ℚ} (hfixed : 0 ≤ fixedUsdFee.getD 0)
    {fee : BigNumberJs} (h : fixedFee services relayRequest fixedUsdFee = .ok fee) :
    fee.Nonneg := by
  unfold fixedFee at h
  split at h
  · cases h
    exact BigNumberJs.nonneg_finite le_rfl
  · split at h
    · cases h
      exact BigNumberJs.nonneg_finite le_rfl
    · obtain ⟨rate, hrate, h⟩ := Failure.bind_eq_ok_iff.mp h
      refine nonneg_convertTokenToGas hrates (nonneg_toPrecision ?_ _) h
      exact (hrates _ _ _ hrate).multipliedBy_finite hfixed

theorem nonneg_calculateFeeFromTransfer {services : Services} (hrates : NonnegRates services)
    {data : String} {transferFeePercentage : ℚ} (hfee : 0 ≤ transferFeePercentage)
    {relayRequest : EnvelopingRequest} {fee : BigNumberJs}
    (h : calculateFeeFromTransfer services data transferFeePercentage relayRequest = .ok fee) :
    fee.Nonneg := by
  unfold calculateFeeFromTransfer at h
  split at h
  · exact nonneg_convertTokenToGas hrates ((nonneg_valueInDecimal data).multipliedBy_finite hfee) h
  · cases h
    exact BigNumberJs.nonneg_finite le_rfl

theorem nonneg_calculateFee {services : Services} (hrates : NonnegRates services)
    {relayRequest : EnvelopingRequest} {gas : ℕ} {appConfig : AppConfig}
    (hconfig : verifyServerConfiguration appConfig = .ok ()) {fee : BigNumberJs}
    (h : calculateFee services relayRequest gas appConfig = .ok fee) : fee.Nonneg := by
  unfold calculateFee at h
  split at h
  · cases h
    exact BigNumberJs.nonneg_finite le_rfl
  next hsponsor =>
  obtain ⟨hgas, hfixed⟩ := verified_nonneg hconfig
    (disabled_of_not_sponsored (by simpa using hsponsor))
  obtain ⟨fixed, hfixedFee, h⟩ := Failure.bind_eq_ok_iff.mp h
  have hfixedNonneg := nonneg_fixedFee hrates hfixed hfixedFee
  dsimp only at h
  split at h
  next hconfigured =>
    obtain ⟨transferFee, htransferFee, h⟩ := Failure.bind_eq_ok_iff.mp h
    cases h
    refine hfixedNonneg.plus (nonneg_calculateFeeFromTransfer hrates ?_ htransferFee)
    cases hp : appConfig.transferFeePercentage <;> simp_all [isConfigured]
  · split at h
    · cases h
      exact hfixedNonneg
    · cases h
      refine hfixedNonneg.plus (BigNumberJs.nonneg_finite ?_)
      exact_mod_cast HalfUp.toInt_nonneg (mul_nonneg gas.cast_nonneg hgas)

/-- What the quote of `gas` is worth in gas, as the acceptance check prices it. -/
def quoteInGas (decimals : ℕ) (xRate gas gasPrice : ℚ) : ℚ :=
  HalfUp.toPlaces 20
    (HalfUp.toPlaces 20 ((tokenQuote decimals xRate (gas * gasPrice) : ℚ) / 10 ^ decimals) *
      xRate * 10 ^ 18 / gasPrice)

/-- The gas whose quote covers it: none; below 18 decimals any that is quoted at
a token unit or more; and at 18 decimals what some number of token units, at
most half a unit above the cost, is worth. -/
def QuoteCovers (decimals : ℕ) (xRate gas gasPrice : ℚ) : Prop :=
  gas = 0 ∨
    (decimals < 18 ∧
      xRate * (1 - 1 / 10 ^ 20) ≤ 2 * (gas * gasPrice) * 10 ^ (18 - decimals)) ∨
    (decimals = 18 ∧ ∃ k : ℤ,
      (k : ℚ) ≤ gas * gasPrice / xRate + 1 / 2 + 1 / (2 * 10 ^ 20) ∧
        gas * gasPrice ≤ k * xRate + gasPrice / (2 * 10 ^ 20))

theorem le_quoteInGas_iff {decimals : ℕ} (hd : decimals ≤ 18) {xRate gasPrice : ℚ}
    (hrate : 0 < xRate) (hprice : 0 < gasPrice) {gas : ℤ} (hgas : 0 ≤ gas) :
    (gas : ℚ) ≤ quoteInGas decimals xRate gas gasPrice ↔
      gas * gasPrice ≤ tokenQuote decimals xRate (gas * gasPrice) *
        (xRate * 10 ^ (18 - decimals)) + gasPrice / (2 * 10 ^ 20) := by
  have hcost : (0 : ℚ) ≤ gas * gasPrice := mul_nonneg (by exact_mod_cast hgas) hprice.le
  have hquote : (0 : ℚ) ≤ tokenQuote decimals xRate (gas * gasPrice) := by
    exact_mod_cast tokenQuote_nonneg decimals hrate hcost
  have hscale : (10 : ℚ) ^ 18 = 10 ^ (18 - decimals) * 10 ^ decimals := by
    rw [← pow_add, Nat.sub_add_cancel hd]
  have hworth : (tokenQuote decimals xRate (gas * gasPrice) : ℚ) / 10 ^ decimals * xRate *
      10 ^ 18 = tokenQuote decimals xRate (gas * gasPrice) * (xRate * 10 ^ (18 - decimals)) := by
    rw [hscale]
    field_simp
  rw [quoteInGas, HalfUp.toPlaces_div_pow (by omega), hworth,
    HalfUp.intCast_le_toPlaces_iff (by positivity), le_div_iff₀ hprice]
  constructor <;> intro h <;> linarith

/-- A token of fewer decimals is quoted so far above its cost that a single
unit of the quote suffices. -/
theorem quote_covers_of_lt {decimals : ℕ} (hd : decimals < 18) {xRate cost : ℚ}
    (hrate : 0 < xRate) (hcost : 0 ≤ cost) (hone : 1 ≤ tokenQuote decimals xRate cost) :
    cost ≤ tokenQuote decimals xRate cost * (xRate * 10 ^ (18 - decimals)) := by
  have hs : (10 : ℚ) ≤ 10 ^ (18 - decimals) := le_self_pow₀ (by norm_num) (by omega)
  have hquote : (1 : ℚ) ≤ tokenQuote decimals xRate cost := by exact_mod_cast hone
  have hhigh := unroundedQuote_lt_add_half decimals hrate hcost
  rw [unroundedQuote, if_pos hd.le, div_lt_iff₀ hrate] at hhigh
  calc
    cost ≤ cost * 10 ^ (18 - decimals) := le_mul_of_one_le_right hcost (by linarith)
    _ ≤ (tokenQuote decimals xRate cost + 1 / 2 - 1 / (2 * 10 ^ 20)) * xRate := hhigh.le
    _ ≤ (tokenQuote decimals xRate cost * 10 ^ (18 - decimals)) * xRate := by
      apply mul_le_mul_of_nonneg_right _ hrate.le
      have hten : tokenQuote decimals xRate cost * 10 ≤
          (tokenQuote decimals xRate cost : ℚ) * 10 ^ (18 - decimals) :=
        mul_le_mul_of_nonneg_left hs (by linarith)
      linarith
    _ = tokenQuote decimals xRate cost * (xRate * 10 ^ (18 - decimals)) := by ring

theorem tokenQuote_le_four_mul (decimals : ℕ) {xRate cost : ℚ} (hrate : 0 < xRate)
    (hcost : 0 ≤ cost) :
    (tokenQuote decimals xRate cost : ℚ) ≤ 4 * unroundedQuote decimals xRate cost := by
  have hq := unroundedQuote_nonneg decimals hrate hcost
  have hplaces := HalfUp.toPlaces_le_two_mul 20 hq
  have hint := HalfUp.toInt_le_two_mul (HalfUp.toPlaces_nonneg (k := 20) hq)
  rw [tokenQuote]
  linarith

/-- A token of more decimals is quoted so far below its cost that not even the
four roundings on the way, each at most a doubling, make up for it. -/
theorem quoteInGas_lt_of_gt {decimals : ℕ} (hd : 18 < decimals) {xRate gas gasPrice : ℚ}
    (hrate : 0 < xRate) (hgas : 0 < gas) (hprice : 0 < gasPrice) :
    quoteInGas decimals xRate gas gasPrice < gas := by
  have hcost : 0 ≤ gas * gasPrice := by positivity
  obtain ⟨s, hs⟩ : ∃ s : ℚ, s = 10 ^ (decimals - 18) := ⟨_, rfl⟩
  have hten : 10 ≤ s := hs ▸ le_self_pow₀ (by norm_num) (by omega)
  have hspos : 0 < s := by linarith
  have hscale : (10 : ℚ) ^ decimals = s * 10 ^ 18 := by
    rw [hs, ← pow_add, Nat.sub_add_cancel hd.le]
  obtain ⟨t, ht⟩ : ∃ t : ℚ, t = tokenQuote decimals xRate (gas * gasPrice) := ⟨_, rfl⟩
  have htnonneg : 0 ≤ t := by
    rw [ht]
    exact_mod_cast tokenQuote_nonneg decimals hrate hcost
  have hquote : t * (xRate * s) ≤ 8 * (gas * gasPrice) := by
    have hfour := tokenQuote_le_four_mul decimals hrate hcost
    have hmul := unroundedQuote_mul_le hd hrate hcost
    rw [← ht] at hfour
    rw [← hs] at hmul
    have := mul_le_mul_of_nonneg_right hfour (mul_nonneg hrate.le hspos.le)
    linarith
  have hworth : t * xRate / s ≤ 8 * (gas * gasPrice) / 100 := by
    rw [div_le_div_iff₀ hspos (by norm_num)]
    have hsquare : t * xRate * (10 * 10) ≤ t * xRate * (s * s) :=
      mul_le_mul_of_nonneg_left (mul_le_mul hten hten (by norm_num) hspos.le) (by positivity)
    have hscaled := mul_le_mul_of_nonneg_right hquote hspos.le
    linarith
  have hinner := HalfUp.toPlaces_le_two_mul 20 (x := t / 10 ^ decimals) (by positivity)
  have hfraction : 2 * (t / 10 ^ decimals) * xRate * 10 ^ 18 = 2 * (t * xRate / s) := by
    rw [hscale]
    field_simp
  rw [quoteInGas, ← ht]
  calc
    _ ≤ 2 * (HalfUp.toPlaces 20 (t / 10 ^ decimals) * xRate * 10 ^ 18 / gasPrice) := by
      apply HalfUp.toPlaces_le_two_mul
      have := HalfUp.toPlaces_nonneg (k := 20) (x := t / 10 ^ decimals) (by positivity)
      positivity
    _ ≤ 2 * (2 * (t / 10 ^ decimals) * xRate * 10 ^ 18 / gasPrice) := by gcongr
    _ = 4 * (t * xRate / s) / gasPrice := by
      rw [hfraction]
      ring
    _ ≤ 4 * (8 * (gas * gasPrice) / 100) / gasPrice := by gcongr
    _ < gas := by
      rw [div_lt_iff₀ hprice]
      have : 0 < gas * gasPrice := mul_pos hgas hprice
      linarith

@[simp] theorem tokenQuote_zero (decimals : ℕ) (xRate : ℚ) : tokenQuote decimals xRate 0 = 0 := by
  simp [tokenQuote, unroundedQuote]

theorem le_quoteInGas_iff_covers (decimals : ℕ) {xRate gasPrice : ℚ} (hrate : 0 < xRate)
    (hprice : 0 < gasPrice) {gas : ℤ} (hgas : 0 ≤ gas) :
    (gas : ℚ) ≤ quoteInGas decimals xRate gas gasPrice ↔
      QuoteCovers decimals xRate gas gasPrice := by
  rcases hgas.eq_or_lt with rfl | hpos
  · simp [QuoteCovers, quoteInGas]
  have hgas' : (0 : ℚ) < gas := by exact_mod_cast hpos
  have hcost : (0 : ℚ) < gas * gasPrice := mul_pos hgas' hprice
  have htiny : (0 : ℚ) < gasPrice / (2 * 10 ^ 20) := by positivity
  rcases lt_trichotomy decimals 18 with hd | rfl | hd
  · have hone : 1 ≤ tokenQuote decimals xRate (gas * gasPrice) ↔
        xRate * (1 - 1 / 10 ^ 20) ≤ 2 * (gas * gasPrice) * 10 ^ (18 - decimals) := by
      rw [le_tokenQuote_iff decimals hrate hcost.le, unroundedQuote, if_pos hd.le, le_div_iff₀ hrate]
      push_cast
      constructor <;> intro h <;> linarith
    rw [le_quoteInGas_iff hd.le hrate hprice hgas, QuoteCovers]
    simp only [hgas'.ne', hd, hd.ne, true_and, false_and, or_false, false_or]
    rw [← hone]
    constructor
    · intro hcovers
      by_contra hnone
      have hzero : tokenQuote decimals xRate (gas * gasPrice) = 0 := by
        have := tokenQuote_nonneg decimals hrate hcost.le
        omega
      rw [hzero, Int.cast_zero, zero_mul, zero_add, le_div_iff₀ (by norm_num)] at hcovers
      have hgasone : (1 : ℚ) ≤ gas := by exact_mod_cast hpos
      have := mul_le_mul_of_nonneg_right hgasone hprice.le
      linarith
    · intro hquoted
      have := quote_covers_of_lt hd hrate hcost.le hquoted
      linarith
  · have hk : ∀ k : ℤ, k ≤ tokenQuote 18 xRate (gas * gasPrice) ↔
        (k : ℚ) ≤ gas * gasPrice / xRate + 1 / 2 + 1 / (2 * 10 ^ 20) := by
      intro k
      rw [le_tokenQuote_iff 18 hrate hcost.le, unroundedQuote, if_pos le_rfl, Nat.sub_self, pow_zero,
        mul_one]
      constructor <;> intro h <;> linarith
    rw [le_quoteInGas_iff le_rfl hrate hprice hgas, QuoteCovers]
    simp only [hgas'.ne', lt_irrefl, false_and, true_and, false_or, Nat.sub_self, pow_zero,
      mul_one, ← hk]
    constructor
    · intro hcovers
      exact ⟨_, le_rfl, hcovers⟩
    · rintro ⟨k, hle, hcovers⟩
      have hle' : (k : ℚ) ≤ tokenQuote 18 xRate (gas * gasPrice) := by exact_mod_cast hle
      have := mul_le_mul_of_nonneg_right hle' hrate.le
      linarith
  · have hlt := quoteInGas_lt_of_gt hd hrate hgas' hprice
    simp [QuoteCovers, hgas'.ne', hd.not_gt, hd.ne', hlt.not_ge]

/-- Rounding after the fee is added is rounding before: the gas is whole. -/
theorem getMaxPossibleGas_of_estimate {services : Services} {client : RelayClient}
    {appConfig : AppConfig} {envelopingRequest : HttpEnvelopingRequest}
    {estimation : RelayEstimation} (hrates : PositiveRates services)
    (hconfig : verifyServerConfiguration appConfig = .ok ())
    (hquote : estimateMaxPossibleGas services client appConfig envelopingRequest = .ok estimation)
    {tokenAmount : ℤ} {metadata : EnvelopingMetadata}
    (hgas : client.standardMaxPossibleGasEstimation
        (resubmit envelopingRequest tokenAmount metadata) =
      client.initialGasEstimation envelopingRequest) :
    ∃ gas, getMaxPossibleGas services client appConfig
          (resubmit envelopingRequest tokenAmount metadata) = .ok gas ∧
      0 ≤ gas.maxPossibleGasWithFee ∧
      convertGasToTokenAndNative services envelopingRequest.relayRequest
        gas.maxPossibleGasWithFee = .ok estimation := by
  obtain ⟨-, -, hquote⟩ := Failure.bind_eq_ok_iff.mp hquote
  obtain ⟨initial, hinitial, hquote⟩ := Failure.bind_eq_ok_iff.mp hquote
  obtain ⟨fee, hfee, hquote⟩ := Failure.bind_eq_ok_iff.mp hquote
  obtain ⟨total, htotal, hconvert⟩ := Failure.bind_eq_ok_iff.mp hquote
  obtain ⟨a, rfl⟩ : ∃ a, fee = .finite a := by
    cases fee with
    | finite a => exact ⟨a, rfl⟩
    | infinite s => cases htotal
    | nan => cases htotal
  have ha : 0 ≤ a := nonneg_calculateFee hrates.nonneg hconfig hfee a rfl
  rw [BigNumberJs.plus_finite, BigNumberJs.toBigNumber_finite, HalfUp.toInt_add_natCast ha] at htotal
  obtain rfl := Except.ok.inj htotal
  refine ⟨⟨initial, initial + HalfUp.toInt a⟩, ?_, ?_, ?_⟩
  · simp only [getMaxPossibleGas, hgas, hinitial, calculateFee_resubmit, Failure.ok_bind, hfee,
      BigNumberJs.toBigNumber_finite]
    rfl
  · exact add_nonneg initial.cast_nonneg (HalfUp.toInt_nonneg ha)
  · rwa [add_comm]

theorem validateIfTokenAmountIsAcceptable_eq_ok_iff {services : Services} {maxPossibleGas : ℤ}
    {envelopingTransaction : HttpEnvelopingRequest} {appConfig : AppConfig}
    (hsponsor : isSponsorshipAllowed envelopingTransaction.relayRequest appConfig = false) :
    validateIfTokenAmountIsAcceptable services maxPossibleGas envelopingTransaction appConfig =
        .ok () ↔
      ∃ worth, convertTokenToGas services
            (.finite envelopingTransaction.relayRequest.request.tokenAmount)
            envelopingTransaction.relayRequest.request.tokenContract
            envelopingTransaction.relayRequest.relayData.gasPrice = .ok worth ∧
        worth.isGreaterThanOrEqualTo (.finite maxPossibleGas) = true := by
  rw [validateIfTokenAmountIsAcceptable, hsponsor, if_neg (by decide), Failure.bind_eq_ok_iff]
  refine exists_congr fun worth => and_congr_right fun _ => ?_
  split
  next h => simp [h, pure, Except.pure]
  next h => simp [h, throw, throwThe, MonadExceptOf.throw]

theorem convertTokenToGas_native (services : Services) {gasPrice : ℕ} (hprice : 0 < gasPrice)
    (gas : ℤ) :
    convertTokenToGas services (.finite ((gas * gasPrice : ℤ) : ℚ)) addressZero gasPrice =
      .ok (.finite gas) := by
  have hp : (gasPrice : ℚ) ≠ 0 := by exact_mod_cast hprice.ne'
  simp only [convertTokenToGas, tokenAmountInNative, if_true, Failure.ok_bind,
    Failure.pure_eq_ok, BigNumberJs.dividedBy_finite _ hp]
  push_cast
  rw [mul_div_cancel_right₀ _ hp, HalfUp.toPlaces_intCast]

theorem tokenAmountInNative_token {services : Services} {tokenContract : Address}
    {token : ExchangeToken} {xRate : ℚ} (hnative : tokenContract ≠ addressZero)
    (htoken : lookUpToken services tokenContract = .ok token)
    (hrate : token.xRate = some (.finite xRate)) (amount : ℚ) :
    tokenAmountInNative services (.finite amount) tokenContract =
      .ok (.finite (HalfUp.toPlaces 20 (amount / 10 ^ token.decimals) * xRate * 10 ^ 18)) := by
  simp only [tokenAmountInNative, if_neg hnative, htoken, Failure.ok_bind, Failure.pure_eq_ok]
  rw [toNativeWeiFrom_eq (by exact hrate) rfl]

theorem convertTokenToGas_token {services : Services} {tokenContract : Address}
    {token : ExchangeToken} {xRate : ℚ} (hnative : tokenContract ≠ addressZero)
    (htoken : lookUpToken services tokenContract = .ok token)
    (hrate : token.xRate = some (.finite xRate)) {gasPrice : ℕ} (hprice : 0 < gasPrice)
    (amount : ℚ) :
    convertTokenToGas services (.finite amount) tokenContract gasPrice =
      .ok (.finite (HalfUp.toPlaces 20
        (HalfUp.toPlaces 20 (amount / 10 ^ token.decimals) * xRate * 10 ^ 18 / gasPrice))) := by
  have hp : (gasPrice : ℚ) ≠ 0 := by exact_mod_cast hprice.ne'
  rw [convertTokenToGas, tokenAmountInNative_token hnative htoken hrate, Failure.ok_bind,
    BigNumberJs.dividedBy_finite _ hp]
  rfl

theorem convertTokenToGas_quote {services : Services} {tokenContract : Address}
    {token : ExchangeToken} {xRate : ℚ} (hnative : tokenContract ≠ addressZero)
    (htoken : lookUpToken services tokenContract = .ok token)
    (hrate : token.xRate = some (.finite xRate)) {gasPrice : ℕ} (hprice : 0 < gasPrice) (gas : ℤ) :
    convertTokenToGas services
        (.finite (tokenQuote token.decimals xRate (gas * gasPrice) : ℚ)) tokenContract gasPrice =
      .ok (.finite (quoteInGas token.decimals xRate gas gasPrice)) :=
  convertTokenToGas_token hnative htoken hrate hprice _

/-- Whether the quote of a request covers the gas it has to pay for. The native
token always does. -/
def QuoteIsCovered (services : Services) (relayRequest : EnvelopingRequest) (gas : ℤ) : Prop :=
  relayRequest.request.tokenContract = addressZero ∨
    ∃ token xRate, lookUpToken services relayRequest.request.tokenContract = .ok token ∧
      token.xRate = some (.finite xRate) ∧
      QuoteCovers token.decimals xRate gas relayRequest.relayData.gasPrice

/-- A quoted amount is accepted when the request is resubmitted with it exactly
where the quote covers the gas. -/
theorem own_quote_accepted_iff {services : Services} {client : RelayClient}
    {appConfig : AppConfig} {envelopingRequest : HttpEnvelopingRequest}
    {metadata : EnvelopingMetadata} {estimation : RelayEstimation}
    (hconfig : verifyServerConfiguration appConfig = .ok ())
    (hsponsor : isSponsorshipAllowed envelopingRequest.relayRequest appConfig = false)
    (hprice : 0 < envelopingRequest.relayRequest.relayData.gasPrice)
    (hrates : PositiveRates services)
    (hquote : estimateMaxPossibleGas services client appConfig envelopingRequest = .ok estimation)
    (hgas : client.standardMaxPossibleGasEstimation
        (resubmit envelopingRequest estimation.requiredTokenAmount metadata) =
      client.initialGasEstimation envelopingRequest) :
    ∃ gas, getMaxPossibleGas services client appConfig
          (resubmit envelopingRequest estimation.requiredTokenAmount metadata) = .ok gas ∧
      (validateIfTokenAmountIsAcceptable services gas.maxPossibleGasWithFee
          (resubmit envelopingRequest estimation.requiredTokenAmount metadata) appConfig = .ok () ↔
        QuoteIsCovered services envelopingRequest.relayRequest gas.maxPossibleGasWithFee) := by
  obtain ⟨gas, hmax, hnonneg, hconvert⟩ := getMaxPossibleGas_of_estimate hrates hconfig hquote hgas
  refine ⟨gas, hmax, ?_⟩
  have hsponsor' : isSponsorshipAllowed (resubmit envelopingRequest
      estimation.requiredTokenAmount metadata).relayRequest appConfig = false := hsponsor
  rw [validateIfTokenAmountIsAcceptable_eq_ok_iff hsponsor']
  have hp : (0 : ℚ) < envelopingRequest.relayRequest.relayData.gasPrice := by exact_mod_cast hprice
  unfold convertGasToTokenAndNative at hconvert
  by_cases hnative : envelopingRequest.relayRequest.request.tokenContract = addressZero
  · rw [if_pos hnative] at hconvert
    cases hconvert
    have hworth := convertTokenToGas_native services hprice gas.maxPossibleGasWithFee
    rw [← hnative] at hworth
    exact iff_of_true ⟨_, hworth, by simp [BigNumberJs.isGreaterThanOrEqualTo]⟩ (Or.inl hnative)
  · rw [if_neg hnative] at hconvert
    obtain ⟨token, htoken, hconvert⟩ := Failure.bind_eq_ok_iff.mp hconvert
    obtain ⟨valueInToken, hvalue, hconvert⟩ := Failure.bind_eq_ok_iff.mp hconvert
    obtain ⟨valueInNative, -, hconvert⟩ := Failure.bind_eq_ok_iff.mp hconvert
    cases hconvert
    obtain ⟨x, hx, hrate⟩ := lookUpToken_rate hrates htoken
    rw [convertGasToToken_eq hnonneg (by positivity) hx hrate] at hvalue
    obtain rfl := Except.ok.inj hvalue
    have hworth := convertTokenToGas_quote hnative htoken hrate hprice
      gas.maxPossibleGasWithFee
    have hcovers := le_quoteInGas_iff_covers token.decimals hx hp hnonneg
    constructor
    · rintro ⟨worth, hconverted, hle⟩
      obtain rfl := Except.ok.inj (hworth.symm.trans hconverted)
      refine Or.inr ⟨token, x, htoken, hrate, hcovers.mp ?_⟩
      simpa [BigNumberJs.isGreaterThanOrEqualTo] using hle
    · rintro (hzero | ⟨token', x', htoken', hrate', hcovered⟩)
      · exact absurd hzero hnative
      · obtain rfl := Except.ok.inj (htoken.symm.trans htoken')
        obtain rfl := BigNumberJs.finite.inj (Option.some.inj (hrate.symm.trans hrate'))
        refine ⟨_, hworth, ?_⟩
        simpa [BigNumberJs.isGreaterThanOrEqualTo] using hcovers.mpr hcovered

def rifRate : ℚ := 332344907316948 / 10 ^ 20

def rifServices : Services where
  erc20 _ := ⟨.ok "tRif", .ok "RIF", .ok 18⟩
  getExchangeRate _ _ := .ok (.finite rifRate)

def rifExchangeToken : ExchangeToken := ⟨"tRif", "RIF", 18, some (.finite rifRate), none⟩

def chargingConfig : AppConfig := ⟨true, [], none, none, none⟩

def fixedGasClient (gas : ℕ) : RelayClient where
  serverSignatureRequired := "SERVER_SIGNATURE_REQUIRED"
  isDataEmpty signature := signature = "" || signature = "0x"
  validateInputTypes _ := .ok ()
  estimateRelayMaxPossibleGas _ := .ok gas
  estimateRelayMaxPossibleGasNoSignature _ _ := .ok gas
  standardMaxPossibleGasEstimation _ := .ok gas

def rifMetadata (signature : String) : EnvelopingMetadata where
  relayHubAddress := "0x66Fa9FEAfB8Db66Fe2160ca7aEAc7FC24e254387"
  relayMaxNonce := .finite 30
  signature := signature
  isCustom := false

def rifRequest : HttpEnvelopingRequest where
  relayRequest :=
    ⟨⟨"0xcd3b766ccdd6ae721141f452c550ca635964ce71", "0x",
      "0x19f64674d8a5b4e652319f5e239efd3bc969a1fe", 0⟩, ⟨60000000⟩⟩
  metadata := rifMetadata "0x01"

theorem rifServices_positive : PositiveRates rifServices := by
  rintro symbol target rate ⟨⟩
  exact ⟨rifRate, by norm_num [rifRate], rfl⟩

theorem estimateMaxPossibleGas_rif (gas : ℕ) :
    estimateMaxPossibleGas rifServices (fixedGasClient gas) chargingConfig rifRequest =
      .ok ⟨60000000, gas, tokenQuote 18 rifRate (gas * 60000000), gas * 60000000,
        .finite rifRate⟩ := by
  have htoken : lookUpToken rifServices rifRequest.relayRequest.request.tokenContract =
      .ok rifExchangeToken := rfl
  have hgas : (0 : ℤ) ≤ gas := Int.natCast_nonneg gas
  have hprice : (0 : ℤ) ≤ rifRequest.relayRequest.relayData.gasPrice := by decide
  have hvalue := convertGasToToken_eq hgas hprice (by norm_num [rifRate] : 0 < rifRate)
    (rfl : rifExchangeToken.xRate = _)
  have hfee : calculateFee rifServices rifRequest.relayRequest gas chargingConfig =
      .ok (.finite 0) := rfl
  have htotal : ((BigNumberJs.finite 0).plus (.finite gas)).toBigNumber = .ok (gas : ℤ) := by simp
  have hinitial : (fixedGasClient gas).initialGasEstimation rifRequest = .ok gas := rfl
  have hinput : (fixedGasClient gas).validateInputTypes rifRequest = .ok () := rfl
  simp only [estimateMaxPossibleGas, hinput, hinitial, Failure.ok_bind, hfee, htotal]
  rw [convertGasToTokenAndNative, if_neg (by decide), htoken, Failure.ok_bind, hvalue,
    Failure.ok_bind, convertGasToNative_eq hgas hprice]
  norm_num [rifRequest, rifExchangeToken]

theorem own_quote_accepted_rif :
    ∃ gas, getMaxPossibleGas rifServices (fixedGasClient 145000) chargingConfig
          (resubmit rifRequest (tokenQuote 18 rifRate ((145000 : ℕ) * 60000000)) (rifMetadata "0x02")) =
        .ok gas ∧
      (validateIfTokenAmountIsAcceptable rifServices gas.maxPossibleGasWithFee
          (resubmit rifRequest (tokenQuote 18 rifRate ((145000 : ℕ) * 60000000)) (rifMetadata "0x02"))
          chargingConfig = .ok () ↔
        QuoteIsCovered rifServices rifRequest.relayRequest gas.maxPossibleGasWithFee) :=
  own_quote_accepted_iff rfl rfl (by decide) rifServices_positive
    (estimateMaxPossibleGas_rif 145000) rfl

theorem quoteInGas_rif_lt :
    quoteInGas 18 rifRate (145001 : ℤ) (60000000 : ℕ) < (145001 : ℤ) := by
  have hrate : 0 < rifRate := by norm_num [rifRate]
  obtain ⟨t, ht⟩ : ∃ t, t = tokenQuote 18 rifRate ((145001 : ℤ) * (60000000 : ℕ)) := ⟨_, rfl⟩
  have hdown : t < 2617780446896692547 := by
    rw [← not_le, ht, le_tokenQuote_iff 18 hrate (by norm_num)]
    norm_num [unroundedQuote, rifRate]
  have hdown' : (t : ℚ) ≤ 2617780446896692546 := by
    exact_mod_cast Int.lt_add_one_iff.mp hdown
  rw [← not_le, le_quoteInGas_iff le_rfl hrate (by norm_num) (by decide), ← ht]
  have hworth := mul_le_mul_of_nonneg_right hdown' hrate.le
  norm_num [rifRate] at hworth ⊢
  linarith

theorem own_quote_refused :
    ¬ ∀ (services : Services) (client : RelayClient) (appConfig : AppConfig)
      (envelopingRequest : HttpEnvelopingRequest) (metadata : EnvelopingMetadata)
      (estimation : RelayEstimation),
      verifyServerConfiguration appConfig = .ok () →
      isSponsorshipAllowed envelopingRequest.relayRequest appConfig = false →
      0 < envelopingRequest.relayRequest.relayData.gasPrice → PositiveRates services →
      estimateMaxPossibleGas services client appConfig envelopingRequest = .ok estimation →
      client.standardMaxPossibleGasEstimation
          (resubmit envelopingRequest estimation.requiredTokenAmount metadata) =
        client.initialGasEstimation envelopingRequest →
      ∃ gas, getMaxPossibleGas services client appConfig
            (resubmit envelopingRequest estimation.requiredTokenAmount metadata) = .ok gas ∧
        validateIfTokenAmountIsAcceptable services gas.maxPossibleGasWithFee
          (resubmit envelopingRequest estimation.requiredTokenAmount metadata) appConfig =
          .ok () := by
  intro h
  have hrate : 0 < rifRate := by norm_num [rifRate]
  obtain ⟨gas, hmax, haccept⟩ := h rifServices (fixedGasClient 145001) chargingConfig rifRequest
    (rifMetadata "0x02") _ rfl rfl (by decide) rifServices_positive (estimateMaxPossibleGas_rif 145001) rfl
  have hgas : gas = ⟨145001, 145001⟩ := by
    have hmax' : Except.ok (⟨145001, 145001 + HalfUp.toInt (0 : ℚ)⟩ : MaxPossibleGas) =
        (Except.ok gas : Except String MaxPossibleGas) := hmax
    rw [HalfUp.toInt_zero] at hmax'
    exact (Except.ok.inj hmax').symm
  subst hgas
  obtain ⟨worth, hworth, hle⟩ := (validateIfTokenAmountIsAcceptable_eq_ok_iff rfl).mp haccept
  have htoken : lookUpToken rifServices rifRequest.relayRequest.request.tokenContract =
      .ok rifExchangeToken := rfl
  have hquote := convertTokenToGas_quote (by decide) htoken rfl
    (by decide : 0 < 60000000) 145001
  obtain rfl := Except.ok.inj (hquote.symm.trans hworth)
  exact quoteInGas_rif_lt.not_ge (of_decide_eq_true hle)

end RifRelayServer
