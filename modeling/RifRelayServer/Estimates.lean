import RifRelayServer.QuoteAcceptance

/-!
# The gas estimated and the gas required

`estimateMaxPossibleGas` adds the fee to the gas and rounds the sum, and
`getMaxPossibleGas` rounds the fee and adds it. The gas is whole and no fee is
negative, so that both come to the same.
-/

namespace RifRelayServer

theorem exists_of_isInvalidNumber_eq_false {x : BigNumberJs} (h : isInvalidNumber x = false) :
    ∃ a, x = .finite a := by
  cases x with
  | finite a => exact ⟨a, rfl⟩
  | infinite s => cases s <;> cases h
  | nan => cases h

theorem exists_toPrecision_finite (a : ℚ) (precision : Precision) :
    ∃ b, toPrecision (.finite a) precision = .finite b := by
  cases precision with
  | up zeroes => exact ⟨_, toPrecision_up a zeroes⟩
  | down zeroes => exact ⟨_, toPrecision_down a zeroes⟩

/-- A rate that cannot be divided by makes the amount zero. -/
theorem exists_convertGasToToken (estimation : ℤ) (token : ExchangeToken) (gasPrice : ℤ) :
    ∃ amount, convertGasToToken estimation token gasPrice = .ok amount := by
  unfold convertGasToToken
  dsimp only
  split
  · exact ⟨0, rfl⟩
  next hvalid =>
    simp only [Bool.or_eq_true, not_or, Bool.not_eq_true] at hvalid
    obtain ⟨⟨⟨-, hrate⟩, -⟩, hzero⟩ := hvalid
    obtain ⟨rate, hfinite⟩ := exists_of_isInvalidNumber_eq_false hrate
    rw [hfinite, BigNumberJs.isZero_finite, decide_eq_false_iff_not] at hzero
    obtain ⟨total, htotal⟩ := exists_toPrecision_finite (estimation * gasPrice)
      (quotePrecision token.decimals)
    rw [hfinite, BigNumberJs.multipliedBy_finite, htotal, BigNumberJs.dividedBy_finite _ hzero]
    exact ⟨_, rfl⟩

theorem exists_convertGasToNative (estimation gasPrice : ℤ) :
    ∃ amount, convertGasToNative estimation gasPrice = .ok amount := by
  unfold convertGasToNative
  dsimp only
  split
  · exact ⟨0, rfl⟩
  · exact ⟨_, rfl⟩

/-- Once the token is looked up, the gas is converted, whatever the rate. -/
theorem exists_convertGasToTokenAndNative {services : Services} {relayRequest : EnvelopingRequest}
    (hlookup : relayRequest.request.tokenContract ≠ addressZero →
      ∃ token, lookUpToken services relayRequest.request.tokenContract = .ok token)
    (initialEstimation : ℤ) :
    ∃ estimation, convertGasToTokenAndNative services relayRequest initialEstimation =
      .ok estimation ∧ estimation.estimation = initialEstimation := by
  unfold convertGasToTokenAndNative
  by_cases hnative : relayRequest.request.tokenContract = addressZero
  · rw [if_pos hnative]
    exact ⟨_, rfl, rfl⟩
  · obtain ⟨token, htoken⟩ := hlookup hnative
    obtain ⟨valueInToken, hinToken⟩ :=
      exists_convertGasToToken initialEstimation token relayRequest.relayData.gasPrice
    obtain ⟨valueInNative, hinNative⟩ :=
      exists_convertGasToNative initialEstimation relayRequest.relayData.gasPrice
    rw [if_neg hnative, htoken, Failure.ok_bind, hinToken, Failure.ok_bind, hinNative,
      Failure.ok_bind]
    exact ⟨_, rfl, rfl⟩

section Paths

variable {services : Services} {client : RelayClient} {appConfig : AppConfig}
  {envelopingRequest : HttpEnvelopingRequest} {tokenAmount : ℤ} {metadata : EnvelopingMetadata}
  {gas : ℕ}

theorem estimateMaxPossibleGas_eq
    (hinput : client.validateInputTypes envelopingRequest = .ok ())
    (hestimated : client.initialGasEstimation envelopingRequest = .ok gas) :
    estimateMaxPossibleGas services client appConfig envelopingRequest =
      (calculateFee services envelopingRequest.relayRequest gas appConfig >>= fun fee =>
        (fee.plus (.finite gas)).toBigNumber >>= fun maxPossibleGas =>
          convertGasToTokenAndNative services envelopingRequest.relayRequest maxPossibleGas) := by
  rw [estimateMaxPossibleGas, hinput, Failure.ok_bind, hestimated, Failure.ok_bind]

theorem getMaxPossibleGas_eq
    (hexecuted : client.standardMaxPossibleGasEstimation
      (resubmit envelopingRequest tokenAmount metadata) = .ok gas) :
    getMaxPossibleGas services client appConfig (resubmit envelopingRequest tokenAmount metadata) =
      (calculateFee services envelopingRequest.relayRequest gas appConfig >>= fun fee =>
        fee.toBigNumber.map fun feeInGas => ⟨gas, gas + feeInGas⟩) := by
  rw [getMaxPossibleGas, hexecuted, Failure.ok_bind, calculateFee_resubmit]
  apply bind_congr
  intro fee
  cases fee.toBigNumber <;> rfl

/-- The gas estimated for a request is the gas that it is required to pay for when it is
sent with any amount and signature, and no less than the gas without a fee. Where the fee
is not a finite number, or cannot be computed, there is neither. -/
theorem estimate_eq_required (hrates : NonnegRates services)
    (hconfig : verifyServerConfiguration appConfig = .ok ())
    (hinput : client.validateInputTypes envelopingRequest = .ok ())
    (hestimated : client.initialGasEstimation envelopingRequest = .ok gas)
    (hexecuted : client.standardMaxPossibleGasEstimation
      (resubmit envelopingRequest tokenAmount metadata) = .ok gas)
    (hlookup : envelopingRequest.relayRequest.request.tokenContract ≠ addressZero →
      ∃ token, lookUpToken services envelopingRequest.relayRequest.request.tokenContract =
        .ok token) :
    (∀ fee : ℚ, calculateFee services envelopingRequest.relayRequest gas appConfig =
          .ok (.finite fee) →
        ∃ estimation required,
          estimateMaxPossibleGas services client appConfig envelopingRequest = .ok estimation ∧
          getMaxPossibleGas services client appConfig
              (resubmit envelopingRequest tokenAmount metadata) = .ok required ∧
          estimation.estimation = required.maxPossibleGasWithFee ∧
          gas ≤ estimation.estimation ∧ gas ≤ required.maxPossibleGasWithFee) ∧
      ((∀ fee : ℚ, calculateFee services envelopingRequest.relayRequest gas appConfig ≠
            .ok (.finite fee)) →
        (∃ e, estimateMaxPossibleGas services client appConfig envelopingRequest = .error e) ∧
          ∃ e, getMaxPossibleGas services client appConfig
            (resubmit envelopingRequest tokenAmount metadata) = .error e) := by
  rw [estimateMaxPossibleGas_eq hinput hestimated, getMaxPossibleGas_eq hexecuted]
  constructor
  · intro fee hfee
    have hnonneg : 0 ≤ fee := nonneg_calculateFee hrates hconfig hfee fee rfl
    have hrounded : 0 ≤ HalfUp.toInt fee := HalfUp.toInt_nonneg hnonneg
    obtain ⟨estimation, hconvert, hestimation⟩ :=
      exists_convertGasToTokenAndNative hlookup (HalfUp.toInt fee + gas)
    refine ⟨estimation, ⟨gas, gas + HalfUp.toInt fee⟩, ?_, ?_, ?_, ?_, ?_⟩
    · rw [hfee, Failure.ok_bind, BigNumberJs.plus_finite, BigNumberJs.toBigNumber_finite,
        HalfUp.toInt_add_natCast hnonneg, Failure.ok_bind, hconvert]
    · rw [hfee, Failure.ok_bind, BigNumberJs.toBigNumber_finite]
      rfl
    · rw [hestimation, add_comm]
    · rw [hestimation]
      omega
    · exact le_add_of_nonneg_right hrounded
  · intro hnone
    cases hfee : calculateFee services envelopingRequest.relayRequest gas appConfig with
    | error e => exact ⟨⟨e, rfl⟩, e, rfl⟩
    | ok fee =>
        cases fee with
        | finite a => exact absurd hfee (hnone a)
        | infinite s => exact ⟨⟨_, rfl⟩, _, rfl⟩
        | nan => exact ⟨⟨_, rfl⟩, _, rfl⟩

end Paths

/-- A tenth of the gas is charged. -/
def tenthConfig : AppConfig := ⟨true, [], none, none, some (1 / 10)⟩

theorem estimate_eq_required_rif :
    ∃ estimation required,
      estimateMaxPossibleGas rifServices (fixedGasClient 145000) tenthConfig rifRequest =
        .ok estimation ∧
      getMaxPossibleGas rifServices (fixedGasClient 145000) tenthConfig
          (resubmit rifRequest 2617780446896692546 (rifMetadata "0x02")) = .ok required ∧
      estimation.estimation = required.maxPossibleGasWithFee ∧
      (145000 : ℕ) ≤ estimation.estimation ∧ (145000 : ℕ) ≤ required.maxPossibleGasWithFee := by
  have hfee : calculateFee rifServices rifRequest.relayRequest 145000 tenthConfig =
      .ok (.finite (0 + HalfUp.toInt ((145000 : ℕ) * (1 / 10 : ℚ)))) := by
    norm_num [calculateFee, isSponsorshipAllowed, tenthConfig, fixedFee, isConfigured,
      calculateFeeFromGas]
  have hconfig : verifyServerConfiguration tenthConfig = .ok () := by
    norm_num [verifyServerConfiguration, tenthConfig]
  exact (estimate_eq_required rifServices_positive.nonneg hconfig rfl rfl rfl
    (fun _ => ⟨rifExchangeToken, rfl⟩)).1 _ hfee

end RifRelayServer
