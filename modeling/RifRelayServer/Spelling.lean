import RifRelayServer.Fees
import RifRelayServer.UnitRoundTrip

/-!
# Fees and the spelling of a request

The selector, the amount and the destination are compared as texts, so two
spellings of one request can be charged differently. This module says exactly
which pairs of spellings are treated alike by every configuration.
-/

namespace RifRelayServer

def amountDigits (data : String) : List Char :=
  data.toList.drop ((valueIndexInData (getMethodHashFromData data)).getD 0)

/-- Hexadecimal digits, not spelled in both letter cases at once. -/
def inOneCase (digits : List Char) : Bool :=
  !digits.isEmpty &&
    (digits.all Hexadecimal.isLowerDigit || digits.all Hexadecimal.isUpperDigit)

namespace BigNumberJs

/-- The library reads a number off digits in one letter case only. -/
theorem ofHexDigits_ne_nan_iff (digits : List Char) :
    ofHexDigits digits ≠ nan ↔ inOneCase digits = true := by
  have hupper : digits.all Hexadecimal.isUpperDigit = true ↔
      digits.map Char.toUpper = digits ∧
        (Hexadecimal.value (digits.map Char.toLower)).isSome = true := by
    have hself : digits.map Char.toUpper = digits ↔ ∀ c ∈ digits, c.toUpper = c := by
      conv_lhs => rhs; rw [← List.map_id digits]
      exact List.map_inj_left
    rw [Hexadecimal.value, Hexadecimal.readFrom_isSome, hself]
    simp only [List.all_eq_true, List.forall_mem_map, Hexadecimal.isUpperDigit_iff]
    exact forall₂_and
  have hlower : digits.all Hexadecimal.isLowerDigit = true ↔
      (Hexadecimal.value digits).isSome = true := by
    rw [Hexadecimal.value, Hexadecimal.readFrom_isSome]
  by_cases hempty : digits = []
  · simp [hempty, ofHexDigits, inOneCase]
  · rw [inOneCase, Bool.and_eq_true, Bool.or_eq_true, hupper, hlower]
    cases hv : Hexadecimal.value digits <;>
      cases hl : Hexadecimal.value (digits.map Char.toLower) <;>
        by_cases hu : digits.map Char.toUpper = digits <;>
          simp [ofHexDigits, hempty, hv, hl, hu]

theorem value_of_ofHexDigits {digits : List Char} (h : ofHexDigits digits ≠ nan) :
    ∃ n : ℕ, Hexadecimal.value (digits.map Char.toLower) = some n ∧
      ofHexDigits digits = finite n := by
  unfold ofHexDigits at h ⊢
  split at h
  · exact absurd rfl h
  next hne =>
    rw [if_neg hne]
    cases hv : Hexadecimal.value digits with
    | some n =>
        refine ⟨n, ?_, rfl⟩
        rw [Hexadecimal.map_toLower_of_readFrom hv]
        exact hv
    | none =>
        rw [hv] at h
        simp only at h ⊢
        split at h
        next hupper =>
          rw [if_pos hupper]
          cases hl : Hexadecimal.value (digits.map Char.toLower) with
          | some n => exact ⟨n, rfl, rfl⟩
          | none => simp [hl] at h
        next => exact absurd rfl h

theorem ofHexDigits_eq_of_sameDigits {s t : List Char} (h : Hexadecimal.SameDigits s t)
    (hs : ofHexDigits s ≠ nan) (ht : ofHexDigits t ≠ nan) : ofHexDigits s = ofHexDigits t := by
  obtain ⟨n, hn, hsn⟩ := value_of_ofHexDigits hs
  obtain ⟨m, hm, htm⟩ := value_of_ofHexDigits ht
  rw [h.map_toLower, hm] at hn
  rw [hsn, htm, Option.some.inj hn]

theorem ofHexDigits_pos_of_sameDigits {s t : List Char} (h : Hexadecimal.SameDigits s t)
    (hs : ofHexDigits s = nan) (ht : ofHexDigits t ≠ nan) :
    ∃ n : ℕ, 0 < n ∧ ofHexDigits t = finite n := by
  obtain ⟨n, hn, htn⟩ := value_of_ofHexDigits ht
  refine ⟨n, Nat.pos_of_ne_zero ?_, htn⟩
  rintro rfl
  have hzero : ∀ c ∈ t, c.toLower = '0' := fun c hc =>
    Hexadecimal.eq_zero_of_value_eq_zero hn _ (List.mem_map_of_mem hc)
  rw [← h.symm.eq_of_zeroes hzero] at hs
  exact ht hs

@[simp] theorem nan_multipliedBy (x : BigNumberJs) : nan.multipliedBy x = nan := by
  cases x <;> rfl

@[simp] theorem nan_dividedBy (x : BigNumberJs) : nan.dividedBy x = nan := by
  cases x <;> rfl

@[simp] theorem plus_nan (x : BigNumberJs) : x.plus nan = nan := by
  cases x <;> rfl

theorem finite_dividedBy_ne_nan {a : ℚ} (ha : a ≠ 0) (b : ℚ) :
    (finite a).dividedBy (finite b) ≠ nan := by
  simp only [dividedBy, if_neg ha]
  split <;> simp

end BigNumberJs

theorem valueIndexInData_eq_some {methodHash : List Char} {index : ℕ}
    (h : valueIndexInData methodHash = some index) :
    methodHash = transferHash.toList ∧ index = indexWhereValueStartsOnTransfer ∨
      methodHash = transferFromHash.toList ∧ index = indexWhereValueStartsOnTransferFrom := by
  unfold valueIndexInData at h
  split at h
  next heq => exact Or.inl ⟨heq, (Option.some.inj h).symm⟩
  next =>
    split at h
    next heq => exact Or.inr ⟨heq, (Option.some.inj h).symm⟩
    next => cases h

theorem sameDigits_getMethodHashFromData {s t : String}
    (h : Hexadecimal.SameDigits s.toList t.toList) :
    Hexadecimal.SameDigits (getMethodHashFromData s) (getMethodHashFromData t) :=
  List.forall₂_take 8 (h.drop 2)

theorem valueIndexInData_eq_of_recognised {s t : String}
    (h : Hexadecimal.SameDigits s.toList t.toList) (hs : isTransferOrTransferFrom s = true)
    (ht : isTransferOrTransferFrom t = true) :
    valueIndexInData (getMethodHashFromData s) = valueIndexInData (getMethodHashFromData t) := by
  have hhash := sameDigits_getMethodHashFromData h
  obtain ⟨i, hi⟩ := Option.isSome_iff_exists.mp hs
  obtain ⟨j, hj⟩ := Option.isSome_iff_exists.mp ht
  rcases valueIndexInData_eq_some hi with ⟨hs', rfl⟩ | ⟨hs', rfl⟩ <;>
    rcases valueIndexInData_eq_some hj with ⟨ht', rfl⟩ | ⟨ht', rfl⟩
  · rw [hi, hj]
  · rw [hs', ht'] at hhash
    exact absurd hhash (by decide)
  · rw [hs', ht'] at hhash
    exact absurd hhash (by decide)
  · rw [hi, hj]

/-- Two spellings of one calldata that are both recognised read as one amount,
or one of them does not read as a number and the other is a positive amount. -/
theorem valueInDecimal_of_recognised {s t : String}
    (h : Hexadecimal.SameDigits s.toList t.toList) (hs : isTransferOrTransferFrom s = true)
    (ht : isTransferOrTransferFrom t = true) :
    valueInDecimal s = valueInDecimal t ∨
      (valueInDecimal s = .nan ∧ ∃ n : ℕ, 0 < n ∧ valueInDecimal t = .finite n) ∨
      (valueInDecimal t = .nan ∧ ∃ n : ℕ, 0 < n ∧ valueInDecimal s = .finite n) := by
  have hindex := valueIndexInData_eq_of_recognised h hs ht
  have hdrop := h.drop ((valueIndexInData (getMethodHashFromData t)).getD 0)
  unfold valueInDecimal
  rw [hindex]
  by_cases hsnan : BigNumberJs.ofHexDigits
      (s.toList.drop ((valueIndexInData (getMethodHashFromData t)).getD 0)) = .nan
  · by_cases htnan : BigNumberJs.ofHexDigits
        (t.toList.drop ((valueIndexInData (getMethodHashFromData t)).getD 0)) = .nan
    · exact Or.inl (hsnan.trans htnan.symm)
    · exact Or.inr (Or.inl ⟨hsnan, BigNumberJs.ofHexDigits_pos_of_sameDigits hdrop hsnan htnan⟩)
  · by_cases htnan : BigNumberJs.ofHexDigits
        (t.toList.drop ((valueIndexInData (getMethodHashFromData t)).getD 0)) = .nan
    · exact Or.inr (Or.inr ⟨htnan,
        BigNumberJs.ofHexDigits_pos_of_sameDigits hdrop.symm htnan hsnan⟩)
    · exact Or.inl (BigNumberJs.ofHexDigits_eq_of_sameDigits hdrop hsnan htnan)

/-- Where both are recognised, the amounts read the same when both or neither
are spelled in one letter case. -/
theorem valueInDecimal_eq_iff {s t : String}
    (h : Hexadecimal.SameDigits s.toList t.toList) (hs : isTransferOrTransferFrom s = true)
    (ht : isTransferOrTransferFrom t = true) :
    valueInDecimal s = valueInDecimal t ↔
      inOneCase (amountDigits s) = inOneCase (amountDigits t) := by
  have hiff : ∀ data, valueInDecimal data ≠ .nan ↔ inOneCase (amountDigits data) = true :=
    fun data => BigNumberJs.ofHexDigits_ne_nan_iff _
  rw [Bool.eq_iff_iff, ← hiff, ← hiff]
  rcases valueInDecimal_of_recognised h hs ht with heq | ⟨hnan, n, -, hn⟩ | ⟨hnan, n, -, hn⟩
  · simp [heq]
  · simp [hnan, hn]
  · simp [hnan, hn]

/-- The fee reads a request only through its destination, its payment token,
its gas price and what the selector and the amount of its calldata read as. -/
theorem calculateFee_congr {r₁ r₂ : EnvelopingRequest} (services : Services) (gas : ℕ)
    (config : AppConfig) (hto : r₁.request.toAddress = r₂.request.toAddress)
    (htoken : r₁.request.tokenContract = r₂.request.tokenContract)
    (hrelay : r₁.relayData = r₂.relayData)
    (hselector : isTransferOrTransferFrom r₁.request.data =
      isTransferOrTransferFrom r₂.request.data)
    (hamount : isTransferOrTransferFrom r₁.request.data = true →
      valueInDecimal r₁.request.data = valueInDecimal r₂.request.data) :
    calculateFee services r₁ gas config = calculateFee services r₂ gas config := by
  have hsponsor : isSponsorshipAllowed r₁ config = isSponsorshipAllowed r₂ config := by
    simp [isSponsorshipAllowed, hto]
  have hfixed : ∀ fee, calculateFixedUsdFee services r₁ fee = calculateFixedUsdFee services r₂ fee := by
    intro fee
    simp [calculateFixedUsdFee, htoken, hrelay]
  have htransfer : ∀ fee, calculateFeeFromTransfer services r₁.request.data fee r₁ =
      calculateFeeFromTransfer services r₂.request.data fee r₂ := by
    intro fee
    unfold calculateFeeFromTransfer
    rw [← hselector, htoken, hrelay]
    split
    next hrec => rw [hamount hrec]
    next => rfl
  simp only [calculateFee, fixedFee, hsponsor, hfixed, htransfer, hselector]

def plainFees (transferFeePercentage gasFeePercentage : ℚ) : AppConfig :=
  ⟨true, [], none, some transferFeePercentage, some gasFeePercentage⟩

def parServices : Services where
  erc20 _ := ⟨.ok "Par", .ok "PAR", .ok 18⟩
  getExchangeRate _ _ := .ok (.finite 1)

theorem calculateFee_plainFees_of_transfer (services : Services) (r : EnvelopingRequest) (gas : ℕ)
    {p : ℚ} (hp : 0 ≤ p) (g : ℚ) (hrec : isTransferOrTransferFrom r.request.data = true) :
    calculateFee services r gas (plainFees p g) =
      (convertTokenToGas services ((valueInDecimal r.request.data).multipliedBy (.finite p))
        r.request.tokenContract r.relayData.gasPrice).map (BigNumberJs.finite 0).plus := by
  simp only [calculateFee, fixedFee, plainFees, isSponsorshipAllowed, isConfigured, hrec,
    calculateFeeFromTransfer, Option.any_some, Option.getD_some, hp]
  rfl

theorem calculateFee_plainFees_of_not_transfer (services : Services) (r : EnvelopingRequest)
    (gas : ℕ) (p g : ℚ) (hrec : isTransferOrTransferFrom r.request.data = false) :
    calculateFee services r gas (plainFees p g) =
      .ok (if g = 0 then .finite 0 else (BigNumberJs.finite 0).plus (calculateFeeFromGas gas g)) := by
  by_cases hg : g = 0 <;>
    simp [calculateFee, fixedFee, plainFees, isSponsorshipAllowed, hrec, hg, pure, Except.pure,
      bind, Except.bind]

theorem convertTokenToGas_par_nan (token : Address) (gasPrice : ℕ) :
    convertTokenToGas parServices .nan token gasPrice = .ok .nan := by
  by_cases htoken : token = addressZero
  · simp [convertTokenToGas, tokenAmountInNative, htoken, pure, Except.pure, bind, Except.bind]
  · simp [convertTokenToGas, tokenAmountInNative, htoken, pure, Except.pure, bind, Except.bind, lookUpToken,
      parServices, getXRateFor, toNativeWeiFrom, toPrecision, BigNumberJs.isZero]

theorem convertTokenToGas_par_finite (token : Address) (gasPrice : ℕ) (n : ℤ) :
    convertTokenToGas parServices (.finite n) token gasPrice =
      .ok ((BigNumberJs.finite n).dividedBy (.finite gasPrice)) := by
  by_cases htoken : token = addressZero
  · simp [convertTokenToGas, tokenAmountInNative, htoken, pure, Except.pure, bind, Except.bind]
  · have hprice := @toNativeWeiFrom_eq_exactPrice
      ⟨"Par", "PAR", 18, some (.finite 1), some (.finite n)⟩ 1 n
      (Nat.le_add_left 18 2) rfl rfl
    simp only [exactPrice] at hprice
    norm_num at hprice
    simp [convertTokenToGas, tokenAmountInNative, htoken, pure, Except.pure, bind, Except.bind, lookUpToken,
      parServices, getXRateFor, callERC20Symbol, callERC20Decimals, callERC20OptionalMethod,
      hprice]

/-- A recognised and an unrecognised spelling are told apart by the gas fee,
which only the unrecognised one is charged. -/
theorem recognised_of_same_fees {r₁ r₂ : EnvelopingRequest}
    (hfee : ∀ config gas, calculateFee parServices r₁ gas config =
      calculateFee parServices r₂ gas config)
    (h₁ : isTransferOrTransferFrom r₁.request.data = true) :
    isTransferOrTransferFrom r₂.request.data = true := by
  by_contra h₂
  have hrec : isTransferOrTransferFrom r₂.request.data = false := by simpa using h₂
  have hfree := hfee (plainFees 0 0) 1
  have hcharged := hfee (plainFees 0 1) 1
  rw [calculateFee_plainFees_of_transfer _ _ _ le_rfl _ h₁,
    calculateFee_plainFees_of_not_transfer _ _ _ _ _ hrec] at hfree hcharged
  rw [hfree] at hcharged
  norm_num [calculateFeeFromGas] at hcharged
  have hone : HalfUp.toInt (1 : ℚ) = 1 := by
    simpa using HalfUp.toInt_natCast (α := ℚ) 1
  rw [hone] at hcharged
  norm_num at hcharged

/-- A number and what is not a number are told apart by any transfer fee. -/
theorem number_of_same_fees {r₁ r₂ : EnvelopingRequest} (htoken :
      r₁.request.tokenContract = r₂.request.tokenContract) (hrelay : r₁.relayData = r₂.relayData)
    (hfee : ∀ config gas, calculateFee parServices r₁ gas config =
      calculateFee parServices r₂ gas config)
    (h₁ : isTransferOrTransferFrom r₁.request.data = true)
    (h₂ : isTransferOrTransferFrom r₂.request.data = true)
    (hnan : valueInDecimal r₁.request.data = .nan) {n : ℕ} (hn : 0 < n)
    (hnumber : valueInDecimal r₂.request.data = .finite n) : False := by
  have h := hfee (plainFees 1 0) 0
  rw [calculateFee_plainFees_of_transfer _ _ _ zero_le_one _ h₁,
    calculateFee_plainFees_of_transfer _ _ _ zero_le_one _ h₂, hnan, hnumber, htoken, hrelay] at h
  have hpar := convertTokenToGas_par_finite r₂.request.tokenContract r₂.relayData.gasPrice n
  simp only [BigNumberJs.nan_multipliedBy, convertTokenToGas_par_nan,
    BigNumberJs.multipliedBy_finite, mul_one] at h
  push_cast at hpar
  rw [hpar] at h
  have hne := BigNumberJs.finite_dividedBy_ne_nan (a := (n : ℚ)) (by exact_mod_cast hn.ne')
    (r₂.relayData.gasPrice : ℚ)
  simp only [Except.map, BigNumberJs.plus_nan, Except.ok.injEq] at h
  cases hdiv : (BigNumberJs.finite (n : ℚ)).dividedBy (.finite r₂.relayData.gasPrice) with
  | nan => exact hne hdiv
  | finite a => simp [hdiv] at h
  | infinite s => simp [hdiv, BigNumberJs.plus] at h

/-- Two spellings of one request are treated alike by every configuration and
at every exchange rate exactly when the destination is spelled in one way, the
selector is recognised in both or in neither, and the amounts after recognised
selectors are both spelled in one letter case or both are not. -/
theorem spellings_alike_iff {r₁ r₂ : EnvelopingRequest} (h : SpelledAlike r₁ r₂) :
    (∀ (services : Services) (config : AppConfig) (gas : ℕ),
        isSponsorshipAllowed r₁ config = isSponsorshipAllowed r₂ config ∧
        calculateFee services r₁ gas config = calculateFee services r₂ gas config) ↔
      r₁.request.toAddress = r₂.request.toAddress ∧
        isTransferOrTransferFrom r₁.request.data = isTransferOrTransferFrom r₂.request.data ∧
        (isTransferOrTransferFrom r₁.request.data = true →
          inOneCase (amountDigits r₁.request.data) = inOneCase (amountDigits r₂.request.data)) := by
  constructor
  · intro hsame
    have hfee : ∀ config gas, calculateFee parServices r₁ gas config =
        calculateFee parServices r₂ gas config := fun config gas =>
      (hsame parServices config gas).2
    have hrec : isTransferOrTransferFrom r₁.request.data =
        isTransferOrTransferFrom r₂.request.data :=
      Bool.eq_iff_iff.mpr ⟨recognised_of_same_fees hfee,
        recognised_of_same_fees fun config gas => (hfee config gas).symm⟩
    refine ⟨?_, hrec, fun h₁ => ?_⟩
    · have hsponsor := (hsame parServices
        ⟨true, [r₁.request.toAddress], none, none, none⟩ 0).1
      simpa [isSponsorshipAllowed, eq_comm] using hsponsor
    · have h₂ := hrec.symm.trans h₁
      rw [← valueInDecimal_eq_iff h.data h₁ h₂]
      rcases valueInDecimal_of_recognised h.data h₁ h₂ with
        heq | ⟨hnan, n, hn, hnumber⟩ | ⟨hnan, n, hn, hnumber⟩
      · exact heq
      · exact (number_of_same_fees h.tokenContract h.relayData hfee h₁ h₂ hnan hn hnumber).elim
      · exact (number_of_same_fees h.tokenContract.symm h.relayData.symm
          (fun config gas => (hfee config gas).symm) h₂ h₁ hnan hn hnumber).elim
  · rintro ⟨hto, hrec, hamount⟩ services config gas
    refine ⟨by simp [isSponsorshipAllowed, hto], ?_⟩
    exact calculateFee_congr services gas config hto h.tokenContract h.relayData hrec fun h₁ =>
      (valueInDecimal_eq_iff h.data h₁ (hrec.symm.trans h₁)).mpr (hamount h₁)

def nativeRequest (toAddress : Address) (data : String) : EnvelopingRequest :=
  ⟨⟨toAddress, data, addressZero, 0⟩, ⟨1⟩⟩

def tokenAddress : Address := "0xf5859303f76596dd558b438b18d0ce0e1660f3ea"

def lowerCaseTransfer : String :=
  "0xa9059cbb000000000000000000000000cb8f8130e289946aec9a17b29819716b1e9e4998" ++
    "00000000000000000000000000000000000000000000000000000000000003e8"

def upperCaseTransfer : String :=
  "0xA9059CBB000000000000000000000000cb8f8130e289946aec9a17b29819716b1e9e4998" ++
    "00000000000000000000000000000000000000000000000000000000000003e8"

theorem spelledAlike_transfer :
    SpelledAlike (nativeRequest tokenAddress lowerCaseTransfer)
      (nativeRequest tokenAddress upperCaseTransfer) :=
  ⟨by decide, by decide +kernel, rfl, rfl, rfl⟩

theorem spellings_alike_transfer_iff :
    (∀ (services : Services) (config : AppConfig) (gas : ℕ),
        isSponsorshipAllowed (nativeRequest tokenAddress lowerCaseTransfer) config =
            isSponsorshipAllowed (nativeRequest tokenAddress upperCaseTransfer) config ∧
        calculateFee services (nativeRequest tokenAddress lowerCaseTransfer) gas config =
          calculateFee services (nativeRequest tokenAddress upperCaseTransfer) gas config) ↔
      tokenAddress = tokenAddress ∧
        isTransferOrTransferFrom lowerCaseTransfer = isTransferOrTransferFrom upperCaseTransfer ∧
        (isTransferOrTransferFrom lowerCaseTransfer = true →
          inOneCase (amountDigits lowerCaseTransfer) =
            inOneCase (amountDigits upperCaseTransfer)) :=
  spellings_alike_iff spelledAlike_transfer

/-- With a transfer fee of 10% the lower-case spelling pays 100 gas and the
upper-case spelling pays nothing. -/
theorem spelling_changes_fee :
    ¬ ∀ (services : Services) (config : AppConfig) (r₁ r₂ : EnvelopingRequest) (gas : ℕ),
      SpelledAlike r₁ r₂ →
      isSponsorshipAllowed r₁ config = isSponsorshipAllowed r₂ config ∧
        calculateFee services r₁ gas config = calculateFee services r₂ gas config := by
  intro h
  have hfee := (h parServices (plainFees (1 / 10) 0) _ _ 0 spelledAlike_transfer).2
  have hamount : valueInDecimal lowerCaseTransfer = .finite 1000 := by decide +kernel
  rw [calculateFee_plainFees_of_transfer _ _ _ (by norm_num) _ (by decide +kernel),
    calculateFee_plainFees_of_not_transfer _ _ _ _ _ (by decide +kernel)] at hfee
  simp only [nativeRequest, hamount, BigNumberJs.multipliedBy_finite] at hfee
  have hpar := convertTokenToGas_par_finite addressZero 1 100
  norm_num [BigNumberJs.dividedBy] at hfee hpar
  have hexact : HalfUp.toPlaces BigNumberJs.decimalPlaces (100 : ℚ) = 100 := by
    simpa using HalfUp.toPlaces_intCast (α := ℚ) BigNumberJs.decimalPlaces 100
  rw [hpar, hexact] at hfee
  norm_num [Except.map] at hfee

end RifRelayServer
