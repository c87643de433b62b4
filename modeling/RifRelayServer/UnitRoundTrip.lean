import RifRelayServer.Conversions
import Mathlib.Tactic.Linarith
import Mathlib.Algebra.Order.Field.Power

/-!
# Quoting and pricing tokens

A quote scales the native cost by `10 ^ (18 - decimals)`. Pricing tokens
scales by the same power, so the quote of a token whose decimals are not 18 is
off by twice that power. This module computes the quote as one rational
expression and says for which costs it still prices back to the cost.
-/

namespace RifRelayServer

/-- What `convertGasToToken` rounds to an integer: the scaled cost over the rate. -/
def unroundedQuote (decimals : ℕ) (xRate cost : ℚ) : ℚ :=
  if decimals ≤ 18 then cost * 10 ^ (18 - decimals) / xRate
  else HalfUp.toPlaces 20 (cost / 10 ^ (decimals - 18)) / xRate

/-- The token amount `convertGasToToken` answers on valid numbers. -/
def tokenQuote (decimals : ℕ) (xRate cost : ℚ) : ℤ :=
  HalfUp.toInt (HalfUp.toPlaces 20 (unroundedQuote decimals xRate cost))

theorem unroundedQuote_nonneg (decimals : ℕ) {xRate cost : ℚ} (hrate : 0 < xRate)
    (hcost : 0 ≤ cost) : 0 ≤ unroundedQuote decimals xRate cost := by
  unfold unroundedQuote
  split
  · positivity
  · exact div_nonneg (HalfUp.toPlaces_nonneg (by positivity)) hrate.le

theorem tokenQuote_nonneg (decimals : ℕ) {xRate cost : ℚ} (hrate : 0 < xRate)
    (hcost : 0 ≤ cost) : 0 ≤ tokenQuote decimals xRate cost :=
  HalfUp.toInt_nonneg (HalfUp.toPlaces_nonneg (unroundedQuote_nonneg decimals hrate hcost))

/-- A quote reaches `m` tokens from half a token, up to the 20th place, below `m` on. -/
theorem le_tokenQuote_iff (decimals : ℕ) {xRate cost : ℚ} (hrate : 0 < xRate)
    (hcost : 0 ≤ cost) (m : ℤ) :
    m ≤ tokenQuote decimals xRate cost ↔
      (m : ℚ) - 1 / 2 - 1 / (2 * 10 ^ 20) ≤ unroundedQuote decimals xRate cost :=
  HalfUp.le_toInt_toPlaces_iff 19 (unroundedQuote_nonneg decimals hrate hcost) m

theorem unroundedQuote_mul_le {decimals : ℕ} {xRate cost : ℚ} (hd : 18 < decimals)
    (hrate : 0 < xRate) (hcost : 0 ≤ cost) :
    unroundedQuote decimals xRate cost * (xRate * 10 ^ (decimals - 18)) ≤ 2 * cost := by
  have hpow : (0 : ℚ) < 10 ^ (decimals - 18) := by positivity
  have htwo := HalfUp.toPlaces_le_two_mul 20 (x := cost / 10 ^ (decimals - 18)) (by positivity)
  rw [unroundedQuote, if_neg (by omega)]
  calc
    HalfUp.toPlaces 20 (cost / 10 ^ (decimals - 18)) / xRate * (xRate * 10 ^ (decimals - 18)) =
        HalfUp.toPlaces 20 (cost / 10 ^ (decimals - 18)) * 10 ^ (decimals - 18) := by
      field_simp
    _ ≤ 2 * (cost / 10 ^ (decimals - 18)) * 10 ^ (decimals - 18) :=
      mul_le_mul_of_nonneg_right htwo hpow.le
    _ = 2 * cost := by field_simp

theorem convertGasToToken_eq {estimation gasPrice : ℤ} {token : ExchangeToken} {xRate : ℚ}
    (hestimation : 0 ≤ estimation) (hprice : 0 ≤ gasPrice) (hrate : 0 < xRate)
    (htoken : token.xRate = some (.finite xRate)) :
    convertGasToToken estimation token gasPrice =
      .ok (tokenQuote token.decimals xRate (estimation * gasPrice)) := by
  have he : ¬ ((estimation : ℚ) < 0) := by exact_mod_cast hestimation.not_gt
  have hp : ¬ ((gasPrice : ℚ) < 0) := by exact_mod_cast hprice.not_gt
  by_cases hd : token.decimals ≤ 18
  · simp [convertGasToToken, htoken, he, hp, hrate.not_gt, hrate.ne', quotePrecision,
      rbtcChainDecimals, hd, BigNumberJs.dividedBy_finite, tokenQuote, unroundedQuote,
      BigNumberJs.decimalPlaces]
  · simp [convertGasToToken, htoken, he, hp, hrate.not_gt, hrate.ne', quotePrecision,
      rbtcChainDecimals, hd, BigNumberJs.dividedBy_finite, tokenQuote, unroundedQuote,
      BigNumberJs.decimalPlaces]

theorem convertGasToNative_eq {estimation gasPrice : ℤ} (hestimation : 0 ≤ estimation)
    (hprice : 0 ≤ gasPrice) :
    convertGasToNative estimation gasPrice = .ok (estimation * gasPrice) := by
  have he : ¬ ((estimation : ℚ) < 0) := by exact_mod_cast hestimation.not_gt
  have hp : ¬ ((gasPrice : ℚ) < 0) := by exact_mod_cast hprice.not_gt
  simp only [convertGasToNative, isInvalidNumber_finite, he, hp, decide_false, Bool.or_self,
    Bool.false_eq_true, if_false, BigNumberJs.multipliedBy_finite, BigNumberJs.toBigNumber_finite,
    ← Int.cast_mul, HalfUp.toInt_intCast]

theorem toNativeWeiFrom_eq {token : ExchangeToken} {xRate amount : ℚ}
    (htoken : token.xRate = some (.finite xRate)) (hamount : token.amount = some (.finite amount)) :
    toNativeWeiFrom token =
      .finite (HalfUp.toPlaces 20 (amount / 10 ^ token.decimals) * xRate * 10 ^ 18) := by
  by_cases ha : amount = 0
  · simp [toNativeWeiFrom, htoken, hamount, ha]
  · by_cases hrate : xRate = 0
    · simp [toNativeWeiFrom, htoken, hamount, hrate]
    · simp [toNativeWeiFrom, htoken, hamount, ha, hrate, rbtcChainDecimals]

def exactPrice (decimals : ℕ) (xRate amount : ℚ) : ℚ :=
  amount * xRate * 10 ^ ((18 : ℤ) - decimals)

theorem exactPrice_of_le {decimals : ℕ} (hd : decimals ≤ 18) (xRate amount : ℚ) :
    exactPrice decimals xRate amount = amount * xRate * 10 ^ (18 - decimals) := by
  have h : (18 : ℤ) - decimals = ((18 - decimals : ℕ) : ℤ) := by omega
  rw [exactPrice, h, zpow_natCast]

theorem exactPrice_of_lt {decimals : ℕ} (hd : 18 < decimals) (xRate amount : ℚ) :
    exactPrice decimals xRate amount = amount * xRate / 10 ^ (decimals - 18) := by
  have h : (18 : ℤ) - decimals = -((decimals - 18 : ℕ) : ℤ) := by omega
  rw [exactPrice, h, zpow_neg, zpow_natCast, div_eq_mul_inv]

theorem toNativeWeiFrom_eq_exactPrice {token : ExchangeToken} {xRate : ℚ} {amount : ℤ}
    (hd : token.decimals ≤ 20) (htoken : token.xRate = some (.finite xRate))
    (hamount : token.amount = some (.finite amount)) :
    toNativeWeiFrom token = .finite (exactPrice token.decimals xRate amount) := by
  rw [toNativeWeiFrom_eq htoken hamount, HalfUp.toPlaces_div_pow hd, exactPrice,
    zpow_sub₀ (by norm_num : (10 : ℚ) ≠ 0)]
  norm_num
  ring

/-- The costs whose quote prices back to within one token unit: all of them at
18 decimals, below that those quoted at one unit at most, and above it those
that are worth one unit at most. -/
def ConvertsBack (decimals : ℕ) (xRate cost : ℚ) : Prop :=
  decimals = 18 ∨
    (decimals < 18 ∧ cost * 10 ^ (18 - decimals) < (3 / 2 - 1 / (2 * 10 ^ 20)) * xRate) ∨
    (18 < decimals ∧ cost * 10 ^ (decimals - 18) ≤ xRate)

theorem abs_mul_sub_le_iff {unit : ℚ} (hunit : 0 < unit) (t cost : ℚ) :
    |t * unit - cost| ≤ unit ↔ |t - cost / unit| ≤ 1 := by
  have h : t * unit - cost = (t - cost / unit) * unit := by field_simp
  rw [h, abs_mul, abs_of_pos hunit]
  exact mul_le_iff_le_one_left hunit

theorem tokenQuote_sub_half_le (decimals : ℕ) {xRate cost : ℚ} (hrate : 0 < xRate)
    (hcost : 0 ≤ cost) :
    (tokenQuote decimals xRate cost : ℚ) - 1 / 2 - 1 / (2 * 10 ^ 20) ≤
      unroundedQuote decimals xRate cost :=
  (le_tokenQuote_iff decimals hrate hcost _).mp le_rfl

theorem unroundedQuote_lt_add_half (decimals : ℕ) {xRate cost : ℚ} (hrate : 0 < xRate)
    (hcost : 0 ≤ cost) :
    unroundedQuote decimals xRate cost <
      tokenQuote decimals xRate cost + 1 / 2 - 1 / (2 * 10 ^ 20) := by
  have h := (le_tokenQuote_iff decimals hrate hcost
    (tokenQuote decimals xRate cost + 1)).not.mp (by omega)
  push_cast at h
  linarith

theorem quote_within_unit_of_eighteen {xRate cost : ℚ} (hrate : 0 < xRate) (hcost : 0 ≤ cost) :
    |(tokenQuote 18 xRate cost : ℚ) * xRate - cost| ≤ xRate := by
  have hlow := tokenQuote_sub_half_le 18 hrate hcost
  have hhigh := unroundedQuote_lt_add_half 18 hrate hcost
  have hq : unroundedQuote 18 xRate cost = cost / xRate := by simp [unroundedQuote]
  rw [hq] at hlow hhigh
  rw [abs_mul_sub_le_iff hrate, abs_le]
  constructor <;> linarith

/-- Below 18 decimals the quote is scaled up twice too often, so it prices back
only while it is at most one unit. -/
theorem quote_within_unit_iff_of_lt {decimals : ℕ} {xRate cost : ℚ} (hd : decimals < 18)
    (hrate : 0 < xRate) (hcost : 0 ≤ cost) :
    |(tokenQuote decimals xRate cost : ℚ) * (xRate * 10 ^ (18 - decimals)) - cost| ≤
        xRate * 10 ^ (18 - decimals) ↔
      cost * 10 ^ (18 - decimals) < (3 / 2 - 1 / (2 * 10 ^ 20)) * xRate := by
  have hs : (10 : ℚ) ≤ 10 ^ (18 - decimals) := le_self_pow₀ (by norm_num) (by omega)
  have hT : (0 : ℚ) ≤ tokenQuote decimals xRate cost := by
    exact_mod_cast tokenQuote_nonneg decimals hrate hcost
  have hlow := tokenQuote_sub_half_le decimals hrate hcost
  have htwo := le_tokenQuote_iff decimals hrate hcost 2
  have hq : unroundedQuote decimals xRate cost = cost * 10 ^ (18 - decimals) / xRate := by
    rw [unroundedQuote, if_pos hd.le]
  have hunit : 0 < xRate * 10 ^ (18 - decimals) := by positivity
  obtain ⟨u, hdiv⟩ : ∃ u, cost / (xRate * 10 ^ (18 - decimals)) = u := ⟨_, rfl⟩
  have hu : cost = u * (xRate * 10 ^ (18 - decimals)) := (div_eq_iff hunit.ne').mp hdiv
  have hu0 : 0 ≤ u := nonneg_of_mul_nonneg_left (hu ▸ hcost) hunit
  have hqu : 100 * u ≤ unroundedQuote decimals xRate cost := by
    have hsq : u * (10 * 10) ≤ u * (10 ^ (18 - decimals) * 10 ^ (18 - decimals)) :=
      mul_le_mul_of_nonneg_left (mul_le_mul hs hs (by norm_num) (by positivity)) hu0
    have heq : cost * 10 ^ (18 - decimals) / xRate =
        u * (10 ^ (18 - decimals) * 10 ^ (18 - decimals)) := by
      rw [hu]
      field_simp
    rw [hq, heq]
    linarith
  have hcond : cost * 10 ^ (18 - decimals) < (3 / 2 - 1 / (2 * 10 ^ 20)) * xRate ↔
      tokenQuote decimals xRate cost < 2 := by
    rw [← not_le, ← not_le, htwo, hq, ← le_div_iff₀ hrate]
    norm_num
  rw [hcond, abs_mul_sub_le_iff hunit, hdiv, abs_le]
  constructor
  · rintro ⟨-, hup⟩
    by_contra hge
    have hge' : (2 : ℚ) ≤ tokenQuote decimals xRate cost := by
      exact_mod_cast not_lt.mp hge
    linarith [unroundedQuote_lt_add_half decimals hrate hcost]
  · intro hlt
    have hle : (tokenQuote decimals xRate cost : ℚ) ≤ 1 := by
      exact_mod_cast Int.lt_add_one_iff.mp hlt
    have hhigh := unroundedQuote_lt_add_half decimals hrate hcost
    constructor <;> linarith

/-- Above 18 decimals the quote is scaled down twice too often, so it prices
back only where nothing needed to be quoted. -/
theorem quote_within_unit_iff_of_gt {decimals : ℕ} {xRate cost : ℚ} (hd : 18 < decimals)
    (hrate : 0 < xRate) (hcost : 0 ≤ cost) :
    |(tokenQuote decimals xRate cost : ℚ) * (xRate / 10 ^ (decimals - 18)) - cost| ≤
        xRate / 10 ^ (decimals - 18) ↔
      cost * 10 ^ (decimals - 18) ≤ xRate := by
  have hs : (10 : ℚ) ≤ 10 ^ (decimals - 18) := le_self_pow₀ (by norm_num) (by omega)
  have hT : 0 ≤ tokenQuote decimals xRate cost := tokenQuote_nonneg decimals hrate hcost
  have hlow := tokenQuote_sub_half_le decimals hrate hcost
  have hmul := unroundedQuote_mul_le hd hrate hcost
  have hunit : 0 < xRate / 10 ^ (decimals - 18) := by positivity
  obtain ⟨u, hdiv⟩ : ∃ u, cost / (xRate / 10 ^ (decimals - 18)) = u := ⟨_, rfl⟩
  have hu : cost = u * (xRate / 10 ^ (decimals - 18)) := (div_eq_iff hunit.ne').mp hdiv
  have hu0 : 0 ≤ u := nonneg_of_mul_nonneg_left (hu ▸ hcost) hunit
  have hq0 := unroundedQuote_nonneg decimals hrate hcost
  have hqu : unroundedQuote decimals xRate cost * 50 ≤ u := by
    have hle : unroundedQuote decimals xRate cost *
        (10 ^ (decimals - 18) * 10 ^ (decimals - 18)) ≤ 2 * u := by
      have heq : 2 * cost = 2 * u * (xRate / 10 ^ (decimals - 18)) := by rw [hu]; ring
      rw [heq, ← div_le_iff₀ hunit] at hmul
      calc
        _ = unroundedQuote decimals xRate cost * (xRate * 10 ^ (decimals - 18)) /
            (xRate / 10 ^ (decimals - 18)) := by field_simp
        _ ≤ 2 * u := hmul
    have hsq : unroundedQuote decimals xRate cost * (10 * 10) ≤
        unroundedQuote decimals xRate cost * (10 ^ (decimals - 18) * 10 ^ (decimals - 18)) :=
      mul_le_mul_of_nonneg_left (mul_le_mul hs hs (by norm_num) (by positivity)) hq0
    linarith
  have hcond : cost * 10 ^ (decimals - 18) ≤ xRate ↔ u ≤ 1 := by
    have heq : cost * 10 ^ (decimals - 18) = u * xRate := by
      rw [hu]
      field_simp
    rw [heq]
    exact mul_le_iff_le_one_left hrate
  rw [hcond, abs_mul_sub_le_iff hunit, hdiv, abs_le]
  constructor
  · rintro ⟨hdown, -⟩
    by_contra hgt
    rcases hT.eq_or_lt with hzero | hpos
    · rw [← hzero] at hdown
      push_cast at hdown
      linarith
    · have hone : (1 : ℚ) ≤ tokenQuote decimals xRate cost := by exact_mod_cast hpos
      linarith
  · intro hle
    have hsmall : tokenQuote decimals xRate cost < 1 := by
      by_contra hge
      have hone : (1 : ℚ) ≤ tokenQuote decimals xRate cost := by
        exact_mod_cast not_lt.mp hge
      linarith
    have hzero : tokenQuote decimals xRate cost = 0 := by omega
    rw [hzero]
    push_cast
    constructor <;> linarith

/-- The quote of a cost prices back to it within one token unit exactly for the
costs of `ConvertsBack`. -/
theorem convertGasToToken_prices_back_iff {estimation gasPrice : ℤ} {token : ExchangeToken}
    {xRate : ℚ} (hestimation : 0 ≤ estimation) (hprice : 0 ≤ gasPrice) (hrate : 0 < xRate)
    (htoken : token.xRate = some (.finite xRate)) :
    (∃ t, convertGasToToken estimation token gasPrice = .ok t ∧
        |(t : ℚ) * xRate * 10 ^ ((18 : ℤ) - token.decimals) - estimation * gasPrice| ≤
          xRate * 10 ^ ((18 : ℤ) - token.decimals)) ↔
      ConvertsBack token.decimals xRate (estimation * gasPrice) := by
  have hcost : (0 : ℚ) ≤ estimation * gasPrice := by exact_mod_cast mul_nonneg hestimation hprice
  rw [convertGasToToken_eq hestimation hprice hrate htoken]
  simp only [Except.ok.injEq, exists_eq_left']
  have hunit : 18 < token.decimals → xRate * 10 ^ ((18 : ℤ) - token.decimals) =
      xRate / 10 ^ (token.decimals - 18) := fun hd => by
    simpa [exactPrice] using exactPrice_of_lt hd xRate 1
  have hunit' : token.decimals ≤ 18 → xRate * 10 ^ ((18 : ℤ) - token.decimals) =
      xRate * 10 ^ (18 - token.decimals) := fun hd => by
    simpa [exactPrice] using exactPrice_of_le hd xRate 1
  rw [mul_assoc]
  rcases lt_trichotomy token.decimals 18 with hd | hd | hd
  · rw [hunit' hd.le, quote_within_unit_iff_of_lt hd hrate hcost, ConvertsBack]
    simp [hd, hd.ne, hd.not_gt]
  · have h18 := quote_within_unit_of_eighteen hrate hcost
    rw [hunit' hd.le, ConvertsBack, hd]
    simpa using h18
  · rw [hunit hd, quote_within_unit_iff_of_gt hd hrate hcost, ConvertsBack]
    simp [hd, hd.ne', hd.not_gt]

theorem convertGasToToken_prices_back_rif :
    (∃ t, convertGasToToken 145000
          ⟨"tRif", "RIF", 18, some (.finite (332344907316948 / 10 ^ 20)), none⟩ 60000000 = .ok t ∧
        |(t : ℚ) * (332344907316948 / 10 ^ 20) * 10 ^ ((18 : ℤ) - (18 : ℕ)) -
            (145000 : ℤ) * (60000000 : ℤ)| ≤
          332344907316948 / 10 ^ 20 * 10 ^ ((18 : ℤ) - (18 : ℕ))) ↔
      ConvertsBack 18 (332344907316948 / 10 ^ 20) ((145000 : ℤ) * (60000000 : ℤ)) :=
  convertGasToToken_prices_back_iff (by decide) (by decide) (by norm_num) rfl

/-- One gas at price one, in a token of 6 decimals worth one native coin: the
quote is `10 ^ 12` units, which price back to `10 ^ 24` wei. -/
theorem convertGasToToken_not_inverse :
    ¬ ∀ (estimation gasPrice : ℤ) (token : ExchangeToken) (xRate : ℚ),
      0 ≤ estimation → 0 ≤ gasPrice → 0 < xRate → token.xRate = some (.finite xRate) →
      ∃ t, convertGasToToken estimation token gasPrice = .ok t ∧
        |(t : ℚ) * xRate * 10 ^ ((18 : ℤ) - token.decimals) - estimation * gasPrice| ≤
          xRate * 10 ^ ((18 : ℤ) - token.decimals) := by
  intro h
  obtain ⟨t, ht, hle⟩ := h 1 1 ⟨"USD6", "USD6", 6, some (.finite 1), none⟩ 1
    (by decide) (by decide) (by norm_num) rfl
  rw [convertGasToToken_eq (by decide) (by decide) one_pos rfl] at ht
  have hfar := quote_within_unit_iff_of_lt (by decide : 6 < 18) one_pos zero_le_one
  rw [← Except.ok.inj ht] at hle
  norm_num at hle hfar
  exact hfar.not_ge hle

end RifRelayServer
