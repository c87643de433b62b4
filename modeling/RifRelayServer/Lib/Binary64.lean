import Mathlib

/-!
# Rounding to double precision

A number is rounded to 53 significant binary digits: to the nearest such number, and to the
one with an even last digit when two are equally near. Exponents have no bounds here, so no
number is too large or too small. Whole numbers up to `2 ^ 53` are exact, and a quotient of
two of them has its ceiling.
-/

namespace Binary64

/-- The integer nearest to a number, and the even one of two. -/
def nearestEven (x : ℚ) : ℤ :=
  if Int.fract x < 1 / 2 then ⌊x⌋
  else if 1 / 2 < Int.fract x then ⌊x⌋ + 1
  else if ⌊x⌋ % 2 = 0 then ⌊x⌋
  else ⌊x⌋ + 1

section NearestEven

variable {n : ℤ} {x : ℚ}

@[simp] theorem nearestEven_intCast (n : ℤ) : nearestEven n = n := by
  simp [nearestEven]

theorem floor_le_nearestEven (x : ℚ) : ⌊x⌋ ≤ nearestEven x := by
  unfold nearestEven
  split_ifs <;> omega

theorem le_nearestEven (h : n ≤ x) : n ≤ nearestEven x :=
  (Int.le_floor.mpr h).trans (floor_le_nearestEven x)

theorem lt_nearestEven (h : n + 1 / 2 < x) : n < nearestEven x := by
  have hfloor : n ≤ ⌊x⌋ := Int.le_floor.mpr (by linarith)
  rcases hfloor.eq_or_lt with heq | hlt
  · have hfract : 1 / 2 < Int.fract x := by
      rw [Int.fract, ← heq]
      linarith
    rw [nearestEven, if_neg hfract.not_gt, if_pos hfract, ← heq]
    omega
  · exact hlt.trans_le (floor_le_nearestEven x)

theorem nearestEven_neg (x : ℚ) : nearestEven (-x) = -nearestEven x := by
  by_cases hwhole : Int.fract x = 0
  · obtain ⟨n, rfl⟩ : ∃ n : ℤ, x = n := ⟨⌊x⌋, by linarith [Int.self_sub_floor x]⟩
    rw [← Int.cast_neg, nearestEven_intCast, nearestEven_intCast]
  · have hceil : ⌈x⌉ = ⌊x⌋ + 1 := by
      rw [Int.ceil_eq_iff]
      have hpos := (Int.fract_nonneg x).lt_of_ne' hwhole
      have hlt := Int.fract_lt_one x
      rw [Int.fract] at hpos hlt
      push_cast
      constructor <;> linarith
    unfold nearestEven
    rw [Int.fract_neg hwhole, Int.floor_neg, hceil]
    split_ifs <;> first | omega | (exfalso; linarith)

end NearestEven

/-- The distance between the doubles of the magnitude of a number. -/
def ulp (x : ℚ) : ℚ := 2 ^ (Int.log 2 |x| - 52)

/-- The double that is nearest to a number. -/
def nearest (x : ℚ) : ℚ := nearestEven (x / ulp x) * ulp x

section Nearest

variable {n : ℤ} {x : ℚ}

theorem ulp_pos (x : ℚ) : 0 < ulp x := zpow_pos two_pos _

theorem ulp_neg (x : ℚ) : ulp (-x) = ulp x := by
  rw [ulp, abs_neg, ulp]

theorem nearest_neg (x : ℚ) : nearest (-x) = -nearest x := by
  rw [nearest, ulp_neg, neg_div, nearestEven_neg, nearest]
  push_cast
  ring

/-- A multiple of the distance is a double. -/
theorem nearest_of_eq_mul (h : x = n * ulp x) : nearest x = x := by
  have hquot : x / ulp x = n := by
    rw [div_eq_iff (ulp_pos x).ne']
    exact h
  rw [nearest, hquot, nearestEven_intCast, ← h]

theorem mul_ulp_le_nearest (h : n * ulp x ≤ x) : n * ulp x ≤ nearest x := by
  have hle : (n : ℚ) ≤ nearestEven (x / ulp x) := by
    exact_mod_cast le_nearestEven ((le_div_iff₀ (ulp_pos x)).mpr h)
  exact mul_le_mul_of_nonneg_right hle (ulp_pos x).le

theorem mul_ulp_lt_nearest (h : n * ulp x + ulp x / 2 < x) : n * ulp x < nearest x := by
  have hlt : (n : ℚ) < nearestEven (x / ulp x) := by
    refine Int.cast_lt.mpr (lt_nearestEven ((lt_div_iff₀ (ulp_pos x)).mpr ?_))
    linarith
  exact mul_lt_mul_of_pos_right hlt (ulp_pos x)

theorem ulp_mul_two_pow (x : ℚ) : ulp x * 2 ^ 52 = 2 ^ Int.log 2 |x| := by
  rw [ulp, ← zpow_natCast, ← zpow_add₀ two_ne_zero]
  norm_num

theorem log_lt_of_abs_lt (hx : x ≠ 0) (h : |x| < 2 ^ 53) : Int.log 2 |x| < 53 := by
  rw [← Int.lt_zpow_iff_log_lt one_lt_two (abs_pos.mpr hx)]
  exact_mod_cast h

/-- Every whole number is a multiple of a distance of at most one. -/
theorem exists_eq_mul_ulp (hx : x ≠ 0) (h : |x| < 2 ^ 53) (n : ℤ) : ∃ m : ℤ, (n : ℚ) = m * ulp x := by
  obtain ⟨k, hk⟩ := Int.eq_ofNat_of_zero_le (by linarith [log_lt_of_abs_lt hx h] :
    0 ≤ 52 - Int.log 2 |x|)
  refine ⟨n * 2 ^ k, ?_⟩
  rw [ulp, ← neg_sub, hk, zpow_neg, zpow_natCast]
  push_cast
  rw [mul_assoc, mul_inv_cancel₀ (by positivity), mul_one]

theorem nearest_zero : nearest 0 = 0 := by
  rw [nearest, zero_div]
  exact mul_eq_zero_of_left (by exact_mod_cast nearestEven_intCast 0) _

/-- A power of two is a double. -/
theorem nearest_of_eq_zpow (h : x = 2 ^ Int.log 2 |x|) : nearest x = x := by
  have hpow := ulp_mul_two_pow x
  refine @nearest_of_eq_mul (2 ^ 52) x ?_
  push_cast
  linarith

/-- Whole numbers up to `2 ^ 53` are doubles. -/
theorem nearest_intCast (h : |n| ≤ 2 ^ 53) : nearest n = n := by
  rcases eq_or_ne n 0 with rfl | hne
  · exact_mod_cast nearest_zero
  have hcast : |(n : ℚ)| ≤ 2 ^ 53 := by exact_mod_cast h
  rcases hcast.lt_or_eq with hlt | heq
  · obtain ⟨m, hm⟩ := exists_eq_mul_ulp (Int.cast_ne_zero.mpr hne) hlt n
    exact nearest_of_eq_mul hm
  · have hpow : nearest (2 ^ 53) = 2 ^ 53 := by
      apply nearest_of_eq_zpow
      have hlog : Int.log 2 |(2 : ℚ) ^ 53| = 53 := by
        rw [abs_of_pos (by positivity)]
        exact_mod_cast Int.log_zpow (R := ℚ) one_lt_two 53
      rw [hlog]
      rfl
    rcases (abs_eq (by positivity)).mp heq with hpos | hneg
    · rw [hpos, hpow]
    · rw [hneg, nearest_neg, hpow]

/-- Rounding does not pass a whole number up to `2 ^ 53`. -/
theorem le_nearest (hn : |n| ≤ 2 ^ 53) (h : n ≤ x) : n ≤ nearest x := by
  rcases eq_or_ne x 0 with rfl | hx
  · rwa [nearest_zero]
  rcases lt_or_ge |x| (2 ^ 53) with hsmall | hlarge
  · obtain ⟨m, hm⟩ := exists_eq_mul_ulp hx hsmall n
    rw [hm] at h ⊢
    exact mul_ulp_le_nearest h
  have hcast : |(n : ℚ)| ≤ 2 ^ 53 := by exact_mod_cast hn
  obtain ⟨hlow, hhigh⟩ := abs_le.mp hcast
  rcases hx.lt_or_gt with hneg | hpos
  · rw [abs_of_neg hneg] at hlarge
    have heq : x = n := by linarith
    rw [heq, nearest_intCast hn]
  · -- the power of two below `x` is a multiple of the distance and at least `2 ^ 53`
    have hpow : (2 ^ 52 : ℤ) * ulp x = 2 ^ Int.log 2 |x| := by
      have hmul := ulp_mul_two_pow x
      push_cast
      linarith
    have hlog : (53 : ℤ) ≤ Int.log 2 |x| := by
      rw [← Int.zpow_le_iff_le_log one_lt_two (abs_pos.mpr hx)]
      exact_mod_cast hlarge
    have hbound : (2 : ℚ) ^ 53 ≤ 2 ^ Int.log 2 |x| := by
      exact_mod_cast zpow_le_zpow_right₀ (one_le_two (α := ℚ)) hlog
    have hbelow : (2 : ℚ) ^ Int.log 2 |x| ≤ x := by
      have hle := Int.zpow_log_le_self (R := ℚ) one_lt_two (abs_pos.mpr hx)
      rw [abs_of_pos hpos] at hle ⊢
      exact_mod_cast hle
    have hnearest := mul_ulp_le_nearest (hpow.trans_le hbelow)
    linarith

theorem nearest_le (hn : |n| ≤ 2 ^ 53) (h : x ≤ n) : nearest x ≤ n := by
  have hneg := @le_nearest (-n) (-x) (by rwa [abs_neg]) (by push_cast; linarith)
  rw [nearest_neg] at hneg
  push_cast at hneg
  linarith

/-- A bound is reached by the double of a whole number when the number itself reaches it. -/
theorem le_nearest_intCast_iff {bound : ℚ} (hnonneg : 0 ≤ bound) (hbound : bound ≤ 2 ^ 53) :
    bound ≤ nearest n ↔ ⌈bound⌉ ≤ n := by
  have hceil : 0 ≤ ⌈bound⌉ := Int.ceil_nonneg hnonneg
  have hle : ⌈bound⌉ ≤ 2 ^ 53 := Int.ceil_le.mpr (by exact_mod_cast hbound)
  constructor
  · intro hreached
    by_contra hbelow
    have hround := @nearest_le (⌈bound⌉ - 1) n (abs_le.mpr ⟨by omega, by omega⟩)
      (by exact_mod_cast (by omega : n ≤ ⌈bound⌉ - 1))
    have hlt := Int.ceil_lt_add_one bound
    push_cast at hround
    linarith
  · intro hreached
    exact (Int.le_ceil bound).trans
      (le_nearest (by rwa [abs_of_nonneg hceil]) (by exact_mod_cast hreached))

/-- The distance is at most the share `2 ^ -52` of the number, and less unless it is a power
of two. -/
theorem ulp_lt (hx : 0 < x) (hpow : x ≠ 2 ^ Int.log 2 |x|) : ulp x * 2 ^ 52 < x := by
  have hle := Int.zpow_log_le_self (R := ℚ) one_lt_two hx
  rw [abs_of_pos hx] at hpow
  rw [ulp_mul_two_pow, abs_of_pos hx]
  exact lt_of_le_of_ne (by exact_mod_cast hle) hpow.symm

/-- A quotient that is no whole number is at least a divisor's part above any below it. -/
theorem one_div_le_sub {a d : ℤ} (hd : 0 < d) (h : (n : ℚ) < a / d) : 1 / d ≤ (a / d - n : ℚ) := by
  have hdiv : (0 : ℚ) < d := by exact_mod_cast hd
  rw [lt_div_iff₀ hdiv] at h
  have hlt : n * d + 1 ≤ a := by exact_mod_cast h
  rw [div_sub' hdiv.ne', div_le_div_iff_of_pos_right hdiv]
  have hcast : (n * d + 1 : ℚ) ≤ a := by exact_mod_cast hlt
  linarith

/-- Rounding does not move the ceiling of a quotient of whole numbers up to `2 ^ 53`. -/
theorem ceil_nearest_div {a d : ℤ} (ha : 0 < a) (hle : a ≤ 2 ^ 53) (hd : 0 < d) :
    ⌈nearest (a / d)⌉ = ⌈(a / d : ℚ)⌉ := by
  have ha' : (0 : ℚ) < a := by exact_mod_cast ha
  have hle' : (a : ℚ) ≤ 2 ^ 53 := by exact_mod_cast hle
  have hd' : (1 : ℚ) ≤ d := by exact_mod_cast hd
  have hpos : (0 : ℚ) < a / d := by positivity
  have hquot : (a / d : ℚ) ≤ 2 ^ 53 := (div_le_self ha'.le hd').trans hle'
  by_cases hpow : (a / d : ℚ) = 2 ^ Int.log 2 |(a / d : ℚ)|
  · rw [nearest_of_eq_zpow hpow]
  have hceil : 0 < ⌈(a / d : ℚ)⌉ := Int.ceil_pos.mpr hpos
  have hbound : ⌈(a / d : ℚ)⌉ ≤ 2 ^ 53 := Int.ceil_le.mpr (by exact_mod_cast hquot)
  rw [Int.ceil_eq_iff]
  constructor
  · -- the whole number below the quotient is more than half a distance away
    have hbelow : ((⌈(a / d : ℚ)⌉ - 1 : ℤ) : ℚ) < a / d := by
      push_cast
      linarith [Int.ceil_lt_add_one (a / d : ℚ)]
    have hsmall : |(a / d : ℚ)| < 2 ^ 53 := by
      rw [abs_of_pos hpos]
      refine hquot.lt_of_ne fun heq => hpow ?_
      rw [heq, abs_of_pos (by positivity)]
      have hlog := Int.log_zpow (R := ℚ) one_lt_two 53
      rw [show ((2 : ℚ) ^ 53) = ((2 : ℕ) : ℚ) ^ (53 : ℤ) by norm_num, hlog]
      norm_num
    obtain ⟨m, hm⟩ := exists_eq_mul_ulp hpos.ne' hsmall (⌈(a / d : ℚ)⌉ - 1)
    have hgap := one_div_le_sub hd hbelow
    have hhalf : ulp (a / d) / 2 < 1 / d := by
      have hulp := ulp_lt hpos hpow
      rw [lt_div_iff₀ (by linarith)] at hulp ⊢
      linarith
    have hlt := @mul_ulp_lt_nearest m (a / d) (by rw [← hm]; linarith)
    rw [← hm] at hlt
    exact_mod_cast hlt
  · exact nearest_le (by rw [abs_of_pos hceil]; exact hbound) (Int.le_ceil _)

end Nearest

/-- The double that is nearest to a whole number, which is whole itself. -/
def nearestInt (n : ℤ) : ℤ := ⌊nearest n⌋

theorem intCast_nearestInt (n : ℤ) : (nearestInt n : ℚ) = nearest n := by
  rcases le_or_gt |n| (2 ^ 53) with hsmall | hlarge
  · rw [nearestInt, nearest_intCast hsmall, Int.floor_intCast]
  · have hlarge' : (2 : ℚ) ^ 53 < |(n : ℚ)| := by exact_mod_cast hlarge
    have hlog : (53 : ℤ) ≤ Int.log 2 |(n : ℚ)| := by
      rw [← Int.zpow_le_iff_le_log one_lt_two (by linarith [pow_pos (two_pos (α := ℚ)) 53])]
      exact_mod_cast hlarge'.le
    obtain ⟨k, hk⟩ := Int.eq_ofNat_of_zero_le (by linarith : 0 ≤ Int.log 2 |(n : ℚ)| - 52)
    have hulp : ulp n = ((2 ^ k : ℤ) : ℚ) := by
      rw [ulp, hk, zpow_natCast]
      push_cast
      rfl
    rw [nearestInt, nearest, hulp, ← Int.cast_mul, Int.floor_intCast]

section NearestInt

variable {m n : ℤ}

theorem nearestInt_of_abs_le (h : |n| ≤ 2 ^ 53) : nearestInt n = n := by
  rw [nearestInt, nearest_intCast h, Int.floor_intCast]

theorem le_nearestInt (hm : |m| ≤ 2 ^ 53) (h : m ≤ n) : m ≤ nearestInt n := by
  have hle := le_nearest hm (Int.cast_le.mpr h)
  rw [← intCast_nearestInt] at hle
  exact_mod_cast hle

end NearestInt

end Binary64
