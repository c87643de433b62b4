import Mathlib.Algebra.Order.Round
import Mathlib.Tactic.Linarith
import Mathlib.Tactic.FieldSimp
import Mathlib.Tactic.Ring
import Mathlib.Tactic.Positivity

/-!
# Rounding half up, away from zero

Decimal libraries round a quotient to a fixed number of decimal places, and
break ties away from zero. Both roundings are stated here over an arbitrary
ordered field with a floor function. The lemmas say when a rounded value
reaches a bound, which is what comparisons against rounded numbers need.
-/

namespace HalfUp

variable {α : Type*} [Field α] [LinearOrder α] [IsStrictOrderedRing α] [FloorRing α]

def toInt (x : α) : ℤ := if 0 ≤ x then round x else -round (-x)

/-- The nearest decimal with `k` places, ties away from zero. -/
def toPlaces (k : ℕ) (x : α) : α := toInt (x * 10 ^ k) / 10 ^ k

omit [IsStrictOrderedRing α] in
theorem toInt_of_nonneg {x : α} (hx : 0 ≤ x) : toInt x = round x := if_pos hx

@[simp] theorem toInt_intCast (n : ℤ) : toInt (n : α) = n := by
  unfold toInt
  split
  · exact round_intCast n
  · rw [← Int.cast_neg, round_intCast, neg_neg]

@[simp] theorem toInt_natCast (n : ℕ) : toInt (n : α) = n := by
  simpa using toInt_intCast (α := α) n

@[simp] theorem toInt_zero : toInt (0 : α) = 0 := by
  simpa using toInt_intCast (α := α) 0

theorem le_toInt_iff {x : α} (hx : 0 ≤ x) (m : ℤ) : m ≤ toInt x ↔ (m : α) - 1 / 2 ≤ x := by
  rw [toInt_of_nonneg hx, round_eq, Int.le_floor]
  constructor <;> intro h <;> linarith

theorem toInt_nonneg {x : α} (hx : 0 ≤ x) : 0 ≤ toInt x := by
  rw [le_toInt_iff hx]
  push_cast
  linarith

theorem toInt_le_add_half {x : α} (hx : 0 ≤ x) : (toInt x : α) ≤ x + 1 / 2 := by
  rw [toInt_of_nonneg hx]
  exact round_le_add_half x

/-- Rounding at most doubles: what is rounded up is at least one half. -/
theorem toInt_le_two_mul {x : α} (hx : 0 ≤ x) : (toInt x : α) ≤ 2 * x := by
  rcases lt_or_ge (toInt x) 1 with h | h
  · have hz : (toInt x : α) ≤ 0 := by exact_mod_cast Int.lt_add_one_iff.mp h
    linarith
  · have hhalf := (le_toInt_iff hx 1).mp h
    have hup := toInt_le_add_half hx
    push_cast at hhalf
    linarith

theorem abs_toInt_sub_le (x : α) : |(toInt x : α) - x| ≤ 1 / 2 := by
  unfold toInt
  split
  · rw [abs_sub_comm]
    exact abs_sub_round x
  · have hswap : ((-round (-x) : ℤ) : α) - x = -x - round (-x) := by
      push_cast
      ring
    rw [hswap]
    exact abs_sub_round (-x)

theorem toInt_le_toInt {x y : α} (hx : 0 ≤ x) (hxy : x ≤ y) : toInt x ≤ toInt y := by
  have hhalf := (le_toInt_iff hx (toInt x)).mp le_rfl
  exact (le_toInt_iff (hx.trans hxy) _).mpr (hhalf.trans hxy)

theorem toInt_add_natCast {x : α} (hx : 0 ≤ x) (n : ℕ) : toInt (x + n) = toInt x + n := by
  rw [toInt_of_nonneg hx, toInt_of_nonneg (add_nonneg hx n.cast_nonneg), round_add_natCast]

theorem toPlaces_nonneg {k : ℕ} {x : α} (hx : 0 ≤ x) : 0 ≤ toPlaces k x := by
  have h : 0 ≤ toInt (x * 10 ^ k) := toInt_nonneg (by positivity)
  exact div_nonneg (by exact_mod_cast h) (by positivity)

/-- What rounding to `k` places is off by. -/
theorem abs_toPlaces_sub_le (k : ℕ) (x : α) : |toPlaces k x - x| ≤ 1 / (2 * 10 ^ k) := by
  have hk : (0 : α) < 10 ^ k := by positivity
  have hunit : toPlaces k x - x = ((toInt (x * 10 ^ k) : α) - x * 10 ^ k) / 10 ^ k := by
    rw [toPlaces]
    field_simp
  rw [hunit, abs_div, abs_of_pos hk, div_le_div_iff₀ hk (by positivity)]
  have habs := mul_le_mul_of_nonneg_right (abs_toInt_sub_le (x * 10 ^ k)) hk.le
  linarith

theorem toPlaces_le_toPlaces {k : ℕ} {x y : α} (hx : 0 ≤ x) (hxy : x ≤ y) :
    toPlaces k x ≤ toPlaces k y := by
  have hk : (0 : α) < 10 ^ k := by positivity
  have hint : toInt (x * 10 ^ k) ≤ toInt (y * 10 ^ k) :=
    toInt_le_toInt (by positivity) (mul_le_mul_of_nonneg_right hxy hk.le)
  exact div_le_div_of_nonneg_right (by exact_mod_cast hint) hk.le

theorem toPlaces_of_exact {k : ℕ} {x : α} (n : ℤ) (h : x * 10 ^ k = n) : toPlaces k x = x := by
  rw [toPlaces, h, toInt_intCast, ← h]
  field_simp

theorem toPlaces_intCast (k : ℕ) (n : ℤ) : toPlaces k (n : α) = n :=
  toPlaces_of_exact (n * 10 ^ k) (by push_cast; ring)

theorem toPlaces_div_pow {k d : ℕ} (hd : d ≤ k) (n : ℤ) :
    toPlaces k ((n : α) / 10 ^ d) = n / 10 ^ d := by
  apply toPlaces_of_exact (n * 10 ^ (k - d))
  have hsplit : (10 : α) ^ k = 10 ^ (k - d) * 10 ^ d := by
    rw [← pow_add, Nat.sub_add_cancel hd]
  push_cast
  rw [hsplit]
  field_simp

@[simp] theorem toPlaces_zero (k : ℕ) : toPlaces k (0 : α) = 0 := by
  simpa using toPlaces_intCast (α := α) k 0

/-- Rounding to `k` places reaches a decimal `c` with `k` places exactly from
half a unit of the last place below `c` on. -/
theorem le_toPlaces_iff {k : ℕ} {x c : α} (hx : 0 ≤ x) (n : ℤ) (hc : c * 10 ^ k = n) :
    c ≤ toPlaces k x ↔ c - 1 / (2 * 10 ^ k) ≤ x := by
  have hk : (0 : α) < 10 ^ k := by positivity
  have hunit : c - 1 / (2 * 10 ^ k) = (n - 1 / 2) / 10 ^ k := by
    rw [← hc]
    field_simp
  rw [toPlaces, le_div_iff₀ hk, hc, Int.cast_le, le_toInt_iff (by positivity), hunit,
    div_le_iff₀ hk]

theorem intCast_le_toPlaces_iff {k : ℕ} {x : α} (hx : 0 ≤ x) (m : ℤ) :
    (m : α) ≤ toPlaces k x ↔ (m : α) - 1 / (2 * 10 ^ k) ≤ x :=
  le_toPlaces_iff hx (m * 10 ^ k) (by push_cast; ring)

/-- Rounding to `k + 1` places first and to an integer afterwards reaches `m`
from half a unit, and half a unit of the last place, below `m` on. -/
theorem le_toInt_toPlaces_iff (k : ℕ) {x : α} (hx : 0 ≤ x) (m : ℤ) :
    m ≤ toInt (toPlaces (k + 1) x) ↔ (m : α) - 1 / 2 - 1 / (2 * 10 ^ (k + 1)) ≤ x := by
  rw [le_toInt_iff (toPlaces_nonneg hx)]
  apply le_toPlaces_iff hx (m * 10 ^ (k + 1) - 5 * 10 ^ k)
  push_cast
  ring

theorem toPlaces_le_two_mul (k : ℕ) {x : α} (hx : 0 ≤ x) : toPlaces k x ≤ 2 * x := by
  have hk : (0 : α) < 10 ^ k := by positivity
  have h := toInt_le_two_mul (x := x * 10 ^ k) (by positivity)
  rw [toPlaces, div_le_iff₀ hk]
  linarith

end HalfUp
