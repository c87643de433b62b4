import Mathlib

/-!
# Items of a range of positions

What is asked for over a range of positions, both ends included, is listed
position by position. Ranges that follow on each other list what the whole range
does. Ranges that share their ends list what lies at a shared end once more.
-/

namespace Ranges

variable {α : Type*} (items : ℕ → List α) (latest : ℕ)

/-- The items at the positions from `a` to `b`, as far as there are any. -/
def between (a b : ℤ) : List α :=
  ((List.range (latest + 1)).filter fun n : ℕ => decide (a ≤ n) && decide ((n : ℤ) ≤ b)).flatMap items

variable {items latest}

theorem between_self_eq_nil_iff {b : ℤ} :
    between items latest b b = [] ↔ ∀ n ≤ latest, (n : ℤ) = b → items n = [] := by
  simp only [between, List.flatMap_eq_nil_iff, List.mem_filter, List.mem_range, Bool.and_eq_true,
    decide_eq_true_eq, Order.lt_add_one_iff]
  exact forall_congr' fun n =>
    ⟨fun h hn hb => h ⟨hn, hb.ge, hb.le⟩, fun h hn => h hn.1 (le_antisymm hn.2.2 hn.2.1)⟩

theorem filter_append_filter {a b c : ℤ} (hab : a ≤ b + 1) (hbc : b ≤ c) {positions : List ℕ}
    (hsorted : positions.Pairwise (· ≤ ·)) :
    (positions.filter fun n : ℕ => decide (a ≤ n) && decide ((n : ℤ) ≤ b)) ++
        (positions.filter fun n : ℕ => decide (b < n) && decide ((n : ℤ) ≤ c)) =
      positions.filter fun n : ℕ => decide (a ≤ n) && decide ((n : ℤ) ≤ c) := by
  induction positions with
  | nil => rfl
  | cons n positions ih =>
      obtain ⟨hfirst, hrest⟩ := List.pairwise_cons.mp hsorted
      specialize ih hrest
      rcases le_or_gt (n : ℤ) b with hle | hgt
      · have hlast : (n : ℤ) ≤ c := hle.trans hbc
        by_cases ha : a ≤ (n : ℤ) <;> simp [ha, hle, hle.not_gt, hlast, ih]
      · -- from here on nothing is in the first range
        have hempty : (positions.filter fun n : ℕ =>
            decide (a ≤ n) && decide ((n : ℤ) ≤ b)) = [] := by
          apply List.filter_eq_nil_iff.mpr
          intro k hk
          have := hfirst k hk
          simp only [Bool.and_eq_true, decide_eq_true_eq, not_and, not_le]
          omega
        have hfrom : a ≤ (n : ℤ) := by omega
        rw [hempty, List.nil_append] at ih
        by_cases hc : (n : ℤ) ≤ c <;> simp [hgt.not_ge, hfrom, hgt, hc, ih, hempty]

theorem between_append {a b c : ℤ} (hab : a ≤ b + 1) (hbc : b ≤ c) :
    between items latest a b ++ between items latest (b + 1) c = between items latest a c := by
  simp only [between, Int.add_one_le_iff]
  rw [← List.flatMap_append, filter_append_filter hab hbc List.pairwise_le_range]

theorem between_eq_cons {b c : ℤ} (hbc : b ≤ c) :
    between items latest b c = between items latest b b ++ between items latest (b + 1) c :=
  (between_append (by omega) hbc).symm

theorem length_between_append {a b c : ℤ} (hab : a ≤ b + 1) (hbc : b ≤ c) :
    (between items latest a b ++ between items latest b c).length =
      (between items latest a c).length + (between items latest b b).length := by
  rw [← @between_append _ items latest _ _ _ hab hbc, between_eq_cons hbc]
  simp only [List.length_append]
  omega

section Parts

variable (items latest) (first step last : ℤ)

/-- The part with the given index of a range in steps of `step`. -/
def part (index : ℕ) : List α :=
  between items latest (first + step * index) (min last (first + step * (index + 1 : ℕ)))

/-- What lies at the end that a part shares with the next one. -/
def sharedEnd (index : ℕ) : List α :=
  between items latest (first + step * (index + 1 : ℕ)) (first + step * (index + 1 : ℕ))

variable {items latest first step last}

theorem length_flatMap_part (hstep : 0 < step) {m : ℕ} (hm : first + step * m ≤ last) :
    ((List.range (m + 1)).flatMap (part items latest first step last)).length =
      (between items latest first (min last (first + step * (m + 1 : ℕ)))).length +
        ((List.range m).flatMap (sharedEnd items latest first step)).length := by
  induction m with
  | zero => simp [part]
  | succ m ih =>
      have hprevious : first + step * (m : ℕ) ≤ last := by
        push_cast at hm ⊢
        nlinarith
      have hmin : min last (first + step * (m + 1 : ℕ)) = first + step * (m + 1 : ℕ) :=
        min_eq_right hm
      rw [List.range_succ, List.flatMap_append, List.length_append, ih hprevious, List.range_succ,
        List.flatMap_append, List.length_append, hmin]
      have hjoin := @length_between_append _ items latest first (first + step * (m + 1 : ℕ))
        (min last (first + step * (m + 1 + 1 : ℕ))) (by push_cast; nlinarith)
        (le_min hm (by push_cast; nlinarith))
      simp only [List.flatMap_cons, List.flatMap_nil, List.append_nil, List.length_append, part,
        sharedEnd] at hjoin ⊢
      omega

theorem flatMap_part_eq (hstep : 0 < step) {m : ℕ} (hm : first + step * m ≤ last)
    (hshared : ∀ index < m, sharedEnd items latest first step index = []) :
    (List.range (m + 1)).flatMap (part items latest first step last) =
      between items latest first (min last (first + step * (m + 1 : ℕ))) := by
  induction m with
  | zero => simp [part]
  | succ m ih =>
      have hprevious : first + step * (m : ℕ) ≤ last := by
        push_cast at hm ⊢
        nlinarith
      have hmin : min last (first + step * (m + 1 : ℕ)) = first + step * (m + 1 : ℕ) :=
        min_eq_right hm
      have hle : first + step * (m + 1 : ℕ) ≤ min last (first + step * (m + 1 + 1 : ℕ)) :=
        le_min hm (by push_cast; nlinarith)
      have hend := hshared m (Nat.lt_succ_self m)
      rw [sharedEnd] at hend
      rw [List.range_succ, List.flatMap_append,
        ih hprevious fun index hindex => hshared index (hindex.trans (Nat.lt_succ_self m)), hmin,
        List.flatMap_singleton, part, between_eq_cons hle, hend, List.nil_append]
      exact between_append (by push_cast; nlinarith) hle

/-- The parts list what the whole range does, exactly when nothing lies at a
shared end. -/
theorem flatMap_part_eq_iff (hstep : 0 < step) {m : ℕ} (hm : first + step * m ≤ last)
    (hlast : last ≤ first + step * (m + 1 : ℕ)) :
    (List.range (m + 1)).flatMap (part items latest first step last) =
        between items latest first last ↔
      ∀ index < m, sharedEnd items latest first step index = [] := by
  have hmin : min last (first + step * (m + 1 : ℕ)) = last := min_eq_left hlast
  constructor
  · intro h
    have hlength := @length_flatMap_part _ items latest _ _ _ hstep _ hm
    rw [hmin, h] at hlength
    have hnil : (List.range m).flatMap (sharedEnd items latest first step) = [] :=
      List.eq_nil_of_length_eq_zero (by omega)
    exact fun index hindex => List.flatMap_eq_nil_iff.mp hnil index (List.mem_range.mpr hindex)
  · intro hshared
    rw [flatMap_part_eq hstep hm hshared, hmin]

end Parts

end Ranges
