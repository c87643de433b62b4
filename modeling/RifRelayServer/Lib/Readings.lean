import Mathlib.Data.List.Basic
import Mathlib.Order.Lattice
import Mathlib.Tactic.Common

/-!
# Readings of a source that changes

A reader keeps the last value it read, but skips values of one kind. The source
goes through versions, and its changes are announced. When nothing is skipped
while the value kept claims to be current, a kept value with that claim is one
the source had since the last change the reader was told of.
-/

namespace Readings

variable {α : Type*} {skipped claims : α → Bool} {last : Option α} {a : α} {as bs : List α}

def next (skipped : α → Bool) (last : Option α) (a : α) : Option α :=
  if skipped a then last else some a

def kept (skipped : α → Bool) (last : Option α) (as : List α) : Option α :=
  as.foldl (next skipped) last

@[simp] theorem kept_nil : kept skipped last [] = last := rfl

@[simp] theorem kept_cons :
    kept skipped last (a :: as) = kept skipped (next skipped last a) as := rfl

theorem kept_append : kept skipped last (as ++ bs) = kept skipped (kept skipped last as) bs :=
  List.foldl_append

/-- Whenever a value is skipped, the value kept claims nothing. -/
def skipsUnclaimed (skipped claims : α → Bool) (last : Option α) : List α → Bool
  | [] => true
  | a :: as =>
      (!skipped a || !last.any claims) && skipsUnclaimed skipped claims (next skipped last a) as

/-- A kept value with a claim is the last one that was read. -/
theorem getLast_of_kept (h : skipsUnclaimed skipped claims last as = true) (hne : as ≠ [])
    (hkept : kept skipped last as = some a) (hclaims : claims a = true) :
    as.getLast? = some a := by
  induction as generalizing last with
  | nil => exact absurd rfl hne
  | cons b bs ih =>
      obtain ⟨hfirst, hrest⟩ := Bool.and_eq_true_iff.mp h
      by_cases hbs : bs = []
      · subst hbs
        rw [kept_cons, kept_nil, next] at hkept
        split at hkept
        next hskipped => simp [hskipped, hkept, hclaims] at hfirst
        · exact hkept
      · rw [List.getLast?_cons_of_ne_nil hbs]
        exact ih hrest hbs hkept

variable {ι : Type*} [LinearOrder ι]

/-- The value is that of a version between the two. -/
def Between (source : ι → α) (first final : ι) (a : α) : Prop :=
  ∃ version, first ≤ version ∧ version ≤ final ∧ a = source version

theorem Between.mono {source : ι → α} {first final first' final' : ι}
    (h : Between source first final a) (hfirst : first' ≤ first) (hfinal : final ≤ final') :
    Between source first' final' a := by
  obtain ⟨version, hle, hge, ha⟩ := h
  exact ⟨version, hfirst.trans hle, hge.trans hfinal, ha⟩

/-- A kept value with a claim is one the source had since the last change announced. -/
def Mirrors (source : ι → α) (claims : α → Bool) (announced version : ι) (last : Option α) :
    Prop :=
  ∀ a, last = some a → claims a = true → Between source announced version a

variable {source : ι → α} {announced version announced' version' : ι}

/-- The reader reads at least once when it is told of new changes, and then what the
source has at that time or later. -/
theorem Mirrors.read (h : Mirrors source claims announced version last)
    (hskips : skipsUnclaimed skipped claims last as = true)
    (hreads : ∀ a ∈ as, Between source announced' version' a) (hversion : version ≤ version')
    (htold : announced < announced' → as ≠ []) :
    Mirrors source claims announced' version' (kept skipped last as) := by
  intro a hkept hclaims
  by_cases hne : as = []
  · subst hne
    have hsame : announced' ≤ announced := not_lt.mp fun hlt => htold hlt rfl
    exact (h a hkept hclaims).mono hsame hversion
  · exact hreads a (List.mem_of_getLast? (getLast_of_kept hskips hne hkept hclaims))

theorem Mirrors.eq_source (h : Mirrors source claims version version last) (hlast : last = some a)
    (hclaims : claims a = true) : a = source version := by
  obtain ⟨v, hle, hge, ha⟩ := h a hlast hclaims
  rwa [le_antisymm hge hle] at ha

end Readings
