import Mathlib

/-!
# The latest of some items

Items have a key in a linear order, and the latest of them is one with the greatest
key. Which of the items with that key it is depends on how it was found; its key
does not.
-/

namespace Latest

variable {α β : Type*} [LinearOrder β] {key : α → β}

/-- An item with the greatest key, or none if there are no items. -/
def IsLatest (key : α → β) (items : Set α) : Option α → Prop
  | none => items = ∅
  | some a => a ∈ items ∧ ∀ b ∈ items, key b ≤ key a

theorem IsLatest.eq_none_iff {items : Set α} {last : Option α} (h : IsLatest key items last) :
    last = none ↔ items = ∅ := by
  cases last with
  | none => exact iff_of_true rfl h
  | some a => exact iff_of_false nofun (Set.Nonempty.ne_empty ⟨a, h.1⟩)

/-- Two latest items of the same items have the same key. -/
theorem IsLatest.map_key_eq {items : Set α} {last other : Option α}
    (h : IsLatest key items last) (hother : IsLatest key items other) :
    last.map key = other.map key := by
  cases last with
  | none => rw [hother.eq_none_iff.mpr (h.eq_none_iff.mp rfl)]
  | some a =>
      cases other with
      | none => exact absurd (h.eq_none_iff.mpr (hother.eq_none_iff.mp rfl)) nofun
      | some b => exact congrArg some (le_antisymm (hother.2 a h.1) (h.2 b hother.1))

/-- The given item, if it is later than the last one. -/
def later (key : α → β) (last : Option α) (a : α) : Option α :=
  if last.all fun b => key b < key a then some a else last

theorem isLatest_later {items : Set α} {last : Option α} (h : IsLatest key items last) (a : α) :
    IsLatest key (insert a items) (later key last a) := by
  unfold later
  cases last with
  | none =>
      have hempty : items = ∅ := h
      rw [Option.all_none, if_pos rfl, hempty]
      refine ⟨Set.mem_insert a ∅, ?_⟩
      rintro b (rfl | hb)
      · exact le_rfl
      · exact absurd hb (Set.notMem_empty b)
  | some b =>
      simp only [Option.all_some, decide_eq_true_eq]
      split
      next hlater =>
        refine ⟨Set.mem_insert a items, ?_⟩
        rintro c (rfl | hc)
        · exact le_rfl
        · exact (h.2 c hc).trans hlater.le
      next hnot =>
        refine ⟨Set.mem_insert_of_mem a h.1, ?_⟩
        rintro c (rfl | hc)
        · exact not_lt.mp hnot
        · exact h.2 c hc

/-- A loop goes on from the latest of some items with others. -/
theorem isLatest_foldl_later {items : Set α} {last : Option α} (h : IsLatest key items last)
    (others : List α) :
    IsLatest key (items ∪ {a | a ∈ others}) (others.foldl (later key) last) := by
  induction others generalizing items last with
  | nil => simpa using h
  | cons a others ih =>
      have hmem : items ∪ {b | b ∈ a :: others} = insert a items ∪ {b | b ∈ others} := by
        ext b
        simp only [Set.mem_union, Set.mem_ofPred_eq, List.mem_cons, Set.mem_insert_iff]
        tauto
      rw [List.foldl_cons, hmem]
      exact ih (isLatest_later h a)

/-- The first of the items in descending order. -/
theorem isLatest_head? {items : List α} (hsorted : items.Pairwise fun a b => key b ≤ key a) :
    IsLatest key {a | a ∈ items} items.head? := by
  cases items with
  | nil => exact Set.eq_empty_of_forall_notMem fun a => List.not_mem_nil
  | cons a items =>
      refine ⟨List.mem_cons_self, fun b hb => ?_⟩
      rcases List.mem_cons.mp hb with rfl | hb
      · exact le_rfl
      · exact (List.pairwise_cons.mp hsorted).1 b hb

end Latest
