import Mathlib.Data.List.Nodup
import Mathlib.Tactic.Common

/-!
# Sets and records in insertion order

A set that lists its members in the order they came, and a record that lists its
fields so. A member that is there already is not added again; a field that is there
already keeps its place and takes the new value.
-/

namespace InsertionOrder

section Sets

variable {α : Type*} [DecidableEq α] {items news : List α} {item x : α}

def add (items : List α) (item : α) : List α := if item ∈ items then items else items ++ [item]

def addAll (items news : List α) : List α := news.foldl add items

@[simp] theorem mem_add : x ∈ add items item ↔ x ∈ items ∨ x = item := by
  unfold add
  split
  next hmem => exact ⟨Or.inl, fun h => h.elim id fun heq => heq ▸ hmem⟩
  · rw [List.mem_append, List.mem_singleton]

theorem nodup_add (h : items.Nodup) : (add items item).Nodup := by
  unfold add
  split
  · exact h
  next hnew =>
    refine List.nodup_append.mpr ⟨h, List.nodup_singleton _, ?_⟩
    rintro a ha b hb rfl
    exact hnew (List.mem_singleton.mp hb ▸ ha)

@[simp] theorem mem_addAll : x ∈ addAll items news ↔ x ∈ items ∨ x ∈ news := by
  induction news generalizing items with
  | nil => simp [addAll]
  | cons new news ih => rw [addAll, List.foldl_cons, ← addAll, ih, mem_add, List.mem_cons, or_assoc]

theorem nodup_addAll (h : items.Nodup) : (addAll items news).Nodup := by
  induction news generalizing items with
  | nil => exact h
  | cons new news ih => exact ih (nodup_add h)

end Sets

section Records

variable {K V : Type*} [DecidableEq K] {record : List (K × V)} {key : K} {value : V}
  {field : K × V}

def assign (record : List (K × V)) (key : K) (value : V) : List (K × V) :=
  if key ∈ record.map Prod.fst then
    record.map fun field => if field.1 = key then (key, value) else field
  else record ++ [(key, value)]

theorem map_fst_assign :
    (assign record key value).map Prod.fst = add (record.map Prod.fst) key := by
  unfold assign add
  split
  · rw [List.map_map]
    apply List.map_congr_left
    intro field _
    by_cases h : field.1 = key <;> simp [h]
  · rw [List.map_append, List.map_singleton]

theorem mem_assign :
    field ∈ assign record key value ↔ (field ∈ record ∧ field.1 ≠ key) ∨ field = (key, value) := by
  unfold assign
  split
  next hkey =>
    obtain ⟨old, hold, hsame⟩ := List.mem_map.mp hkey
    rw [List.mem_map]
    constructor
    · rintro ⟨it, hit, rfl⟩
      split
      · exact Or.inr rfl
      next hne => exact Or.inl ⟨hit, hne⟩
    · rintro (⟨hmem, hne⟩ | rfl)
      · exact ⟨field, hmem, if_neg hne⟩
      · exact ⟨old, hold, if_pos hsame⟩
  next hfree =>
    rw [List.mem_append, List.mem_singleton]
    refine or_congr_left ⟨fun hmem => ⟨hmem, ?_⟩, And.left⟩
    rintro rfl
    exact hfree (List.mem_map_of_mem hmem)

end Records

end InsertionOrder
