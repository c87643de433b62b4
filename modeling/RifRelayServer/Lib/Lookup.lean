import Mathlib.Data.List.Nodup
import Mathlib.Logic.Function.Basic
import Mathlib.Tactic.Common

/-!
# Lists with distinct keys as finite maps

Such a list holds at most one item under a key. Adding an item under a free key,
changing items without changing their keys, and removing items are the usual
operations on the map of what is found under each key.
-/

namespace Lookup

variable {K V : Type*} [DecidableEq K] (key : V → K)

def lookup (items : List V) (k : K) : Option V := items.find? fun item => key item = k

variable {key} {items : List V} {item : V} {k : K}

theorem lookup_eq_some_iff (hnodup : (items.map key).Nodup) :
    lookup key items k = some item ↔ item ∈ items ∧ key item = k := by
  constructor
  · intro h
    exact ⟨List.mem_of_find?_eq_some h, by simpa using List.find?_some h⟩
  · rintro ⟨hmem, rfl⟩
    obtain ⟨found, hfound⟩ := Option.isSome_iff_exists.mp
      (List.find?_isSome.mpr ⟨item, hmem, decide_eq_true rfl⟩ :
        (lookup key items (key item)).isSome)
    have hkey : key found = key item := by simpa using List.find?_some hfound
    rw [lookup, hfound, List.inj_on_of_nodup_map hnodup (List.mem_of_find?_eq_some hfound) hmem hkey]

theorem lookup_eq_none_iff : lookup key items k = none ↔ ∀ item ∈ items, key item ≠ k := by
  simp [lookup, List.find?_eq_none]

@[simp] theorem lookup_nil : lookup key [] = fun _ => none := rfl

theorem lookup_append_singleton (hfree : lookup key items (key item) = none) :
    lookup key (items ++ [item]) = Function.update (lookup key items) (key item) (some item) := by
  funext k
  rw [lookup, List.find?_append]
  rcases eq_or_ne k (key item) with rfl | hne
  · rw [lookup] at hfree
    simp [hfree]
  · rw [Function.update_of_ne hne, lookup]
    simp [hne.symm]

theorem lookup_map {f : V → V} (hkey : ∀ item ∈ items, key (f item) = key item) :
    lookup key (items.map f) k = (lookup key items k).map f := by
  induction items with
  | nil => rfl
  | cons item items ih =>
      have hrest := ih fun it hit => hkey it (List.mem_cons_of_mem _ hit)
      simp only [lookup, List.map_cons, List.find?_cons, hkey item List.mem_cons_self] at hrest ⊢
      split
      · rfl
      · exact hrest

/-- Changing one item only, under its own key. -/
theorem lookup_map_of_only (hnodup : (items.map key).Nodup) (hmem : item ∈ items) {f : V → V}
    (hkey : key (f item) = key item) (honly : ∀ other ∈ items, other ≠ item → f other = other) :
    lookup key (items.map f) = Function.update (lookup key items) (key item) (some (f item)) := by
  have hkeys : ∀ other ∈ items, key (f other) = key other := by
    intro other hother
    rcases eq_or_ne other item with rfl | hne
    · exact hkey
    · rw [honly other hother hne]
  funext k
  rw [lookup_map hkeys]
  rcases eq_or_ne k (key item) with rfl | hne
  · rw [Function.update_self, (lookup_eq_some_iff hnodup).mpr ⟨hmem, rfl⟩, Option.map_some]
  · rw [Function.update_of_ne hne]
    cases hfound : lookup key items k with
    | none => rfl
    | some other =>
        obtain ⟨hother, rfl⟩ := (lookup_eq_some_iff hnodup).mp hfound
        rw [Option.map_some, honly other hother fun heq => hne (congrArg key heq)]

theorem lookup_filter (hnodup : (items.map key).Nodup) (keep : V → Bool) :
    lookup key (items.filter keep) k = (lookup key items k).filter keep := by
  have hnodup' : ((items.filter keep).map key).Nodup :=
    (List.filter_sublist.map key).nodup hnodup
  ext item
  rw [lookup_eq_some_iff hnodup', Option.filter_eq_some_iff, lookup_eq_some_iff hnodup,
    List.mem_filter, and_right_comm]

end Lookup
