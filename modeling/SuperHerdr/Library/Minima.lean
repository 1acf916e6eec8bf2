import Mathlib

/-!
# Least items

The least item of a list by a comparison, the first of them if there are several.
-/

namespace Minima

open Std

variable {α : Type*} (cmp : α → α → Ordering)

/-- The item that is kept of two: the first, unless it is greater. -/
def lesser (a b : α) : α := if cmp a b = .gt then b else a

def minBy : List α → Option α
  | [] => none
  | a :: rest => some (rest.foldl (lesser cmp) a)

theorem minBy_eq_none_iff {l : List α} : minBy cmp l = none ↔ l = [] := by
  cases l <;> simp [minBy]

theorem lesser_eq_or (a b : α) : lesser cmp a b = a ∨ lesser cmp a b = b := by
  rw [lesser]
  split
  · exact .inr rfl
  · exact .inl rfl

variable [TransCmp cmp]

theorem isLE_lesser (a b : α) :
    (cmp (lesser cmp a b) a).isLE ∧ (cmp (lesser cmp a b) b).isLE := by
  rw [lesser]
  split
  · next hgt => exact ⟨by rw [OrientedCmp.gt_iff_lt.mp hgt]; rfl, ReflCmp.isLE_rfl⟩
  · next hle => exact ⟨ReflCmp.isLE_rfl, Ordering.ne_gt_iff_isLE.mp hle⟩

/-- **The least item is one of the list, and no item is less.** -/
theorem minBy_spec {l : List α} {least : α} (h : minBy cmp l = some least) :
    least ∈ l ∧ ∀ a ∈ l, (cmp least a).isLE := by
  cases l with
  | nil => cases h
  | cons first rest =>
    obtain rfl := Option.some.inj h
    clear h
    induction rest generalizing first with
    | nil =>
      refine ⟨List.mem_cons_self, ?_⟩
      intro a ha
      rw [List.mem_singleton.mp ha]
      exact ReflCmp.isLE_rfl
    | cons next rest ih =>
      obtain ⟨hmem, hle⟩ := ih (lesser cmp first next)
      rw [List.foldl_cons]
      have hhead := hle _ List.mem_cons_self
      constructor
      · rcases List.mem_cons.mp hmem with heq | hrest
        · rw [heq]
          rcases lesser_eq_or cmp first next with hfirst | hnext
          · rw [hfirst]
            exact List.mem_cons_self
          · rw [hnext]
            exact List.mem_cons_of_mem _ List.mem_cons_self
        · exact List.mem_cons_of_mem _ (List.mem_cons_of_mem _ hrest)
      · intro a ha
        rcases List.mem_cons.mp ha with rfl | ha
        · exact TransCmp.isLE_trans hhead (isLE_lesser cmp a next).1
        · rcases List.mem_cons.mp ha with rfl | ha
          · exact TransCmp.isLE_trans hhead (isLE_lesser cmp first a).2
          · exact hle a (List.mem_cons_of_mem _ ha)

end Minima
