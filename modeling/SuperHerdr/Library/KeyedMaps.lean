import Mathlib
import Std.Data.ExtTreeMap

/-!
# Maps that travel without their keys

A value that carries its own key can be sent without it: a map is the sequence of its values, and is
made again of them. What comes of it is a map whose every value stands under its own key (`filed_deserialize`),
so the maps that come back as they were are those and no others (`deserialize_serialize_iff`).
-/

namespace KeyedMap

open Std

/-- A value that carries its key. -/
class Keyed (κ : outParam Type) (α : Type) where
  wireKey : α → κ

export Keyed (wireKey)

/-- The values of a map, in the order of its keys. -/
theorem values_eq_map_toList {α β : Type*} {cmp : α → α → Ordering} [TransCmp cmp]
    (map : ExtTreeMap α β cmp) : map.values = map.toList.map Prod.snd := by
  obtain ⟨map⟩ := map
  induction map using ExtDTreeMap.inductionOn with
  | mk map =>
    calc map.inner.values
      _ = map.inner.toListModel.map (fun entry => entry.2) :=
        DTreeMap.Internal.Impl.values_eq_map_snd
      _ = (DTreeMap.Internal.Impl.Const.toList map.inner).map Prod.snd := by
        rw [DTreeMap.Internal.Impl.Const.toList_eq_toListModel_map, List.map_map]
        rfl

variable {κ α : Type} [Ord κ] [TransOrd κ] [LawfulEqOrd κ]

/-- The entries of a map, put into an empty one. -/
theorem ofList_toList (map : ExtTreeMap κ α) : ExtTreeMap.ofList map.toList = map := by
  classical
  refine ExtTreeMap.ext_getElem? fun key => ?_
  cases hheld : map[key]? with
  | none =>
    have hnone : (map.toList.map Prod.fst).contains key = false := by
      rw [ExtTreeMap.map_fst_toList_eq_keys, List.contains_eq_mem, decide_eq_false_iff_not,
        ExtTreeMap.mem_keys, ExtTreeMap.mem_iff_isSome_getElem?, hheld]
      exact Bool.false_ne_true
    exact ExtTreeMap.getElem?_ofList_of_contains_eq_false hnone
  | some held =>
    exact ExtTreeMap.getElem?_ofList_of_mem compare_self ExtTreeMap.distinct_keys_toList
      (ExtTreeMap.mem_toList_iff_getElem?_eq_some.mpr hheld)

variable [Keyed κ α]

def serialize (map : ExtTreeMap κ α) : List α := map.toList.map Prod.snd

/-- Of two values with one key the later counts. -/
def deserialize (values : List α) : ExtTreeMap κ α :=
  ExtTreeMap.ofList (values.map fun value => (wireKey value, value))

/-- Every value stands under its own key. -/
def Filed (map : ExtTreeMap κ α) : Prop :=
  ∀ (key : κ) (value : α), map[key]? = some value → wireKey value = key

omit [LawfulEqOrd κ] in
theorem filed_empty : Filed (∅ : ExtTreeMap κ α) := by
  intro key value h
  simp at h

/-- A value put under its own key is filed. -/
theorem Filed.insert {map : ExtTreeMap κ α} (h : Filed map) {key : κ} {value : α}
    (hkey : wireKey value = key) : Filed (map.insert key value) := by
  intro other held hheld
  rw [ExtTreeMap.getElem?_insert] at hheld
  split at hheld
  · next heq =>
    rw [← Option.some.inj hheld, hkey]
    exact LawfulEqCmp.eq_of_compare heq
  · exact h other held hheld

theorem filed_deserialize (values : List α) : Filed (deserialize values) := by
  rw [deserialize, ExtTreeMap.ofList_eq_foldl, List.foldl_map]
  induction values using List.reverseRecOn with
  | nil => exact filed_empty
  | append_singleton values value ih =>
    rw [List.foldl_append, List.foldl_cons, List.foldl_nil]
    exact ih.insert rfl

/-- **What survives the wire**: a map comes back as it was if and only if every value stands under its
own key. -/
theorem deserialize_serialize_iff (map : ExtTreeMap κ α) :
    deserialize (serialize map) = map ↔ Filed map := by
  constructor
  · intro h
    rw [← h]
    exact filed_deserialize _
  · intro h
    have hentries : (serialize map).map (fun value => (wireKey value, value)) = map.toList := by
      rw [serialize, List.map_map]
      refine (List.map_congr_left fun entry hentry => ?_).trans (List.map_id map.toList)
      have hkey := h entry.1 entry.2 (ExtTreeMap.mem_toList_iff_getElem?_eq_some.mp hentry)
      exact Prod.ext hkey rfl
    rw [deserialize, hentries, ofList_toList]

end KeyedMap
