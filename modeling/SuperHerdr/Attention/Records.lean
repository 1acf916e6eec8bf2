import SuperHerdr.Attention.Expiry
import SuperHerdr.Attention.Keeping
import SuperHerdr.Library.KeyedMaps

/-!
# Marks on disk

Marks are written as a list, and read back with more suspicion than they were made with: too many of
them, or one agent twice, and none are read. A request keeps the store as small as it has to be on disk
(`Kept.apply`), whether or not it is the new mark that is forgotten, and expiring snoozes only takes
marks away. So no run makes a store that would not be read back as it is (`marks_are_read_back`).
-/

namespace SuperHerdr

open Std Transducer

/-- Marks as they are written. -/
def PersistedMarks.of (marks : AgentMarks) : PersistedMarks where
  version := AGENT_MARKS_VERSION
  marks := marks.marks.toList.map fun entry => ⟨entry.1, entry.2.state, entry.2.touchedMs⟩

namespace AgentMarks

variable {self : AgentMarks} {agent : AgentId} {request : AgentMarkRequest} {nowMs : ℕ}

/-! ### What a store keeps to -/

theorem Kept.apply (h : self.Kept) (agent : AgentId) (request : AgentMarkRequest) (nowMs : ℕ) :
    (self.apply agent request nowMs).1.Kept := by
  by_cases hchanged : request.applyTo (self.state agent) nowMs = self.state agent
  · exact (held_of_unchanged h hchanged).kept
  by_cases hmarked : request.applyTo (self.state agent) nowMs = .default
  · exact (held_of_cleared h hchanged hmarked).kept
  by_cases hroom : (self.marking agent request nowMs).marks.size ≤ MAX_MARKED_AGENTS
  · exact (held_of_room h hchanged hmarked hroom).kept
  -- one mark too many, and one is forgotten, be it the new one
  obtain ⟨-, -, hsize⟩ := marking_of_full (Nat.not_le.mp hroom) h
  have hpos : 0 < (self.marking agent request nowMs).marks.size := by omega
  obtain ⟨oldest, held, hold, hheld, -⟩ := oldest_spec hpos
  have happly : self.apply agent request nowMs =
      (⟨(self.marking agent request nowMs).marks.erase oldest⟩, true) := by
    rw [apply_of_marked hchanged hmarked]
    exact congrArg (·, true) (enforceCap_of_succ hsize hold)
  rw [happly]
  exact kept_of_forgotten h hmarked hsize hheld

theorem Kept.expire (h : self.Kept) (nowMs : ℕ) : (self.expireLoop nowMs).1.Kept := by
  rw [expireLoop_fst]
  refine ⟨Nat.le_trans ExtTreeMap.size_filterMap_le_size h.bounded, fun agent held hheld hblank => ?_⟩
  exact h.meaningful agent held ((of_getElem?_expire hheld).2 hblank) hblank

/-! ### What is read back -/

theorem Kept.toMarks (h : self.Kept) : (PersistedMarks.of self).toMarks = .ok self := by
  have hlength : (PersistedMarks.of self).marks.length = self.marks.size := by
    rw [PersistedMarks.of, List.length_map, ExtTreeMap.length_toList]
  have hagents : (PersistedMarks.of self).marks.map PersistedMark.agent = self.marks.keys := by
    rw [PersistedMarks.of, List.map_map]
    exact ExtTreeMap.map_fst_toList_eq_keys
  rw [PersistedMarks.toMarks, if_neg (fun hversion => hversion rfl),
    if_neg (by rw [hlength]; exact Nat.not_lt.mpr h.bounded),
    if_neg (by rw [hagents]; exact not_not.mpr ExtTreeMap.nodup_keys), PersistedMarks.of,
    List.foldl_map, ← ExtTreeMap.ofList_eq_foldl, KeyedMap.ofList_toList]

/-- What the daemon does to its marks. -/
inductive Change
  | apply (agent : AgentId) (request : AgentMarkRequest) (nowMs : ℕ)
  | expire (nowMs : ℕ)

/-- One change, and whether it was one. -/
def step (self : AgentMarks) : Change → AgentMarks × List Bool
  | .apply agent request nowMs => let (store, changed) := self.apply agent request nowMs
      (store, [changed])
  | .expire nowMs => let (store, changed) := self.expireLoop nowMs
      (store, [changed])

theorem Kept.step (h : self.Kept) (change : Change) : (self.step change).1.Kept := by
  cases change with
  | apply agent request nowMs => exact h.apply agent request nowMs
  | expire nowMs => exact h.expire nowMs

/-- **Marks are read back as they were written**, whatever requests and expiries made them, at any
times: there are never more than may be read, and none that says nothing. -/
theorem marks_are_read_back (changes : List Change) :
    let store := (exec step default changes).1
    store.marks.size ≤ MAX_MARKED_AGENTS ∧
      (∀ (agent : AgentId) (held : Marked), store.marks[agent]? = some held →
        held.state ≠ .default) ∧
      (PersistedMarks.of store).toMarks = .ok store := by
  intro store
  have hempty : Kept default := ⟨Nat.zero_le _, fun agent held hheld => by simp [default] at hheld⟩
  have hkept : store.Kept := exec_invariant (fun _ change h => h.step change) hempty changes
  exact ⟨hkept.bounded, hkept.meaningful, hkept.toMarks⟩

end AgentMarks

end SuperHerdr
