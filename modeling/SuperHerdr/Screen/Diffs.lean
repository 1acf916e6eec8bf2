import Mathlib.Data.List.Sort
import SuperHerdr.Screen.Snapshot

/-!
# What a diff says, and what a refused one does

A diff between two screens of one size lists the rows in which they differ, in order and once each, and
carries the first to the second. A diff that names a row past the end is refused, but only when that row
is reached: the rows ahead of it have been replaced by then. So a refusal leaves the screen as it was
exactly if those updates, the last of them for each row, repeat what the rows held
(`diffs_and_refusals`).
-/

namespace SuperHerdr

namespace Snapshot

/-! ### The rows of a diff -/

theorem toNat_ofNat_of_wellFormed {self : Snapshot} (h : self.WellFormed) {i : ℕ}
    (hi : i < self.rows.length) : (UInt16.ofNat i).toNat = i := by
  have hbound : self.height.toNat < 2 ^ 16 := self.height.toNat_lt
  rw [WellFormed] at h
  rw [UInt16.toNat_ofNat', Nat.mod_eq_of_lt (by omega)]

/-- Changed rows are listed in order, and once each. -/
theorem changedRows_increasing {self previous : Snapshot} (hself : self.WellFormed)
    (hw : self.width = previous.width) (hh : self.height = previous.height) :
    (self.changedRows previous).Pairwise fun row later => row.toNat < later.toNat := by
  have hsame : ¬(self.width ≠ previous.width ∨ self.height ≠ previous.height) := by
    rw [hw, hh]
    simp
  rw [changedRows, if_neg hsame, List.pairwise_map]
  have hindices : ((self.rows.zip previous.rows).zipIdx.filter fun entry =>
      entry.1.1 ≠ entry.1.2).Pairwise fun entry later => entry.2 < later.2 := by
    refine List.Pairwise.filter _ ?_
    rw [← List.pairwise_map (f := Prod.snd), List.zipIdx_map_snd]
    exact List.pairwise_lt_range'
  have hinside : ∀ entry ∈ (self.rows.zip previous.rows).zipIdx.filter fun entry =>
      entry.1.1 ≠ entry.1.2, (UInt16.ofNat entry.2).toNat = entry.2 := by
    intro entry hentry
    have hmem := (List.mem_filter.mp hentry).1
    have hlt := (List.getElem?_eq_some_iff.mp (List.mem_zipIdx_iff_getElem?.mp hmem)).1
    rw [List.length_zip] at hlt
    exact toNat_ofNat_of_wellFormed hself (lt_of_lt_of_le hlt (min_le_left _ _))
  refine hindices.imp_of_mem fun {entry later} hentry hlater hlt => ?_
  rw [hinside entry hentry, hinside later hlater]
  exact hlt

/-! ### Refusals -/

/-- The updates ahead of the first row past the end, all of which are carried out. -/
def carriedOut (self : Snapshot) (diff : Diff) : List RowUpdate :=
  diff.rows.takeWhile fun update => update.row.toNat < self.rows.length

/-- The last of some updates for a row. -/
def lastFor (updates : List RowUpdate) (i : ℕ) : Option RowUpdate :=
  updates.reverse.find? fun update => update.row.toNat = i

theorem applyRows_length (rows : List (List Run)) (updates : List RowUpdate) :
    (applyRows rows updates).1.length = rows.length := by
  induction updates generalizing rows with
  | nil => rfl
  | cons update rest ih =>
    rw [applyRows]
    split
    · rw [ih, List.length_set]
    · rfl

theorem applyRows_snd_iff (rows : List (List Run)) (updates : List RowUpdate) :
    (applyRows rows updates).2 = true ↔ ∀ u ∈ updates, u.row.toNat < rows.length := by
  induction updates generalizing rows with
  | nil => simp [applyRows]
  | cons update rest ih =>
    rw [applyRows]
    split
    · next hlt => simp [ih, hlt]
    · next hge => simp [hge]

/-- What is in a row afterwards: what the last update carried out for it says, or what it held. -/
theorem applyRows_getElem? (rows : List (List Run)) (updates : List RowUpdate) {i : ℕ}
    (hi : i < rows.length) :
    (applyRows rows updates).1[i]? =
      ((lastFor (updates.takeWhile fun u => u.row.toNat < rows.length) i).map RowUpdate.runs).or
        rows[i]? := by
  induction updates generalizing rows with
  | nil => simp [applyRows, lastFor]
  | cons update rest ih =>
    rw [applyRows]
    split
    · next hlt =>
      have hlength : (rows.set update.row.toNat update.runs).length = rows.length :=
        List.length_set
      rw [ih _ (hlength.symm ▸ hi), hlength, List.takeWhile_cons, if_pos (by simpa using hlt),
        lastFor, lastFor, List.reverse_cons, List.find?_append]
      cases hfound : (rest.takeWhile fun u => u.row.toNat < rows.length).reverse.find?
          fun u => u.row.toNat = i with
      | some later => simp
      | none =>
        -- no later update is for the row: this one decides
        by_cases hrow : update.row.toNat = i
        · subst hrow
          simp [List.getElem?_set_self hlt]
        · simp [List.getElem?_set_ne hrow, hrow]
    · next hge => simp [hge, lastFor]

/-- The updates that are carried out, the last for each row, repeat what the rows hold. -/
def Repeats (self : Snapshot) (diff : Diff) : Prop :=
  ∀ i update, lastFor (self.carriedOut diff) i = some update →
    self.rows[i]? = some update.runs

/-- A refusal leaves the screen as it was. -/
def RefusesCleanly (self : Snapshot) (diff : Diff) : Prop :=
  ∀ stale, (self.apply diff).2 = .error stale → (self.apply diff).1 = self

/-- A refused diff does no harm: it is refused for its number, or not at all, or the updates ahead of
the first row past the end repeat what the rows hold. -/
def Harmless (self : Snapshot) (diff : Diff) : Prop :=
  diff.follows ≠ self.sequence ∨ (∀ update ∈ diff.rows, update.row.toNat < self.rows.length) ∨
    self.Repeats diff

theorem lastFor_row {updates : List RowUpdate} {i : ℕ} {update : RowUpdate}
    (h : lastFor updates i = some update) : update ∈ updates ∧ update.row.toNat = i := by
  refine ⟨List.mem_reverse.mp (List.mem_of_find?_eq_some h), ?_⟩
  simpa using List.find?_some h

/-- The rows are left as they were exactly if the updates repeat them. -/
theorem applyRows_fst_eq_iff (self : Snapshot) (diff : Diff) :
    (applyRows self.rows diff.rows).1 = self.rows ↔ self.Repeats diff := by
  have hlength := applyRows_length self.rows diff.rows
  constructor
  · intro hsame i update hlast
    obtain ⟨hmem, rfl⟩ := lastFor_row hlast
    have hlt : update.row.toNat < self.rows.length := by
      simpa using List.mem_takeWhile_imp hmem
    have hrow := applyRows_getElem? self.rows diff.rows hlt
    rw [hsame] at hrow
    rw [hrow]
    change ((lastFor (self.carriedOut diff) _).map RowUpdate.runs).or _ = _
    rw [hlast]
    rfl
  · intro hrepeats
    refine List.ext_getElem? fun i => ?_
    by_cases hi : i < self.rows.length
    · rw [applyRows_getElem? self.rows diff.rows hi]
      change ((lastFor (self.carriedOut diff) i).map RowUpdate.runs).or _ = _
      cases hlast : lastFor (self.carriedOut diff) i with
      | none => rfl
      | some update => exact (hrepeats i update hlast).symm
    · rw [List.getElem?_eq_none (by omega), List.getElem?_eq_none (by omega)]

theorem refusesCleanly_iff (self : Snapshot) (diff : Diff) :
    self.RefusesCleanly diff ↔ self.Harmless diff := by
  unfold RefusesCleanly Harmless apply
  by_cases hfollows : diff.follows ≠ self.sequence
  · simp [hfollows]
  · have hends := applyRows_snd_iff self.rows diff.rows
    have hrows := applyRows_fst_eq_iff self diff
    rw [if_neg hfollows]
    split
    · next rows heq =>
      -- a row past the end is reached
      rw [heq] at hends hrows
      simp only at hends hrows
      have hpast : ¬∀ u ∈ diff.rows, u.row.toNat < self.rows.length := fun h => by
        cases hends.mpr h
      rw [← hrows]
      simp only [hfollows, hpast, false_or]
      constructor
      · intro h
        exact congrArg Snapshot.rows (h _ rfl)
      · rintro rfl stale -
        rfl
    · next rows heq =>
      rw [heq] at hends
      exact iff_of_true (by simp) (.inr (.inl (hends.mp rfl)))

/-- **Diffs are exact, and when a refusal is clean.** Between two screens of one size there is a diff,
which lists exactly the rows in which they differ, in order, and carries the first to the second;
between two sizes there is none. A refused diff leaves the screen as it was exactly if it is harmless. -/
theorem diffs_and_refusals (s : Snapshot) (d : Diff) :
    (∀ a b : Snapshot, a.WellFormed → b.WellFormed →
      (Diff.between a b = none ↔ ¬(a.width = b.width ∧ a.height = b.height)) ∧
      ∀ d, Diff.between a b = some d →
        (d.rows.Pairwise fun update later => update.row.toNat < later.row.toNat) ∧
        (∀ i, (∃ update ∈ d.rows, update.row.toNat = i) ↔
          i < b.rows.length ∧ a.rows[i]? ≠ b.rows[i]?) ∧
        a.apply d = (b, .ok ())) ∧
    (s.RefusesCleanly d ↔ s.Harmless d) := by
  refine ⟨fun a b ha hb => ⟨?_, fun d hd => ?_⟩, refusesCleanly_iff s d⟩
  · cases hd : Diff.between a b with
    | none =>
      refine iff_of_true rfl fun hsize => ?_
      have hsome := between_eq_some.mpr ⟨hsize, rfl⟩
      rw [hd] at hsome
      cases hsome
    | some d => simpa using (between_eq_some.mp hd).1
  · obtain ⟨⟨hw, hh⟩, hshape⟩ := between_eq_some.mp hd
    refine ⟨?_, fun i => ?_, apply_between ha hb hd⟩
    · rw [← hshape, List.pairwise_map]
      exact changedRows_increasing hb hw.symm hh.symm
    · rw [← hshape]
      simp only [List.mem_map, exists_exists_and_eq_and]
      constructor
      · rintro ⟨row, hrow, rfl⟩
        obtain ⟨hlt, hne⟩ := (mem_changedRows hb ha hw.symm hh.symm).mp hrow
        exact ⟨hlt, hne.symm⟩
      · rintro ⟨hlt, hne⟩
        have hi := toNat_ofNat_of_wellFormed hb hlt
        refine ⟨UInt16.ofNat i, ?_, hi⟩
        rw [mem_changedRows hb ha hw.symm hh.symm, hi]
        exact ⟨hlt, hne.symm⟩

/-- A diff whose second row is past the end is refused with its first row painted. -/
theorem a_refused_diff_is_half_applied :
    let screen : Snapshot := ⟨0, 1, 1, [[]], none⟩
    let diff : Diff := ⟨0, 1, [⟨0, [⟨"x", {}⟩]⟩, ⟨1, []⟩], none⟩
    (screen.apply diff).2 = .error ⟨0, 0⟩ ∧ (screen.apply diff).1.rows = [[⟨"x", {}⟩]] ∧
      ¬screen.RefusesCleanly diff := by
  refine ⟨by decide, by decide, fun h => ?_⟩
  have hrows := congrArg Snapshot.rows (h ⟨0, 0⟩ (by decide))
  revert hrows
  decide

end Snapshot

end SuperHerdr
