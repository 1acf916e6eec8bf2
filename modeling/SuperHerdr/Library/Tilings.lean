import Mathlib

/-!
# Tilings that are scaled

A length is scaled to another one and each offset in it rounded down. Rounding is one half of a Galois
connection (`gc_scale_origin`): each offset of the result comes from one of the source, and an interval of
the result holds just those that come from the interval it was scaled from (`mem_Ico_scale_iff`). So what
tiles a length tiles it when it is scaled, however the single edges are rounded.
-/

namespace Tilings

/-- An offset in a length when that is scaled to another, rounded down. -/
def scale (source destination offset : ℕ) : ℕ := offset * destination / source

/-- Which offset an offset of the result comes from. -/
def origin (source destination offset : ℕ) : ℕ := ((offset + 1) * source - 1) / destination

section Scale

variable {source destination : ℕ}

/-- **An edge is at or before an offset if it was at or before where that comes from.** -/
theorem gc_scale_origin (hsource : 0 < source) (hdestination : 0 < destination) :
    GaloisConnection (scale source destination) (origin source destination) := by
  intro edge offset
  have hpos : 0 < (offset + 1) * source := Nat.mul_pos (Nat.succ_pos _) hsource
  rw [scale, origin, ← Nat.lt_succ_iff, Nat.succ_eq_add_one, Nat.div_lt_iff_lt_mul hsource,
    Nat.le_div_iff_mul_le hdestination]
  omega

/-- **A scaled interval holds what comes from the interval.** -/
theorem mem_Ico_scale_iff (hsource : 0 < source) (hdestination : 0 < destination)
    {first last offset : ℕ} :
    offset ∈ Set.Ico (scale source destination first) (scale source destination last) ↔
      origin source destination offset ∈ Set.Ico first last := by
  have hgc := gc_scale_origin hsource hdestination
  rw [Set.mem_Ico, Set.mem_Ico, ← not_le, ← not_le, hgc first offset, hgc last offset]

theorem scale_self (hsource : 0 < source) : scale source destination source = destination :=
  Nat.mul_div_cancel_left destination hsource

theorem scale_le (hsource : 0 < source) {offset : ℕ} (h : offset ≤ source) :
    scale source destination offset ≤ destination := by
  calc scale source destination offset ≤ scale source destination source :=
        Nat.div_le_div_right (Nat.mul_le_mul_right _ h)
    _ = destination := scale_self hsource

theorem origin_lt (hsource : 0 < source) {offset : ℕ} (h : offset < destination) :
    origin source destination offset < source := by
  have hmem : offset ∈ Set.Ico (scale source destination 0) (scale source destination source) := by
    rw [scale_self hsource, scale, Nat.zero_mul, Nat.zero_div]
    exact ⟨Nat.zero_le _, h⟩
  exact ((mem_Ico_scale_iff hsource (Nat.zero_lt_of_lt h)).mp hmem).2

end Scale

/-! ### One of a list -/

section List

variable {α : Type*} {p : α → Bool} {l : List α}

/-- Of items that exclude each other one has a property at most. -/
theorem length_filter_le_one (h : l.Pairwise fun a b => ¬(p a ∧ p b)) : (l.filter p).length ≤ 1 := by
  induction l with
  | nil => exact Nat.zero_le 1
  | cons a l ih =>
    obtain ⟨hfirst, hrest⟩ := List.pairwise_cons.mp h
    by_cases ha : p a
    · have hnone : l.filter p = [] := by
        rw [List.filter_eq_nil_iff]
        exact fun b hb hpb => hfirst b hb ⟨ha, hpb⟩
      rw [List.filter_cons_of_pos ha, hnone]
      rfl
    · rw [List.filter_cons_of_neg ha]
      exact ih hrest

theorem length_filter_eq_one (h : l.Pairwise fun a b => ¬(p a ∧ p b)) (hex : ∃ a ∈ l, p a) :
    (l.filter p).length = 1 := by
  obtain ⟨a, hmem, ha⟩ := hex
  exact Nat.le_antisymm (length_filter_le_one h)
    (List.length_pos_of_mem (List.mem_filter.mpr ⟨hmem, ha⟩))

end List

end Tilings
