import Mathlib

/-!
# Records that a delimiter ends

`framed` writes records one behind the other, each with a delimiter at its end, and `fields` reads
them back. However much of what was written is there to be read, what is read is the records that
are there whole, and never a piece of one (`fields_take_framed`). Records of two fields each are
read in `pairs`, and there too a record of which a part is missing is dropped (`pairs_fitting`).
-/

namespace Records

variable {α β γ : Type*}

/-! ### Budgets -/

/-- The items, from the first, that fit into a budget together. -/
def fitting (size : α → ℕ) : ℕ → List α → List α
  | _, [] => []
  | budget, a :: as => if size a ≤ budget then a :: fitting size (budget - size a) as else []

theorem prefix_fitting (size : α → ℕ) (budget : ℕ) (as : List α) : fitting size budget as <+: as := by
  induction as generalizing budget with
  | nil => exact List.prefix_rfl
  | cons a as ih =>
    rw [fitting]
    split
    · exact List.cons_prefix_cons.mpr ⟨rfl, ih _⟩
    · exact List.nil_prefix

/-- What fits of some items that stand for others is what stands for those that fit. -/
theorem fitting_map (size : β → ℕ) (f : α → β) (budget : ℕ) (as : List α) :
    fitting size budget (as.map f) = (fitting (fun a => size (f a)) budget as).map f := by
  induction as generalizing budget with
  | nil => rfl
  | cons a as ih =>
    rw [List.map_cons, fitting, fitting]
    split
    · rw [ih, List.map_cons]
    · rfl

theorem fitting_eq_self_iff (size : α → ℕ) (budget : ℕ) (as : List α) :
    fitting size budget as = as ↔ as = [] ∨ (as.map size).sum ≤ budget := by
  induction as generalizing budget with
  | nil => simp [fitting]
  | cons a as ih =>
    rw [fitting]
    split
    · next hfits =>
      rw [List.cons.injEq, ih]
      simp only [List.map_cons, List.sum_cons, true_and, reduceCtorEq, false_or]
      constructor
      · rintro (rfl | hsum)
        · simpa using hfits
        · omega
      · exact fun hsum => .inr (by omega)
    · next hover =>
      simp only [List.map_cons, List.sum_cons, reduceCtorEq, false_or, false_iff]
      omega

/-! ### Fields -/

section

variable [DecidableEq β] (delimiter : β)

/-- The records, each with a delimiter at its end. -/
def framed (records : List (List β)) : List β := records.flatMap fun record => record ++ [delimiter]

/-- What delimiters end, as far as it is not empty. What stands behind the last one is left out. -/
def fields (text : List β) : List (List β) :=
  ((text.rdropWhile fun b => b ≠ delimiter).splitOn delimiter).filter fun field => field ≠ []

variable {delimiter} {records : List (List β)}

omit [DecidableEq β] in
theorem length_framed (records : List (List β)) :
    (framed delimiter records).length = (records.map fun record => record.length + 1).sum := by
  simp [framed, List.length_flatMap]

omit [DecidableEq β] in
@[simp] theorem framed_append (records more : List (List β)) :
    framed delimiter (records ++ more) = framed delimiter records ++ framed delimiter more :=
  List.flatMap_append

omit [DecidableEq β] in
theorem framed_cons (record : List β) (records : List (List β)) :
    framed delimiter (record :: records) = record ++ delimiter :: framed delimiter records := by
  simp [framed]

omit [DecidableEq β] in
theorem length_le_length_framed (records : List (List β)) :
    records.length ≤ (framed delimiter records).length := by
  induction records with
  | nil => simp [framed]
  | cons record records ih =>
    rw [framed_cons, List.length_cons, List.length_append, List.length_cons]
    omega

/-- What a delimiter ends is records. -/
theorem exists_framed (delimiter : β) (text : List β) :
    ∃ records, text ++ [delimiter] = framed delimiter records ∧
      ∀ record ∈ records, delimiter ∉ record := by
  induction text with
  | nil => exact ⟨[[]], rfl, by simp⟩
  | cons b text ih =>
    obtain ⟨records, htext, hfree⟩ := ih
    by_cases hb : b = delimiter
    · refine ⟨[] :: records, ?_, ?_⟩
      · rw [List.cons_append, htext, framed_cons, hb, List.nil_append]
      · rintro record (_ | ⟨_, hmem⟩)
        · exact List.not_mem_nil
        · exact hfree record hmem
    · obtain ⟨record, records, rfl⟩ : ∃ record records', records = record :: records' := by
        cases records with
        | nil => simp [framed] at htext
        | cons record records => exact ⟨record, records, rfl⟩
      refine ⟨(b :: record) :: records, ?_, ?_⟩
      · rw [List.cons_append, htext, framed_cons, framed_cons, List.cons_append]
      · rintro other (_ | ⟨_, hmem⟩)
        · rw [List.mem_cons, not_or]
          exact ⟨Ne.symm hb, hfree record List.mem_cons_self⟩
        · exact hfree other (List.mem_cons_of_mem _ hmem)

theorem rdropWhile_append_delimiter (before after : List β) :
    (before ++ delimiter :: after).rdropWhile (fun b => b ≠ delimiter) =
      before ++ delimiter :: after.rdropWhile fun b => b ≠ delimiter := by
  induction after using List.reverseRecOn with
  | nil => exact List.rdropWhile_concat_neg _ _ _ (by simp)
  | append_singleton after b ih =>
    have hassoc : before ++ delimiter :: (after ++ [b]) = (before ++ delimiter :: after) ++ [b] := by
      simp
    rw [hassoc, List.rdropWhile_concat, List.rdropWhile_concat, ih]
    split <;> simp

/-- What is whole of a text that was cut off is the records that fit. -/
theorem rdropWhile_take_framed (hfree : ∀ record ∈ records, delimiter ∉ record) (limit : ℕ) :
    ((framed delimiter records).take limit).rdropWhile (fun b => b ≠ delimiter) =
      framed delimiter (fitting (fun record => record.length + 1) limit records) := by
  induction records generalizing limit with
  | nil => simp [framed, fitting]
  | cons record records ih =>
    rw [framed_cons, fitting]
    split
    · next hfits =>
      have htake : (record ++ delimiter :: framed delimiter records).take limit =
          record ++ delimiter :: (framed delimiter records).take (limit - (record.length + 1)) := by
        rw [List.take_append, List.take_of_length_le (by omega)]
        obtain ⟨more, hmore⟩ : ∃ more, limit - record.length = more + 1 :=
          ⟨limit - (record.length + 1), by omega⟩
        rw [hmore, List.take_succ_cons]
        congr 3
        omega
      rw [htake, rdropWhile_append_delimiter,
        ih fun other hother => hfree other (List.mem_cons_of_mem _ hother)]
      simp [framed]
    · next hover =>
      rw [List.take_append_of_le_length (by omega)]
      simp only [framed, List.flatMap_nil, List.rdropWhile_eq_nil_iff, decide_eq_true_eq]
      rintro b hb rfl
      exact hfree record List.mem_cons_self (List.mem_of_mem_take hb)

theorem splitOn_framed (hfree : ∀ record ∈ records, delimiter ∉ record) :
    (framed delimiter records).splitOn delimiter = records ++ [[]] := by
  induction records with
  | nil => rfl
  | cons record records ih =>
    rw [framed_cons, List.splitOn_append_cons_self_of_not_mem (hfree record List.mem_cons_self),
      ih fun other hother => hfree other (List.mem_cons_of_mem _ hother)]
    rfl

/-- **Reading what was cut off** gives the records that are whole. -/
theorem fields_take_framed (hfree : ∀ record ∈ records, delimiter ∉ record)
    (hsome : ∀ record ∈ records, record ≠ []) (limit : ℕ) :
    fields delimiter ((framed delimiter records).take limit) =
      fitting (fun record => record.length + 1) limit records := by
  have hfront := prefix_fitting (fun record => record.length + 1) limit records
  rw [fields, rdropWhile_take_framed hfree,
    splitOn_framed fun record hmem => hfree record (hfront.subset hmem), List.filter_append]
  have hnone : [([] : List β)].filter (fun field => field ≠ []) = [] := rfl
  rw [hnone, List.append_nil, List.filter_eq_self]
  exact fun record hmem => by simpa using hsome record (hfront.subset hmem)

end

/-! ### Pairs of fields -/

/-- Fields two by two. An odd one at the end is dropped. -/
def pairs : List γ → List (γ × γ)
  | first :: second :: rest => (first, second) :: pairs rest
  | _ => []

/-- Of records of two fields each, the pairs that fit are those of the records that fit. -/
theorem pairs_fitting (size : γ → ℕ) (first second : α → γ) (budget : ℕ) (as : List α) :
    pairs (fitting size budget (as.flatMap fun a => [first a, second a])) =
      (fitting (fun a => size (first a) + size (second a)) budget as).map fun a =>
        (first a, second a) := by
  induction as generalizing budget with
  | nil => rfl
  | cons a as ih =>
    have hcons : ((a :: as).flatMap fun a => [first a, second a]) =
        first a :: second a :: as.flatMap fun a => [first a, second a] := rfl
    rw [hcons, fitting, fitting]
    by_cases hboth : size (first a) + size (second a) ≤ budget
    · rw [if_pos (by omega), if_pos (by omega), fitting, if_pos hboth, pairs, List.map_cons,
        Nat.sub_sub, ih]
    · rw [fitting, if_neg hboth]
      split
      · rw [if_neg (by omega)]
        rfl
      · rfl

end Records
