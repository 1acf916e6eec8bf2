import Mathlib.Data.List.Basic

/-!
# Lines read from a stream that arrives in pieces

`readUntil` is the loop behind a buffered reader whose budget is bounded: it appends what is there
to the line, up to and with the first delimiter, until the line is complete, the budget is spent
or nothing more arrives. What arrived and was not taken is left for the next line.

The pieces do not matter: where a delimiter comes within the budget, the line is what stands
before it and the delimiter, however the bytes arrive (`readUntil_of_flatten`). One look at one
piece is `scan`, which other readers can be built of (`scan_cases`).
-/

namespace Framing

variable {β : Type*} [DecidableEq β]

/-- What one look at a piece takes, up to and with the first delimiter and as far as the limit
allows, and what it leaves. -/
def scan (delimiter : β) : ℕ → List β → List β × List β
  | 0, chunk => ([], chunk)
  | _ + 1, [] => ([], [])
  | limit + 1, b :: chunk =>
      if b = delimiter then ([b], chunk)
      else
        let (used, left) := scan delimiter limit chunk
        (b :: used, left)

/-- Whether a line is complete or its budget spent. -/
def Scanned (delimiter : β) (limit : ℕ) (used : List β) : Prop :=
  delimiter ∈ used ∨ used.length = limit

instance (delimiter : β) (limit : ℕ) (used : List β) : Decidable (Scanned delimiter limit used) :=
  inferInstanceAs (Decidable (_ ∨ _))

/-- Read on from `line`: the line, and the pieces that are left. -/
def readUntil (delimiter : β) : ℕ → List β → List (List β) → List β × List (List β)
  | _, line, [] => (line, [])
  | limit, line, chunk :: chunks =>
      let (used, left) := scan delimiter limit chunk
      if Scanned delimiter limit used then (line ++ used, left :: chunks)
      else readUntil delimiter (limit - used.length) (line ++ used) chunks

/-! ### One piece -/

/-- Nothing is lost of a piece. -/
theorem scan_append (delimiter : β) (limit : ℕ) (chunk : List β) :
    (scan delimiter limit chunk).1 ++ (scan delimiter limit chunk).2 = chunk := by
  fun_induction scan delimiter limit chunk with
  | case1 => rfl
  | case2 => rfl
  | case3 => rfl
  | case4 limit b chunk hne used left hscan ih =>
    rw [hscan] at ih
    rw [List.cons_append, ih]

/-- No more is taken than the limit allows. -/
theorem length_scan (delimiter : β) (limit : ℕ) (chunk : List β) :
    (scan delimiter limit chunk).1.length ≤ limit := by
  fun_induction scan delimiter limit chunk with
  | case1 => exact Nat.le_refl 0
  | case2 => exact Nat.zero_le _
  | case3 => exact Nat.succ_le_succ (Nat.zero_le _)
  | case4 limit b chunk hne used left hscan ih =>
    rw [hscan] at ih
    exact Nat.succ_le_succ ih

variable {delimiter : β} {limit : ℕ}

/-- A piece that completes no line is taken whole. -/
theorem scan_of_open {chunk : List β}
    (h : ¬Scanned delimiter limit (scan delimiter limit chunk).1) :
    scan delimiter limit chunk = (chunk, []) := by
  fun_induction scan delimiter limit chunk with
  | case1 => exact absurd (.inr rfl) h
  | case2 => rfl
  | case3 => exact absurd (.inl List.mem_cons_self) h
  | case4 limit b chunk hne used left hscan ih =>
    have hrest := ih fun hdone => h (hdone.elim
      (fun hmem => .inl (List.mem_cons_of_mem b (by rwa [hscan] at hmem)))
      (fun hlength => .inr (by rw [hscan] at hlength; simpa using hlength)))
    rw [hscan] at hrest
    obtain ⟨rfl, rfl⟩ := Prod.mk.inj hrest
    rfl

/-- A line that ends in a piece within the budget is completed, and no more of the piece taken. -/
theorem scan_of_delimiter {body : List β} (rest : List β)
    (hbody : delimiter ∉ body) (hlimit : body.length < limit) :
    scan delimiter limit (body ++ delimiter :: rest) = (body ++ [delimiter], rest) := by
  induction body generalizing limit with
  | nil =>
    obtain ⟨limit, rfl⟩ : ∃ before, limit = before + 1 := ⟨limit - 1, by simp at hlimit; omega⟩
    rw [List.nil_append, scan, if_pos rfl, List.nil_append]
  | cons b body ih =>
    obtain ⟨limit, rfl⟩ : ∃ before, limit = before + 1 := ⟨limit - 1, by omega⟩
    have hne : b ≠ delimiter := fun heq => hbody (heq ▸ List.mem_cons_self)
    have hrest : scan delimiter limit (body ++ delimiter :: rest) = (body ++ [delimiter], rest) :=
      ih (fun hmem => hbody (List.mem_cons_of_mem b hmem)) (by simpa using hlimit)
    rw [List.cons_append, scan, if_neg hne, hrest, List.cons_append]

/-- A piece without a delimiter and below the budget is taken whole. -/
theorem scan_of_short {chunk : List β} (hchunk : delimiter ∉ chunk)
    (hlimit : chunk.length < limit) : scan delimiter limit chunk = (chunk, []) := by
  induction chunk generalizing limit with
  | nil =>
    obtain ⟨limit, rfl⟩ : ∃ before, limit = before + 1 := ⟨limit - 1, by simp at hlimit; omega⟩
    rfl
  | cons b chunk ih =>
    obtain ⟨limit, rfl⟩ : ∃ before, limit = before + 1 := ⟨limit - 1, by omega⟩
    have hne : b ≠ delimiter := fun heq => hchunk (heq ▸ List.mem_cons_self)
    have hrest : scan delimiter limit chunk = (chunk, []) :=
      ih (fun hmem => hchunk (List.mem_cons_of_mem b hmem)) (by simpa using hlimit)
    rw [scan, if_neg hne, hrest]

/-- **One look at a piece of a stream** that has a delimiter within the budget: the piece ends
before the delimiter, and is taken whole, or the line is completed. -/
theorem scan_cases {chunk later body rest : List β}
    (h : chunk ++ later = body ++ delimiter :: rest) (hbody : delimiter ∉ body)
    (hlimit : body.length < limit) :
    (scan delimiter limit chunk = (chunk, []) ∧ ¬Scanned delimiter limit chunk ∧
      ∃ body', body = chunk ++ body' ∧ later = body' ++ delimiter :: rest) ∨
    ∃ left, scan delimiter limit chunk = (body ++ [delimiter], left) ∧ left ++ later = rest := by
  have hwhole : ∀ body', body = chunk ++ body' → later = body' ++ delimiter :: rest →
      scan delimiter limit chunk = (chunk, []) ∧ ¬Scanned delimiter limit chunk ∧
        ∃ body', body = chunk ++ body' ∧ later = body' ++ delimiter :: rest := by
    rintro body' rfl hlater
    have hnone : delimiter ∉ chunk := fun hmem => hbody (List.mem_append_left _ hmem)
    have hshort : chunk.length < limit := by
      rw [List.length_append] at hlimit
      omega
    refine ⟨scan_of_short hnone hshort, ?_, body', rfl, hlater⟩
    rintro (hmem | hlength)
    · exact hnone hmem
    · omega
  rcases List.append_eq_append_iff.mp h with ⟨body', hsplit, hlater⟩ | ⟨piece, hchunk, hrest⟩
  · exact .inl (hwhole body' hsplit hlater)
  · cases piece with
    | nil => exact .inl (hwhole [] (by simpa using hchunk.symm) (by simpa using hrest.symm))
    | cons first piece =>
      obtain ⟨rfl, hpiece⟩ := List.cons.inj hrest
      exact .inr ⟨piece, by rw [hchunk, scan_of_delimiter piece hbody hlimit], hpiece.symm⟩

/-! ### A line -/

/-- Nothing is lost of what arrives. -/
theorem readUntil_append (delimiter : β) (limit : ℕ) (line : List β) (chunks : List (List β)) :
    (readUntil delimiter limit line chunks).1 ++ (readUntil delimiter limit line chunks).2.flatten =
      line ++ chunks.flatten := by
  induction chunks generalizing limit line with
  | nil => rfl
  | cons chunk chunks ih =>
    have hall := scan_append delimiter limit chunk
    simp only [readUntil]
    split
    · rw [List.flatten_cons, List.flatten_cons]
      conv_rhs => rw [← hall]
      simp only [List.append_assoc]
    · next hopen =>
      rw [ih, scan_of_open hopen, List.flatten_cons, List.append_assoc]

/-- **A line is read whole, however it arrives**: where a delimiter comes within the budget, the
line ends with it, and what arrived behind it is left. -/
theorem readUntil_of_flatten {chunks : List (List β)}
    {body rest : List β} (h : chunks.flatten = body ++ delimiter :: rest)
    (hbody : delimiter ∉ body) (hlimit : body.length < limit) (line : List β) :
    ∃ left, readUntil delimiter limit line chunks = (line ++ (body ++ [delimiter]), left) ∧
      left.flatten = rest := by
  induction chunks generalizing limit body line with
  | nil => simp at h
  | cons chunk chunks ih =>
    rw [List.flatten_cons] at h
    rcases scan_cases h hbody hlimit with
      ⟨hscan, hopen, body', rfl, hlater⟩ | ⟨left, hscan, hleft⟩
    · have hbody' : delimiter ∉ body' := fun hmem => hbody (List.mem_append_right _ hmem)
      have hlimit' : body'.length < limit - chunk.length := by
        rw [List.length_append] at hlimit
        omega
      obtain ⟨left, hread, hleft⟩ := ih hlater hbody' hlimit' (line ++ chunk)
      refine ⟨left, ?_, hleft⟩
      simp only [readUntil, hscan]
      rw [if_neg hopen, hread]
      simp only [List.append_assoc]
    · refine ⟨left :: chunks, ?_, hleft⟩
      simp only [readUntil, hscan]
      rw [if_pos (.inl (by simp))]

/-- Nothing is read where nothing arrives. -/
theorem readUntil_of_nothing (delimiter : β) (limit : ℕ) {chunks : List (List β)}
    (h : chunks.flatten = []) (line : List β) :
    (readUntil delimiter limit line chunks).1 = line ∧
      (readUntil delimiter limit line chunks).2.flatten = [] := by
  have hall := readUntil_append delimiter limit line chunks
  rw [h, List.append_nil] at hall
  have hline : line <+: (readUntil delimiter limit line chunks).1 := by
    clear hall h
    induction chunks generalizing limit line with
    | nil => exact List.prefix_refl line
    | cons chunk chunks ih =>
      simp only [readUntil]
      split
      · exact List.prefix_append _ _
      · exact (List.prefix_append _ _).trans (ih _ (line ++ _))
  obtain ⟨more, hmore⟩ := hline
  rw [← hmore, List.append_assoc] at hall
  have hnone := List.append_eq_nil_iff.mp (List.append_right_eq_self.mp hall)
  exact ⟨by rw [← hmore, hnone.1, List.append_nil], hnone.2⟩

end Framing
