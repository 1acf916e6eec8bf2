import Mathlib.Data.List.Infix

/-!
# Patterns for names

A pattern of a shell is a list of parts: a character that stands for itself, one for any character,
one for any text, and one for a character among some. `accepts` says which texts it matches as a
whole. How a pattern is written is `parse`, where four signs have a meaning unless a backslash
stands ahead of them (`Signs`); what a bracket expression stands for depends on the locale and is a
parameter (`Brackets`). Characters and bytes are alike in this, so that the alphabet is one too.

A text that is written with a backslash ahead of every sign is read as itself, and between two signs
for any text as all that contains it (`fnmatch_contains_iff`).
-/

namespace Patterns

variable {α : Type}

inductive Piece (α : Type)
  | literal (a : α)
  /-- Any one character. -/
  | one
  /-- Any text. -/
  | many
  | among (such : α → Bool)

/-- The parts of a text that stands for itself. -/
def literals (text : List α) : List (Piece α) := text.map .literal

variable [DecidableEq α]

/-- Whether a whole text is matched. -/
def accepts : List (Piece α) → List α → Bool
  | [], text => text.isEmpty
  | .many :: parts, text => text.tails.any (accepts parts)
  | .literal a :: parts, b :: text => a = b && accepts parts text
  | .one :: parts, _ :: text => accepts parts text
  | .among such :: parts, b :: text => such b && accepts parts text
  | _ :: _, [] => false

theorem accepts_nil_iff {text : List α} : accepts [] text = true ↔ text = [] := by
  rw [accepts, List.isEmpty_iff]

theorem accepts_many_iff {parts : List (Piece α)} {text : List α} :
    accepts (.many :: parts) text = true ↔
      ∃ front rest, text = front ++ rest ∧ accepts parts rest = true := by
  rw [accepts, List.any_eq_true]
  constructor
  · rintro ⟨rest, hrest, haccepts⟩
    obtain ⟨front, rfl⟩ := (List.mem_tails _ _).mp hrest
    exact ⟨front, rest, rfl, haccepts⟩
  · rintro ⟨front, rest, rfl, haccepts⟩
    exact ⟨rest, (List.mem_tails _ _).mpr (List.suffix_append front rest), haccepts⟩

theorem accepts_literals_iff {word : List α} {parts : List (Piece α)} {text : List α} :
    accepts (literals word ++ parts) text = true ↔
      ∃ rest, text = word ++ rest ∧ accepts parts rest = true := by
  induction word generalizing text with
  | nil => simp [literals]
  | cons a word ih =>
    have hcons : literals (a :: word) ++ parts = .literal a :: (literals word ++ parts) := rfl
    rw [hcons]
    cases text with
    | nil => simp [accepts]
    | cons b text =>
      rw [accepts, Bool.and_eq_true, decide_eq_true_eq, ih]
      constructor
      · rintro ⟨rfl, rest, rfl, haccepts⟩
        exact ⟨rest, rfl, haccepts⟩
      · rintro ⟨rest, htext, haccepts⟩
        obtain ⟨rfl, rfl⟩ := List.cons.inj htext
        exact ⟨rfl, rest, rfl, haccepts⟩

/-- A text that stands for itself. -/
theorem accepts_self_iff {word text : List α} :
    accepts (literals word) text = true ↔ text = word := by
  have hword : accepts (literals word ++ []) text = true ↔
      ∃ rest, text = word ++ rest ∧ accepts [] rest = true := accepts_literals_iff
  rw [List.append_nil] at hword
  rw [hword]
  constructor
  · rintro ⟨rest, rfl, hrest⟩
    rw [accepts_nil_iff.mp hrest, List.append_nil]
  · rintro rfl
    exact ⟨[], (List.append_nil _).symm, accepts_nil_iff.mpr rfl⟩

@[simp] theorem accepts_many (text : List α) : accepts [.many] text = true :=
  accepts_many_iff.mpr ⟨text, [], (List.append_nil text).symm, accepts_nil_iff.mpr rfl⟩

/-- A text with anything behind it. -/
theorem accepts_prefix_iff {word text : List α} :
    accepts (literals word ++ [.many]) text = true ↔ word <+: text := by
  simp only [accepts_literals_iff, accepts_many, and_true]
  exact ⟨fun ⟨rest, h⟩ => ⟨rest, h.symm⟩, fun ⟨rest, h⟩ => ⟨rest, h.symm⟩⟩

/-- A text with anything ahead of it and behind it. -/
theorem accepts_contains_iff {word text : List α} :
    accepts (.many :: (literals word ++ [.many])) text = true ↔ word <:+: text := by
  rw [accepts_many_iff]
  constructor
  · rintro ⟨front, rest, rfl, haccepts⟩
    exact (accepts_prefix_iff.mp haccepts).isInfix.trans (List.suffix_append front rest).isInfix
  · rintro ⟨front, rest, rfl⟩
    exact ⟨front, word ++ rest, List.append_assoc ..,
      accepts_prefix_iff.mpr (List.prefix_append ..)⟩

/-! ### How a pattern is written -/

/-- The signs with a meaning. -/
structure Signs (α : Type) where
  many : α
  one : α
  bracket : α
  escape : α
  distinct : [many, one, bracket, escape].Nodup

/-- What stands behind an opening bracket: the characters of a bracket expression and what is left
behind it, if it is one. -/
structure Brackets (α : Type) where
  read : List α → Option ((α → Bool) × List α)
  shorter : ∀ text such rest, read text = some (such, rest) → rest.length < text.length

variable (signs : Signs α) (brackets : Brackets α)

/-- The parts of a pattern. One that ends in a lone backslash has none, and matches nothing. -/
def parse : List α → Option (List (Piece α))
  | [] => some []
  | a :: text =>
      if a = signs.many then (.many :: ·) <$> parse text
      else if a = signs.one then (.one :: ·) <$> parse text
      else if a = signs.escape then
        match text with
        | [] => none
        | b :: text => (.literal b :: ·) <$> parse text
      else if a = signs.bracket then
        match _h : brackets.read text with
        | some (such, rest) => (.among such :: ·) <$> parse rest
        | none => (.literal a :: ·) <$> parse text
      else (.literal a :: ·) <$> parse text
termination_by text => text.length
decreasing_by
  all_goals simp only [List.length_cons]
  all_goals first
    | omega
    | exact Nat.lt_succ_of_lt (brackets.shorter _ _ _ ‹_›)

/-- Whether a pattern, as it is written, matches a name. -/
def fnmatch (pattern name : List α) : Bool :=
  (parse signs brackets pattern).any fun parts => accepts parts name

/-- A text with a backslash ahead of the characters that are such. -/
def escaped (such : α → Bool) (text : List α) : List α :=
  text.flatMap fun a => if such a then [signs.escape, a] else [a]

variable {signs brackets} {such : α → Bool}

/-- A text whose signs are escaped is read as itself. -/
theorem parse_escaped_append
    (hsuch : ∀ a ∈ [signs.many, signs.one, signs.bracket, signs.escape], such a = true)
    (text rest : List α) :
    parse signs brackets (escaped signs such text ++ rest) =
      (literals text ++ ·) <$> parse signs brackets rest := by
  obtain ⟨hmany, hone, hbracket, hescape⟩ :
      such signs.many = true ∧ such signs.one = true ∧ such signs.bracket = true ∧
        such signs.escape = true := by
    simpa using hsuch
  have hdistinct := signs.distinct
  simp only [List.nodup_cons, List.mem_cons, List.not_mem_nil, or_false, not_or] at hdistinct
  obtain ⟨⟨-, -, hne⟩, ⟨-, hne'⟩, -⟩ := hdistinct
  induction text with
  | nil => simp [escaped, literals]
  | cons a text ih =>
    have hcons : escaped signs such (a :: text) ++ rest =
        (if such a then [signs.escape, a] else [a]) ++ (escaped signs such text ++ rest) := by
      simp [escaped]
    have hlit : (fun parts => literals (a :: text) ++ parts) <$> parse signs brackets rest =
        (.literal a :: ·) <$> (literals text ++ ·) <$> parse signs brackets rest := by
      cases parse signs brackets rest <;> rfl
    rw [hcons, hlit, ← ih]
    by_cases ha : such a = true
    · rw [if_pos ha, List.cons_append, List.singleton_append, parse.eq_def]
      simp only [if_neg (Ne.symm hne), if_neg (Ne.symm hne'), if_pos]
    · have hplain : ∀ sign, such sign = true → a ≠ sign := by
        rintro sign hsign rfl
        exact ha hsign
      rw [if_neg ha, List.singleton_append, parse.eq_def]
      simp only [if_neg (hplain _ hmany), if_neg (hplain _ hone), if_neg (hplain _ hescape),
        if_neg (hplain _ hbracket)]

theorem parse_many (text : List α) :
    parse signs brackets (signs.many :: text) = (.many :: ·) <$> parse signs brackets text := by
  rw [parse.eq_def]
  simp only [if_pos]

/-- **A text whose signs are escaped, with anything around it**, matches exactly what contains it.
-/
theorem fnmatch_contains_iff
    (hsuch : ∀ a ∈ [signs.many, signs.one, signs.bracket, signs.escape], such a = true)
    {text name : List α} :
    fnmatch signs brackets ([signs.many] ++ escaped signs such text ++ [signs.many]) name = true ↔
      text <:+: name := by
  have hlast : parse signs brackets [signs.many] = some [.many] := by
    rw [parse_many, parse]
    rfl
  have hparse : parse signs brackets ([signs.many] ++ escaped signs such text ++ [signs.many]) =
      some (.many :: (literals text ++ [.many])) := by
    rw [List.append_assoc, List.singleton_append, parse_many, parse_escaped_append hsuch, hlast]
    rfl
  rw [fnmatch, hparse, Option.any_some, accepts_contains_iff]

end Patterns
