import Mathlib.Data.List.Basic

/-!
# Dialogues

A program that asks one question after another, each depending on the answers to those before it,
and ends with a result or an error. Who answers is not said: `Ends` relates a program to every
exchange it can have, whatever the answers are. What a program does in two parts is an exchange in
two parts (`ends_bind_iff`).
-/

namespace Dialogue

/-- A program that asks. -/
inductive Talk (Q A ε α : Type)
  | done (result : Except ε α)
  | ask (question : Q) (next : A → Talk Q A ε α)

namespace Talk

variable {Q A ε α β : Type}

/-- One part and then, unless it ended with an error, another. -/
def bind (talk : Talk Q A ε α) (next : α → Talk Q A ε β) : Talk Q A ε β :=
  match talk with
  | .done (.ok a) => next a
  | .done (.error e) => .done (.error e)
  | .ask question rest => .ask question fun answer => (rest answer).bind next

instance : Monad (Talk Q A ε) where
  pure a := .done (.ok a)
  bind := bind

/-- Ask, and end with the error if that is the answer. -/
def request (question : Q) : Talk Q (Except ε A) ε A := .ask question .done

/-- Which questions a program asks, with the answers it gets, and how it ends then. -/
inductive Ends : Talk Q A ε α → List (Q × A) → Except ε α → Prop
  | done (result : Except ε α) : Ends (.done result) [] result
  | ask {question : Q} {next : A → Talk Q A ε α} {answer : A} {said : List (Q × A)}
      {result : Except ε α} (h : Ends (next answer) said result) :
      Ends (.ask question next) ((question, answer) :: said) result

variable {said : List (Q × A)}

theorem ends_done_iff {result other : Except ε α} :
    Ends (.done result) said other ↔ said = [] ∧ other = result := by
  constructor
  · rintro ⟨⟩
    exact ⟨rfl, rfl⟩
  · rintro ⟨rfl, rfl⟩
    exact .done _

theorem ends_pure_iff {a : α} {result : Except ε α} :
    Ends (pure a : Talk Q A ε α) said result ↔ said = [] ∧ result = .ok a := ends_done_iff

theorem ends_ask_iff {question : Q} {next : A → Talk Q A ε α} {result : Except ε α} :
    Ends (.ask question next) said result ↔
      ∃ answer rest, said = (question, answer) :: rest ∧ Ends (next answer) rest result := by
  constructor
  · rintro (_ | h)
    exact ⟨_, _, rfl, h⟩
  · rintro ⟨answer, rest, rfl, h⟩
    exact .ask h

theorem ends_request_iff {question : Q} {said : List (Q × Except ε A)} {result : Except ε A} :
    Ends (request question) said result ↔ said = [(question, result)] := by
  simp [request, ends_ask_iff, ends_done_iff]

variable {next : α → Talk Q A ε β}

/-- An exchange of two parts. -/
theorem ends_bind_iff {talk : Talk Q A ε α} {result : Except ε β} :
    Ends (talk >>= next) said result ↔
      (∃ e, result = .error e ∧ Ends talk said (.error e)) ∨
        ∃ first rest a, said = first ++ rest ∧ Ends talk first (.ok a) ∧
          Ends (next a) rest result := by
  change Ends (talk.bind next) said result ↔ _
  induction talk generalizing said with
  | done ended =>
    cases ended with
    | ok a => simp [bind, ends_done_iff]
    | error e => simp [bind, ends_done_iff, and_comm]
  | ask question rest ih =>
    simp only [bind, ends_ask_iff, ih]
    constructor
    · rintro ⟨answer, more, rfl, ⟨e, rfl, h⟩ | ⟨first, last, a, rfl, hfirst, hlast⟩⟩
      · exact .inl ⟨e, rfl, answer, more, rfl, h⟩
      · exact .inr ⟨(question, answer) :: first, last, a, rfl, ⟨answer, first, rfl, hfirst⟩, hlast⟩
    · rintro (⟨e, rfl, answer, more, rfl, h⟩ |
        ⟨-, last, a, rfl, ⟨answer, first, rfl, hfirst⟩, hlast⟩)
      · exact ⟨answer, more, rfl, .inl ⟨e, rfl, h⟩⟩
      · exact ⟨answer, first ++ last, rfl, .inr ⟨first, last, a, rfl, hfirst, hlast⟩⟩

/-- Two parts end well if both do. -/
theorem ends_bind_ok_iff {talk : Talk Q A ε α} {b : β} : Ends (talk >>= next) said (.ok b) ↔
      ∃ first rest a, said = first ++ rest ∧ Ends talk first (.ok a) ∧
        Ends (next a) rest (.ok b) := by
  simp [ends_bind_iff]

/-! ### What can come of it -/

section Yields

variable (allowed : Q → A → Prop)

/-- With answers that are allowed, a program can end with this. -/
def Yields (talk : Talk Q A ε α) (a : α) : Prop :=
  ∃ said : List (Q × A), (∀ asked ∈ said, allowed asked.1 asked.2) ∧ Ends talk said (.ok a)

theorem yields_done_iff {result : Except ε α} {a : α} :
    Yields allowed (.done result : Talk Q A ε α) a ↔ result = .ok a := by
  simp only [Yields, ends_done_iff]
  constructor
  · rintro ⟨said, -, -, heq⟩
    exact heq.symm
  · rintro rfl
    exact ⟨[], by simp, rfl, rfl⟩

theorem yields_pure_iff {a b : α} : Yields allowed (pure a : Talk Q A ε α) b ↔ a = b := by
  rw [show (pure a : Talk Q A ε α) = .done (.ok a) from rfl, yields_done_iff, Except.ok.injEq]

theorem yields_request_iff {question : Q} {a : α} {allowed : Q → Except ε α → Prop} :
    Yields allowed (request question) a ↔ allowed question (.ok a) := by
  simp only [Yields, ends_request_iff]
  constructor
  · rintro ⟨said, hallowed, rfl⟩
    exact hallowed _ List.mem_cons_self
  · intro h
    refine ⟨_, ?_, rfl⟩
    intro asked hasked
    rwa [List.mem_singleton.mp hasked]

/-- What can come of two parts. -/
theorem yields_bind_iff {talk : Talk Q A ε α} {next : α → Talk Q A ε β} {b : β} :
    Yields allowed (talk >>= next) b ↔ ∃ a, Yields allowed talk a ∧ Yields allowed (next a) b := by
  simp only [Yields, ends_bind_ok_iff]
  constructor
  · rintro ⟨said, hallowed, first, rest, a, rfl, hfirst, hrest⟩
    rw [List.forall_mem_append] at hallowed
    exact ⟨a, ⟨first, hallowed.1, hfirst⟩, rest, hallowed.2, hrest⟩
  · rintro ⟨a, ⟨first, hallowed, hfirst⟩, rest, hrestAllowed, hrest⟩
    exact ⟨first ++ rest, List.forall_mem_append.mpr ⟨hallowed, hrestAllowed⟩, first, rest, a, rfl,
      hfirst, hrest⟩

/-- What can come of a result that is made something of. -/
theorem yields_map_iff {talk : Talk Q A ε α} {f : α → β} {b : β} :
    Yields allowed (f <$> talk) b ↔ ∃ a, Yields allowed talk a ∧ f a = b := by
  change Yields allowed (talk >>= fun a => pure (f a)) b ↔ _
  simp only [yields_bind_iff, yields_pure_iff]

end Yields

/-! ### What is asked -/

/-- Whatever it is answered, a program asks only such questions. -/
def Asks (such : Q → Prop) (talk : Talk Q A ε α) : Prop :=
  ∀ said result, Ends talk said result → ∀ asked ∈ said, such asked.1

variable {such : Q → Prop}

theorem asks_done (result : Except ε α) : Asks such (.done result : Talk Q A ε α) := by
  intro said ended h asked hasked
  rw [(ends_done_iff.mp h).1] at hasked
  cases hasked

theorem asks_request (such : Q → Prop) {question : Q} (h : such question) :
    Asks such (request question : Talk Q (Except ε A) ε A) := by
  intro said result hends asked hasked
  rw [ends_request_iff.mp hends] at hasked
  rw [List.mem_singleton.mp hasked]
  exact h

theorem Asks.bind {talk : Talk Q A ε α} (h : Asks such talk)
    (hnext : ∀ a, Asks such (next a)) : Asks such (talk >>= next) := by
  intro said result hends asked hasked
  rcases ends_bind_iff.mp hends with ⟨e, -, hends⟩ | ⟨first, rest, a, rfl, hfirst, hrest⟩
  · exact h said _ hends asked hasked
  · rcases List.mem_append.mp hasked with hasked | hasked
    · exact h first _ hfirst asked hasked
    · exact hnext a rest _ hrest asked hasked

end Talk

end Dialogue
