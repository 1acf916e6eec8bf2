import Mathlib.Data.List.Basic

/-!
# Replaying a stream that restarts

A stream of **chunks** drives a state: each chunk has a format and a payload, and it
**restarts** the state when it says so or when its format differs from the chunk before it.
`keep` maintains the part of a stream that still matters, the chunks since the last restart,
and `Interpreter.render` is the state they amount to: a fresh one fed their payloads.

A **player** does not keep the stream. It holds one state with its format and plays each chunk
as it arrives. `Holds` says that a player is in step with the stream it was played.
`Holds.play` keeps it in step, and `holds_of_blank` says how a latecomer falls in step: a
blank player is in step as soon as the chunk it starts with is one that restarts.
-/

namespace Replay

variable {κ β π : Type*}

/-- One chunk of a stream. -/
structure Chunk (κ β : Type*) where
  format : κ
  full : Bool
  payload : β
deriving DecidableEq

/-- What chunks do to a state: a fresh state of each format, and feeding a payload. -/
structure Interpreter (κ β π : Type*) where
  fresh : κ → π
  feed : π → β → π

section Keep

variable [DecidableEq κ]

/-- Whether a chunk restarts the stream: it says so, or its format is new. The first chunk of a
stream does. -/
def Restarts (kept : List (Chunk κ β)) (chunk : Chunk κ β) : Prop :=
  chunk.full = true ∨ kept.getLast?.map Chunk.format ≠ some chunk.format

instance (kept : List (Chunk κ β)) (chunk : Chunk κ β) : Decidable (Restarts kept chunk) :=
  inferInstanceAs (Decidable (_ ∨ _))

/-- The chunks since the last restart, oldest first, after one more chunk. -/
def keep (kept : List (Chunk κ β)) (chunk : Chunk κ β) : List (Chunk κ β) :=
  if Restarts kept chunk then [chunk] else kept ++ [chunk]

end Keep

namespace Interpreter

variable (I : Interpreter κ β π)

/-- The state the chunks since a restart amount to; none before the first chunk. -/
def render : List (Chunk κ β) → Option π
  | [] => none
  | first :: rest =>
      some ((first :: rest).foldl (fun state chunk => I.feed state chunk.payload)
        (I.fresh first.format))

/-- One chunk on its own. -/
theorem render_singleton (chunk : Chunk κ β) :
    I.render [chunk] = some (I.feed (I.fresh chunk.format) chunk.payload) := rfl

variable {kept : List (Chunk κ β)}

/-- One more chunk is fed to the state so far. -/
theorem render_concat {state : π} (h : I.render kept = some state)
    (chunk : Chunk κ β) : I.render (kept ++ [chunk]) = some (I.feed state chunk.payload) := by
  cases kept with
  | nil => cases h
  | cons first rest =>
    obtain rfl := Option.some.inj h
    rw [List.cons_append, render, ← List.cons_append, List.foldl_append]
    rfl

variable [DecidableEq κ]

/-- A player's format and state after one chunk. -/
def play (held : κ × π) (chunk : Chunk κ β) : κ × π :=
  (chunk.format,
    I.feed (if chunk.full = true ∨ held.1 ≠ chunk.format then I.fresh chunk.format else held.2)
      chunk.payload)

variable {held : κ × π}

/-- A player starts over at a chunk that says so or has another format. -/
theorem play_of_restart {chunk : Chunk κ β} (h : chunk.full = true ∨ held.1 ≠ chunk.format) :
    I.play held chunk = (chunk.format, I.feed (I.fresh chunk.format) chunk.payload) := by
  rw [play, if_pos h]

/-- A player goes on with any other chunk. -/
theorem play_of_continue {chunk : Chunk κ β} (h : ¬ (chunk.full = true ∨ held.1 ≠ chunk.format)) :
    I.play held chunk = (chunk.format, I.feed held.2 chunk.payload) := by
  rw [play, if_neg h]

/-- A player is in step with the chunks since the last restart. -/
structure Holds (kept : List (Chunk κ β)) (held : κ × π) : Prop where
  format : kept.getLast?.map Chunk.format = some held.1
  state : I.render kept = some held.2

variable {I}

/-- **A player that is in step stays in step.** -/
theorem Holds.play (h : I.Holds kept held)
    (chunk : Chunk κ β) : I.Holds (keep kept chunk) (I.play held chunk) := by
  have hrestarts : Restarts kept chunk ↔ chunk.full = true ∨ held.1 ≠ chunk.format := by
    rw [Restarts, h.format]
    simp
  by_cases hr : Restarts kept chunk
  · rw [keep, if_pos hr, I.play_of_restart (hrestarts.mp hr)]
    exact ⟨rfl, I.render_singleton chunk⟩
  · rw [keep, if_neg hr, I.play_of_continue (hrestarts.not.mp hr)]
    exact ⟨by simp, I.render_concat h.state chunk⟩

/-- **A latecomer falls in step at a restart**: a blank player of whatever format is in step
once it has played a chunk that restarts the stream. -/
theorem holds_of_blank {chunk : Chunk κ β}
    (hr : Restarts kept chunk) (hblank : held.2 = I.fresh held.1) :
    I.Holds (keep kept chunk) (I.play held chunk) := by
  have hplay : I.play held chunk = (chunk.format, I.feed (I.fresh chunk.format) chunk.payload) := by
    by_cases hmine : chunk.full = true ∨ held.1 ≠ chunk.format
    · exact I.play_of_restart hmine
    · -- a blank player of the chunk's format is what a restart would make of it
      have hformat : held.1 = chunk.format := by
        by_contra hne
        exact hmine (.inr hne)
      rw [I.play_of_continue hmine, hblank, hformat]
  rw [keep, if_pos hr, hplay]
  exact ⟨rfl, I.render_singleton chunk⟩

end Interpreter

end Replay
