import SuperHerdr.Library.Transducer

/-!
# Files edited by rewriting them whole

An edit of a file reads all of it, works out what the whole file should say, and replaces it. Each
of the two is atomic and nothing keeps edits apart, so between them another edit may have replaced
the file. Either of the two may fail; what an edit goes on from where it could not read is `unread`.

What the file says is seen through `view`, and an edit that returned `Ok` is to have changed what it
says by `effect`. `step_reflected_iff` says when one step keeps the file at what the edits answered
with `Ok` make of it, `reflected_iff_current` when a run does.
-/

namespace Rewriting

open Transducer

variable {φ ε ν : Type*}

/-- One edit under way. -/
inductive Task (φ ε : Type*)
  | reading (edit : ε)
  | writing (edit : ε) (read written : φ)
  | ended (ok : Bool)
deriving DecidableEq

def Task.isEnded : Task φ ε → Bool
  | .ended _ => true
  | _ => false

/-- The file and the edits of it, in the order in which they were started. -/
structure State (φ ε : Type*) where
  file : φ
  tasks : List (Task φ ε)

inductive Event (ε : Type*)
  | start (edit : ε)
  | run (task : ℕ) (works : Bool)

/-- What is read of the file. -/
def State.read (unread : φ) (works : Bool) (s : State φ ε) : φ := if works then s.file else unread

/-- A step, and the edit it answers with `Ok`. What an edit makes of what it reads is `outcome`:
nothing if it fails, no new file if it is done as it is. -/
def step (unread : φ) (outcome : ε → φ → Option (Option φ)) (s : State φ ε) :
    Event ε → State φ ε × List ε
  | .start edit => ({ s with tasks := s.tasks ++ [.reading edit] }, [])
  | .run i works =>
      match s.tasks[i]? with
      | some (.reading edit) =>
          match outcome edit (s.read unread works) with
          | none => ({ s with tasks := s.tasks.set i (.ended false) }, [])
          | some none => ({ s with tasks := s.tasks.set i (.ended true) }, [edit])
          | some (some written) =>
              ({ s with tasks := s.tasks.set i (.writing edit (s.read unread works) written) }, [])
      | some (.writing edit _ written) =>
          if works then (⟨written, s.tasks.set i (.ended true)⟩, [edit])
          else ({ s with tasks := s.tasks.set i (.ended false) }, [])
      | _ => (s, [])

/-- The file as the edits answered so far make it. -/
def record {σ ι : Type*} (effect : ε → ν → ν) (ledger : ν) (_ : σ) (_ : ι)
    (answered : σ × List ε) : ν :=
  answered.2.foldl (fun said edit => effect edit said) ledger

/-- What is about to be written is what the edit made of the file it read. -/
def Sound (outcome : ε → φ → Option (Option φ)) (s : State φ ε) : Prop :=
  ∀ edit read written, Task.writing edit read written ∈ s.tasks →
    outcome edit read = some (some written)

/-- An edit that cannot read finds the file such that it may leave it (`idles`), and one that
replaces the file does so in a way that `lands` for what it read and what it finds. -/
def Current (idles : ε → φ → Prop) (lands : ε → φ → φ → Prop) (s : State φ ε) : Event ε → Prop
  | .start _ => True
  | .run i works =>
      (∀ edit, s.tasks[i]? = some (.reading edit) → works = false → idles edit s.file) ∧
        ∀ edit read written,
          s.tasks[i]? = some (.writing edit read written) → works = true → lands edit read s.file

section Laws

variable {unread : φ} {outcome : ε → φ → Option (Option φ)} {effect : ε → ν → ν} {view : φ → ν}
  {idles : ε → φ → Prop} {lands : ε → φ → φ → Prop}

theorem sound_step {s : State φ ε} (event : Event ε) (h : Sound outcome s) :
    Sound outcome (step unread outcome s event).1 := by
  have hset : ∀ {file : φ} {i : ℕ} {task : Task φ ε},
      (∀ edit read written, task = .writing edit read written →
        outcome edit read = some (some written)) →
      Sound outcome ⟨file, s.tasks.set i task⟩ := by
    intro file i task htask edit read written hmem
    rcases List.mem_or_eq_of_mem_set hmem with hold | hnew
    · exact h edit read written hold
    · exact htask edit read written hnew.symm
  cases event with
  | start edit =>
    intro edit' read written hmem
    have hold : Task.writing edit' read written ∈ s.tasks := by simpa [step] using hmem
    exact h edit' read written hold
  | run i works =>
    rw [step]
    split
    · next edit _ =>
      split
      · exact hset (by simp)
      · exact hset (by simp)
      · next written hout =>
        refine hset fun edit' read' written' hnew => ?_
        obtain ⟨rfl, rfl, rfl⟩ := Task.writing.inj hnew
        exact hout
    · split
      · exact hset (by simp)
      · exact hset (by simp)
    · exact h

/-- **One step** keeps the file at what the answered edits make of it exactly if it is `Current`. -/
theorem step_reflected_iff
    (hread : ∀ edit file, outcome edit file = some none → effect edit (view file) = view file)
    (hidles : ∀ edit file, idles edit file ↔
      (outcome edit unread = some none → effect edit (view file) = view file))
    (hlands : ∀ edit read written file, outcome edit read = some (some written) →
      (view written = effect edit (view file) ↔ lands edit read file))
    {s : State φ ε} {ledger : ν} (hsound : Sound outcome s) (hreflected : view s.file = ledger)
    (event : Event ε) :
    view (step unread outcome s event).1.file =
        record effect ledger s event (step unread outcome s event) ↔
      Current idles lands s event := by
  subst hreflected
  cases event with
  | start edit => simp [step, record, Current]
  | run i works =>
    rw [Current, step]
    split
    · next edit hi =>
      have hleaves : (outcome edit (s.read unread works) = some none →
          effect edit (view s.file) = view s.file) ↔ (works = false → idles edit s.file) := by
        cases works with
        | true => simpa [State.read] using hread edit s.file
        | false => simp [State.read, hidles]
      split
      · next hout => simpa [record, hi, hout] using hleaves
      · next hout => simpa [record, hi, hout, eq_comm] using hleaves
      · next hout => simpa [record, hi, hout] using hleaves
    · next edit read written hi =>
      have hout := hsound edit read written (List.mem_of_getElem? hi)
      have hiff := hlands edit read written s.file hout
      cases works with
      | true => simpa [record, hi] using hiff
      | false => simp [record, hi]
    · next hreading hwriting =>
      have hnone : (∀ edit, s.tasks[i]? ≠ some (.reading edit)) ∧
          ∀ edit read written, s.tasks[i]? ≠ some (.writing edit read written) :=
        ⟨hreading, hwriting⟩
      simp [record, hnone]

/-- **A run** keeps the file at what the answered edits make of it exactly if every step is
`Current`. The edits may be started and run by a larger machine: `store` is its part that holds the
file, `label` what a step of it does there, if anything. -/
theorem reflected_iff_current {σ ι : Type*} (machine : σ → ι → σ × List ε)
    (store : σ → State φ ε) (label : σ → ι → Option (Event ε))
    (hdrives : ∀ s i, (store (machine s i).1, (machine s i).2) =
      (label s i).elim (store s, []) (step unread outcome (store s)))
    (hread : ∀ edit file, outcome edit file = some none → effect edit (view file) = view file)
    (hidles : ∀ edit file, idles edit file ↔
      (outcome edit unread = some none → effect edit (view file) = view file))
    (hlands : ∀ edit read written file, outcome edit read = some (some written) →
      (view written = effect edit (view file) ↔ lands edit read file))
    {s : σ} (hstart : (store s).tasks = []) (inputs : List ι) :
    AllStates (observe machine (record effect)) (fun p => view (store p.1).file = p.2)
        (s, view (store s).file) inputs ↔
      AllSteps machine (fun s i => ∀ event ∈ label s i, Current idles lands (store s) event) s
        inputs := by
  have hstep : ∀ s i ledger, Sound outcome (store s) → view (store s).file = ledger →
      (view (store (machine s i).1).file = record effect ledger s i (machine s i) ↔
        ∀ event ∈ label s i, Current idles lands (store s) event) := by
    intro s i ledger hsound hreflected
    have hdrive := hdrives s i
    cases hlabel : label s i with
    | none =>
      rw [hlabel, Option.elim_none, Prod.mk.injEq] at hdrive
      simpa [record, hdrive.1, hdrive.2] using hreflected
    | some event =>
      rw [hlabel, Option.elim_some] at hdrive
      have hone := step_reflected_iff hread hidles hlands hsound hreflected event
      rw [← hdrive] at hone
      simpa [record] using hone
  have hkept : ∀ s i, Sound outcome (store s) → Sound outcome (store (machine s i).1) := by
    intro s i hsound
    have hdrive := congrArg Prod.fst (hdrives s i)
    rw [show store (machine s i).1 = _ from hdrive]
    cases label s i with
    | none => exact hsound
    | some event => exact sound_step event hsound
  have hnone : Sound outcome (store s) := by
    intro edit read written hmem
    rw [hstart] at hmem
    cases hmem
  rw [← allSteps_observe machine (record effect) (s, view (store s).file) inputs]
  refine allStates_iff_allSteps (s := (s, view (store s).file))
    (I := fun p : σ × ν => Sound outcome (store p.1))
    (P := fun p : σ × ν => view (store p.1).file = p.2) ?_ ?_ ?_ hnone rfl inputs
  · intro p i hp
    exact hkept p.1 i hp
  · intro p i hsound hreflected hcurrent
    exact (hstep p.1 i p.2 hsound hreflected).mpr hcurrent
  · intro p i hsound hreflected hnext
    exact (hstep p.1 i p.2 hsound hreflected).mp hnext

end Laws

end Rewriting
