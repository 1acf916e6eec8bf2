import Mathlib.Data.List.Basic
import Mathlib.Data.List.Induction

/-!
# Transducers: runs, invariants, observers and projections

A **transducer** is a step function `step : σ → ι → σ × List ο`: a state and an input give a
new state and the outputs emitted on the way, in order. It serves two purposes at once. A
pure state machine is a transducer over its inputs, and a loop that updates a state while
emitting is a transducer over the list it walks, so `exec` is both the run of a machine and
the meaning of such a loop.

Three kinds of reasoning are packaged here, each proved once by induction over the inputs:

* **Invariants** (`exec_invariant`) and their conditional form. `AllSteps` says that every
  step of a run meets a condition read in the state before it, `AllStates` that every state
  of a run has a property; `allStates_of_allSteps` derives the second from the first and
  `allStates_iff_allSteps` says when the condition is exact.
* **Observers** (`observe`): a history-dependent quantity is carried beside the state, and
  `exec_observe_fst` says that carrying it does not change the run.
* **Projections** (`Projects`): a machine that is, component by component, a smaller
  machine. An invariant of the component is an invariant of the whole
  (`Projects.invariant`), also together with an observer (`Projects.observe_invariant`), a
  loop over distinct keys acts on one component at most once (`exec_project`), and if each key
  has its own component the loop is pointwise (`exec_pointwise`). A whole run is one of the
  component, state and outputs, under what it hears of it (`Projects.exec_heard`).
-/

namespace Transducer

variable {σ ι ο γ τ α : Type*}

/-! ### Runs -/

/-- Run a step function over a list of inputs, collecting the outputs in order. -/
def exec (step : σ → ι → σ × List ο) (s : σ) : List ι → σ × List ο
  | [] => (s, [])
  | i :: is =>
      let rest := exec step (step s i).1 is
      (rest.1, (step s i).2 ++ rest.2)

section Runs

variable (step : σ → ι → σ × List ο)

@[simp] theorem exec_nil (s : σ) : exec step s [] = (s, []) := rfl

@[simp] theorem exec_cons (s : σ) (i : ι) (is : List ι) :
    exec step s (i :: is) = ((exec step (step s i).1 is).1,
      (step s i).2 ++ (exec step (step s i).1 is).2) := rfl

/-- A run over a concatenation continues the first run. -/
theorem exec_append (s : σ) (is js : List ι) :
    exec step s (is ++ js) = ((exec step (exec step s is).1 js).1,
      (exec step s is).2 ++ (exec step (exec step s is).1 js).2) := by
  induction is generalizing s with
  | nil => simp
  | cons i is ih => simp [ih, List.append_assoc]

/-- The state after one more input. -/
theorem exec_concat_fst (s : σ) (is : List ι) (i : ι) :
    (exec step s (is ++ [i])).1 = (step (exec step s is).1 i).1 := by
  rw [exec_append]
  rfl

/-- A run over renamed inputs. -/
theorem exec_map (f : α → ι) (s : σ) (is : List α) :
    exec step s (is.map f) = exec (fun s i => step s (f i)) s is := by
  induction is generalizing s with
  | nil => rfl
  | cons i is ih => rw [List.map_cons, exec_cons, exec_cons, ih]

/-- A run over one input. -/
theorem exec_singleton (s : σ) (i : ι) : exec step s [i] = step s i := by
  simp

variable {step}

variable {s : σ} {I : σ → Prop}

/-- **The invariant rule**: what holds initially and is kept by every step holds after every
run. -/
theorem exec_invariant (hstep : ∀ s i, I s → I (step s i).1)
    (hs : I s) (is : List ι) : I (exec step s is).1 := by
  induction is generalizing s with
  | nil => exact hs
  | cons i is ih => exact ih (hstep s i hs)

/-! ### Histories -/

/-- **The history rule**: what holds of the empty history and survives one more step holds of
every history. -/
theorem history_rule {P : List ι → σ → Prop} (hnil : P [] s)
    (hstep : ∀ is i, P is (exec step s is).1 → P (is ++ [i]) (step (exec step s is).1 i).1)
    (is : List ι) : P is (exec step s is).1 := by
  induction is using List.reverseRecOn with
  | nil => exact hnil
  | append_singleton is i ih =>
    rw [exec_concat_fst]
    exact hstep is i ih

variable {is : List ι}

/-- What a run put out, one of its steps did. -/
theorem mem_exec_snd {o : ο} (h : o ∈ (exec step s is).2) :
    ∃ before i after, is = before ++ i :: after ∧ o ∈ (step (exec step s before).1 i).2 := by
  induction is generalizing s with
  | nil => cases h
  | cons i is ih =>
    rcases List.mem_append.mp h with h | h
    · exact ⟨[], i, is, rfl, h⟩
    · obtain ⟨before, j, after, rfl, hmem⟩ := ih h
      exact ⟨i :: before, j, after, rfl, hmem⟩

variable (step)

/-- How many steps of a run meet a condition. -/
def tally (p : σ → ι → Bool) : σ → List ι → ℕ
  | _, [] => 0
  | s, i :: is => (p s i).toNat + tally p (step s i).1 is

theorem tally_concat (p : σ → ι → Bool) (s : σ) (is : List ι) (i : ι) :
    tally step p s (is ++ [i]) = tally step p s is + (p (exec step s is).1 i).toNat := by
  induction is generalizing s with
  | nil => simp [tally]
  | cons j is ih => simp [tally, ih, Nat.add_assoc]

/-! ### Conditions on every step, properties of every state -/

/-- Every step of the run meets `G`, read in the state before the step. -/
def AllSteps (G : σ → ι → Prop) : σ → List ι → Prop
  | _, [] => True
  | s, i :: is => G s i ∧ AllSteps G (step s i).1 is

/-- Every state of the run, the first and the last included, has property `P`. -/
def AllStates (P : σ → Prop) : σ → List ι → Prop
  | s, [] => P s
  | s, i :: is => P s ∧ AllStates P (step s i).1 is

/-- A condition that can be decided of each step can be decided of a run. -/
instance AllSteps.decidable (G : σ → ι → Prop) [∀ s i, Decidable (G s i)] :
    (s : σ) → (is : List ι) → Decidable (AllSteps step G s is)
  | _, [] => isTrue trivial
  | s, i :: is =>
      have := AllSteps.decidable G (step s i).1 is
      inferInstanceAs (Decidable (G s i ∧ AllSteps step G (step s i).1 is))

variable {step}

variable {G : σ → ι → Prop}

/-- `AllSteps` read off any split of the inputs. -/
theorem AllSteps.of_append {is js : List ι} {i : ι}
    (h : AllSteps step G s (is ++ i :: js)) : G (exec step s is).1 i := by
  induction is generalizing s with
  | nil => exact h.1
  | cons _ _ ih => exact ih h.2

/-- A condition that every step from a state with the invariant meets is met by every step of
a run. -/
theorem allSteps_of_invariant
    (hI : ∀ s i, I s → I (step s i).1) (hG : ∀ s i, I s → G s i) (hs : I s)
    (is : List ι) : AllSteps step G s is := by
  induction is generalizing s with
  | nil => trivial
  | cons i is ih => exact ⟨hG s i hs, ih (hI s i hs)⟩

/-- A condition on every input, beside a condition on every step. -/
theorem allSteps_and_of_forall {H : ι → Prop} (hH : ∀ i ∈ is, H i) (hG : AllSteps step G s is) :
    AllSteps step (fun s i => H i ∧ G s i) s is := by
  induction is generalizing s with
  | nil => trivial
  | cons i is ih =>
    exact ⟨⟨hH i List.mem_cons_self, hG.1⟩,
      ih (fun j hj => hH j (List.mem_cons_of_mem i hj)) hG.2⟩

/-- A condition on every step, said in another way where an invariant holds. -/
theorem allSteps_congr {G H : σ → ι → Prop} (hI : ∀ s i, I s → I (step s i).1)
    (h : ∀ s i, I s → (G s i ↔ H s i)) (hs : I s) (is : List ι) :
    AllSteps step G s is ↔ AllSteps step H s is := by
  induction is generalizing s with
  | nil => exact Iff.rfl
  | cons i is ih => exact and_congr (h s i hs) (ih (hI s i hs))

/-- The same where an invariant is kept by steps that meet the condition. -/
theorem allSteps_congr_of_allSteps {G H : σ → ι → Prop}
    (hI : ∀ s i, I s → G s i → I (step s i).1) (h : ∀ s i, I s → (G s i ↔ H s i))
    (hs : I s) (is : List ι) : AllSteps step G s is ↔ AllSteps step H s is := by
  induction is generalizing s with
  | nil => exact Iff.rfl
  | cons i is ih =>
    constructor
    · rintro ⟨hG, hrest⟩
      exact ⟨(h s i hs).mp hG, (ih (hI s i hs hG)).mp hrest⟩
    · rintro ⟨hH, hrest⟩
      have hG : G s i := (h s i hs).mpr hH
      exact ⟨hG, (ih (hI s i hs hG)).mpr hrest⟩

/-- **The conditional rule, for steps**: an invariant that only steps meeting `G` keep still
bounds what every step of a run does, as long as every step of the run meets `G`. -/
theorem allSteps_of_allSteps {G Q : σ → ι → Prop}
    (hI : ∀ s i, I s → G s i → I (step s i).1) (hQ : ∀ s i, I s → G s i → Q s i)
    (hs : I s) (hG : AllSteps step G s is) : AllSteps step Q s is := by
  induction is generalizing s with
  | nil => trivial
  | cons i is ih => exact ⟨hQ s i hs hG.1, ih (hI s i hs hG.1) hG.2⟩

/-- **The conditional rule, for states**: if every step of the run meets `G`, a property that
steps meeting `G` keep holds in every state of the run. The invariant `I` holds regardless. -/
theorem allStates_of_allSteps {I P : σ → Prop}
    (hI : ∀ s i, I s → I (step s i).1) (hP : ∀ s i, I s → P s → G s i → P (step s i).1) (hIs : I s)
    (hPs : P s) (hG : AllSteps step G s is) :
    AllStates step P s is := by
  induction is generalizing s with
  | nil => exact hPs
  | cons i is ih => exact ⟨hPs, ih (hI s i hIs) (hP s i hIs hPs hG.1) hG.2⟩

/-- A property of every state of a run, weakened. -/
theorem AllStates.imp {P Q : σ → Prop} (hPQ : ∀ s, P s → Q s)
    (h : AllStates step P s is) : AllStates step Q s is := by
  induction is generalizing s with
  | nil => exact hPQ s h
  | cons i is ih => exact ⟨hPQ s h.1, ih h.2⟩

/-- `AllStates` includes the first state. -/
theorem AllStates.head {P : σ → Prop} (h : AllStates step P s is) : P s := by
  cases is with
  | nil => exact h
  | cons i is => exact h.1

/-- `AllStates` includes the last state. -/
theorem AllStates.last {P : σ → Prop} (h : AllStates step P s is) : P (exec step s is).1 := by
  induction is generalizing s with
  | nil => exact h
  | cons i is ih => exact ih h.2

/-- **Exactness**: when in addition a step that breaks `G` breaks `P`, the property holds all
along a run exactly when every step of the run meets the condition. -/
theorem allStates_iff_allSteps {I P : σ → Prop}
    (hI : ∀ s i, I s → I (step s i).1) (hP : ∀ s i, I s → P s → G s i → P (step s i).1)
    (hG : ∀ s i, I s → P s → P (step s i).1 → G s i) (hIs : I s) (hPs : P s)
    (is : List ι) : AllStates step P s is ↔ AllSteps step G s is := by
  refine ⟨fun h => ?_, allStates_of_allSteps hI hP hIs hPs⟩
  induction is generalizing s with
  | nil => trivial
  | cons i is ih =>
    have hnext : P (step s i).1 := h.2.head
    exact ⟨hG s i hIs hPs hnext, ih (hI s i hIs) hnext h.2⟩

end Runs

/-! ### Observers -/

/-- Carry a history-dependent quantity beside the state: `upd` sees the quantity, the state
before the step, the input, and what the step did. -/
def observe (step : σ → ι → σ × List ο) (upd : γ → σ → ι → σ × List ο → γ) :
    σ × γ → ι → (σ × γ) × List ο :=
  fun s i => (((step s.1 i).1, upd s.2 s.1 i (step s.1 i)), (step s.1 i).2)

section Observers

variable (step : σ → ι → σ × List ο) (upd : γ → σ → ι → σ × List ο → γ)

@[simp] theorem observe_fst (s : σ × γ) (i : ι) :
    (observe step upd s i).1.1 = (step s.1 i).1 := rfl

@[simp] theorem observe_snd (s : σ × γ) (i : ι) :
    (observe step upd s i).1.2 = upd s.2 s.1 i (step s.1 i) := rfl

/-- Observing does not change the run. -/
@[simp] theorem exec_observe_fst (s : σ × γ) (is : List ι) :
    (exec (observe step upd) s is).1.1 = (exec step s.1 is).1 := by
  induction is generalizing s with
  | nil => rfl
  | cons i is ih => simp [ih]

/-- A condition on the steps of a run does not depend on what is observed. -/
theorem allSteps_observe {G : σ → ι → Prop} (s : σ × γ) (is : List ι) :
    AllSteps (observe step upd) (fun s i => G s.1 i) s is ↔ AllSteps step G s.1 is := by
  induction is generalizing s with
  | nil => exact Iff.rfl
  | cons i is ih => exact and_congr Iff.rfl (ih _)

end Observers

/-- Folding a quantity over outputs none of which matters to it. -/
theorem foldl_of_ignored {f : γ → ο → γ} {os : List ο} (h : ∀ o ∈ os, ∀ g, f g o = g) (g : γ) :
    os.foldl f g = g := by
  induction os with
  | nil => rfl
  | cons o os ih =>
    rw [List.foldl_cons, h o (by simp)]
    exact ih fun o' ho => h o' (by simp [ho])

/-- Folding a quantity over outputs that write it, if at all, with one value: one of them did. -/
theorem foldl_of_written {f : γ → ο → γ} {x : γ} {os : List ο} (hkeep : ∀ o ∈ os, f x o = x)
    (hwrite : ∃ o ∈ os, ∀ g, f g o = x) (g : γ) : os.foldl f g = x := by
  induction os generalizing g with
  | nil =>
    obtain ⟨o, ho, -⟩ := hwrite
    cases ho
  | cons o os ih =>
    have hrest : ∀ o ∈ os, f x o = x := fun o' ho => hkeep o' (by simp [ho])
    obtain ⟨o', ho', hx⟩ := hwrite
    rw [List.foldl_cons]
    rcases List.mem_cons.mp ho' with rfl | ho'
    · rw [hx]
      refine List.foldlRecOn (motive := fun g => g = x) os f rfl fun g hg o ho => ?_
      rw [hg, hrest o ho]
    · exact ih hrest ⟨o', ho', hx⟩ (f g o)

variable {keep : ο → Bool}

/-- Folding a quantity over the outputs that matter to it is folding it over all of them. -/
theorem foldl_filter_of_ignored {f : γ → ο → γ}
    (h : ∀ g o, keep o = false → f g o = g) (g : γ) (os : List ο) :
    (os.filter keep).foldl f g = os.foldl f g := by
  have hskip : (fun g o => if keep o = true then f g o else g) = f := by
    funext g o
    split
    · rfl
    · next hkeep => exact (h g o (by simpa using hkeep)).symm
  rw [List.foldl_filter, hskip]

/-! ### Projections -/

/-- `step` **projects** to the smaller machine `act` through `view`: seen through the view, a
step is the action `label` names, or nothing at all, and the outputs the component cares
about (`keep`) are exactly the ones the component emits. The projection may rely on an
invariant `I` of the whole machine. -/
structure Projects (step : σ → ι → σ × List ο) (act : τ → α → τ × List ο) (view : σ → τ)
    (label : σ → ι → Option α) (keep : ο → Bool) (I : σ → Prop) : Prop where
  /-- The invariant the projection relies on is kept. -/
  inv : ∀ s i, I s → I (step s i).1
  /-- Steps without a label do not touch the component. -/
  idle : ∀ s i, I s → label s i = none →
    view (step s i).1 = view s ∧ (step s i).2.filter keep = []
  /-- A labelled step is that action of the component. -/
  move : ∀ s i a, I s → label s i = some a →
    view (step s i).1 = (act (view s) a).1 ∧ (step s i).2.filter keep = (act (view s) a).2

variable {step : σ → ι → σ × List ο} {act : τ → α → τ × List ο} {label : σ → ι → Option α} {view : σ → τ}

/-- **An invariant of the component is an invariant of the whole.** -/
theorem Projects.step_invariant {I : σ → Prop}
    (h : Projects step act view label keep I) {J : τ → Prop}
    (hJ : ∀ v a, J v → J (act v a).1) {s : σ} {i : ι} (hI : I s) (hs : J (view s)) :
    J (view (step s i).1) := by
  cases hl : label s i with
  | none => rw [(h.idle s i hI hl).1]; exact hs
  | some a => rw [(h.move s i a hI hl).1]; exact hJ _ _ hs

/-- The invariant of the component, after any run. -/
theorem Projects.invariant {I : σ → Prop} (h : Projects step act view label keep I) {J : τ → Prop}
    (hJ : ∀ v a, J v → J (act v a).1) {s : σ} (hI : I s) (hs : J (view s)) (is : List ι) :
    J (view (exec step s is).1) := by
  have hboth : ∀ s i, I s ∧ J (view s) → I (step s i).1 ∧ J (view (step s i).1) :=
    fun s i hs => ⟨h.inv s i hs.1, h.step_invariant hJ hs.1 hs.2⟩
  exact (exec_invariant hboth ⟨hI, hs⟩ is).2

/-- What the component does in the course of a run of the whole. -/
def heard (step : σ → ι → σ × List ο) (label : σ → ι → Option α) : σ → List ι → List α
  | _, [] => []
  | s, i :: is => (label s i).toList ++ heard step label (step s i).1 is

/-- **A run of the whole, seen from the component, is a run of the component.** The induction is on the
inputs; an input without a label adds nothing to either side. -/
theorem Projects.exec_heard {I : σ → Prop} (h : Projects step act view label keep I) {s : σ} (hI : I s)
    (is : List ι) : view (exec step s is).1 = (exec act (view s) (heard step label s is)).1 ∧
      (exec step s is).2.filter keep = (exec act (view s) (heard step label s is)).2 := by
  induction is generalizing s with
  | nil => exact ⟨rfl, rfl⟩
  | cons i is ih =>
    obtain ⟨ihview, ihout⟩ := ih (h.inv s i hI)
    rw [exec_cons, List.filter_append, ihview, ihout, heard]
    cases hl : label s i with
    | none =>
      obtain ⟨hview, hout⟩ := h.idle s i hI hl
      rw [hview, hout]
      exact ⟨rfl, rfl⟩
    | some a =>
      obtain ⟨hview, hout⟩ := h.move s i a hI hl
      rw [hview, hout]
      exact ⟨rfl, rfl⟩

/-- **An observed component**: a relation between the component and an observed quantity that
every step keeps, whether it moves the component or not, holds after any run. -/
theorem Projects.observe_invariant {I : σ → Prop}
    (h : Projects step act view label keep I) {u : γ → σ → ι → σ × List ο → γ}
    {J : τ → γ → Prop}
    (hidle : ∀ s i g, I s → label s i = none → J (view s) g →
      J (view s) (u g s i (step s i)))
    (hmove : ∀ s i a g, I s → label s i = some a → J (view s) g →
      J (act (view s) a).1 (u g s i (step s i)))
    {s : σ} {g : γ} (hI : I s) (hs : J (view s) g) (is : List ι) :
    J (view (exec (observe step u) (s, g) is).1.1) (exec (observe step u) (s, g) is).1.2 := by
  have hboth : ∀ (p : σ × γ) i, I p.1 ∧ J (view p.1) p.2 →
      I (observe step u p i).1.1 ∧ J (view (observe step u p i).1.1)
        (observe step u p i).1.2 := by
    rintro ⟨s, g⟩ i ⟨hI, hJ⟩
    refine ⟨h.inv s i hI, ?_⟩
    rw [observe_fst, observe_snd]
    cases hl : label s i with
    | none =>
      rw [(h.idle s i hI hl).1]
      exact hidle s i g hI hl hJ
    | some a =>
      rw [(h.move s i a hI hl).1]
      exact hmove s i a g hI hl hJ
  exact (exec_invariant hboth ⟨hI, hs⟩ is).2

/-- **A loop over distinct keys acts on one component at most once**: if only the key `k`
touches the component, a loop over keys without repeats is that one action, or nothing. -/
theorem exec_project [DecidableEq ι] {k : ι} {act : τ → τ × List ο}
    (hother : ∀ s i, i ≠ k → view (step s i).1 = view s ∧ (step s i).2.filter keep = [])
    (hkey : ∀ s, view (step s k).1 = (act (view s)).1 ∧
      (step s k).2.filter keep = (act (view s)).2)
    (s : σ) {is : List ι} (hnd : is.Nodup) :
    view (exec step s is).1 = (if k ∈ is then (act (view s)).1 else view s) ∧
      (exec step s is).2.filter keep = (if k ∈ is then (act (view s)).2 else []) := by
  induction is generalizing s with
  | nil => simp
  | cons i is ih =>
    obtain ⟨hmem, hnd'⟩ := List.nodup_cons.mp hnd
    obtain ⟨ihv, iho⟩ := ih (step s i).1 hnd'
    rw [exec_cons, List.filter_append, ihv, iho]
    by_cases hik : i = k
    · subst hik
      obtain ⟨hv, ho⟩ := hkey s
      simp [hmem, hv, ho]
    · obtain ⟨hv, ho⟩ := hother s i hik
      simp [hv, ho, Ne.symm hik]

/-- **A loop over distinct keys is pointwise** when each key reads and writes its own
component: every key is served once, from the component it had before the loop. The induction
is on the keys; those still to come are untouched. -/
theorem exec_pointwise [DecidableEq ι] {get : σ → ι → τ} {put : τ → τ} {out : ι → τ → List ο}
    (hput : ∀ s i j, get (step s i).1 j = if i = j then put (get s i) else get s j)
    (hout : ∀ s i, (step s i).2 = out i (get s i)) (s : σ) {is : List ι} (hnd : is.Nodup) :
    (∀ j, get (exec step s is).1 j = if j ∈ is then put (get s j) else get s j) ∧
      (exec step s is).2 = is.flatMap fun i => out i (get s i) := by
  induction is generalizing s with
  | nil => simp
  | cons i is ih =>
    obtain ⟨hmem, hnd'⟩ := List.nodup_cons.mp hnd
    obtain ⟨ihg, iho⟩ := ih (step s i).1 hnd'
    have hlater : ∀ j ∈ is, get (step s i).1 j = get s j := by
      intro j hj
      have hne : i ≠ j := fun h => hmem (h ▸ hj)
      rw [hput, if_neg hne]
    constructor
    · intro j
      rw [exec_cons, ihg]
      by_cases hij : i = j
      · subst hij
        simp [hmem, hput]
      · simp [hput, hij, Ne.symm hij]
    · rw [exec_cons, List.flatMap_cons, hout s i, iho]
      have hrest : (is.flatMap fun j => out j (get (step s i).1 j)) =
          is.flatMap fun j => out j (get s j) :=
        List.flatMap_congr fun j hj => by rw [hlater j hj]
      rw [hrest]

end Transducer
